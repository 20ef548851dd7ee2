import LiveCheck.Proofs.Check.Schedule

/-!
# Taking turns

How the schedule comes to have a busy task, and how it goes on without one. A task becomes busy when
its turn begins (`Schedule.hold`); what is on record of it may then be rewritten
(`Schedule.rewrite`), it joins the queue of its source or leaves it (`Schedule.join`,
`Schedule.leave`), and at last it waits or has ended, with its record and its session fitting each
other again (`Schedule.release`).
-/

namespace LiveCheck

/-- The task, with its turn come if it is the given one. -/
def Task.admitIf (task : Task) (turn : Prop) [Decidable turn] : Task :=
  if turn then { task with stage := .admitted } else task

@[simp] theorem Task.admitIf_session (task : Task) (turn : Prop) [Decidable turn] :
    (task.admitIf turn).session = task.session := by
  rw [admitIf]
  split <;> rfl

/-- A task can go on after a turn was offered to it if it is its turn, or if it could before. -/
@[simp] theorem Task.canGoOn_admitIf {task : Task} {s : Session} {turn : Prop} [Decidable turn] :
    (task.admitIf turn).CanGoOn s ↔ turn ∨ task.CanGoOn s := by
  rw [admitIf]
  split <;> simp [*, CanGoOn]

theorem Task.isEnded_admitIf {task : Task} (h : task.stage.isEnded = false) (turn : Prop)
    [Decidable turn] : (task.admitIf turn).stage.isEnded = false := by
  rw [admitIf]
  split
  · rfl
  · exact h

/-- A task that was queued fits its session when its turn has come. -/
theorem Fits.admitIf {around : Engine.Surroundings} {task : Task} {s : Session}
    (h : Fits around task s) {turn : Prop} [Decidable turn] (hturn : turn → task.stage = .queued) :
    Fits around (task.admitIf turn) s := by
  rw [Task.admitIf]
  split
  · have hstage := hturn ‹_›
    cases h with
    | queued _ hheld hphase hprocess => exact .queued (.inr rfl) hheld hphase hprocess
    | starting ht | waiting ht | ended ht => simp [hstage] at ht
  · exact h

/-- A task stands at the same place at both stages, and has ended at both or at none. -/
def Stage.Alike (a b : Stage) : Prop :=
  a.isEnded = b.isEnded ∧ ∀ queue t, a.Place queue t ↔ b.Place queue t

/-- A place is not lost when other tasks join the queue. -/
theorem Stage.Place.append {stage : Stage} {queue queue' : List TaskId} {t : TaskId}
    (h : stage.Place queue t) (ht : t ∉ queue') : stage.Place (queue ++ queue') t := by
  cases stage with
  | created | ended => exact fun hmem => (List.mem_append.1 hmem).elim h ht
  | queued =>
    cases queue with
    | nil => simp [Stage.Place] at h
    | cons head rest => exact List.mem_append_left _ h
  | admitted | starting | waiting =>
    cases queue with
    | nil => simp [Stage.Place] at h
    | cons head rest => exact h

/-- When the head of a queue leaves, the places of the others stay, but for the next one. -/
theorem Stage.Place.tail {stage : Stage} {head t : TaskId} {rest : List TaskId}
    (h : stage.Place (head :: rest) t) (hhead : head ≠ t) (hrest : rest.head? ≠ some t) :
    stage.Place rest t := by
  cases stage with
  | created | ended => exact fun hmem => h (List.mem_cons_of_mem _ hmem)
  | queued =>
    cases rest with
    | nil => simp [Stage.Place] at h
    | cons next rest =>
      refine (List.mem_cons.1 h).resolve_left ?_
      rintro rfl
      exact hrest rfl
  | admitted | starting | waiting => exact absurd (Option.some.inj h) hhead

/-- Behind the head of a queue, tasks wait for their turn. -/
theorem Stage.Place.queued_of_mem_tail {stage : Stage} {head t : TaskId} {rest : List TaskId}
    (h : stage.Place (head :: rest) t) (ht : t ∈ rest) (hhead : head ≠ t) : stage = .queued := by
  cases stage with
  | queued => rfl
  | created | ended => exact absurd (List.mem_cons_of_mem _ ht) h
  | admitted | starting | waiting => exact absurd (Option.some.inj h) hhead

theorem Stage.Alike.refl (a : Stage) : a.Alike a := ⟨rfl, fun _ _ => Iff.rfl⟩

theorem Stage.Alike.symm {a b : Stage} (h : a.Alike b) : b.Alike a :=
  ⟨h.1.symm, fun queue t => (h.2 queue t).symm⟩

/-- A task that can go on stands where its turn has come. -/
theorem Task.CanGoOn.alike {task : Task} {s : Session} (h : task.CanGoOn s) :
    task.stage.Alike .admitted := by
  rw [Task.CanGoOn] at h
  split at h <;> first | exact h.elim | exact ⟨by simp [*, Stage.isEnded], by simp [*, Stage.Place]⟩

namespace Engine

variable {busy : Option (TaskId × Stage)} {e e' : Engine}

/-! ## Becoming busy, and no longer being it -/

/-- Putting one task in the place of another rewrites the tasks, and leaves the others alone. -/
theorem exists_rewrite {t : TaskId} {task task' : Task} (ht : e.tasks.get? t = some task)
    (hsession : task'.session = task.session)
    (htasks : ∀ u, e'.tasks.get? u = if u = t then some task' else e.tasks.get? u) :
    ∃ f : TaskId → Task → Task,
      (∀ {u a}, e.tasks.get? u = some a → (f u a).session = a.session) ∧
      (∀ u, e'.tasks.get? u = (e.tasks.get? u).map (f u)) ∧ ∀ {u}, t ≠ u → ∀ a, f u a = a := by
  refine ⟨fun u a => if u = t then task' else a, fun {u a} ha => ?_, fun u => ?_,
    fun htu _ => if_neg htu.symm⟩
  · by_cases hut : u = t
    · subst hut
      obtain rfl := Option.some.inj (ht.symm.trans ha)
      simpa using hsession
    · simp [hut]
  · rw [htasks]
    by_cases hut : u = t <;> simp [hut, ht]

/-- What is on record of a busy task makes no difference. -/
theorem Schedule.rewrite {t : TaskId} {stage : Stage} (h : Schedule (some (t, stage)) e)
    {task task' : Task} (ht : e.tasks.get? t = some task) (hsession : task'.session = task.session)
    (hkeys : e'.tasks.keys = e.tasks.keys)
    (htasks : ∀ u, e'.tasks.get? u = if u = t then some task' else e.tasks.get? u)
    (haround : e'.surroundings = e.surroundings) (hsessions : e'.sessions = e.sessions)
    (hqueues : e'.queues = e.queues) (hactive : e'.active = e.active)
    (hready : e'.ready = e.ready) : Schedule (some (t, stage)) e' := by
  have hqueue : e'.queueOf = e.queueOf := by
    funext source
    rw [queueOf, queueOf, hqueues]
  obtain ⟨f, hf, hmap, hkept⟩ := exists_rewrite ht hsession htasks
  have hcarries : ∀ {u b r}, e'.Carries u b r ↔ ∃ a, e.Carries u a r ∧ b = f u a :=
    carries_rewrite hf hmap hsessions
  -- A task that is not busy is as it was, and the busy one counts as what it counted as.
  have hcounted : ∀ u a, (f u a).counted (some (t, stage)) u = a.counted (some (t, stage)) u := by
    intro u a
    by_cases htu : t = u
    · subst htu
      rw [Task.counted_self, Task.counted_self]
    · rw [hkept htu]
  constructor
  · exact h.toRoster.rewrite hf hmap hsessions hkeys
  · intro u b s hfree hb
    obtain ⟨a, ha, rfl⟩ := hcarries.1 hb
    rw [hkept ((free_some _ _ _).1 hfree), haround]
    exact h.fits hfree ha
  · exact hready ▸ h.ready_nodup
  · intro u
    rw [hready, h.mem_ready]
    refine and_congr_right fun hfree => ?_
    have hself := hkept ((free_some _ _ _).1 hfree)
    constructor
    · rintro ⟨a, s, ha, hgo⟩
      exact ⟨f u a, s, hcarries.2 ⟨a, ha, rfl⟩, (hself a).symm ▸ hgo⟩
    · rintro ⟨b, s, hb, hgo⟩
      obtain ⟨a, ha, rfl⟩ := hcarries.1 hb
      exact ⟨a, s, ha, hself a ▸ hgo⟩
  · exact hqueue ▸ h.queue_nodup
  · intro source u hu
    obtain ⟨a, s, ha, hs⟩ := h.queue_owned (hqueue ▸ hu)
    exact ⟨f u a, s, hcarries.2 ⟨a, ha, rfl⟩, hs⟩
  · intro u b s hb
    obtain ⟨a, ha, rfl⟩ := hcarries.1 hb
    rw [hqueue, hcounted]
    exact h.placed ha
  · intro source id hid
    obtain ⟨u, a, s, ha, hsession', hs, hended⟩ := h.active (hactive ▸ hid)
    exact ⟨u, f u a, s, hcarries.2 ⟨a, ha, rfl⟩, (hf ha.1).trans hsession', hs, by rwa [hcounted]⟩

/-- A task that becomes busy, at a stage like its own, counts as being where it is, and so do all
    others. -/
theorem Carries.counted_alike {t u : TaskId} {task a : Task} {s : Session}
    (ht : e.Carries t task s) {stage : Stage} (halike : task.stage.Alike stage)
    (hu : e.tasks.get? u = some a) : a.stage.Alike (a.counted (some (t, stage)) u) := by
  by_cases htu : t = u
  · obtain rfl := Option.some.inj (ht.1.symm.trans (htu ▸ hu))
    rwa [htu, Task.counted_self]
  · rw [Task.counted_of_ne htu]
    exact .refl _

/-- A task becomes busy. -/
theorem Schedule.hold (h : Schedule none e) {t : TaskId} {task : Task} {s : Session}
    (ht : e.Carries t task s) {stage : Stage} (halike : task.stage.Alike stage)
    {ready : List TaskId} (hnodup : ready.Nodup) (hready : ∀ {u}, u ∈ ready ↔ t ≠ u ∧ u ∈ e.ready) :
    Schedule (some (t, stage)) { e with ready } := by
  refine { h with fits := ?_, ready_nodup := hnodup, mem_ready := ?_, placed := ?_, active := ?_ }
  · exact fun _ hu => h.fits (free_none _) hu
  · intro u
    rw [free_some, hready, h.mem_ready]
    simp only [free_none, true_and]
    rfl
  · exact fun hu => ((ht.counted_alike halike hu.1).2 _ _).1 (h.placed hu)
  · intro source id hid
    obtain ⟨u, a, r, hu, hsession, hsource, hended⟩ := h.active hid
    exact ⟨u, a, r, hu, hsession, hsource, (ht.counted_alike halike hu.1).1 ▸ hended⟩

/-- A task that can go on begins its turn. -/
theorem Schedule.take (h : Schedule none e) {t : TaskId} {earlier later : List TaskId}
    (hready : e.ready = earlier ++ t :: later) : ∃ task s, e.Carries t task s ∧ task.CanGoOn s ∧
      Fits e.surroundings task s ∧
        Schedule (some (t, .admitted)) { e with ready := earlier ++ later } := by
  have hmem : t ∈ e.ready := by simp [hready]
  obtain ⟨-, task, s, ht, hgo⟩ := h.mem_ready.1 hmem
  -- The tasks that can go on are listed once each, so this one is not left among them.
  have hnodup : (t :: (earlier ++ later)).Nodup :=
    List.nodup_middle.1 (hready ▸ h.ready_nodup)
  obtain ⟨hnot, hnodup⟩ := List.nodup_cons.1 hnodup
  refine ⟨task, s, ht, hgo, h.fits (free_none t) ht, h.hold ht hgo.alike hnodup fun {u} => ?_⟩
  rw [hready, List.mem_append, List.mem_append, List.mem_cons]
  constructor
  · rintro hu
    refine ⟨?_, hu.imp id .inr⟩
    rintro rfl
    exact hnot (List.mem_append.2 hu)
  · rintro ⟨htu, hu | rfl | hu⟩
    · exact .inl hu
    · exact absurd rfl htu
    · exact .inr hu

/-- A task is not busy any more, and can go on if nothing holds it up. -/
theorem Schedule.release {t : TaskId} {stage : Stage} (h : Schedule (some (t, stage)) e)
    {task : Task} {s : Session} (ht : e.Carries t task s) (halike : stage.Alike task.stage)
    (hfits : Fits e.surroundings task s) {ready : List TaskId} (hnodup : ready.Nodup)
    (hready : ∀ {u}, u ∈ ready ↔ u ∈ e.ready ∨ (u = t ∧ task.CanGoOn s)) :
    Schedule none { e with ready } := by
  refine { h with fits := ?_, ready_nodup := hnodup, mem_ready := ?_, placed := ?_, active := ?_ }
  · intro u a r _ hu
    by_cases htu : t = u
    · subst htu
      obtain ⟨rfl, rfl⟩ := hu.unique ht
      exact hfits
    · exact h.fits ((free_some _ _ _).2 htu) hu
  · intro u
    simp only [free_none, true_and, hready, h.mem_ready, free_some]
    constructor
    · -- The others can go on if they could before, and this one if nothing holds it up.
      rintro (⟨-, hu⟩ | ⟨rfl, hgo⟩)
      · exact hu
      · exact ⟨task, s, ht, hgo⟩
    · rintro ⟨a, r, hu, hgo⟩
      by_cases htu : t = u
      · subst htu
        obtain ⟨rfl, rfl⟩ := hu.unique ht
        exact .inr ⟨rfl, hgo⟩
      · exact .inl ⟨htu, a, r, hu, hgo⟩
  · exact fun hu => ((ht.counted_alike halike.symm hu.1).2 _ _).2 (h.placed hu)
  · intro source id hid
    obtain ⟨u, a, r, hu, hsession, hsource, hended⟩ := h.active hid
    exact ⟨u, a, r, hu, hsession, hsource, (ht.counted_alike halike.symm hu.1).1 ▸ hended⟩

/-- A task is not busy any more, and something holds it up. -/
theorem Schedule.release_held {t : TaskId} {stage : Stage} (h : Schedule (some (t, stage)) e)
    {task : Task} {s : Session} (ht : e.Carries t task s) (halike : stage.Alike task.stage)
    (hfits : Fits e.surroundings task s) (hgo : ¬task.CanGoOn s) : Schedule none e :=
  h.release ht halike hfits h.ready_nodup fun {_} => (or_iff_left fun hu => hgo hu.2).symm

/-! ## Joining and leaving the queue -/

theorem queueOf_put (e : Engine) (source source' : Path) (queue : List TaskId) :
    queueOf { e with queues := e.queues.put source queue } source' =
      if source' = source then queue else e.queueOf source' := by
  simp only [queueOf, Table.get?_put]
  split <;> rfl

/-- The task that joins a queue stands at its end, and the others where they stood. -/
theorem Schedule.placed_join {t u : TaskId} (h : Schedule (some (t, .created)) e)
    {task a : Task} {s r : Session} (ht : e.Carries t task s) (hu : e.Carries u a r) :
    (a.counted (some (t, if (e.queueOf s.source).isEmpty then .admitted else .queued)) u).Place
      (queueOf { e with queues := e.queues.put s.source (e.queueOf s.source ++ [t]) } r.source)
      u := by
  have hplaced := h.placed hu
  rw [queueOf_put]
  by_cases htu : t = u
  · subst htu
    obtain ⟨rfl, rfl⟩ := hu.unique ht
    rw [Task.counted_self, if_pos rfl]
    cases hqueue : e.queueOf r.source with
    | nil => simp [Stage.Place]
    | cons head rest => simp [Stage.Place]
  · rw [Task.counted_of_ne htu] at hplaced ⊢
    split
    · rename_i hsource
      rw [hsource] at hplaced
      exact hplaced.append fun hut => htu (List.mem_singleton.1 hut).symm
    · exact hplaced

/-- The busy task joins the queue of its source. If it is alone there, its turn has come. -/
theorem Schedule.join {t : TaskId} (h : Schedule (some (t, .created)) e) {task : Task} {s : Session}
    (ht : e.Carries t task s) :
    Schedule (some (t, if (e.queueOf s.source).isEmpty then .admitted else .queued))
      { e with queues := e.queues.put s.source (e.queueOf s.source ++ [t]) } := by
  -- A task that was only just made stands in no queue.
  have hout : t ∉ e.queueOf s.source := by simpa [Stage.Place] using h.placed ht
  refine { h with
    fits := ?_, mem_ready := ?_, queue_nodup := ?_, queue_owned := ?_, placed := ?_, active := ?_ }
  · exact fun hfree hu => h.fits (by simpa using hfree) hu
  · intro u
    rw [h.mem_ready, free_some, free_some]
    rfl
  · intro source
    rw [queueOf_put]
    split
    · refine List.nodup_append.2 ⟨h.queue_nodup _, List.nodup_singleton t, ?_⟩
      rintro a ha b hb rfl
      exact hout (List.mem_singleton.1 hb ▸ ha)
    · exact h.queue_nodup source
  · intro source u hu
    rw [queueOf_put] at hu
    split at hu
    · rename_i hsource
      rcases List.mem_append.1 hu with hu | hu
      · obtain ⟨a, r, hu, hr⟩ := h.queue_owned hu
        exact ⟨a, r, hu, hr.trans hsource.symm⟩
      · exact ⟨task, s, List.mem_singleton.1 hu ▸ ht, hsource.symm⟩
    · exact h.queue_owned hu
  · exact fun hu => h.placed_join ht hu
  · intro source id hid
    obtain ⟨u, a, r, hu, hsession, hsource, hended⟩ := h.active hid
    refine ⟨u, a, r, hu, hsession, hsource, ?_⟩
    by_cases htu : t = u
    · subst htu
      rw [Task.counted_self]
      split <;> rfl
    · rwa [Task.counted_of_ne htu] at hended ⊢

/-- The tasks behind the busy task wait for their turn. -/
theorem Schedule.queued_behind {t : TaskId} {stage : Stage} (h : Schedule (some (t, stage)) e)
    {source : Path} {rest : List TaskId} (hqueue : e.queueOf source = t :: rest) {u : TaskId}
    (hu : u ∈ rest) {a : Task} {r : Session} (ha : e.Carries u a r) :
    r.source = source ∧ t ≠ u ∧ a.stage = .queued := by
  have hnodup := h.queue_nodup source
  rw [hqueue, List.nodup_cons] at hnodup
  have htu : t ≠ u := fun htu => hnodup.1 (htu ▸ hu)
  have hmem : u ∈ e.queueOf source := hqueue ▸ List.mem_cons_of_mem t hu
  obtain ⟨b, r', hb, hsource⟩ := h.queue_owned hmem
  obtain ⟨rfl, rfl⟩ := ha.unique hb
  have hplaced := h.placed ha
  rw [Task.counted_of_ne htu, hsource, hqueue] at hplaced
  exact ⟨hsource, htu, hplaced.queued_of_mem_tail hu htu⟩

/-- A task at the head of the queue of a source has left it, and the turn of the next task, if there
    is one, has come. -/
structure HeadLeft (t : TaskId) (source : Path) (rest : List TaskId) (e e' : Engine) : Prop where
  queue : e.queueOf source = t :: rest
  queues : e'.queues = e.queues.put source rest
  tasks : ∀ u, e'.tasks.get? u = (e.tasks.get? u).map (·.admitIf (rest.head? = some u))
  keys : e'.tasks.keys = e.tasks.keys
  ready : e'.ready = e.ready ++ rest.head?.toList
  around : e'.surroundings = e.surroundings
  sessions : e'.sessions = e.sessions
  active : e'.active = e.active

section

variable {t u : TaskId} {source : Path} {rest : List TaskId} {a : Task} {r : Session}

/-- After the head has left, the queue of its source is the rest, and the other queues stay. -/
theorem HeadLeft.queueOf (h : HeadLeft t source rest e e') (other : Path) :
    e'.queueOf other = if other = source then rest else e.queueOf other := by
  rw [← queueOf_put, Engine.queueOf, Engine.queueOf, h.queues]

/-- After the head has left, tasks carry the sessions that they did, and the next one of the queue
    has its turn. -/
theorem HeadLeft.carries (h : HeadLeft t source rest e e') {b : Task} : e'.Carries u b r ↔
    ∃ a, e.Carries u a r ∧ b = a.admitIf (rest.head? = some u) :=
  carries_rewrite (fun _ => Task.admitIf_session _ _) h.tasks h.sessions

/-- Only the next task gets another stage, and it has been waiting for its turn. -/
theorem HeadLeft.next (h : HeadLeft t source rest e e') (hs : Schedule (some (t, .admitted)) e)
    (hu : rest.head? = some u) (ha : e.Carries u a r) :
    r.source = source ∧ t ≠ u ∧ a.stage = .queued :=
  hs.queued_behind h.queue (List.mem_of_head? hu) ha

/-- No task can go on twice: the one whose turn comes was waiting. -/
theorem HeadLeft.ready_nodup (h : HeadLeft t source rest e e')
    (hs : Schedule (some (t, .admitted)) e) : e'.ready.Nodup := by
  rw [h.ready]
  refine List.nodup_append.2 ⟨hs.ready_nodup, by cases rest.head? <;> simp, ?_⟩
  rintro u hu v hv rfl
  obtain ⟨-, a, r, ha, hgo⟩ := hs.mem_ready.1 hu
  -- The next task was waiting for its turn, so it could not go on before.
  have hqueued := (h.next hs (Option.mem_toList.1 hv) ha).2.2
  simp [Task.CanGoOn, hqueued] at hgo

/-- Beside those that could go on before, the next task can. -/
theorem HeadLeft.mem_ready (h : HeadLeft t source rest e e')
    (hs : Schedule (some (t, .admitted)) e) : u ∈ e'.ready ↔
      Free (some (t, .created)) u ∧ ∃ b r, e'.Carries u b r ∧ b.CanGoOn r := by
  rw [h.ready, List.mem_append, Option.mem_toList, hs.mem_ready, free_some, free_some]
  constructor
  · rintro (⟨htu, a, r, ha, hgo⟩ | hhead)
    · exact ⟨htu, _, r, h.carries.2 ⟨a, ha, rfl⟩, Task.canGoOn_admitIf.2 (.inr hgo)⟩
    · have hmem : u ∈ e.queueOf source :=
        h.queue ▸ List.mem_cons_of_mem t (List.mem_of_head? hhead)
      obtain ⟨a, r, ha, -⟩ := hs.queue_owned hmem
      exact ⟨(h.next hs hhead ha).2.1, _, r, h.carries.2 ⟨a, ha, rfl⟩,
        Task.canGoOn_admitIf.2 (.inl hhead)⟩
  · rintro ⟨htu, b, r, hb, hgo⟩
    obtain ⟨a, ha, rfl⟩ := h.carries.1 hb
    exact (Task.canGoOn_admitIf.1 hgo).symm.imp (fun hgo => ⟨htu, a, r, ha, hgo⟩) id

/-- The tasks in the queue of a source are there for sessions of it. -/
theorem HeadLeft.queue_owned (h : HeadLeft t source rest e e')
    (hs : Schedule (some (t, .admitted)) e) {other : Path} (hu : u ∈ e'.queueOf other) :
    ∃ b r, e'.Carries u b r ∧ r.source = other := by
  obtain ⟨a, r, ha, hr⟩ : ∃ a r, e.Carries u a r ∧ r.source = other := by
    rw [h.queueOf] at hu
    split at hu
    · rename_i hsource
      exact hsource ▸ hs.queue_owned (h.queue ▸ List.mem_cons_of_mem t hu)
    · exact hs.queue_owned hu
  exact ⟨_, r, h.carries.2 ⟨a, ha, rfl⟩, hr⟩

/-- The task that has left stands nowhere, the next one at the head, and all others where they
    stood. -/
theorem HeadLeft.placed (h : HeadLeft t source rest e e') (hs : Schedule (some (t, .admitted)) e)
    {task : Task} {s : Session} (ht : e.Carries t task s) (hsource : s.source = source)
    (ha : e.Carries u a r) :
    ((a.admitIf (rest.head? = some u)).counted (some (t, .created)) u).Place
      (e'.queueOf r.source) u := by
  have hnodup := hs.queue_nodup source
  rw [h.queue, List.nodup_cons] at hnodup
  have hplaced := hs.placed ha
  rw [h.queueOf]
  -- The one that leaves is in the queue no more, the next one is at its head, and all others are
  -- where they were, or one place further on.
  by_cases htu : t = u
  · subst htu
    obtain ⟨rfl, rfl⟩ := ha.unique ht
    rw [Task.counted_self, if_pos hsource]
    exact hnodup.1
  · rw [Task.counted_of_ne htu] at hplaced ⊢
    by_cases hhead : rest.head? = some u
    · rw [Task.admitIf, if_pos hhead, if_pos (h.next hs hhead ha).1]
      exact hhead
    · rw [Task.admitIf, if_neg hhead]
      split
      · rename_i hother
        rw [hother, h.queue] at hplaced
        exact hplaced.tail htu hhead
      · exact hplaced

/-- The active session of a source has a task that has not ended. -/
theorem HeadLeft.active_owned (h : HeadLeft t source rest e e')
    (hs : Schedule (some (t, .admitted)) e) {other : Path} {id : Int}
    (hid : e'.active.get? other = some id) : ∃ u b r, e'.Carries u b r ∧ b.session = id ∧
      r.source = other ∧ (b.counted (some (t, .created)) u).isEnded = false := by
  obtain ⟨u, a, r, ha, hsession, hsource, hended⟩ := hs.active (h.active ▸ hid)
  refine ⟨u, _, r, h.carries.2 ⟨a, ha, rfl⟩, by rw [Task.admitIf_session, hsession], hsource, ?_⟩
  by_cases htu : t = u
  · subst htu
    rw [Task.counted_self]
    rfl
  · rw [Task.counted_of_ne htu] at hended ⊢
    exact Task.isEnded_admitIf hended _

end

/-- The busy task, which has its source to itself, leaves the queue. -/
theorem Schedule.leave_head {t : TaskId} (h : Schedule (some (t, .admitted)) e) {task : Task}
    {s : Session} (ht : e.Carries t task s) {rest : List TaskId}
    (hleft : HeadLeft t s.source rest e e') : Schedule (some (t, .created)) e' where
  toRoster := h.toRoster.rewrite (fun _ => Task.admitIf_session _ _) hleft.tasks hleft.sessions
    hleft.keys
  -- Whose turn comes was waiting for it, and fits its session as well.
  fits := by
    intro u b r hfree hu
    obtain ⟨a, ha, rfl⟩ := hleft.carries.1 hu
    rw [hleft.around]
    exact (h.fits (by simpa using hfree) ha).admitIf fun hhead => (hleft.next h hhead ha).2.2
  ready_nodup := hleft.ready_nodup h
  mem_ready := hleft.mem_ready h
  queue_nodup := by
    intro source
    rw [hleft.queueOf]
    split
    · have hnodup := h.queue_nodup s.source
      rw [hleft.queue, List.nodup_cons] at hnodup
      exact hnodup.2
    · exact h.queue_nodup source
  queue_owned := hleft.queue_owned h
  placed := by
    intro u b r hb
    obtain ⟨a, ha, rfl⟩ := hleft.carries.1 hb
    exact hleft.placed h ht rfl ha
  active := hleft.active_owned h

/-- A task that has its source to itself is at the head of the queue. -/
theorem Schedule.queueOf_eq {t : TaskId} (h : Schedule (some (t, .admitted)) e) {task : Task}
    {s : Session} (ht : e.Carries t task s) : ∃ rest, e.queueOf s.source = t :: rest :=
  List.head?_eq_some_iff.1 (by simpa [Stage.Place] using h.placed ht)

/-- The schedule is kept when a task gives up its source, and the next one's turn comes. -/
theorem Schedule.leave {t : TaskId} (h : Schedule (some (t, .admitted)) e) {task : Task}
    {s : Session} (ht : e.Carries t task s) :
    Schedule (some (t, .created)) (e.leaveQueue t s.source) := by
  obtain ⟨rest, hqueue⟩ := h.queueOf_eq ht
  rw [leaveQueue]
  simp only [hqueue, List.erase_cons_head, List.head?_cons, if_true]
  cases rest with
  | nil =>
    refine h.leave_head ht ⟨hqueue, rfl, fun u => ?_, rfl, by simp, rfl, rfl, rfl⟩
    simp [Task.admitIf]
  | cons next rest =>
    refine h.leave_head ht
      ⟨hqueue, rfl, fun u => ?_, Table.keys_modify _ _ _, rfl, rfl, rfl, rfl⟩
    simp only [enqueue, Table.get?_modify, List.head?_cons, Option.some.injEq]
    by_cases hu : u = next
    · subst hu
      simp [Task.admitIf]
    · have hne : next ≠ u := fun h => hu h.symm
      simp [Task.admitIf, hu, hne]

/-- A task that leaves its queue keeps its record and its session. -/
theorem Schedule.leave_carries {t : TaskId} (h : Schedule (some (t, .admitted)) e) {task : Task}
    {s : Session} (ht : e.Carries t task s) : (e.leaveQueue t s.source).Carries t task s := by
  obtain ⟨rest, hqueue⟩ := h.queueOf_eq ht
  rw [leaveQueue]
  simp only [hqueue, List.erase_cons_head, List.head?_cons, if_true]
  cases rest with
  | nil => exact ht
  | cons next rest =>
    have hnodup := h.queue_nodup s.source
    rw [hqueue] at hnodup
    have hne : t ≠ next := fun htn => (List.nodup_cons.1 hnodup).1 (htn ▸ List.mem_cons_self)
    exact ⟨(Table.get?_modify_of_ne hne _).trans ht.1, ht.2⟩

/-- Leaving a queue touches the queues and the tasks. -/
theorem leaveQueue_eq (e : Engine) (t : TaskId) (source : Path) :
    ∃ queues tasks ready, e.leaveQueue t source = { e with queues, tasks, ready } := by
  rw [leaveQueue]
  dsimp only
  split
  · split <;> exact ⟨_, _, _, rfl⟩
  · exact ⟨_, _, _, rfl⟩

/-! ## The active sessions -/

/-- The busy task makes its session the active one of its source. -/
theorem Schedule.activate {t : TaskId} {stage : Stage} (h : Schedule (some (t, stage)) e)
    (hstage : stage.isEnded = false) {task : Task} {s : Session} (ht : e.Carries t task s)
    (hid : s.id = task.session) :
    Schedule (some (t, stage)) { e with active := e.active.put s.source s.id } := by
  refine { h with active := ?_ }
  intro source id hactive
  rw [Table.get?_put] at hactive
  split at hactive
  · rename_i hsource
    obtain rfl := Option.some.inj hactive
    exact ⟨t, task, s, ht, hid.symm, hsource.symm, by rwa [Task.counted_self]⟩
  · exact h.active hactive

/-- What is left active when a session retires. -/
theorem retire_active {s : Session} {source : Path} {id : Int}
    (h : (e.retire s).active.get? source = some id) :
    e.active.get? source = some id ∧ (source = s.source → id ≠ s.id) := by
  rw [Engine.retire] at h
  split at h
  · rw [Table.get?_erase] at h
    split at h
    · simp at h
    · exact ⟨h, fun hsource => absurd hsource ‹_›⟩
  · refine ⟨h, ?_⟩
    rintro rfl rfl
    exact absurd h ‹_›

theorem retire_eq (e : Engine) (s : Session) :
    e.retire s = { e with active := (e.retire s).active } := by
  rw [Engine.retire]
  split <;> rfl

/-- When the session of the busy task is not active any more, the task may count as ended. -/
theorem Schedule.retire {t : TaskId} (h : Schedule (some (t, .created)) e) {task : Task}
    {s : Session} (ht : e.Carries t task s) (hid : s.id = task.session) (outcome : Outcome) :
    Schedule (some (t, .ended outcome)) (e.retire s) := by
  have hactive : ∀ {source id}, (e.retire s).active.get? source = some id →
      e.active.get? source = some id ∧ (source = s.source → id ≠ s.id) := retire_active
  rw [retire_eq]
  refine { h with fits := ?_, mem_ready := ?_, placed := ?_, active := ?_ }
  · exact fun hfree hu => h.fits (by simpa using hfree) hu
  · intro u
    rw [h.mem_ready, free_some, free_some]
    rfl
  · intro u a r hu
    have hplaced := h.placed hu
    by_cases htu : t = u
    · subst htu
      rw [Task.counted_self] at hplaced ⊢
      exact hplaced
    · rwa [Task.counted_of_ne htu] at hplaced ⊢
  · intro source id hget
    obtain ⟨hget, hne⟩ := hactive hget
    obtain ⟨u, a, r, hu, hsession, hsource, hended⟩ := h.active hget
    refine ⟨u, a, r, hu, hsession, hsource, ?_⟩
    by_cases htu : t = u
    · subst htu
      obtain ⟨rfl, rfl⟩ := hu.unique ht
      -- The session of the busy task would be active, which it is not any more.
      exact absurd (hsession.symm.trans hid.symm) (hne hsource.symm)
    · rwa [Task.counted_of_ne htu] at hended ⊢

/-! ## The end of a turn -/

/-- The engine with a task on record as ended. -/
def ended (e : Engine) (t : TaskId) (outcome : Outcome) : Engine :=
  { e with
    tasks := e.tasks.modify t fun task => { task with stage := .ended outcome }
    finished := e.finished ++ [t] }

/-- A task that is not aborted is settled in three moves. -/
theorem settle_ends_eq (e : Engine) (t : TaskId) (s : Session) {outcome : Outcome}
    (haborted : outcome ≠ .aborted) :
    e.settle t s (.ends outcome) = ((e.ended t outcome).leaveQueue t s.source).retire s := by
  simp only [settle, haborted, if_false]
  rfl

/-- Settling a task touches what keeps the tasks apart, unless it is aborted. -/
theorem settle_eq (e : Engine) (t : TaskId) (s : Session) {progress : Progress}
    (h : progress ≠ .ends .aborted) : ∃ active queues tasks ready finished,
      e.settle t s progress = { e with active, queues, tasks, ready, finished } := by
  cases progress with
  | waits stage => exact ⟨_, _, _, _, _, rfl⟩
  | ends outcome =>
    rw [settle_ends_eq e t s fun ho => h (ho ▸ rfl), retire_eq]
    generalize Engine.active (Engine.retire _ s) = active
    obtain ⟨queues, tasks, ready, heq⟩ := (e.ended t outcome).leaveQueue_eq t s.source
    exact ⟨active, queues, tasks, ready, e.finished ++ [t], by rw [heq]; rfl⟩

/-- The busy task, whose turn had come, waits for its compiler. -/
theorem Schedule.settle_waits {t : TaskId} {stage : Stage} (h : Schedule (some (t, stage)) e)
    {task : Task} {s : Session} (ht : e.Carries t task s) {next : Stage}
    (halike : stage.Alike next) (hfits : Fits e.surroundings (task.wait next) s)
    (hgo : ¬(task.wait next).CanGoOn s) : Schedule none (e.settle t s (.waits next)) := by
  have hrewrite : Schedule (some (t, stage)) (e.settle t s (.waits next)) := by
    refine h.rewrite ht.1 (show (task.wait next).session = task.session from rfl)
      (Table.keys_modify _ _ _) (fun u => ?_) rfl rfl rfl rfl rfl
    rw [settle, Table.get?_modify, ht.1, Option.map_some]
  have ht' : (e.settle t s (.waits next)).Carries t (task.wait next) s := by
    refine ⟨?_, ht.2⟩
    rw [settle, Table.get?_modify_self, ht.1, Option.map_some]
  exact hrewrite.release_held ht' halike hfits hgo

/-- The schedule is kept when a task that takes its turn ends. -/
theorem Schedule.ended {t : TaskId} {stage : Stage} (h : Schedule (some (t, stage)) e) {task : Task}
    {s : Session} (ht : e.Carries t task s) (outcome : Outcome) :
    Schedule (some (t, stage)) (e.ended t outcome) ∧
      (e.ended t outcome).Carries t { task with stage := .ended outcome } s := by
  have hget : ∀ u, (e.ended t outcome).tasks.get? u =
      if u = t then some { task with stage := .ended outcome } else e.tasks.get? u := by
    intro u
    rw [Engine.ended, Table.get?_modify, ht.1, Option.map_some]
  have hrewrite : Schedule (some (t, stage)) (e.ended t outcome) :=
    h.rewrite ht.1 (show ({ task with stage := .ended outcome } : Task).session = _ from rfl)
      (Table.keys_modify _ _ _) hget rfl rfl rfl rfl rfl
  exact ⟨hrewrite, (hget t).trans (if_pos rfl), ht.2⟩

/-- The busy task, whose turn had come, is on record as ended. -/
theorem Schedule.settle_ends_carries {t : TaskId} (h : Schedule (some (t, .admitted)) e)
    {task : Task} {s : Session} (ht : e.Carries t task s) {outcome : Outcome}
    (haborted : outcome ≠ .aborted) :
    (e.settle t s (.ends outcome)).Carries t { task with stage := .ended outcome } s := by
  obtain ⟨hended, ht₁⟩ := h.ended ht outcome
  rw [settle_ends_eq e t s haborted, retire_eq]
  exact hended.leave_carries ht₁

/-- The busy task, whose turn had come, ends. -/
theorem Schedule.settle_ends {t : TaskId} (h : Schedule (some (t, .admitted)) e)
    {task : Task} {s : Session} (ht : e.Carries t task s) (hid : s.id = task.session)
    (hheld : task.startHeld ≠ some true) {outcome : Outcome} (haborted : outcome ≠ .aborted)
    (hleft : Left e.surroundings task.behaviour (.ends outcome) s) :
    Schedule none (e.settle t s (.ends outcome)) := by
  obtain ⟨hended, ht₁⟩ := h.ended ht outcome
  have ht₂ := hended.leave_carries ht₁
  have hretire := (hended.leave ht₁).retire ht₂ hid outcome
  have ht₃ := h.settle_ends_carries ht haborted
  have haround : (e.settle t s (.ends outcome)).surroundings = e.surroundings := by
    obtain ⟨active, queues, tasks, ready, finished, heq⟩ : ∃ active queues tasks ready finished,
        e.settle t s (.ends outcome) = { e with active, queues, tasks, ready, finished } :=
      e.settle_eq t s fun ho => haborted (Progress.ends.inj ho)
    rw [heq]
    rfl
  rw [settle_ends_eq e t s haborted] at ht₃ haround ⊢
  exact hretire.release_held ht₃ (.refl _) (haround ▸ .ended rfl hheld hleft) id

end Engine

end LiveCheck
