import LiveCheck.Proofs.Check.Footprint
import LiveCheck.Proofs.Check.Handover

/-!
# The engine stays in order

In every reachable state the register of sessions and the schedule of tasks are in order
(`Reachable.inOrder`): each kind of step preserves both (`InOrder.step`). A turn is a chain of acts
between becoming busy and waiting or ending, and what is left of it fits the way in which the task
is settled (`InOrder.settle`).
-/

namespace LiveCheck

/-- Only a task that asked for the compiler is held. -/
theorem Fits.starting_of_held {around : Engine.Surroundings} {task : Task} {s : Session}
    (h : Fits around task s) (hheld : task.startHeld = some true) :
    task.stage = .starting ∧ s.phase = .spawning ∧ s.process = none := by
  cases h with
  | starting hstage _ hphase hprocess => exact ⟨hstage, hphase, hprocess⟩
  | queued _ hn => simp [hn] at hheld
  | waiting _ hn | ended _ hn => exact absurd hheld hn

/-- A task that can go on is not held. -/
theorem Fits.startHeld_of_canGoOn {around : Engine.Surroundings} {task : Task} {s : Session}
    (h : Fits around task s) (hgo : task.CanGoOn s) : task.startHeld ≠ some true := by
  cases h with
  | queued _ hheld => simp [hheld]
  | starting hstage => simp_all [Task.CanGoOn]
  | waiting _ hheld | ended _ hheld => exact hheld

/-- What fits a task that waits for its compiler. -/
theorem Fits.waiting_congr {around : Engine.Surroundings} {task : Task} {s s' : Session}
    (h : Fits around task s) (hstage : task.stage = .waiting) (hphase : s'.phase = s.phase)
    {p : CompilerProcess} (hprocess : s'.process = some p) : Fits around task s' := by
  cases h with
  | waiting _ hheld hs _ => exact .waiting hstage hheld (hphase.trans hs) hprocess
  | queued hs => simp [hstage] at hs
  | starting hs | ended hs => simp [hstage] at hs

namespace Engine

variable {busy : Option (TaskId × Stage)} {e e' : Engine}

/-- The register and the schedule are in order. -/
structure InOrder (busy : Option (TaskId × Stage)) (e : Engine) : Prop where
  registry : Registry e
  schedule : Schedule busy e

/-- A new engine is in order. -/
theorem InOrder.create {disk : Disk} {searchPath : List Text} {settings : Settings}
    (h : Engine.create disk searchPath settings = .ok e) : InOrder none e := by
  refine ⟨.create h, ?_⟩
  obtain ⟨compiler, log, rfl⟩ := create_eq h
  constructor
  · constructor <;> intros <;> simp_all
  all_goals intros; simp_all [Carries, queueOf]

/-! ## Cancelling -/

/-- Waking the task of a session touches nothing but which tasks can go on. -/
theorem wake_eq (e : Engine) (id : Int) : ∃ ready, e.wake id = { e with ready } := by
  rw [wake]
  split <;> exact ⟨_, rfl⟩

/-- A session that is cancelled is put on record in its new form, and tasks may go on. -/
theorem cancelSession_put {id : Int} {s : Session} (hs : e.sessions.get? id = some s) :
    ∃ ready, e.cancelSession id = { e.putSession s.cancel with ready } := by
  rw [Engine.cancelSession, hs]
  dsimp only
  split
  · exact wake_eq _ _
  · exact ⟨_, rfl⟩

/-- Cancelling touches the sessions, and which tasks can go on. -/
theorem cancelSession_eq (e : Engine) (id : Int) :
    ∃ sessions ready, e.cancelSession id = { e with sessions, ready } := by
  cases hs : e.sessions.get? id with
  | none => exact ⟨e.sessions, e.ready, by simp [cancelSession, hs]⟩
  | some s =>
    obtain ⟨ready, heq⟩ := cancelSession_put hs
    exact ⟨_, ready, heq⟩

/-- So does cancelling the active session of a source. -/
theorem cancelActive_eq (e : Engine) (source : Path) :
    ∃ sessions ready, e.cancelActive source = { e with sessions, ready } := by
  rw [cancelActive]
  split
  · exact ⟨e.sessions, e.ready, rfl⟩
  · exact e.cancelSession_eq _

/-- So does cancelling all active sessions. -/
theorem cancelAll_eq (e : Engine) :
    ∃ sessions ready, e.cancelAll = { e with sessions, ready } := by
  rw [cancelAll]
  generalize e.active.values = ids
  induction ids generalizing e with
  | nil => exact ⟨e.sessions, e.ready, rfl⟩
  | cons id ids ih =>
    obtain ⟨sessions, ready, hone⟩ := e.cancelSession_eq id
    obtain ⟨sessions', ready', hrest⟩ := ih (e.cancelSession id)
    refine ⟨sessions', ready', ?_⟩
    rw [List.foldl_cons, hrest, hone]

/-- A check that overtakes another becomes the active one; apart from that, the other is cancelled,
    and the log says so. -/
theorem overtake_eq (e : Engine) (s : Session) :
    ∃ sessions active ready log, e.overtake s = { e with sessions, active, ready, log } := by
  unfold Engine.overtake
  dsimp only
  split
  · exact ⟨e.sessions, _, e.ready, e.log, rfl⟩
  split
  · exact ⟨e.sessions, _, e.ready, e.log, rfl⟩
  · rename_i older _ _
    obtain ⟨sessions, ready, heq⟩ := (Engine.note { e with active := e.active.put s.source s.id }
      [.overtaken s.id older]).cancelSession_eq older
    exact ⟨sessions, _, ready, _, heq⟩

theorem Registry.cancelSession (h : Registry e) (id : Int) : Registry (e.cancelSession id) := by
  cases hs : e.sessions.get? id with
  | none => simpa [Engine.cancelSession, hs] using h
  | some s =>
    have hget := cancelSession_sessions hs
    obtain ⟨sessions, ready, heq⟩ := e.cancelSession_eq id
    have hstored : e.sessions.get? s.id = some s := h.stored hs
    refine h.replace hstored (show s.cancel.source = s.source from rfl) rfl rfl hget ?_ ?_ <;>
      rw [heq]

/-- A session of another number is not touched. -/
theorem cancelSession_of_ne (h : Registry e) {id r : Int} (hne : r ≠ id) :
    (e.cancelSession id).sessions.get? r = e.sessions.get? r := by
  cases hs : e.sessions.get? id with
  | none => simp [Engine.cancelSession, hs]
  | some s => rw [cancelSession_sessions hs, h.keyed hs, if_neg hne]

/-- The order is kept when a session is told to stop that is not in the middle of a turn. -/
theorem InOrder.cancelSession (h : InOrder busy e) {id : Int}
    (hfree : ∀ {t task}, e.tasks.get? t = some task → task.session = id → Free busy t) :
    InOrder busy (e.cancelSession id) :=
  ⟨h.registry.cancelSession id, h.schedule.cancelSession h.registry hfree⟩

theorem InOrder.cancelActive (h : InOrder none e) (source : Path) :
    InOrder none (e.cancelActive source) := by
  rw [Engine.cancelActive]
  split
  · exact h
  · exact h.cancelSession fun _ _ => free_none _

/-- The order is kept when all checks are cancelled. -/
theorem InOrder.cancelAll (h : InOrder none e) : InOrder none e.cancelAll := by
  rw [Engine.cancelAll]
  generalize e.active.values = ids
  induction ids generalizing e with
  | nil => exact h
  | cons id ids ih => exact ih (h.cancelSession fun _ _ => free_none _)

/-! ## The compiler starts or exits -/

/-- The task that waits for the start of the compiler of a session is found by it. -/
theorem heldTask?_eq {id : Int} {t : TaskId} {task : Task} (hkeys : e.tasks.keys.Nodup)
    (h : e.heldTask? id = some (t, task)) : e.tasks.get? t = some task :=
  (Table.mem_entries_iff hkeys).1 (List.mem_of_find?_eq_some h)

/-- The start of the compiler of a session is opened if its task is held. -/
theorem openStart_eq_some {id : Int} (hkeys : e.tasks.keys.Nodup) (h : e.openStart id = some e') :
    ∃ t task, e.tasks.get? t = some task ∧ task.session = id ∧ task.startHeld = some true ∧
      e' = { e with
        tasks := e.tasks.put t { task with startHeld := some false }
        ready := if task.stage = .starting then e.ready ++ [t] else e.ready } := by
  rw [Engine.openStart] at h
  split at h
  · simp at h
  rename_i t task hheld
  split at h
  · have hid := List.find?_some hheld
    simp only [decide_eq_true_eq] at hid
    obtain rfl := Option.some.inj h
    refine ⟨t, task, heldTask?_eq hkeys hheld, hid.1, ‹_›, ?_⟩
    split <;> rfl
  · simp at h

/-- The compiler of a session exits if it is running. -/
theorem endProcess_eq_some {id status : Int} (h : e.endProcess id status = some e') :
    ∃ s p, e.sessions.get? id = some s ∧ s.process = some p ∧ p.isRunning ∧
      e' = (e.exitProcess s p status).1.wake id := by
  rw [Engine.endProcess] at h
  split at h
  · simp at h
  split at h
  · simp at h
  split at h
  · exact ⟨_, _, ‹_›, ‹_›, ‹_›, (Option.some.inj h).symm⟩
  · simp at h

/-- The order is kept when a compiler may start. -/
theorem InOrder.openStart (h : InOrder none e) {id : Int} (hopen : e.openStart id = some e') :
    InOrder none e' := by
  obtain ⟨hr, h⟩ := h
  obtain ⟨t, task, ht, -, hstart, rfl⟩ := openStart_eq_some h.keys_nodup hopen
  obtain ⟨s, hs⟩ := h.owned ht
  have hcarries : e.Carries t task s := ⟨ht, hs⟩
  have hfits := h.fits (free_none t) hcarries
  obtain ⟨hstage, hphase, hprocess⟩ := hfits.starting_of_held hstart
  -- A task that is held cannot go on. It is taken as busy, written down as not held any more,
  -- and let go.
  have hnot : t ∉ e.ready := by
    intro hmem
    obtain ⟨-, a, r, ha, hgo⟩ := h.mem_ready.1 hmem
    obtain rfl := Option.some.inj (ht.symm.trans ha.1)
    simp [Task.CanGoOn, hstage, hstart] at hgo
  have hhold := h.hold hcarries (.refl _) h.ready_nodup fun {u} =>
    ⟨fun hu => ⟨fun htu => hnot (htu ▸ hu), hu⟩, And.right⟩
  let task' : Task := { task with startHeld := some false }
  have hrewrite : Schedule (some (t, task.stage)) (e.putTask t task') :=
    hhold.rewrite ht (show task'.session = task.session from rfl)
      (Table.keys_put_of_mem ((e.tasks.mem_keys_iff t).2 ⟨task, ht⟩) _)
      (fun u => Table.get?_put _ _ _ _) rfl rfl rfl rfl rfl
  have ht' : (e.putTask t task').Carries t task' s := ⟨Table.get?_put_self _ _ _, hs⟩
  have hgo : task'.CanGoOn s := by simp [Task.CanGoOn, task', hstage]
  rw [if_pos hstage]
  refine ⟨hr.congr rfl rfl rfl, hrewrite.release ht' (.refl _)
    (.starting hstage rfl hphase hprocess) ?_ fun {u} => ?_⟩
  · refine List.nodup_append.2 ⟨h.ready_nodup, List.nodup_singleton t, ?_⟩
    rintro a ha b hb rfl
    exact hnot (List.mem_singleton.1 hb ▸ ha)
  · rw [List.mem_append, List.mem_singleton]
    exact or_congr_right (and_iff_left hgo).symm

/-- The task that waits for a compiler can go on when it exits. -/
theorem Schedule.wake_exitProcess (h : Schedule busy e) {t : TaskId} {task : Task}
    (ht : e.tasks.get? t = some task) (hstage : task.stage = .waiting) {s : Session}
    {p : CompilerProcess} (hp : s.process = some p) (hrun : p.isRunning) (status : Int) :
    (e.exitProcess s p status).1.wake task.session = (e.exitProcess s p status).1.enqueue t := by
  have hwaiting : (e.exitProcess s p status).1.waitingTask? task.session = some t := by
    rw [waitingTask?, (exitProcess_works (e := e) hp hrun status).kept.tasks]
    exact h.waitingTask?_eq ht hstage
  rw [wake, hwaiting]

/-- The order is kept when a compiler exits. -/
theorem InOrder.endProcess (h : InOrder none e) {id status : Int}
    (hend : e.endProcess id status = some e') : InOrder none e' := by
  obtain ⟨hr, h⟩ := h
  obtain ⟨s, p, hs, hp, hrun, rfl⟩ := endProcess_eq_some hend
  obtain ⟨t, task, ht, rfl⟩ := h.carried hs
  have hstored : e.sessions.get? s.id = some s := hr.stored hs
  have hcarries : e.Carries t task s := ⟨ht, hs⟩
  have hfits := h.fits (free_none t) hcarries
  have hstage := hfits.stage_of_running (Session.not_rests.2 ⟨p, hp, hrun⟩)
  -- The exit is an act on the session, after which the task that waits for it can go on.
  have hworks := exitProcess_works (e := e) hp hrun status
  have hget := hworks.get?_eq hstored
  have hkept := hworks.kept
  have hrests : (e.exitProcess s p status).2.Rests := by
    intro q hq
    obtain rfl := Option.some.inj hq
    rfl
  rw [h.wake_exitProcess ht hstage hp hrun status]
  refine ⟨(hr.works hstored hworks).congr rfl rfl rfl, h.replace_wake hr hcarries (free_none t)
    hworks.same.source hget hkept.surroundings hkept.tasks hkept.queues hkept.active ?_ ?_ ?_
    (congrArg (· ++ [t]) hkept.ready)⟩
  · rw [Task.canGoOn_waiting hstage]
    exact Session.not_rests.2 ⟨p, hp, hrun⟩
  · rwa [Task.canGoOn_waiting hstage]
  · exact hfits.waiting_congr hstage rfl rfl

/-! ## A turn -/

/-- How a task is settled depends on its session by the number and the source only. -/
theorem settle_congr (e : Engine) (t : TaskId) {s s' : Session} (h : s.Same s')
    (progress : Progress) : e.settle t s' progress = e.settle t s progress := by
  cases progress with
  | waits => rfl
  | ends => simp only [settle, retire, h.id, h.source]

/-- The busy task, whose turn had come, is settled as its turn left it. -/
theorem InOrder.settle {t : TaskId} (h : InOrder (some (t, .admitted)) e) {task : Task}
    {s : Session} (ht : e.Carries t task s) (hheld : task.startHeld ≠ some true)
    {r : Engine × Progress} (hreach : Reaches e task.behaviour s r) :
    InOrder none (r.1.settle t s r.2) := by
  obtain ⟨hr, h⟩ := h
  obtain ⟨s', hworks, hleft⟩ := hreach
  have hid : s.id = task.session := hr.keyed ht.2
  have hid' : s'.id = task.session := hworks.same.id.trans hid
  have hr' : Registry r.1 := hr.works (x := (e, s)) (hid ▸ ht.2) hworks
  obtain ⟨h', ht'⟩ := h.works hr ht hworks
  obtain ⟨e', progress⟩ := r
  dsimp only at hr' h' ht' hleft ⊢
  have hsettle := settle_congr e' t hworks.same progress
  rw [← hsettle]
  -- No turn leaves its task aborted, so settling it touches the tasks and the queues only.
  have haborted := hleft.ne_aborted
  refine ⟨?_, ?_⟩
  · obtain ⟨active, queues, tasks, ready, finished, heq⟩ := e'.settle_eq t s' haborted
    rw [heq]
    exact hr'.congr rfl rfl rfl
  · rw [← hworks.kept.surroundings] at hleft
    cases progress with
    | waits stage =>
      cases hleft with
      | asked hphase hprocess =>
        exact h'.settle_waits ht' ⟨rfl, fun _ _ => Iff.rfl⟩ (.starting rfl rfl hphase hprocess)
          (by simp [Task.CanGoOn, Task.wait])
      | running hphase hprocess hrun =>
        refine h'.settle_waits ht' ⟨rfl, fun _ _ => Iff.rfl⟩ (.waiting rfl hheld hphase hprocess) ?_
        rw [Task.canGoOn_waiting rfl]
        exact Session.not_rests.2 ⟨_, hprocess, hrun⟩
    | ends outcome =>
      exact h'.settle_ends ht' hid' hheld (fun ho => haborted (ho ▸ rfl)) hleft

/-- What a task that can go on does is one of the turns. -/
theorem turn_of_canGoOn {task : Task} {s : Session} (hfits : Fits e.surroundings task s)
    (hgo : task.CanGoOn s) (t : TaskId) : Turn e task s (e.turn t task s) := by
  rw [Engine.turn]
  -- The stage of the task tells where in its check the session is.
  cases hfits with
  | queued hstage _ hphase hprocess =>
    rcases hstage with hstage | hstage
    · simp [Task.CanGoOn, hstage] at hgo
    · rw [hstage]
      exact .proceed hphase hprocess
  | starting hstage _ hphase hprocess =>
    rw [hstage]
    exact .launch hphase hprocess
  | @waiting p hstage _ hphase hprocess =>
    have hrests := (Task.canGoOn_waiting hstage).1 hgo
    rw [hstage, hprocess]
    dsimp only
    cases hstatus : p.status with
    | none => simpa [CompilerProcess.isRunning, hstatus] using hrests p hprocess
    | some status => exact .collect hphase hprocess hstatus
  | ended hstage => simp [Task.CanGoOn, hstage] at hgo

/-- A task that can go on gets to the end of its turn act by act. -/
theorem turn_reaches {task : Task} {s : Session} (hfits : Fits e.surroundings task s)
    (hgo : task.CanGoOn s) (hplain : s.listing.Plain) (t : TaskId) :
    Reaches e task.behaviour s (e.turn t task s) :=
  (turn_of_canGoOn hfits hgo t).reaches hplain

/-- A turn, and how it leaves its task. -/
theorem resume_eq {t : TaskId} {task : Task} {s : Session} (ht : e.Carries t task s) :
    e.resume t = (e.turn t task s).1.settle t s (e.turn t task s).2 := by
  rw [resume, ht.1]
  dsimp only
  rw [ht.2]

/-- A task that can go on takes its turn. -/
theorem InOrder.turn (h : InOrder none e) {t : TaskId} {earlier later : List TaskId}
    (hready : e.ready = earlier ++ t :: later) :
    InOrder none ({ e with ready := earlier ++ later }.resume t) := by
  obtain ⟨task, s, ht, hgo, hfits, hbusy⟩ := h.schedule.take hready
  have ht' : Carries { e with ready := earlier ++ later } t task s := ht
  have hreach := turn_reaches (e := { e with ready := earlier ++ later }) hfits hgo
    (h.registry.plain ht.2) t
  have horder : InOrder (some (t, .admitted)) { e with ready := earlier ++ later } :=
    ⟨h.registry.congr rfl rfl rfl, hbusy⟩
  exact resume_eq ht' ▸ horder.settle ht' (hfits.startHeld_of_canGoOn hgo) hreach

/-! ## A check begins -/

/-- A task for a new session is busy with its first turn. -/
theorem Schedule.begin (h : Schedule none e) {t : TaskId} {task : Task} {s : Session}
    (hsession : task.session = s.id) (ht : t = e.tasks.keys.length)
    (hfresh : e.sessions.get? s.id = none)
    (htasks : ∀ u, e'.tasks.get? u = if u = t then some task else e.tasks.get? u)
    (hkeys : e'.tasks.keys = e.tasks.keys ++ [t])
    (hsessions : ∀ id, e'.sessions.get? id = if id = s.id then some s else e.sessions.get? id)
    (haround : e'.surroundings = e.surroundings) (hqueues : e'.queues = e.queues)
    (hactive : e'.active = e.active) (hready : e'.ready = e.ready) :
    Schedule (some (t, .created)) e' := by
  have hqueueOf : e'.queueOf = e.queueOf := by
    funext source
    rw [queueOf, queueOf, hqueues]
  have hcarries : ∀ {u a r}, e'.Carries u a r ↔
      (u = t ∧ a = task ∧ r = s) ∨ (u ≠ t ∧ e.Carries u a r) :=
    h.toRoster.carries_enrol hsession hfresh htasks hsessions
  have hold : ∀ {u a r}, e.Carries u a r → u ≠ t ∧ e'.Carries u a r :=
    h.toRoster.carries_of_enrol hsession ht hfresh htasks hsessions
  constructor
  · exact h.toRoster.enrol hsession ht hfresh htasks hsessions hkeys
  · intro u a r hfree hu
    rcases hcarries.1 hu with ⟨rfl, -, -⟩ | ⟨-, hu⟩
    · simp at hfree
    · exact haround ▸ h.fits (free_none _) hu
  · exact hready ▸ h.ready_nodup
  · intro u
    rw [hready, h.mem_ready, free_some]
    simp only [free_none, true_and]
    exact (h.toRoster.exists_carried_enrol hsession ht hfresh htasks hsessions Task.CanGoOn).symm
  · exact hqueueOf ▸ h.queue_nodup
  · intro source u hu
    obtain ⟨a, r, hu, hr⟩ := h.queue_owned (hqueueOf ▸ hu)
    exact ⟨a, r, (hold hu).2, hr⟩
  · intro u a r hu
    rw [hqueueOf]
    rcases hcarries.1 hu with ⟨rfl, -, -⟩ | ⟨hut, hu⟩
    · rw [Task.counted_self]
      intro hmem
      obtain ⟨b, r', hb, -⟩ := h.queue_owned hmem
      exact (hold hb).1 rfl
    · rw [Task.counted_of_ne (Ne.symm hut)]
      exact h.placed hu
  · intro source id hid
    obtain ⟨u, a, r, hu, hid', hr, hended⟩ := h.active (hactive ▸ hid)
    obtain ⟨hut, hu'⟩ := hold hu
    exact ⟨u, a, r, hu', hid', hr, by rwa [Task.counted_of_ne (Ne.symm hut)]⟩

/-- The busy task overtakes the check of its source that was started last. -/
theorem InOrder.overtake {t : TaskId} (h : InOrder (some (t, .created)) e) {task : Task}
    {s : Session} (ht : e.Carries t task s) :
    InOrder (some (t, .created)) (e.overtake s) ∧ (e.overtake s).Carries t task s := by
  have hid : s.id = task.session := h.registry.keyed ht.2
  have hactive : InOrder (some (t, .created)) { e with active := e.active.put s.source s.id } :=
    ⟨h.registry.congr rfl rfl rfl, h.schedule.activate rfl ht hid⟩
  unfold Engine.overtake
  dsimp only
  split
  · exact ⟨hactive, ht⟩
  split
  · exact ⟨hactive, ht⟩
  · rename_i older _ hne
    -- The session that is cancelled is not that of the busy task.
    have hne' : task.session ≠ older := fun h => hne (h.symm.trans hid.symm)
    have hnoted : InOrder (some (t, .created)) (Engine.note
        { e with active := e.active.put s.source s.id } [.overtaken s.id older]) :=
      ⟨hactive.registry.congr rfl rfl rfl, { hactive.schedule with }⟩
    refine ⟨hnoted.cancelSession fun {u a} hu ha => (free_some _ _ _).2 ?_, ?_, ?_⟩
    · rintro rfl
      obtain rfl := Option.some.inj (ht.1.symm.trans hu)
      exact hne' ha
    · obtain ⟨sessions, ready, heq⟩ := cancelSession_eq (Engine.note
        { e with active := e.active.put s.source s.id } [.overtaken s.id older]) older
      rw [heq]
      exact ht.1
    · rw [cancelSession_of_ne hnoted.registry hne']
      exact ht.2

/-- The first turn of a task. -/
theorem InOrder.enter {t : TaskId} (h : InOrder (some (t, .created)) e) {task : Task} {s : Session}
    (ht : e.Carries t task s) (hheld : task.startHeld = none) (hphase : s.phase = .idle)
    (hprocess : s.process = none) :
    InOrder none ((e.enter t task s).1.settle t s (e.enter t task s).2) := by
  obtain ⟨hover, ht'⟩ := h.overtake ht
  have hjoin := hover.schedule.join ht'
  have hr := hover.registry
  unfold Engine.enter
  dsimp only
  generalize e.overtake s = e₁ at *
  split
  · rename_i hempty
    rw [if_pos hempty] at hjoin
    have horder : InOrder (some (t, .admitted)) { e₁ with
        queues := e₁.queues.put s.source (e₁.queueOf s.source ++ [t]) } :=
      ⟨hr.congr rfl rfl rfl, hjoin⟩
    -- The task is alone with its source, and goes on at once.
    refine horder.settle ht' (by simp [hheld]) ?_
    exact proceed_reaches task hphase hprocess (hr.plain ht'.2)
  · rename_i hempty
    rw [if_neg hempty] at hjoin
    refine ⟨hr.congr rfl rfl rfl, hjoin.settle_waits ht' (.refl _) ?_ ?_⟩
    · exact .queued (.inl rfl) (by simpa [Task.wait] using hheld) hphase hprocess
    · simp [Task.CanGoOn, Task.wait]

/-- A new session is made, and a task for it is on record. -/
theorem InOrder.enrol (h : InOrder none e) {path : Text} {text : Option JsonString}
    {receiver : Receiver} {s : Session} (hnew : e.newSession path text receiver = (e', .ok s))
    (behaviour : Behaviour) :
    InOrder (some (e.tasks.entries.length, .created))
      (e'.putTask e.tasks.entries.length { session := s.id, behaviour }) ∧
    (e'.putTask e.tasks.entries.length { session := s.id, behaviour }).Carries
      e.tasks.entries.length { session := s.id, behaviour } s := by
  have hr' := h.registry.newSession hnew
  obtain ⟨hs, hid, rfl⟩ := newSession_ok hnew
  have hfresh : e.sessions.get? s.id = none := by
    by_contra hsome
    obtain ⟨r, hr⟩ := Option.ne_none_iff_exists'.1 hsome
    have := h.registry.below hr
    omega
  let t : TaskId := e.tasks.entries.length
  let task : Task := { session := s.id, behaviour }
  have ht : t = e.tasks.keys.length := (e.tasks.length_keys).symm
  have hnot : t ∉ e.tasks.keys := by
    rw [h.schedule.numbered, ht]
    simp
  refine ⟨⟨hr'.congr rfl rfl rfl, ?_⟩, Table.get?_put_self _ _ _, Table.get?_put_self _ _ _⟩
  refine h.schedule.begin (show task.session = s.id from rfl) ht hfresh (fun _ => ?_)
    (Table.keys_put_of_not_mem hnot _) (fun _ => ?_) rfl rfl rfl rfl
  · exact Table.get?_put _ _ _ _
  · exact Table.get?_put _ _ _ _

/-- The first turn of its task is all that the beginning of a check consists of. -/
theorem InOrder.begin (h : InOrder none e) {path : Text} {text : Option JsonString}
    {receiver : Receiver} {s : Session} (hnew : e.newSession path text receiver = (e', .ok s))
    (behaviour : Behaviour) :
    ∃ t task tasks, InOrder (some (t, .created)) { e' with tasks } ∧
      Carries { e' with tasks } t task s ∧ task.stage = .created ∧ task.startHeld = none ∧
      e.tasks.get? t = none ∧ tasks = e.tasks.put t task ∧
      (e'.beginCheck s.id behaviour).1 = resume { e' with tasks } t := by
  obtain ⟨horder, ht⟩ := h.enrol hnew behaviour
  have hnone := h.schedule.not_enrolled e.tasks.length_keys.symm
  obtain ⟨-, -, rfl⟩ := newSession_ok hnew
  exact ⟨_, _, _, horder, ht, rfl, rfl, hnone, rfl, rfl⟩

/-- The order is kept when a check begins and takes its first turn. -/
theorem InOrder.beginCheck (h : InOrder none e) {path : Text} {text : Option JsonString}
    {receiver : Receiver} {s : Session} (hnew : e.newSession path text receiver = (e', .ok s))
    (behaviour : Behaviour) : InOrder none (e'.beginCheck s.id behaviour).1 := by
  have hs := (newSession_ok hnew).1
  obtain ⟨t, task, tasks, horder, ht, hstage, hheld, -, -, heq⟩ := h.begin hnew behaviour
  rw [heq, resume_eq ht, Engine.turn, hstage]
  exact horder.enter ht hheld hs.phase hs.process

/-! ## Steps -/

/-- Every step keeps the engine in order. -/
theorem InOrder.step (h : InOrder none e) (hstep : Step e e') : InOrder none e' := by
  cases hstep with
  | check behaviour hnew => exact h.beginCheck hnew behaviour
  | refuse hnew =>
    refine ⟨h.registry.refuse hnew, ?_⟩
    rcases newSession_error hnew with rfl | rfl
    · exact h.schedule
    · exact { h.schedule with }
  | start hopen => exact h.openStart hopen
  | exit hend => exact h.endProcess hend
  | cancel source => exact h.cancelActive source
  | shutdown => exact h.cancelAll
  | turn hready => exact h.turn hready

/-- Every reachable state is in order. -/
theorem Reachable.inOrder (h : Reachable e) : InOrder none e :=
  h.preserves (fun _ _ _ _ hcreate => .create hcreate) fun _ _ h hstep => h.step hstep

end Engine

end LiveCheck
