import LiveCheck.Proofs.Check.Order

/-!
# The shape of a step

Every step of the engine opens in some way (`Opening`): a session is made, sessions are cancelled.
Then a compiler may exit, or one task that has its source to itself takes a turn (`Turn`), and at
last tasks and queues are rearranged (`Step.shape`). What is to be known about what a step does to
sessions and reports is thereby a matter of the openings and of the acts (`Shape.works`).

A task that has ended stays as it is in an opening, and does not take a turn (`Goes`).
-/

namespace LiveCheck.Engine

variable {busy : Option (TaskId × Stage)} {e e' : Engine}

/-- Tasks, queues and active sessions are rearranged, and nothing else happens but notes in the
    log. -/
structure Rearranged (e e' : Engine) : Prop where
  disk : e'.disk = e.disk
  settings : e'.settings = e.settings
  compiler : e'.compiler = e.compiler
  nextId : e'.nextId = e.nextId
  latest : e'.latest = e.latest
  sessions : e'.sessions = e.sessions
  spawns : e'.spawns = e.spawns
  deliveries : e'.deliveries = e.deliveries

/-- Tasks that have ended stay as they are. -/
def KeepsEnded (e e' : Engine) : Prop :=
  ∀ t task, e.tasks.get? t = some task → task.stage.isEnded → e'.tasks.get? t = some task

theorem KeepsEnded.of_eq (h : e'.tasks = e.tasks) : KeepsEnded e e' := fun _ _ ht _ => h ▸ ht

theorem KeepsEnded.trans {e'' : Engine} (h : KeepsEnded e e') (h' : KeepsEnded e' e'') :
    KeepsEnded e e'' := fun t task ht hended => h' t task (h t task ht hended) hended

/-- No task ends but that of the session. -/
def EndsOnly (e e' : Engine) (id : Int) : Prop :=
  ∀ t task, e'.tasks.get? t = some task → task.stage.isEnded → task.session ≠ id →
    e.tasks.get? t = some task

/-- No task ends, and those that have ended stay as they are. -/
structure EndsNone (e e' : Engine) : Prop where
  kept : KeepsEnded e e'
  before : ∀ {t task}, e'.tasks.get? t = some task → task.stage.isEnded →
    e.tasks.get? t = some task

theorem EndsNone.of_eq (h : e'.tasks = e.tasks) : EndsNone e e' :=
  ⟨.of_eq h, fun ht _ => h ▸ ht⟩

theorem EndsNone.trans {e'' : Engine} (h : EndsNone e e') (h' : EndsNone e' e'') :
    EndsNone e e'' :=
  ⟨h.kept.trans h'.kept, fun ht hended => h.before (h'.before ht hended) hended⟩

/-- A task that has not ended is written down anew, and has not ended then either. -/
theorem EndsNone.of_rewrite (t : TaskId) (task' : Task)
    (ht : ∀ a, e.tasks.get? t = some a → a.stage.isEnded = false)
    (ht' : task'.stage.isEnded = false)
    (htasks : ∀ u, e'.tasks.get? u = if u = t then some task' else e.tasks.get? u) :
    EndsNone e e' := by
  refine ⟨fun u a hu hended => ?_, fun {u a} hu hended => ?_⟩
  · rw [htasks, if_neg, hu]
    rintro rfl
    simp [ht a hu] at hended
  · rw [htasks] at hu
    split at hu
    · obtain rfl := Option.some.inj hu
      simp [ht'] at hended
    · exact hu

/-- How a step may open, before a task works on its session. -/
inductive Opening (e : Engine) : Engine → Prop
  /-- A session is made. -/
  | made {e' : Engine} {s : Session} {path text receiver} :
      e.newSession path text receiver = (e', .ok s) → Opening e e'
  /-- A session is refused. -/
  | refused {e' : Engine} {refusal : Refusal} {path text receiver} :
      e.newSession path text receiver = (e', .error refusal) → Opening e e'
  /-- A session is cancelled. -/
  | cancelled (id : Int) : Opening e (e.cancelSession id)
  /-- Tasks and queues are rearranged, but none of the tasks that have ended. -/
  | rearranged {e' : Engine} : Rearranged e e' → EndsNone e e' → Opening e e'

/-- No task ends in an opening. -/
theorem Opening.endsNone (h : Opening e e') : EndsNone e e' := by
  cases h with
  | made hnew =>
    obtain ⟨-, -, rfl⟩ := newSession_ok hnew
    exact .of_eq rfl
  | refused hnew => rcases newSession_error hnew with rfl | rfl <;> exact .of_eq rfl
  | cancelled id =>
    obtain ⟨sessions, ready, heq⟩ := e.cancelSession_eq id
    exact .of_eq (by rw [heq])
  | rearranged _ hends => exact hends

theorem endsNone_of_openings (h : Relation.ReflTransGen Opening e e') : EndsNone e e' := by
  induction h with
  | refl => exact .of_eq rfl
  | tail _ ho ih => exact ih.trans ho.endsNone

/-- The session has its source to itself, and its check goes on. -/
structure Goes (e : Engine) (s : Session) : Prop where
  registry : Registry e
  stored : e.sessions.get? s.id = some s
  alone : e.Alone s
  going : ∀ {t task}, e.tasks.get? t = some task → task.session = s.id →
    task.stage.isEnded = false

/-- The check of a session has ended in some way. -/
def EndedWith (e : Engine) (id : Int) (outcome : Outcome) : Prop :=
  ∃ t task, e.tasks.get? t = some task ∧ task.session = id ∧ task.stage = .ended outcome

/-- A task that is settled, other than by being aborted, rearranges tasks and queues. -/
theorem settle_rearranged (e : Engine) (t : TaskId) (s : Session) {progress : Progress}
    (h : progress ≠ .ends .aborted) : Rearranged e (e.settle t s progress) := by
  obtain ⟨active, queues, tasks, ready, finished, heq⟩ := e.settle_eq t s h
  rw [heq]
  exact ⟨rfl, rfl, rfl, rfl, rfl, rfl, rfl, rfl⟩

/-- A task that leaves its queue ends no other one. -/
theorem ended_of_leaveQueue {t u : TaskId} {source : Path} {a : Task}
    (hu : (e.leaveQueue t source).tasks.get? u = some a) (hended : a.stage.isEnded) :
    e.tasks.get? u = some a := by
  rw [leaveQueue] at hu
  dsimp only at hu
  split at hu
  · split at hu
    · exact hu
    · -- The task whose turn comes has not ended.
      simp only [enqueue, Table.get?_modify] at hu
      split at hu
      · obtain ⟨b, -, rfl⟩ := Option.map_eq_some_iff.1 hu
        simp [Stage.isEnded] at hended
      · exact hu
  · exact hu

/-- A task that is settled ends no other one. -/
theorem ended_of_settle {t u : TaskId} {s : Session} {progress : Progress} {a : Task}
    (haborted : progress ≠ .ends .aborted) (hne : u ≠ t)
    (hu : (e.settle t s progress).tasks.get? u = some a) (hended : a.stage.isEnded) :
    e.tasks.get? u = some a := by
  cases progress with
  | waits stage => exact (Table.get?_modify_of_ne hne _).symm.trans hu
  | ends outcome =>
    rw [settle_ends_eq e t s fun ho => haborted (ho ▸ rfl), retire_eq] at hu
    exact (Table.get?_modify_of_ne hne _).symm.trans (ended_of_leaveQueue hu hended)

/-- The busy task, whose turn had come, keeps its session. -/
theorem Schedule.settle_session {t : TaskId} (h : Schedule (some (t, .admitted)) e) {task a : Task}
    {s : Session} (ht : e.Carries t task s) {progress : Progress}
    (haborted : progress ≠ .ends .aborted)
    (ha : (e.settle t s progress).tasks.get? t = some a) : a.session = task.session := by
  cases progress with
  | waits stage =>
    rw [settle, Table.get?_modify_self, ht.1] at ha
    exact Option.some.inj ha ▸ rfl
  | ends outcome =>
    have ht' := (h.settle_ends_carries ht fun ho => haborted (ho ▸ rfl)).1
    exact Option.some.inj (ht'.symm.trans ha) ▸ rfl

/-- What happens in a step. -/
inductive Shape (e : Engine) : Engine → Prop
  /-- Nothing follows the opening. -/
  | opening {e' : Engine} : Relation.ReflTransGen Opening e e' → Shape e e'
  /-- A compiler exits by itself. -/
  | exit {e' : Engine} {s : Session} {p : CompilerProcess} {status : Int} : Goes e s →
      s.phase = .running → s.process = some p → p.isRunning →
      Rearranged (e.exitProcess s p status).1 e' → EndsOnly e e' s.id → Shape e e'
  /-- After the opening, a task that has its source to itself takes a turn. -/
  | turn {e₁ e' : Engine} {task : Task} {s : Session} {r : Engine × Progress} :
      Relation.ReflTransGen Opening e e₁ → Goes e₁ s → Turn e₁ task s r → Rearranged r.1 e' →
      (∀ outcome, r.2 = .ends outcome → e'.EndedWith s.id outcome) → EndsOnly e₁ e' s.id →
      Shape e e'

/-- After the opening, a task may work on its session. -/
theorem Shape.works (h : Shape e e') : ∃ e₁, Relation.ReflTransGen Opening e e₁ ∧
    (e₁ = e' ∨ ∃ s₁ e₂ s₂, e₁.sessions.get? s₁.id = some s₁ ∧ Registry e₁ ∧
      Works (e₁, s₁) (e₂, s₂) ∧ Rearranged e₂ e') := by
  cases h with
  | opening hopen => exact ⟨e', hopen, .inl rfl⟩
  | @exit _ s p status hgoes hphase hp hrun hre _ =>
    exact ⟨e, .refl, .inr ⟨s, _, _, hgoes.stored, hgoes.registry,
      exitProcess_works hp hrun status, hre⟩⟩
  | turn hopen hgoes hturn hre =>
    obtain ⟨s', hworks, -⟩ := hturn.reaches (hgoes.registry.plain hgoes.stored)
    exact ⟨_, hopen, .inr ⟨_, _, s', hgoes.stored, hgoes.registry, hworks, hre⟩⟩

/-- The session of a task that is at the head of its queue goes on. -/
theorem Schedule.goes (h : Schedule busy e) (hr : Registry e) {t : TaskId} {task : Task}
    {s : Session} (ht : e.Carries t task s) (hstage : task.stage.isEnded = false)
    (hhead : (e.queueOf s.source).head? = some t) (hfree : ∀ {u}, u ≠ t → Free busy u) :
    Goes e s where
  registry := hr
  stored := hr.stored ht.2
  alone := h.alone_of_head hr ht hhead hfree
  going := fun hu hid => by
    obtain rfl := h.alone hu ht.1 (hid.trans (hr.keyed ht.2))
    obtain rfl := Option.some.inj (ht.1.symm.trans hu)
    exact hstage

/-- A turn after an opening, settled for its task, has the shape of a step. -/
theorem Shape.after {e₁ : Engine} (hopen : Relation.ReflTransGen Opening e e₁)
    {t : TaskId} (h : InOrder (some (t, .admitted)) e₁) {task : Task} {s : Session}
    (ht : e₁.Carries t task s) (hstage : task.stage.isEnded = false) {r : Engine × Progress}
    (hturn : Turn e₁ task s r) : Shape e (r.1.settle t s r.2) := by
  have hr := h.registry
  obtain ⟨s', hworks, hleft⟩ := hturn.reaches (hr.plain ht.2)
  have hhead : (e₁.queueOf s.source).head? = some t := by
    simpa [Stage.Place] using h.schedule.placed ht
  have hgoes := h.schedule.goes hr ht hstage hhead fun hu => (free_some _ _ _).2 hu.symm
  have haborted := hleft.ne_aborted
  obtain ⟨hbusy, ht'⟩ := h.schedule.works hr ht hworks
  refine .turn hopen hgoes hturn (settle_rearranged _ _ _ haborted) (fun outcome hend => ?_)
    fun u a hu hended hid => ?_
  · rw [hend, ← settle_congr r.1 t hworks.same]
    exact ⟨t, _, (hbusy.settle_ends_carries ht' fun ho => haborted (hend.trans (ho ▸ rfl))).1,
      (hr.keyed ht.2).symm, rfl⟩
  · by_cases hut : u = t
    · subst hut
      rw [← settle_congr r.1 u hworks.same] at hu
      exact absurd ((hbusy.settle_session ht' haborted hu).trans (hr.keyed ht.2).symm) hid
    · exact hworks.kept.tasks ▸ ended_of_settle haborted hut hu hended

/-- A turn of a task that can go on has the shape of a step. -/
theorem turn_shape (h : InOrder none e) {t : TaskId} {earlier later : List TaskId}
    (hready : e.ready = earlier ++ t :: later) :
    Shape e ({ e with ready := earlier ++ later }.resume t) := by
  obtain ⟨task, s, ht, hgo, hfits, hbusy⟩ := h.schedule.take hready
  let e₁ : Engine := { e with ready := earlier ++ later }
  have horder : InOrder (some (t, .admitted)) e₁ := ⟨h.registry.congr rfl rfl rfl, hbusy⟩
  have ht₁ : e₁.Carries t task s := ht
  have hopen : Opening e e₁ :=
    .rearranged ⟨rfl, rfl, rfl, rfl, rfl, rfl, rfl, rfl⟩ (.of_eq rfl)
  have hstage : task.stage.isEnded = false := by
    by_contra hended
    obtain ⟨outcome, hstage, -⟩ := hfits.left_of_ended (by simpa using hended)
    simp [Task.CanGoOn, hstage] at hgo
  rw [resume_eq ht₁]
  exact .after (.single hopen) horder ht₁ hstage (turn_of_canGoOn (e := e₁) hfits hgo t)

/-- Overtaking is telling sessions to stop. -/
theorem overtake_opening (e : Engine) (s : Session) :
    Relation.ReflTransGen Opening e (e.overtake s) := by
  unfold Engine.overtake
  dsimp only
  split
  · exact .single (.rearranged ⟨rfl, rfl, rfl, rfl, rfl, rfl, rfl, rfl⟩ (.of_eq rfl))
  split
  · exact .single (.rearranged ⟨rfl, rfl, rfl, rfl, rfl, rfl, rfl, rfl⟩ (.of_eq rfl))
  · rename_i older _ _
    let e₁ : Engine := Engine.note { e with active := e.active.put s.source s.id }
      [.overtaken s.id older]
    have hopen : Opening e e₁ :=
      .rearranged ⟨rfl, rfl, rfl, rfl, rfl, rfl, rfl, rfl⟩ (.of_eq rfl)
    exact .tail (.single hopen) (.cancelled older)

/-- The first turn of a task has the shape of a step. -/
theorem enter_shape {e₀ : Engine} (hopen : Relation.ReflTransGen Opening e₀ e) {t : TaskId}
    (h : InOrder (some (t, .created)) e) {task : Task} {s : Session} (ht : e.Carries t task s)
    (hstage : task.stage = .created) (hphase : s.phase = .idle) (hprocess : s.process = none) :
    Shape e₀ ((e.enter t task s).1.settle t s (e.enter t task s).2) := by
  obtain ⟨hover, ht'⟩ := h.overtake ht
  have hr := hover.registry
  have hjoin := hover.schedule.join ht'
  have hopen := hopen.trans (e.overtake_opening s)
  unfold Engine.enter
  dsimp only
  generalize e.overtake s = e₁ at *
  let e₂ : Engine := { e₁ with queues := e₁.queues.put s.source (e₁.queueOf s.source ++ [t]) }
  have hopen₂ : Relation.ReflTransGen Opening e₀ e₂ :=
    hopen.tail (.rearranged ⟨rfl, rfl, rfl, rfl, rfl, rfl, rfl, rfl⟩ (.of_eq rfl))
  -- The task is first in the queue and takes a turn, or it only joins the queue.
  split
  · rw [if_pos ‹_›] at hjoin
    have horder : InOrder (some (t, .admitted)) e₂ := ⟨hr.congr rfl rfl rfl, hjoin⟩
    have ht₂ : e₂.Carries t task s := ht'
    exact .after hopen₂ horder ht₂ (by rw [hstage]; rfl) (.proceed hphase hprocess)
  · refine .opening (hopen₂.tail (.rearranged (settle_rearranged e₂ t s (by simp))
      (.of_rewrite t (task.wait .queued) (fun a ha => ?_) rfl fun u => ?_)))
    · obtain rfl := Option.some.inj (ht'.1.symm.trans ha)
      rw [hstage]
      rfl
    · exact (Table.get?_modify _ _ _ _).trans (by rw [ht'.1, Option.map_some])

/-- Beginning a check has the shape of a step. -/
theorem beginCheck_shape (h : InOrder none e) {path : Text} {text : Option JsonString}
    {receiver : Receiver} {s : Session} (hnew : e.newSession path text receiver = (e', .ok s))
    (behaviour : Behaviour) : Shape e (e'.beginCheck s.id behaviour).1 := by
  have hs := (newSession_ok hnew).1
  obtain ⟨t, task, tasks, horder, ht, hstage, -, hnone, htasks, heq⟩ := h.begin hnew behaviour
  have hends : EndsNone e' { e' with tasks } := by
    obtain ⟨-, -, rfl⟩ := newSession_ok hnew
    refine .of_rewrite t task (fun a ha => ?_) (by rw [hstage]; rfl) fun u => ?_
    · exact absurd (hnone.symm.trans ha) (Option.some_ne_none a).symm
    · exact (congrArg (Table.get? · u) htasks).trans (Table.get?_put _ _ _ _)
  have hopen : Opening e' { e' with tasks } :=
    .rearranged ⟨rfl, rfl, rfl, rfl, rfl, rfl, rfl, rfl⟩ hends
  rw [heq, resume_eq ht, Engine.turn, hstage]
  exact enter_shape (.tail (.single (.made hnew)) hopen) horder ht hstage hs.phase hs.process

/-- A start that is let through is told of to its task. -/
theorem openStart_shape (h : InOrder none e) {id : Int} (hopen : e.openStart id = some e') :
    Shape e e' := by
  obtain ⟨t, task, ht, -, hheld, rfl⟩ := openStart_eq_some h.schedule.keys_nodup hopen
  obtain ⟨s, hs⟩ := h.schedule.owned ht
  have hstage := ((h.schedule.fits (free_none t) ⟨ht, hs⟩).starting_of_held hheld).1
  refine .opening (.single (.rearranged ⟨rfl, rfl, rfl, rfl, rfl, rfl, rfl, rfl⟩
    (.of_rewrite t { task with startHeld := some false } (fun a ha => ?_) ?_
      fun u => Table.get?_put _ _ _ _)))
  · obtain rfl := Option.some.inj (ht.symm.trans ha)
    rw [hstage]
    rfl
  · simp only [hstage]
    rfl

/-- The process that exits is that of a session whose task has its source to itself. -/
theorem endProcess_shape (h : InOrder none e) {id status : Int}
    (hend : e.endProcess id status = some e') : Shape e e' := by
  obtain ⟨s, p, hs, hp, hrun, rfl⟩ := endProcess_eq_some hend
  obtain ⟨t, task, ht, rfl⟩ := h.schedule.carried hs
  have hfits := h.schedule.fits (free_none t) ⟨ht, hs⟩
  have hstage := hfits.stage_of_running (Session.not_rests.2 ⟨p, hp, hrun⟩)
  have hplaced : task.stage.Place (e.queueOf s.source) t := h.schedule.placed ⟨ht, hs⟩
  rw [hstage] at hplaced
  have hgoes : Goes e s := h.schedule.goes h.registry ⟨ht, hs⟩ (by rw [hstage]; rfl) hplaced
    fun _ => free_none _
  obtain ⟨ready, hwake⟩ := (e.exitProcess s p status).1.wake_eq task.session
  rw [hwake]
  have htasks : (e.exitProcess s p status).1.tasks = e.tasks :=
    (exitProcess_works (e := e) hp hrun status).kept.tasks
  exact .exit hgoes (hfits.phase_of_running hp hrun) hp hrun
    ⟨rfl, rfl, rfl, rfl, rfl, rfl, rfl, rfl⟩ fun _ _ ht _ _ => htasks ▸ ht

/-- When the engine is shut down, one session after the other is told to stop. -/
theorem cancelAll_shape (h : InOrder none e) : Shape e e.cancelAll := by
  refine .opening ?_
  rw [cancelAll]
  generalize e.active.values = ids
  induction ids generalizing e with
  | nil => exact .refl
  | cons id ids ih => exact .head (.cancelled id) (ih (h.cancelSession fun _ _ => free_none _))

/-- Every step has this shape. -/
theorem Step.shape (h : InOrder none e) (hstep : Step e e') : Shape e e' := by
  -- Cancelling, refusing and starting are openings; exits and turns go on from one.
  cases hstep with
  | check behaviour hnew => exact beginCheck_shape h hnew behaviour
  | refuse hnew => exact .opening (.single (.refused hnew))
  | start hopen => exact openStart_shape h hopen
  | exit hend => exact endProcess_shape h hend
  | cancel source =>
    rw [cancelActive]
    split
    · exact .opening .refl
    · exact .opening (.single (.cancelled _))
  | shutdown => exact cancelAll_shape h
  | turn hready => exact turn_shape h hready

end LiveCheck.Engine
