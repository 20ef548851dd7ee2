import LiveCheck.Proofs.Check.Containment
import LiveCheck.Proofs.Check.Lone

/-!
# Checks with a prompt compiler

A compiler is *prompt* if neither its start nor its exit is held up (`Behaviour.Prompt`). A check of
a source that no other check is under way for is over when its call returns then: it has failed, or
it has come to its verdict (`Run.check_settled`).
-/

namespace LiveCheck

/-- Neither the start nor the exit of the compiler is held up. -/
structure Behaviour.Prompt (b : Behaviour) : Prop where
  start : b.holdsStart = false
  exit : b.holdsExit = false

namespace Engine

variable {e e' : Engine} {t : TaskId} {task : Task} {s : Session} {b : Behaviour}

/-! ## The turn -/

/-- The check of a session whose compiler is prompt is over after the turn that starts it. -/
theorem launch_left_of_prompt (h : task.behaviour.Prompt) (hs : s.phase = .spawning) :
    (e.launch task s).2.left = 0 := by
  cases hf : task.behaviour.failedStart with
  | some failure =>
    rw [launch]
    dsimp only
    rw [hf]
    cases failure with
    | refused fault => exact endTurn_left _
    | rejected reason => rfl
  | none =>
    rw [launch_eq hs hf, h.exit]
    split
    · exact afterExit_left _ _ _
    · exact afterExit_left _ _ _

/-- With a prompt compiler, a task that asks for it goes on to its end. -/
theorem spawn_left_of_prompt (h : task.behaviour.Prompt) (hs : s.phase = .idle) :
    (e.spawn task s).2.left = 0 := by
  have hnext : .spawning ∈ s.phase.successors := by rw [hs]; decide
  rw [spawn, move_eq hnext, h.start]
  dsimp only
  split
  · rfl
  · exact launch_left_of_prompt h rfl

/-- With a prompt compiler, a task that has its source goes on to its end. -/
theorem proceed_left_of_prompt (h : task.behaviour.Prompt) (hs : s.phase = .idle) :
    (e.proceed task s).2.left = 0 := by
  rw [proceed]
  split
  · exact endTurn_left _
  split
  · exact spawn_left_of_prompt h hs
  split
  · split
    · exact spawn_left_of_prompt h hs
    · rfl
  · exact endTurn_left _

/-! ## Checks that fail -/

/-- A check fails if the settings do not tell how to call the compiler. -/
theorem spawn_of_uncallable {fault : SettingFault} (hs : s.phase = .idle)
    (h : e.settings.directives = .error fault) :
    (e.spawn task s).2 = .ends (.failed (.setting fault)) := by
  have hnext : .spawning ∈ s.phase.successors := by rw [hs]; decide
  have hcommand : (e.moved s .spawning).settings.command (e.moved s .spawning).compiler
      (s.to .spawning).source = .error fault := by
    change e.settings.command e.compiler s.source = .error fault
    rw [Settings.command, h]
    rfl
  rw [spawn, move_eq hnext]
  dsimp only
  rw [hcommand]

/-- A check of the newest session fails if its listing cannot be looked at. -/
theorem collect_of_unseen {fault : DiskFault} (hc : e.isCurrent s)
    (h : e.disk.pathExists s.listing = .error fault) (p : CompilerProcess) (status : Int) :
    (e.collect s p status).2 = .ends (.failed (.disk fault)) := by
  have hafter : ∀ events, ((e.note events).afterExit s status).2 =
      .ends (.failed (.disk fault)) := fun events => by
    have hc' : (e.note events).isCurrent s := hc
    have h' : (e.note events).disk.pathExists s.listing = .error fault := h
    simp only [afterExit, hc', Bool.not_true, Bool.false_eq_true, if_false, h']
  exact hafter _

/-- With a prompt compiler, a check fails whose listing cannot be looked at. -/
theorem launch_of_unseen {fault : DiskFault} (hprompt : task.behaviour.Prompt)
    (hs : s.phase = .spawning) (hp : s.process = none) (hc : e.isCurrent s) (hunheard : s.Unheard)
    (hf : task.behaviour.failedStart = none)
    (h : (task.behaviour.exitDisk s.source e.disk).pathExists s.listing = .error fault) :
    (e.launch task s).2 = .ends (.failed (.disk fault)) := by
  rw [launch_eq hs hf, hunheard.started, hprompt.exit]
  dsimp only
  have hprocess : (runs s task.behaviour).process = some { behaviour := task.behaviour } :=
    congrArg some (hunheard.started _)
  have hworks := (started_works (e := e) (b := task.behaviour) hs hp).trans
    (exitProcess_works hprocess rfl task.behaviour.status)
  have hc' := (isCurrent_congr hworks.kept.latest ⟨hworks.same.source, hworks.same.id⟩).trans hc
  refine collect_of_unseen hc' ?_ _ _
  rw [exitProcess_disk, started_disk]
  exact h

/-- A check of the newest session, which has no text to save, fails, or it comes to something. -/
theorem proceed_fails_or_yields (hprompt : task.behaviour.Prompt) (hs : s.phase = .idle)
    (hp : s.process = none) (hc : e.isCurrent s) (hunheard : s.Unheard) (htext : s.text = none) :
    (∃ fault, (e.proceed task s).2 = .ends (.failed fault)) ∨
      (∃ words, e.settings.directives = .ok words) ∧
        ∃ verdict, Yields s.source s.listing s.text s.receiver task.behaviour e.disk verdict := by
  have hproceed : e.proceed task s = e.spawn task s := by
    simp only [proceed, hc, Bool.not_true, Bool.false_eq_true, if_false, htext]
  rw [hproceed]
  cases hwords : e.settings.directives with
  | error fault => exact .inl ⟨_, spawn_of_uncallable hs hwords⟩
  | ok words =>
    -- A look at the listing that fails is what keeps the check from a verdict.
    by_cases hexists : ∀ d, saved s.source s.text e.disk = .ok d →
        task.behaviour.failedStart = none →
        ∃ found, (task.behaviour.exitDisk s.source d).pathExists s.listing = .ok found
    · exact .inr ⟨⟨words, rfl⟩, exists_yields hexists⟩
    · push Not at hexists
      obtain ⟨d, hsaved, hstart, hnot⟩ := hexists
      obtain rfl : e.disk = d := Except.ok.inj (by rw [htext] at hsaved; exact hsaved)
      cases hfound : (task.behaviour.exitDisk s.source e.disk).pathExists s.listing with
      | ok found => exact absurd hfound (hnot found)
      | error fault =>
        refine .inl ⟨.disk fault, ?_⟩
        rw [spawn_of_directives hs hwords, hprompt.start]
        have hc' : (e.asked s words).isCurrent (s.to .spawning) := hc
        exact launch_of_unseen (e := e.asked s words) hprompt rfl hp hc' { hunheard with } hstart
          hfound

/-! ## Checks that are over -/

/-- The check of a session that began in `e` is over, in a state in which no task can go on: its
    task failed, or the session came to its verdict. -/
structure Settled (e : Engine) (b : Behaviour) (s : Session) (e' : Engine) (t : TaskId)
    (task : Task) (r : Session) : Prop where
  carries : e'.Carries t task r
  same : s.Same r
  ready : e'.ready = []
  outcome : (∃ fault, task.stage = .ended (.failed fault)) ∨
    ∃ verdict, Yields s.source s.listing s.text s.receiver b e.disk verdict ∧
      task.stage = .ended verdict.outcome ∧ r.CameTo verdict

/-- A task that is alone with its source ends with nobody behind it. -/
theorem settle_ends_of_sole {outcome : Outcome} (haborted : outcome ≠ .aborted)
    (hqueue : e.queueOf s.source = [t]) : (e.settle t s (.ends outcome)).ready = e.ready ∧
      (e.settle t s (.ends outcome)).tasks =
        e.tasks.modify t fun task => { task with stage := .ended outcome } := by
  have hqueue' : (e.ended t outcome).queueOf s.source = [t] := hqueue
  rw [settle_ends_eq e t s haborted, leaveQueue_eq_of_sole hqueue', retire_eq]
  exact ⟨rfl, rfl⟩

/-- The first turn of a task that is alone with its source and has a prompt compiler. -/
theorem InOrder.enter_over (h : InOrder (some (t, .created)) e) (ht : e.Carries t task s)
    (hheld : task.startHeld = none) (hs : s.New) (hfault : s.fault = none) (hready : e.ready = [])
    (hidle : e.queueOf s.source = []) (hactive : e.active.get? s.source = none)
    (hc : e.isCurrent s) (htext : s.text = none) (hprompt : task.behaviour.Prompt) :
    ∃ task' r, Settled e task.behaviour s ((e.enter t task s).1.settle t s (e.enter t task s).2) t
      task' r := by
  have hunheard : s.Unheard := ⟨hs.delivered, hs.reports, hs.cancelled⟩
  have hjoined := h.occupied ht hidle hactive
  obtain ⟨task', r, ht', -, hsame⟩ := h.enter_carries ht hs.phase hs.process
  have hc' : (e.occupied t s).isCurrent s := hc
  rcases proceed_fails_or_yields hprompt hs.phase hs.process hc' hunheard htext with
    ⟨fault, hfails⟩ | ⟨hwords, verdict, hyields⟩
  · obtain ⟨s', hworks, -⟩ :=
      proceed_reaches (e := e.occupied t s) task hs.phase hs.process hs.plain
    have hqueue : ((e.occupied t s).proceed task s).1.queueOf s.source = [t] :=
      (queueOf_congr hworks.kept.queues s.source).trans (e.occupied_queueOf t s)
    rw [enter_of_idle hidle hactive, hfails] at ht' ⊢
    obtain ⟨hready', htasks⟩ := settle_ends_of_sole (nofun : Outcome.failed fault ≠ .aborted) hqueue
    refine ⟨task', r, ht', hsame, hready'.trans (hworks.kept.ready.trans hready), .inl ⟨fault, ?_⟩⟩
    have hstage := ht'.1
    rw [htasks, hworks.kept.tasks, Table.get?_modify_self] at hstage
    obtain ⟨a, -, rfl⟩ := Option.map_eq_some_iff.1 hstage
    rfl
  · have hunderway := h.enter_underway ht hheld hs hfault hready hidle hactive hc hwords hyields
    have hleft : (e.enter t task s).2.left = 0 := by
      rw [enter_of_idle hidle hactive]
      exact proceed_left_of_prompt hprompt hs.phase
    have hended := hunderway.ended_of_left hleft
    generalize verdict.outcome = outcome at hended
    cases hended with
    | @ended a r' horder hready' ha hid hstage hcame =>
      obtain ⟨rfl, rfl⟩ := ht'.unique ha
      exact ⟨_, _, ht', hsame, hready', .inr ⟨verdict, hyields, hstage, hcame⟩⟩

/-- What the session of a check is about. -/
theorem check_placed {path : Text} {text : Option JsonString} {receiver : Receiver}
    (h : e.check path text receiver b = (e', .ok (s, t))) : e.disk.resolved path = .ok s.source ∧
      e.settings.listingPath s.source = .ok s.listing ∧ s.text = text ∧ s.receiver = receiver := by
  rw [Engine.check] at h
  split at h
  · simp at h
  · rename_i hnew
    simp only [Prod.mk.injEq, Except.ok.injEq] at h
    exact h.2.1 ▸ newSession_placed hnew

/-- A check of a source that no other check is under way for, with no text to save and with a prompt
    compiler, is over when the call returns. -/
theorem Run.check_settled (h : Run e) (hprompt : b.Prompt) {path : Text} {receiver : Receiver}
    (hcheck : e.check path none receiver b = (e', .ok (s, t))) (hidle : e.queueOf s.source = []) :
    ∃ task r, Settled e b s e' t task r := by
  rw [Engine.check] at hcheck
  split at hcheck
  · simp at hcheck
  · rename_i e₁ s' hnew
    have horder := h.reachable.inOrder
    have hs := (newSession_ok hnew).1
    have hfault := (newSession_fresh hnew).fault
    obtain ⟨-, -, htext, -⟩ := newSession_placed hnew
    obtain ⟨hbusy, ht⟩ := horder.enrol hnew b
    obtain ⟨-, -, rfl⟩ := newSession_ok hnew
    simp only [runSession, beginCheck, resume_eq ht, Prod.mk.injEq, Except.ok.injEq] at hcheck
    obtain ⟨hdrain, rfl, rfl⟩ := hcheck
    obtain ⟨task, r, hsettled⟩ := hbusy.enter_over ht rfl hs hfault h.ready hidle
      (horder.schedule.active_of_idle hidle) (decide_eq_true (Table.get?_put_self _ _ _)) htext
      hprompt
    -- Nothing is left to do after the turn.
    obtain rfl := (drainFuel_of_idle _ hsettled.ready).symm.trans hdrain
    exact ⟨task, r, hsettled.carries, hsettled.same, hsettled.ready, hsettled.outcome⟩

end Engine

end LiveCheck
