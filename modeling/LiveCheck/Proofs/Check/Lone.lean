import LiveCheck.Proofs.Check.Completion
import LiveCheck.Proofs.Check.Happening
import LiveCheck.Proofs.Check.Verdict
import LiveCheck.Proofs.Listing.Append

/-!
# A check that is left alone

A check of a source that no other check is under way for, and that is left alone until its compiler
has started and exited (`checkAlone`), comes to its verdict and reports it once
(`Run.reported_alone`). Before that it waits for the start or for the exit of its compiler
(`Underway`), and the task gets from one to the next in a turn of its own (`Heading.settle`).
-/

namespace LiveCheck.Engine

variable {e e' : Engine} {t : TaskId} {task : Task} {s : Session} {id : Int} {b : Behaviour}
  {verdict : Verdict} {progress : Progress} {source listing : Path}

/-! ## A task that is alone with its source -/

/-- The task has its source to itself with nobody behind it, and its session is the newest one. -/
structure Sole (e : Engine) (t : TaskId) (task : Task) (s : Session) : Prop where
  order : InOrder none e
  ready : e.ready = []
  carries : e.Carries t task s
  queue : e.queueOf s.source = [t]
  current : e.isCurrent s
  unheard : s.Unheard
  fault : s.fault = none

/-- How a check that is left alone stands. -/
inductive Underway (e : Engine) (t : TaskId) (id : Int) (b : Behaviour) (verdict : Verdict) :
    Progress → Prop
  /-- Its compiler is to start. -/
  | starting {task : Task} {s : Session} : Sole e t task s → task.session = id →
      task.behaviour = b → task.stage = .starting →
      ComesTo s.source s.listing s.text s.receiver b e.disk verdict →
      Underway e t id b verdict (.waits .starting)
  /-- Its compiler is to exit. -/
  | waiting {task : Task} {s : Session} : Sole e t task s → task.session = id →
      task.behaviour = b → task.stage = .waiting → s.process = some { behaviour := b } →
      Finds s.source s.listing s.text s.receiver (b.leave s.source b.listing e.disk) verdict →
      Underway e t id b verdict (.waits .waiting)
  /-- It is over. -/
  | ended {task : Task} {s : Session} : InOrder none e → e.ready = [] → e.Carries t task s →
      task.session = id → task.stage = .ended verdict.outcome → s.CameTo verdict →
      Underway e t id b verdict (.ends verdict.outcome)

/-- While a check that is left alone is under way, no task can go on. -/
theorem Underway.ready (h : Underway e t id b verdict progress) : e.ready = [] := by
  cases h with
  | starting h | waiting h => exact h.ready
  | ended _ hready => exact hready

/-- A task at the head of a queue that nobody else is in leaves the source free. -/
theorem leaveQueue_eq_of_sole (hqueue : e.queueOf source = [t]) :
    e.leaveQueue t source = { e with queues := e.queues.put source [] } := by
  simp [leaveQueue, hqueue]

theorem queueOf_congr (h : e'.queues = e.queues) (source : Path) :
    e'.queueOf source = e.queueOf source := by
  rw [queueOf, queueOf, h]

/-- A task that is alone with its source waits, and still is. -/
theorem Works.sole {stage : Stage} {s' : Session} (hworks : Works (e, s) (e', s'))
    (horder : InOrder none (e'.settle t s (.waits stage))) (ht : e.Carries t task s)
    (hid : s.id = task.session) (hready : e.ready = []) (hqueue : e.queueOf s.source = [t])
    (hc : e.isCurrent s) (hunheard : s'.Unheard) (hfault : s'.fault = none) :
    Sole (e'.settle t s (.waits stage)) t (task.wait stage) s' where
  order := horder
  ready := hworks.kept.ready.trans hready
  carries := by
    refine ⟨?_, ?_⟩
    · rw [Engine.settle, hworks.kept.tasks, Table.get?_modify_self, ht.1, Option.map_some]
    · have hself : e'.sessions.get? s'.id = some s' := hworks.get?_self (hid ▸ ht.2)
      rw [hworks.same.id, hid] at hself
      exact hself
  queue := by
    rw [hworks.same.source]
    exact (queueOf_congr (e := e) hworks.kept.queues s.source).trans hqueue
  current := (isCurrent_congr hworks.kept.latest ⟨hworks.same.source, hworks.same.id⟩).trans hc
  unheard := hunheard
  fault := hfault

/-- A task that is alone with its source goes on as its turn left it. -/
theorem Heading.settle {r : Engine × Progress} (hheading : Heading e s task.behaviour verdict r)
    (h : InOrder (some (t, .admitted)) e) (ht : e.Carries t task s) (hready : e.ready = [])
    (hqueue : e.queueOf s.source = [t]) (hc : e.isCurrent s) (hheld : task.startHeld ≠ some true)
    (hreach : Reaches e task.behaviour s r) :
    Underway (r.1.settle t s r.2) t task.session task.behaviour verdict r.2 := by
  have hid : s.id = task.session := h.registry.keyed ht.2
  have horder := h.settle ht hheld hreach
  -- A turn that waits leaves the task alone with its source, and one that ends leaves the source to
  -- nobody.
  cases hheading with
  | starting hworks hunheard hfault hcomes =>
    refine .starting (hworks.sole horder ht hid hready hqueue hc hunheard hfault) rfl rfl rfl ?_
    rw [hworks.same.source, hworks.same.listing, hworks.same.text, hworks.same.receiver]
    exact hcomes
  | waiting hworks hprocess hunheard hfault hfinds =>
    refine .waiting (hworks.sole horder ht hid hready hqueue hc hunheard hfault) rfl rfl rfl
      hprocess ?_
    rw [hworks.same.source, hworks.same.listing, hworks.same.text, hworks.same.receiver]
    exact hfinds
  | @ended e' s' hworks hcame =>
    have hunaborted : verdict.outcome ≠ .aborted := by
      obtain ⟨_, -, hleft⟩ := hreach
      exact fun haborted => hleft.ne_aborted (congrArg Progress.ends haborted)
    have hqueue' : (e'.ended t verdict.outcome).queueOf s.source = [t] :=
      (queueOf_congr (e := e) hworks.kept.queues s.source).trans hqueue
    have hself : e'.sessions.get? s'.id = some s' := hworks.get?_self (hid ▸ ht.2)
    rw [hworks.same.id, hid] at hself
    have hsettle : e'.settle t s (.ends verdict.outcome) =
        ((e'.ended t verdict.outcome).leaveQueue t s.source).retire s :=
      settle_ends_eq e' t s hunaborted
    rw [leaveQueue_eq_of_sole hqueue', retire_eq] at hsettle
    dsimp only at horder ⊢
    rw [hsettle] at horder ⊢
    have hended : (e'.ended t verdict.outcome).Carries t
        { task with stage := .ended verdict.outcome } s' := by
      refine ⟨?_, hself⟩
      rw [Engine.ended]
      dsimp only
      rw [hworks.kept.tasks, Table.get?_modify_self, ht.1, Option.map_some]
    exact .ended horder (hworks.kept.ready.trans hready) hended rfl rfl hcame

/-! ## Taking turns -/

theorem drainFuel_of_idle (fuel : Nat) (hready : e.ready = []) : drainFuel fuel e = e := by
  cases fuel with
  | zero => rfl
  | succ fuel => rw [drainFuel, hready]

/-- Nothing more happens when one task could go on, and none can after its turn. -/
theorem drain_of_single (hready : e.ready = [t]) (ht : e.tasks.get? t = some task)
    (hafter : ({ e with ready := [] }.resume t).ready = []) :
    e.drain = { e with ready := [] }.resume t := by
  have hmem := Table.mem_entries_of_get? ht
  obtain ⟨fuel, hfuel⟩ : ∃ fuel, 4 * e.tasks.entries.length = fuel + 1 :=
    Nat.exists_eq_add_one.2 (Nat.mul_pos (by decide) (List.length_pos_of_mem hmem))
  rw [drain, hfuel, drainFuel, hready]
  exact drainFuel_of_idle fuel hafter

/-! ## A check begins -/

/-- A source that no task takes turns for has no active session. -/
theorem Schedule.active_of_idle (h : Schedule none e) (hidle : e.queueOf source = []) :
    e.active.get? source = none := by
  by_contra hsome
  obtain ⟨n, hn⟩ := Option.ne_none_iff_exists'.1 hsome
  obtain ⟨t, task, s, ht, -, rfl, hended⟩ := h.active hn
  have hplaced : task.stage.Place (e.queueOf s.source) t := h.placed ht
  rw [Task.counted_none] at hended
  rw [hidle] at hplaced
  cases h.fits (free_none t) ht with
  | queued hstage => rcases hstage with hstage | hstage <;> simp [hstage, Stage.Place] at hplaced
  | starting hstage | waiting hstage => simp [hstage, Stage.Place] at hplaced
  | ended hstage => simp [hstage, Stage.isEnded] at hended

/-- The engine in which the session is the active one of its source, which its task takes turns for
    alone. -/
def occupied (e : Engine) (t : TaskId) (s : Session) : Engine :=
  { e with active := e.active.put s.source s.id, queues := e.queues.put s.source [t] }

/-- No session is overtaken if none is active. -/
theorem overtake_of_idle (hactive : e.active.get? s.source = none) :
    e.overtake s = { e with active := e.active.put s.source s.id } := by
  simp only [Engine.overtake, hactive]

/-- A task that is alone with its source goes on at once. -/
theorem enter_of_idle (hidle : e.queueOf s.source = []) (hactive : e.active.get? s.source = none) :
    e.enter t task s = (e.occupied t s).proceed task s := by
  have hidle₁ : queueOf { e with active := e.active.put s.source s.id } s.source = [] := hidle
  simp only [Engine.enter, overtake_of_idle hactive, hidle₁, List.isEmpty_nil, if_true,
    List.nil_append, occupied]

/-- The task of a check takes a source that nobody uses for itself. -/
theorem InOrder.occupied (h : InOrder (some (t, .created)) e) (ht : e.Carries t task s)
    (hidle : e.queueOf s.source = []) (hactive : e.active.get? s.source = none) :
    InOrder (some (t, .admitted)) (e.occupied t s) := by
  obtain ⟨hover, ht₁⟩ := h.overtake ht
  rw [overtake_of_idle hactive] at hover ht₁
  have hidle₁ : queueOf { e with active := e.active.put s.source s.id } s.source = [] := hidle
  have hjoin := hover.schedule.join ht₁
  rw [hidle₁] at hjoin
  exact ⟨hover.registry.congr rfl rfl rfl, hjoin⟩

theorem occupied_queueOf (e : Engine) (t : TaskId) (s : Session) :
    (e.occupied t s).queueOf s.source = [t] :=
  (queueOf_put e s.source s.source [t]).trans (if_pos rfl)

/-- The first turn of a task that is alone with its source. -/
theorem InOrder.enter_underway (h : InOrder (some (t, .created)) e) (ht : e.Carries t task s)
    (hheld : task.startHeld = none) (hs : s.New) (hfault : s.fault = none) (hready : e.ready = [])
    (hidle : e.queueOf s.source = []) (hactive : e.active.get? s.source = none)
    (hc : e.isCurrent s) (hwords : ∃ words, e.settings.directives = .ok words)
    (hyields : Yields s.source s.listing s.text s.receiver task.behaviour e.disk verdict) :
    Underway ((e.enter t task s).1.settle t s (e.enter t task s).2) t task.session task.behaviour
      verdict (e.enter t task s).2 := by
  have hjoined := h.occupied ht hidle hactive
  have hheading := proceed_heading (e := e.occupied t s) hs.phase hs.process hc
    ⟨hs.delivered, hs.reports, hs.cancelled⟩ hfault hwords hyields
  rw [enter_of_idle hidle hactive]
  exact hheading.settle hjoined ht hready (e.occupied_queueOf t s) hc (by simp [hheld])
    (proceed_reaches task hs.phase hs.process hs.plain)

/-- A check of a source that no other task takes turns for is under way after its first turn. -/
theorem InOrder.beginCheck_underway (h : InOrder none e) (hready : e.ready = []) {path : Text}
    {text : Option JsonString} {receiver : Receiver}
    (hnew : e.newSession path text receiver = (e', .ok s)) (hfault : s.fault = none)
    (hidle : e.queueOf s.source = []) (hwords : ∃ words, e.settings.directives = .ok words)
    (hyields : Yields s.source s.listing s.text s.receiver b e.disk verdict) :
    ∃ progress, Underway (e'.beginCheck s.id b).1 (e'.beginCheck s.id b).2 s.id b verdict
      progress := by
  obtain ⟨horder, ht⟩ := h.enrol hnew b
  obtain ⟨hs, -, rfl⟩ := newSession_ok hnew
  rw [Engine.beginCheck, resume_eq ht]
  exact ⟨_, horder.enter_underway ht rfl hs hfault hready hidle (h.schedule.active_of_idle hidle)
    (decide_eq_true (Table.get?_put_self _ _ _)) hwords hyields⟩

/-! ## The compiler starts and exits -/

/-- The turn of a task that is alone with its source, and is all that can go on. -/
theorem InOrder.turn_underway (h : InOrder none e) (hready : e.ready = [t])
    (ht : e.Carries t task s) (hqueue : e.queueOf s.source = [t]) (hc : e.isCurrent s)
    (hheading : Heading { e with ready := [] } s task.behaviour verdict
      ({ e with ready := [] }.turn t task s)) :
    Underway e.drain t task.session task.behaviour verdict
      ({ e with ready := [] }.turn t task s).2 := by
  have hmem : e.ready = [] ++ t :: [] := hready
  obtain ⟨a, r, ha, hgo, hfits, hbusy⟩ := h.schedule.take hmem
  obtain ⟨rfl, rfl⟩ := ha.unique ht
  let e₁ : Engine := { e with ready := [] }
  have ht₁ : e₁.Carries t a r := ht
  have horder : InOrder (some (t, .admitted)) e₁ := ⟨h.registry.congr rfl rfl rfl, hbusy⟩
  have hreach := turn_reaches (e := e₁) hfits hgo (h.registry.plain ht.2) t
  have hnext := hheading.settle horder ht₁ rfl hqueue hc (hfits.startHeld_of_canGoOn hgo) hreach
  rw [← resume_eq ht₁] at hnext
  rw [drain_of_single hready ht.1 hnext.ready]
  exact hnext

/-- A task that is not held does not notice that its start is opened. -/
theorem InOrder.allowStart_of_unheld (h : InOrder none e) (ht : e.Carries t task s)
    (hstage : task.stage ≠ .starting) : (e.allowStart task.session).1 = e := by
  have hheld : task.startHeld ≠ some true := fun hheld =>
    hstage ((h.schedule.fits (free_none t) ht).starting_of_held hheld).1
  rw [Engine.allowStart, openStart_eq h.schedule.toRoster ht.1, if_neg hheld]
  rfl

/-- A task that is alone with its source and waits for the start of its compiler is held. -/
theorem Sole.held (h : Sole e t task s) (hstage : task.stage = .starting) :
    task.startHeld = some true ∧ s.phase = .spawning ∧ s.process = none := by
  have hgo := h.order.schedule.not_canGoOn h.ready h.carries
  cases h.order.schedule.fits (free_none t) h.carries with
  | @starting held _ hheld hphase hprocess =>
    cases held with
    | true => exact ⟨hheld, hphase, hprocess⟩
    | false => exact absurd (by simpa [Task.CanGoOn, hstage] using hheld) hgo
  | queued hs => simp [hstage] at hs
  | waiting hs | ended hs => simp [hstage] at hs

/-- When the compiler has started, the check goes on to its verdict. -/
theorem Sole.starts (h : Sole e t task s) (hstage : task.stage = .starting)
    (hcomes : ComesTo s.source s.listing s.text s.receiver task.behaviour e.disk verdict) :
    ∃ progress, Underway (e.allowStart task.session).1 t task.session task.behaviour verdict
      progress ∧ progress ≠ .waits .starting := by
  obtain ⟨hheld, hphase, hprocess⟩ := h.held hstage
  let task' : Task := { task with startHeld := some false }
  let e₁ : Engine := { e with tasks := e.tasks.put t task', ready := [t] }
  have hopen : e.openStart task.session = some e₁ := by
    rw [openStart_eq h.order.schedule.toRoster h.carries.1, if_pos hheld, if_pos hstage, h.ready]
    rfl
  have ht : e₁.Carries t task' s := ⟨Table.get?_put_self _ _ _, h.carries.2⟩
  have hturn : { e₁ with ready := [] }.turn t task' s = launch { e₁ with ready := [] } task' s := by
    simp only [Engine.turn, task', hstage]
  have hheading : Heading { e₁ with ready := [] } s task'.behaviour verdict
      (launch { e₁ with ready := [] } task' s) :=
    launch_heading hphase hprocess h.current h.unheard h.fault hcomes
  rw [← hturn] at hheading
  have hnext := (h.order.openStart hopen).turn_underway rfl ht h.queue h.current hheading
  rw [Engine.allowStart, hopen]
  -- After the start only the exit can still be waited for.
  refine ⟨_, hnext, fun hstarting => ?_⟩
  have hleft := launch_left { e₁ with ready := [] } task' s
  rw [← hturn, hstarting] at hleft
  simp [Progress.left, Stage.left] at hleft

/-- After its compiler could start, a check does not wait for that any more. -/
theorem Underway.starts (h : Underway e t id b verdict progress) :
    ∃ progress', Underway (e.allowStart id).1 t id b verdict progress' ∧
      progress' ≠ .waits .starting := by
  have hself := h
  cases h with
  | starting hsole hid hb hstage hcomes =>
    subst hid hb
    exact hsole.starts hstage hcomes
  | waiting hsole hid _ hstage =>
    rw [← hid, hsole.order.allowStart_of_unheld hsole.carries (by simp [hstage]), hid]
    exact ⟨_, hself, by simp⟩
  | ended horder _ ht hid hstage =>
    rw [← hid, horder.allowStart_of_unheld ht (by simp [hstage]), hid]
    exact ⟨_, hself, by simp⟩

/-- A compiler exits, and the task that waits for it can go on. -/
theorem Schedule.endProcess_eq (h : Schedule none e) (ht : e.Carries t task s)
    (hstage : task.stage = .waiting) (hprocess : s.process = some { behaviour := b })
    (status : Int) : ∃ e₁, e.endProcess task.session status = some (e₁.enqueue t) ∧
      Works (e, s) (e₁, { s with process := some { behaviour := b, status := some status } }) ∧
      e₁.disk = b.leave s.source b.listing e.disk := by
  refine ⟨(e.exitProcess s { behaviour := b } status).1, ?_,
    exitProcess_works (e := e) hprocess rfl status, e.exitProcess_disk s { behaviour := b } status⟩
  have hwake := h.wake_exitProcess ht.1 hstage hprocess rfl status
  simp only [endProcess, ht.2, hprocess, CompilerProcess.isRunning, Option.isNone_none, if_true,
    hwake]

/-- No compiler exits that is not running. -/
theorem endProcess_of_rests (hs : e.sessions.get? id = some s) (hrests : s.Rests) (status : Int) :
    e.endProcess id status = none := by
  rw [endProcess, hs]
  dsimp only
  split
  · rfl
  · rename_i p hp
    rw [hrests p hp]
    rfl

theorem Underway.ended_of_left (h : Underway e t id b verdict progress)
    (hleft : progress.left = 0) : Underway e t id b verdict (.ends verdict.outcome) := by
  cases h with
  | starting | waiting => simp [Progress.left, Stage.left] at hleft
  | ended horder hready ht hid hstage hcame => exact .ended horder hready ht hid hstage hcame

/-- A task that is alone with its source and waits for its compiler gets to its end. -/
theorem Sole.exits (h : Sole e t task s) (hstage : task.stage = .waiting)
    (hprocess : s.process = some { behaviour := task.behaviour })
    (hfinds : Finds s.source s.listing s.text s.receiver
      (task.behaviour.leave s.source task.behaviour.listing e.disk) verdict) (status : Int) :
    Underway (e.allowExit task.session status).1 t task.session task.behaviour verdict
      (.ends verdict.outcome) := by
  have ht := h.carries
  have hid : s.id = task.session := h.order.registry.keyed ht.2
  have hphase : s.phase = .running :=
    (h.order.schedule.fits (free_none t) ht).phase_of_running hprocess rfl
  obtain ⟨e₁, hend, hworks, hdisk⟩ := h.order.schedule.endProcess_eq ht hstage hprocess status
  -- The process has exited, and the task that waited for it is the only one that can go on.
  let p : CompilerProcess := { behaviour := task.behaviour, status := some status }
  let s₁ : Session := { s with process := some p }
  have hself : e₁.sessions.get? s₁.id = some s₁ := hworks.get?_self (hid ▸ ht.2)
  have ht₁ : (e₁.enqueue t).Carries t task s₁ := ⟨hworks.kept.tasks ▸ ht.1, hid ▸ hself⟩
  have hready₁ : (e₁.enqueue t).ready = [t] := by
    rw [enqueue, hworks.kept.ready, h.ready, List.nil_append]
  have hqueue₁ : (e₁.enqueue t).queueOf s₁.source = [t] :=
    (queueOf_congr (e := e) hworks.kept.queues s.source).trans h.queue
  have hc₁ : (e₁.enqueue t).isCurrent s₁ :=
    (isCurrent_congr hworks.kept.latest ⟨rfl, rfl⟩).trans h.current
  let e₂ : Engine := { e₁.enqueue t with ready := [] }
  have hturn : e₂.turn t task s₁ = e₂.collect s₁ p status := by
    simp only [Engine.turn, hstage, s₁, p]
  have hfinds₁ : Finds s₁.source s₁.listing s₁.text s₁.receiver e₂.disk verdict := hdisk ▸ hfinds
  have hheading := collect_heading (e := e₂) (s := s₁) (b := task.behaviour) hphase hc₁
    { h.unheard with } h.fault hfinds₁ p status
  rw [← hturn] at hheading
  have hnext := (h.order.endProcess hend).turn_underway hready₁ ht₁ hqueue₁ hc₁ hheading
  rw [Engine.allowExit, hend]
  exact hnext.ended_of_left ((congrArg (·.2.left) hturn).trans (afterExit_left _ _ _))

/-- After its compiler has exited, a check is over. -/
theorem Underway.exits (h : Underway e t id b verdict progress)
    (hstart : progress ≠ .waits .starting) (status : Int) :
    Underway (e.allowExit id status).1 t id b verdict (.ends verdict.outcome) := by
  have hself := h
  cases h with
  | starting => exact absurd rfl hstart
  | waiting hsole hid hb hstage hprocess hfinds =>
    subst hid hb
    exact hsole.exits hstage hprocess hfinds status
  | @ended task s horder _ ht hid hstage =>
    subst hid
    obtain ⟨outcome, -, hleft⟩ :=
      (horder.schedule.fits (free_none t) ht).left_of_ended (by rw [hstage]; rfl)
    rw [Engine.allowExit, endProcess_of_rests ht.2 hleft.rests]
    exact hself

/-! ## A check that is left alone -/

/-- Checks a source, and lets nothing happen but the start and the exit of its compiler. -/
def checkAlone (e : Engine) (path : Text) (text : Option JsonString) (receiver : Receiver)
    (behaviour : Behaviour) (status : Int) : Engine × Except Refusal (Session × TaskId) :=
  match e.check path text receiver behaviour with
  | (e, .error refusal) => (e, .error refusal)
  | (e, .ok (s, t)) => (((e.allowStart s.id).1.allowExit s.id status).1, .ok (s, t))

/-- Checking a source, and letting nothing happen but to its compiler, is part of a run. -/
theorem Run.checkAlone (h : Run e) (path : Text) (text : Option JsonString) (receiver : Receiver)
    (behaviour : Behaviour) (status : Int) :
    Run (e.checkAlone path text receiver behaviour status).1 := by
  have hcheck := h.check path text receiver behaviour
  rw [Engine.checkAlone]
  generalize e.check path text receiver behaviour = checked at *
  obtain ⟨e₁, refusal | ⟨s, t⟩⟩ := checked
  · exact hcheck
  · exact (hcheck.allowStart _).allowExit _ _

/-- The session that is made for a source. -/
theorem newSession_eq {path : Text} (text : Option JsonString) (receiver : Receiver)
    (hsource : e.disk.resolved path = .ok source) (henabled : e.isEnabled source = .ok true)
    (hlisting : e.settings.listingPath source = .ok listing) :
    ∃ e', e.newSession path text receiver =
      (e', .ok { id := e.nextId, source, listing, text, receiver }) := by
  have hadmission : e.admission source = .ok () := by
    rw [isEnabled] at henabled
    rw [admission]
    cases hsuffixes : e.suffixes with
    | error fault =>
      rw [hsuffixes] at henabled
      cases henabled
    | ok suffixes =>
      rw [hsuffixes] at henabled
      have henabled : isEnabledBy suffixes source = .ok true := henabled
      simp only [henabled]
  simp only [newSession, hsource, hadmission, hlisting]
  exact ⟨_, rfl⟩

/-- A check that is left alone comes to its verdict. -/
theorem Run.comes_to_verdict (h : Run e) (hwords : ∃ words, e.settings.directives = .ok words)
    {path : Text} {text : Option JsonString} {receiver : Receiver}
    (hsource : e.disk.resolved path = .ok source) (henabled : e.isEnabled source = .ok true)
    (hlisting : e.settings.listingPath source = .ok listing) (hidle : e.queueOf source = [])
    (hyields : Yields source listing text receiver b e.disk verdict) (status : Int) :
    ∃ s t task r, (e.checkAlone path text receiver b status).2 = .ok (s, t) ∧
      (e.checkAlone path text receiver b status).1.Carries t task r ∧ task.session = s.id ∧
      task.stage = .ended verdict.outcome ∧ r.CameTo verdict := by
  obtain ⟨e₁, hnew⟩ := newSession_eq text receiver hsource henabled hlisting
  obtain ⟨progress, hbegun⟩ := h.reachable.inOrder.beginCheck_underway h.ready hnew rfl hidle hwords
    hyields
  have hcheck : e.check path text receiver b = ((e₁.beginCheck e.nextId b).1,
      .ok ({ id := e.nextId, source, listing, text, receiver }, (e₁.beginCheck e.nextId b).2)) := by
    simp only [Engine.check, hnew, runSession, drain, drainFuel_of_idle _ hbegun.ready]
  -- What the check waits for comes: first the start, then the exit.
  obtain ⟨progress', hstarted, hnot⟩ := hbegun.starts
  have hended := hstarted.exits hnot status
  rw [Engine.checkAlone, hcheck]
  generalize verdict.outcome = outcome at hended
  cases hended with
  | ended _ _ ht hid hstage hcame => exact ⟨_, _, _, _, rfl, ht, hid, hstage, hcame⟩

/-- A check of a source that no other check is under way for, and that is left alone, reports once:
    what its listing tells if the source was saved, the compiler has started and the listing and the
    text of the source can be used, and nothing otherwise. It holds a fault if the source could not
    be saved, the system refused to start the compiler, or there was a listing that could not be
    used. Only a check whose text is none, or whose command cannot be handed to the system, does not
    report: its task fails, and its session stays where it was. -/
theorem Run.reported_alone (h : Run e) (hwords : ∃ words : List JsonString,
      e.settings.getOrDefault "directives" = .list (words.map .string)) {path : Text}
    {text : Option JsonString} {behaviour : Behaviour} (hsource : e.disk.resolved path = .ok source)
    (henabled : e.isEnabled source = .ok true)
    (hlisting : e.settings.listingPath source = .ok listing) (hidle : e.queueOf source = [])
    (hexists : ∀ d, saved source text e.disk = .ok d → behaviour.failedStart = none →
      ∃ found, (behaviour.exitDisk source d).pathExists listing = .ok found)
    (receiver : Receiver) (status : Int) :
    ∃ s t task r, (e.checkAlone path text receiver behaviour status).2 = .ok (s, t) ∧
      (e.checkAlone path text receiver behaviour status).1.Carries t task r ∧ r.id = s.id ∧
      ((∃ diagnostics, task.stage = .ended receiver.outcome ∧ r.reports = [diagnostics] ∧
          (e.checkAlone path text receiver behaviour status).1.deliveries.filter (·.1 = r.id) =
            [(r.id, diagnostics)] ∧
          (r.phase = .reported ∧ TellsAtLast source listing text behaviour e.disk diagnostics ∨
            r.phase = .reportedEmpty ∧ diagnostics = [] ∧
              ∀ told, ¬TellsAtLast source listing text behaviour e.disk told) ∧
          (r.fault.isSome ↔ GoesWrong source listing text behaviour e.disk)) ∨
        ∃ fault phase, Fails source text behaviour e.disk fault phase ∧
          task.stage = .ended (.failed fault) ∧ r.phase = phase ∧ r.fault = none ∧
          r.reports = [] ∧ (e.checkAlone path text receiver behaviour status).1.deliveries.filter
            (·.1 = r.id) = []) := by
  obtain ⟨words, hwords⟩ := hwords
  obtain ⟨verdict, hyields⟩ : ∃ verdict,
      Yields source listing text receiver behaviour e.disk verdict := exists_yields hexists
  obtain ⟨s, t, task, r, hcheck, ht, hid, hstage, hcame⟩ := h.comes_to_verdict
    ⟨_, directives_of_strings hwords⟩ hsource henabled hlisting hidle hyields status
  have hafter := (h.checkAlone path text receiver behaviour status).reachable
  have hkeyed : r.id = task.session := hafter.inOrder.registry.keyed ht.2
  have htied := hafter.ledger.tied ht.2
  rw [← hkeyed] at htied
  refine ⟨s, t, task, r, hcheck, ht, hkeyed.trans hid, ?_⟩
  -- What the check comes to decides whether it has reported.
  rcases hyields.reports_or_fails with hreports | ⟨fault, phase, rfl, hfails⟩
  · left
    rw [hreports.outcome] at hstage
    have hfaulty : r.fault.isSome ↔ GoesWrong source listing text behaviour e.disk := by
      rw [hcame.fault]
      exact hreports.faulty
    rcases hreports.reports with ⟨diagnostics, hphase, htold, htells⟩ | ⟨hphase, htold, hnone⟩
    · have htold := hcame.reports.trans htold
      rw [htold] at htied
      exact ⟨diagnostics, hstage, htold, htied, .inl ⟨hcame.phase.trans hphase, htells⟩, hfaulty⟩
    · have htold := hcame.reports.trans htold
      rw [htold] at htied
      exact ⟨[], hstage, htold, htied, .inr ⟨hcame.phase.trans hphase, rfl, hnone⟩, hfaulty⟩
  · right
    have hnone : r.reports = [] := hcame.reports
    have hfault : r.fault.isSome = false := hcame.fault
    rw [hnone] at htied
    exact ⟨fault, phase, hfails, hstage, hcame.phase, by simpa using hfault, hnone, htied⟩

/-- A listing with two messages, the second of which points past the end of a short line. -/
def twoMessages : Text :=
  "****  $140   $171\n**** LINE 1\n140 Unknown symbol\n171 Domain violation\n".toList

/-- A string with half of a character between two characters. -/
def halved : JsonString := .broken [.char 'x', .half 0xd800, .char 'y']

/-- A compiler that leaves a listing when it exits. -/
def printing (text : Text) : Behaviour := { listing := some (.file (Utf8.encode text) false) }

/-- A source can be checked with a new engine on an empty disk. -/
theorem exists_create_empty : ∃ e : Engine, Engine.create {} [] ⟨.ofText "/".toList, ∅⟩ = .ok e ∧
    e.disk = {} ∧
    (∃ words : List JsonString,
      e.settings.getOrDefault "directives" = .list (words.map .string)) ∧
    e.disk.resolved "/m.gms".toList = .ok (.ofText "/m.gms".toList) ∧
    e.isEnabled (.ofText "/m.gms".toList) = .ok true ∧
    e.settings.listingPath (.ofText "/m.gms".toList) = .ok (.ofText "/m.lst".toList) ∧
    e.queueOf (.ofText "/m.gms".toList) = [] :=
  ⟨_, rfl, rfl, ⟨[.text "action=c".toList, .text "lo=0".toList], rfl⟩, by decide +kernel,
    by decide +kernel, by decide +kernel, rfl⟩

/-- A check whose compiler starts late and exits late, with a listing of two messages. -/
theorem reported_alone_of_held : ∃ e e' s t task r,
    Engine.create {} [] ⟨.ofText "/".toList, ∅⟩ = .ok e ∧
    e.checkAlone "/m.gms".toList (some (.text "abcdefgh\n".toList)) {}
      { printing twoMessages with holdsStart := true, holdsExit := true } 2 = (e', .ok (s, t)) ∧
    e'.Carries t task r ∧ task.stage = .ended .done ∧ r.phase = .reported ∧ r.fault = none ∧
    r.reports.map (·.map fun d => (d.column, d.startOffset)) = [[(4, 4), (8, 8)]] := by
  obtain ⟨e, hcreate, hdisk, hwords, hsource, henabled, hlisting, hidle⟩ := exists_create_empty
  let b : Behaviour := { printing twoMessages with holdsStart := true, holdsExit := true }
  let text : Option JsonString := some (.text "abcdefgh\n".toList)
  let d : Disk := { nodes := ⟨[(["m.gms".toList], .file (Utf8.encode "abcdefgh\n".toList) false)]⟩ }
  have hsaved : saved (.ofText "/m.gms".toList) text e.disk = .ok d := by
    rw [hdisk]
    rfl
  have hread : (b.exitDisk (.ofText "/m.gms".toList) d).readText (.ofText "/m.lst".toList) =
      .ok twoMessages := by decide +kernel
  let records : List Record := [⟨"140".toList, 4, 1, "Unknown symbol".toList⟩,
    ⟨"171".toList, 11, 1, "Domain violation".toList⟩]
  have hrecords : readListing twoMessages = .ok records := by
    have hstopped : (Scan.ofText twoMessages).stoppedAt = none := by decide +kernel
    have hscan : (Scan.ofText twoMessages).records = records := by decide +kernel
    rw [readListing_eq, hstopped, hscan]
    exact congrArg Except.ok (sortRecords_of_sorted (by rw [Sorted]; decide))
  have htells : TellsAtLast (.ofText "/m.gms".toList) (.ofText "/m.lst".toList) text b e.disk
      (placeRecords records "abcdefgh\n".toList "/m.gms".toList) :=
    ⟨d, hsaved, rfl, _, _, _, hread, rfl, hrecords, rfl⟩
  have hexists : ∀ disk, saved (.ofText "/m.gms".toList) text e.disk = .ok disk →
      b.failedStart = none → ∃ found,
        (b.exitDisk (.ofText "/m.gms".toList) disk).pathExists (.ofText "/m.lst".toList) =
          .ok found := fun disk hdisk _ => by
    obtain rfl := Except.ok.inj (hsaved.symm.trans hdisk)
    exact ⟨true, by decide +kernel⟩
  obtain ⟨s, t, task, r, hcheck, ht, -, ⟨diagnostics, hstage, hreports, -, hcase, hfault⟩ |
      ⟨fault, phase, hfails, -⟩⟩ :=
    Run.reported_alone (.create hcreate) hwords hsource henabled hlisting hidle hexists {} 2
  · rcases hcase with ⟨hphase, htold⟩ | ⟨-, -, hnone⟩
    · obtain rfl := htold.unique htells
      refine ⟨e, _, s, t, task, r, hcreate, Prod.ext rfl hcheck, ht, hstage, hphase, ?_, ?_⟩
      · have hnot := hfault.not.2 htells.not_goesWrong
        simpa using hnot
      · rw [hreports]
        decide +kernel
    · exact absurd htells (hnone _)
  · cases hfails with
    | text hsome hencode =>
      obtain rfl := Option.some.inj hsome
      cases hencode
    | start _ _ hrejected => cases hrejected

/-- Nothing is reported when the text holds half of a character, and the session does not move. -/
theorem not_reported_alone_of_halved : ∃ e e' s t task r,
    Engine.create {} [] ⟨.ofText "/".toList, ∅⟩ = .ok e ∧
    (∃ words : List JsonString,
      e.settings.getOrDefault "directives" = .list (words.map .string)) ∧
    e.disk.resolved "/m.gms".toList = .ok (.ofText "/m.gms".toList) ∧
    e.isEnabled (.ofText "/m.gms".toList) = .ok true ∧
    e.settings.listingPath (.ofText "/m.gms".toList) = .ok (.ofText "/m.lst".toList) ∧
    e.queueOf (.ofText "/m.gms".toList) = [] ∧
    e.checkAlone "/m.gms".toList (some halved) {} {} 0 = (e', .ok (s, t)) ∧
    e'.Carries t task r ∧ task.stage = .ended (.failed (.text ⟨1, [0xd800]⟩)) ∧
    r.phase = .idle ∧ r.fault = none ∧ r.reports = [] := by
  obtain ⟨e, hcreate, hdisk, hwords, hsource, henabled, hlisting, hidle⟩ := exists_create_empty
  let d : Disk := { nodes := ⟨[(["m.gms".toList], .file [] false)]⟩ }
  have hsaved : saved (.ofText "/m.gms".toList) (some halved) e.disk = .ok d := by
    rw [hdisk]
    rfl
  have hyields : Yields (.ofText "/m.gms".toList) (.ofText "/m.lst".toList) (some halved) {} {}
      e.disk (.fails (.text ⟨1, [0xd800]⟩) .idle) := .spoiled rfl rfl hsaved
  obtain ⟨words, hstrings⟩ := hwords
  have hrun : Run e := .create hcreate
  obtain ⟨s, t, task, r, hcheck, ht, -, hstage, hcame⟩ := hrun.comes_to_verdict
    ⟨_, directives_of_strings hstrings⟩ hsource henabled hlisting hidle hyields 0
  have hfault : r.fault.isSome = false := hcame.fault
  refine ⟨e, _, s, t, task, r, hcreate, ⟨words, hstrings⟩, hsource, henabled, hlisting, hidle,
    Prod.ext rfl hcheck, ht, hstage, hcame.phase, by simpa using hfault, hcame.reports⟩

end LiveCheck.Engine
