import LiveCheck.Proofs.Check.Advance
import LiveCheck.Proofs.Check.Completion
import LiveCheck.Proofs.Check.Lone
import LiveCheck.Proofs.Viewer.Rows

/-!
# The viewer settles on the newest check

Two parts of the viewer go their own ways: what it knows of a check is written when a task of the
engine has ended, and the diagnostics when a report is handled, which may be much later. In all
this, what is written is that of the newest check, or the bar says that a check is under way
(`Settling`): a check that has been overtaken is passed over, and reports are handled in the order
in which the engine made them, which is that of their checks.

So once nothing is under way and no report is left, the viewer shows what became of the newest check
(`Run.settled`), unless that one broke off (`BrokeOff`).
-/

namespace LiveCheck

/-- Checking is enabled for a source. -/
def Settings.Enables (settings : Settings) (source : Path) : Prop :=
  ((settings.getOrDefault "extensions").settingItems >>= fun suffixes =>
    isEnabledBy suffixes source) = .ok true

instance (settings : Settings) (source : Path) : Decidable (settings.Enables source) :=
  inferInstanceAs (Decidable (_ = _))

/-- The session saves nothing, and its report is taken in without more ado. -/
structure Session.Mere (s : Session) : Prop where
  text : s.text = none
  receiver : s.receiver = {}

/-- What is said of the fault of a session. -/
def Session.faultText (s : Session) : Text := ((s.fault.map (·.message)).getD "").toList

theorem Session.Mere.later {s s' : Session} (h : s.Mere) (hl : s.Later s') : s'.Mere :=
  ⟨hl.text.trans h.text, hl.receiver.trans h.receiver⟩

namespace Viewer

variable {v w x : Viewer} {e : Engine} {t : TaskId} {task : Task} {s s' : Session}
  {settings : Settings} {path : Text} {source : Path} {listing : Path}

/-- What became of a session is known, and shown by the status bar. -/
structure Shows (v : Viewer) (s : Session) : Prop where
  sessionId : v.source.sessionId = s.id
  phase : v.source.phase = s.phase
  fault : v.source.fault = s.faultText
  status : v.bar.status = s.phase.name.toList
  note : v.bar.note = s.faultText

/-- The status bar says that a check is under way. -/
structure SaysChecking (v : Viewer) : Prop where
  status : v.bar.status = "checking".toList
  note : v.bar.note = []

/-- Being told to stop makes no difference to what is shown of a session. -/
theorem Shows.alike (h : v.Shows s) (h' : s.Alike s') : v.Shows s' := by
  have hfault : s'.faultText = s.faultText := by rw [Session.faultText, Session.faultText, h'.fault]
  exact ⟨h.sessionId.trans h'.id.symm, h.phase.trans h'.phase.symm, h.fault.trans hfault.symm,
    by rw [h'.phase]; exact h.status, h.note.trans hfault.symm⟩

/-! ## What leaves the outcome of a check as it is -/

/-- What is known of the last check stays, and so does what the status bar shows of it. -/
structure Keeps (v w : Viewer) : Prop where
  engine : ∃ (disk : Disk) (log : List Event), disk.denials = v.engine.disk.denials ∧
    w.engine = { v.engine with disk, log }
  path : w.source.path = v.source.path
  sessionId : w.source.sessionId = v.source.sessionId
  phase : w.source.phase = v.source.phase
  fault : w.source.fault = v.source.fault
  diagnostics : w.source.diagnostics = v.source.diagnostics
  status : w.bar.status = v.bar.status
  note : w.bar.note = v.bar.note
  errors : w.bar.errors = v.bar.errors
  shown : v.status = some v.bar.text → w.status = some w.bar.text
  checks : w.checks = v.checks
  taken : w.taken = v.taken
  posted : w.posted = v.posted

theorem Keeps.refl (v : Viewer) : Keeps v v :=
  ⟨⟨_, _, rfl, rfl⟩, rfl, rfl, rfl, rfl, rfl, rfl, rfl, rfl, id, rfl, rfl, rfl⟩

theorem Keeps.trans (h : Keeps v w) (h' : Keeps w x) : Keeps v x where
  engine := by
    obtain ⟨disk, log, hdenials, h⟩ := h.engine
    obtain ⟨disk', log', hdenials', h'⟩ := h'.engine
    rw [h] at hdenials'
    exact ⟨disk', log', hdenials'.trans hdenials, by rw [h', h]⟩
  path := h'.path.trans h.path
  sessionId := h'.sessionId.trans h.sessionId
  phase := h'.phase.trans h.phase
  fault := h'.fault.trans h.fault
  diagnostics := h'.diagnostics.trans h.diagnostics
  status := h'.status.trans h.status
  note := h'.note.trans h.note
  errors := h'.errors.trans h.errors
  shown := h'.shown ∘ h.shown
  checks := h'.checks.trans h.checks
  taken := h'.taken.trans h.taken
  posted := h'.posted.trans h.posted

/-- What is shown of a session stays if the status is kept. -/
theorem Keeps.shows (h : Keeps v w) (hs : v.Shows s) : w.Shows s :=
  ⟨h.sessionId.trans hs.sessionId, h.phase.trans hs.phase, h.fault.trans hs.fault,
    h.status.trans hs.status, h.note.trans hs.note⟩

theorem Keeps.saysChecking (h : Keeps v w) (hs : v.SaysChecking) : w.SaysChecking :=
  ⟨h.status.trans hs.status, h.note.trans hs.note⟩

theorem showPeek_keeps (v : Viewer) : Keeps v v.showPeek.1 := by
  cases hpanel : v.panel with
  | ok shown =>
    rw [showPeek_of_ok hpanel]
    exact { Keeps.refl v with }
  | error fault => rw [showPeek_of_error hpanel]; exact .refl v

theorem populate_keeps (v : Viewer) : Keeps v v.populate.1 := by
  unfold populate
  refine Keeps.trans ?_ (showPeek_keeps _)
  exact { Keeps.refl v with }

/-- A move of the cursor keeps the status. -/
theorem moveCursor_keeps (v : Viewer) (row : Int) : Keeps v (v.moveCursor row).1 := by
  rw [moveCursor]
  split
  · refine Keeps.trans ?_ (showPeek_keeps _)
    exact { Keeps.refl v with }
  · exact .refl v

theorem nextError_keeps (v : Viewer) : Keeps v v.nextError.1 := by
  rcases nextError_eq v with hnext | ⟨row, hnext⟩
  · rw [hnext]; exact .refl v
  · rw [hnext]; exact moveCursor_keeps v row

theorem previousError_keeps (v : Viewer) : Keeps v v.previousError.1 := by
  rcases previousError_eq v with hprevious | ⟨row, hprevious⟩
  · rw [hprevious]; exact .refl v
  · rw [hprevious]; exact moveCursor_keeps v row

theorem note_keeps (v : Viewer) (events : List Event) :
    Keeps v { v with engine := v.engine.note events } :=
  { Keeps.refl v with engine := ⟨_, _, rfl, rfl⟩ }

theorem on_keeps (v : Viewer) {d : Disk} (h : d.denials = v.engine.disk.denials) :
    Keeps v (v.on d) :=
  { Keeps.refl v with engine := ⟨d, v.engine.log, h, rfl⟩ }

/-- Reading the source keeps the status. -/
theorem readSource_keeps (v : Viewer) : Keeps v v.readSource.1 := by
  unfold readSource
  dsimp only
  split
  · exact note_keeps v _
  · refine Keeps.trans ?_ (populate_keeps _)
    exact { Keeps.refl v with }

/-! ## Ends of checks -/

/-- The outcome of a check that was overtaken is not shown. -/
theorem conclude_of_superseded (h : s.phase = .superseded) (v : Viewer) : v.conclude s = v := by
  rw [conclude, if_pos h]

/-- The outcome of any other check is shown in the status bar. -/
theorem conclude_eq (h : s.phase ≠ .superseded) (v : Viewer) :
    v.conclude s = { v with
      source := { v.source with
        sessionId := s.id, phase := s.phase, fault := s.faultText } }.tellBar
        { v.bar with status := s.phase.name.toList, note := s.faultText } := by
  rw [conclude, if_neg h]
  rfl

/-- After its outcome was told, the session is shown. -/
theorem conclude_shows (h : s.phase ≠ .superseded) (v : Viewer) : (v.conclude s).Shows s := by
  rw [conclude_eq h]
  exact ⟨rfl, rfl, rfl, rfl, rfl⟩

/-- Taking in the outcome of a check leaves no trace of the one that was taken in before. -/
theorem conclude_conclude (h : s'.phase ≠ .superseded) (v : Viewer) (s : Session) :
    (v.conclude s).conclude s' = v.conclude s' := by
  by_cases hs : s.phase = .superseded
  · rw [conclude_of_superseded hs]
  · rw [conclude_eq h, conclude_eq h, conclude_eq hs]
    rfl

theorem conclude_engine (v : Viewer) (s : Session) : (v.conclude s).engine = v.engine := by
  rw [conclude]
  split <;> rfl

/-- A task of the engine has ended with an outcome of its session that the viewer takes in. -/
def Tells (e : Engine) (t : TaskId) (s : Session) : Prop :=
  ∃ task, e.Carries t task s ∧ task.stage = .ended .done ∧ s.phase ≠ .superseded

/-- The end of a task is passed over, or tells what became of its session. -/
theorem concludeTask_eq (v : Viewer) (t : TaskId) :
    ((v.concludeTask t).1 = v ∧ ∀ s, ¬Tells v.engine t s) ∨
      ∃ s, Tells v.engine t s ∧ (v.concludeTask t).1 = v.conclude s := by
  have hnone : ∀ task, v.engine.tasks.get? t = some task → task.stage ≠ .ended .done →
      ∀ s, ¬Tells v.engine t s := by
    rintro task ht hstage s ⟨task', ht', hdone, -⟩
    obtain rfl := Option.some.inj (ht.symm.trans ht'.1)
    exact hstage hdone
  unfold concludeTask
  split
  · rename_i ht
    exact .inl ⟨rfl, fun s ⟨_, ht', _⟩ => nomatch ht.symm.trans ht'.1⟩
  rename_i task ht
  split
  · exact .inl ⟨rfl, hnone task ht (by simp [*])⟩
  · rename_i hstage
    split
    · rename_i s hs
      -- A session that was overtaken is passed over, so it tells nothing.
      by_cases hphase : s.phase = .superseded
      · refine .inl ⟨conclude_of_superseded hphase v, ?_⟩
        rintro s' ⟨task', ht', -, hphase'⟩
        obtain rfl := Option.some.inj (ht.symm.trans ht'.1)
        obtain rfl := Option.some.inj (hs.symm.trans ht'.2)
        exact hphase' hphase
      · exact .inr ⟨s, ⟨task, ⟨ht, hs⟩, hstage, hphase⟩, rfl⟩
    · rename_i hs
      refine .inl ⟨rfl, ?_⟩
      rintro s' ⟨task', ht', -⟩
      obtain rfl := Option.some.inj (ht.symm.trans ht'.1)
      exact nomatch hs.symm.trans ht'.2
  · rename_i hstage
    exact .inl ⟨rfl, hnone task ht (fun hdone => hstage hdone)⟩

/-- Of several ends of tasks, the last one that tells anything counts. -/
theorem concludeTasks_eq (v : Viewer) (ended : List TaskId) :
    ((v.concludeTasks ended).1 = v ∧ ∀ t ∈ ended, ∀ s, ¬Tells v.engine t s) ∨
      ∃ t ∈ ended, ∃ s, Tells v.engine t s ∧ (v.concludeTasks ended).1 = v.conclude s := by
  induction ended generalizing v with
  | nil => exact .inl ⟨rfl, by simp⟩
  | cons t rest ih =>
    simp only [concludeTasks]
    rcases concludeTask_eq v t with ⟨hfirst, hnone⟩ | ⟨s, htells, hfirst⟩
    · rw [hfirst]
      rcases ih v with ⟨hrest, hnone'⟩ | ⟨t', ht', s', htells', hrest⟩
      · refine .inl ⟨hrest, fun t' ht' => ?_⟩
        rcases List.mem_cons.1 ht' with rfl | ht'
        exacts [hnone, hnone' t' ht']
      · exact .inr ⟨t', List.mem_cons_of_mem t ht', s', htells', hrest⟩
    · rw [hfirst]
      rcases ih (v.conclude s) with ⟨hrest, -⟩ | ⟨t', ht', s', htells', hrest⟩
      · exact .inr ⟨t, List.mem_cons_self, s, htells, hrest⟩
      · rw [conclude_engine] at htells'
        refine .inr ⟨t', List.mem_cons_of_mem t ht', s', htells', ?_⟩
        obtain ⟨-, -, -, hphase⟩ := htells'
        rw [hrest, conclude_conclude hphase]

/-! ## The invariant -/

/-- The viewer knows and shows what became of the newest check, or says that it is under way, and it
    handles the reports in their order. -/
structure Settling (settings : Settings) (path : Text) (source : Path) (v : Viewer) : Prop where
  settings : v.engine.settings = settings
  path : v.source.path = path
  rest : v.engine.AtRest
  concerns : v.engine.Concerns source
  asked : v.checks.getLast? = (v.engine.latest.get? source).map some
  taken : v.taken = (v.engine.finished.length, v.engine.deliveries.length)
  handled : ∃ handled, v.engine.deliveries.map (·.2) = handled ++ v.posted ∧
    v.source.diagnostics = handled.getLastD []
  errors : v.bar.errors = v.source.diagnostics.length
  shown : v.checks = [] ∨ v.status = some v.bar.text
  shows : ∀ {t task s}, v.engine.Carries t task s → v.engine.isCurrent s →
    task.stage = .ended .done → v.Shows s
  checking : ∀ {t task s}, v.engine.Carries t task s → v.engine.isCurrent s →
    task.stage ≠ .ended .done → v.SaysChecking
  /-- The newest check was asked for by the viewer: it saves nothing, and its report is taken in. -/
  mere : ∀ {t task s}, v.engine.Carries t task s → v.engine.isCurrent s → s.Mere

/-- A viewer that has just been made for a path. -/
theorem create_eq {machine : Machine} {p : Text} (h : create machine e p = .ok v) :
    ∃ target, e.disk.resolved p = .ok target ∧
      { machine, engine := e
        watcher := { window := e.settings.getOrDefault "debounce_seconds" }
        source := { path := target.text } } = v := by
  rw [Viewer.create] at h
  cases hp : e.disk.resolved p with
  | error fault => rw [hp] at h; cases h
  | ok target => rw [hp] at h; exact ⟨target, rfl, Except.ok.inj h⟩

/-- A new viewer waits for its first check. -/
theorem Settling.create {machine : Machine} {disk : Disk} {searchPath : List Text} {p : Text}
    (he : Engine.create disk searchPath settings = .ok e) (hv : create machine e p = .ok v) :
    Settling settings v.source.path source v := by
  obtain ⟨target, -, rfl⟩ := create_eq hv
  have hrest := Engine.AtRest.create he
  obtain ⟨compiler, log, rfl⟩ := Engine.create_eq he
  exact {
    settings := rfl, path := rfl, rest := hrest, concerns := fun _ _ hs => nomatch hs
    asked := rfl, taken := rfl, handled := ⟨[], rfl, rfl⟩, errors := rfl, shown := .inl rfl
    shows := fun ht => (nomatch ht.1), checking := fun ht => (nomatch ht.1)
    mere := fun ht => (nomatch ht.1) }

/-- A step that keeps the status keeps the viewer settling. -/
theorem Settling.keeps (h : Settling settings path source v) (hk : Keeps v w) :
    Settling settings path source w := by
  obtain ⟨disk, log, hdenials, hengine⟩ := hk.engine
  have hrest := h.rest.amid hdenials log
  rw [← hengine] at hrest
  refine ⟨?_, hk.path.trans h.path, hrest, ?_, ?_, ?_, ?_, ?_, ?_, ?_, ?_, ?_⟩
  · rw [hengine]; exact h.settings
  · rw [hengine]; exact h.concerns
  · rw [hk.checks, hengine]; exact h.asked
  · rw [hk.taken, hengine]; exact h.taken
  · rw [hk.posted, hk.diagnostics, hengine]; exact h.handled
  · rw [hk.errors, hk.diagnostics]; exact h.errors
  · rw [hk.checks]; exact h.shown.imp_right hk.shown
  · intro t task s ht hc hstage
    rw [hengine] at ht hc
    exact hk.shows (h.shows ht hc hstage)
  · intro t task s ht hc hstage
    rw [hengine] at ht hc
    exact hk.saysChecking (h.checking ht hc hstage)
  · intro t task s ht hc
    rw [hengine] at ht hc
    exact h.mere ht hc

/-! ## Taking in what the engine did -/

/-- The tasks that have ended since are those that the viewer takes in. -/
theorem mem_drop_finished {e₀ : Engine} (h₀ : e₀.AtRest) (h : e.AtRest)
    (hadvance : e₀.Advance e) : t ∈ e.finished.drop e₀.finished.length ↔
      e.HasEnded t ∧ ¬e₀.HasEnded t := by
  obtain ⟨ended, hgrown⟩ := hadvance.rolls.grown
  have hnodup := h.tally.nodup
  rw [hgrown] at hnodup
  rw [← h.tally.mem, ← h₀.tally.mem, hgrown, List.drop_left, List.mem_append]
  have hdisjoint := (List.nodup_append.1 hnodup).2.2
  constructor
  · exact fun ht => ⟨.inr ht, fun ht' => hdisjoint t ht' t ht rfl⟩
  · exact fun ⟨ht, hnot⟩ => ht.resolve_left hnot

/-- The viewer is to take in what its engine did. What it knows of a check that had ended before has
    to be that of the newest one, and the bar has to say that a check is under way if the newest one
    had not. -/
structure Following (settings : Settings) (path : Text) (source : Path) (v : Viewer)
    (e : Engine) : Prop where
  before : v.engine.AtRest
  rest : e.AtRest
  advance : v.engine.Advance e
  settings : e.settings = settings
  path : v.source.path = path
  concerns : e.Concerns source
  asked : v.checks.getLast? = (e.latest.get? source).map some
  taken : v.taken = (v.engine.finished.length, v.engine.deliveries.length)
  handled : ∃ handled, v.engine.deliveries.map (·.2) = handled ++ v.posted ∧
    v.source.diagnostics = handled.getLastD []
  errors : v.bar.errors = v.source.diagnostics.length
  shown : v.checks = [] ∨ v.status = some v.bar.text
  shows : ∀ {t task s}, e.Carries t task s → e.isCurrent s → task.stage = .ended .done →
    v.engine.HasEnded t → v.Shows s
  checking : ∀ {t task s}, e.Carries t task s → e.isCurrent s →
    task.stage ≠ .ended .done ∨ ¬v.engine.HasEnded t → v.SaysChecking
  mere : ∀ {t task s}, e.Carries t task s → e.isCurrent s → s.Mere

/-- There is one newest check, and one task that carries it out. -/
theorem Following.unique (h : Following settings path source v e) {t' : TaskId} {task' : Task}
    (ht : e.Carries t task s) (hc : e.isCurrent s) (ht' : e.Carries t' task' s')
    (hc' : e.isCurrent s') : task' = task ∧ s' = s := by
  have hr := h.rest.order.registry
  have hsession : task'.session = task.session := Option.some.inj
    ((h.concerns.latest hr ht'.2 hc').symm.trans (h.concerns.latest hr ht.2 hc))
  obtain rfl := h.rest.order.schedule.alone ht'.1 ht.1 hsession
  obtain rfl := Option.some.inj (ht'.1.symm.trans ht.1)
  exact ⟨rfl, Option.some.inj (ht'.2.symm.trans ht.2)⟩

/-- Of the checks that have ended since, none but the newest one tells anything. -/
theorem Following.current_of_tells (h : Following settings path source v e)
    (ht : t ∈ e.finished.drop v.engine.finished.length) (htells : Tells e t s) :
    e.isCurrent s := by
  obtain ⟨task, hcarries, hstage, hphase⟩ := htells
  refine h.advance.current_of_reported h.before.order h.before.ledger hcarries
    ((mem_drop_finished h.before h.rest h.advance).1 ht).2 ?_
  simpa [Phase.isFinal, hphase] using h.rest.order.final_of_done hcarries hstage

/-- The newest check tells something when it has ended: it was not overtaken. -/
theorem Following.tells_of_current (h : Following settings path source v e)
    (ht : e.Carries t task s) (hc : e.isCurrent s) (hstage : task.stage = .ended .done) :
    Tells e t s := by
  have hr := h.rest.order.registry
  exact ⟨task, ht, hstage, h.rest.ledger.not_superseded ht.2 (hr.keyed ht.2) (hr.isNewest hc)⟩

/-- What the engine did is taken in. -/
theorem Following.settling (h : Following settings path source v e) :
    Settling settings path source (v.follow e).1 := by
  obtain ⟨told, htold, -⟩ := h.advance.told
  let u : Viewer := { v with
    engine := e, taken := (e.finished.length, e.deliveries.length)
    posted := v.posted ++ told.map (·.2) }
  have hhandled : ∃ handled, u.engine.deliveries.map (·.2) = handled ++ u.posted ∧
      u.source.diagnostics = handled.getLastD [] := by
    obtain ⟨handled, hmap, hlast⟩ := h.handled
    refine ⟨handled, ?_, hlast⟩
    rw [htold, List.map_append, hmap, List.append_assoc]
  -- What came since is what the viewer has not taken in.
  have heq : (v.follow e).1 = (u.concludeTasks (e.finished.drop v.engine.finished.length)).1 := by
    have htaken : v.taken.1 = v.engine.finished.length ∧
        v.taken.2 = v.engine.deliveries.length := by rw [h.taken]; exact ⟨rfl, rfl⟩
    rw [Viewer.follow, htaken.1, htaken.2, htold, List.drop_left]
    simp only [u, htold]
  rw [heq]
  -- Only the last of the checks that ended and tell something shows.
  rcases concludeTasks_eq u (e.finished.drop v.engine.finished.length) with
    ⟨hsame, hnone⟩ | ⟨t, ht, s, htells, hlast⟩
  · rw [hsame]
    refine ⟨h.settings, h.path, h.rest, h.concerns, h.asked, rfl, hhandled, h.errors, h.shown,
      fun {t task s} hcarries hc hstage => ?_, fun hcarries hc hstage => ?_, h.mere⟩
    · by_cases hbefore : v.engine.HasEnded t
      · exact { h.shows hcarries hc hstage hbefore with }
      · -- A check that has ended since tells something if it is the newest one.
        have ht : t ∈ e.finished.drop v.engine.finished.length :=
          (mem_drop_finished h.before h.rest h.advance).2
            ⟨⟨task, hcarries.1, by rw [hstage]; rfl⟩, hbefore⟩
        exact absurd (h.tells_of_current hcarries hc hstage) (hnone t ht s)
    · exact { h.checking hcarries hc (.inl hstage) with }
  · have hc := h.current_of_tells ht htells
    obtain ⟨task, hcarries, hstage, hphase⟩ := htells
    have hshows := conclude_shows hphase u
    rw [hlast]
    rw [conclude_eq hphase] at hshows ⊢
    refine ⟨h.settings, h.path, h.rest, h.concerns, h.asked, rfl, hhandled, h.errors, .inr rfl,
      fun hcarries' hc' _ => ?_, fun hcarries' hc' hstage' => ?_, h.mere⟩
    · exact (h.unique hcarries hc hcarries' hc').2 ▸ hshows
    · exact absurd hstage ((h.unique hcarries hc hcarries' hc').1 ▸ hstage')

/-- The compiler of a check starts or exits, and no check is made. -/
theorem Settling.following (h : Settling settings path source v) (hrest : e.AtRest)
    (hadvance : v.engine.Advance e) (hun : v.engine.Unhanded e) :
    Following settings path source v e where
  before := h.rest
  rest := hrest
  advance := hadvance
  settings := hadvance.settings.trans h.settings
  path := h.path
  concerns := h.concerns.of_unhanded h.rest.order.registry hrest.order.registry hun
  asked := by rw [hun.latest]; exact h.asked
  taken := h.taken
  handled := h.handled
  errors := h.errors
  shown := h.shown
  shows ht hc hstage hended := by
    obtain ⟨task₀, s₀, ht₀, hid, hc₀⟩ := hadvance.back hun h.rest.order ht hc
    obtain ⟨a, ha, hended⟩ := hended
    obtain rfl := Option.some.inj (ha.symm.trans ht₀.1)
    obtain rfl := Option.some.inj ((hadvance.rolls.kept _ a ha hended).symm.trans ht.1)
    -- The session is as it was when its check ended.
    obtain ⟨s', hs', halike⟩ := hadvance.final ht₀.2 (h.rest.order.final_of_done ht₀ hstage)
    obtain rfl := Option.some.inj (hs'.symm.trans ht.2)
    exact (h.shows ht₀ hc₀ hstage).alike halike
  checking ht hc hstage := by
    obtain ⟨task₀, s₀, ht₀, hid, hc₀⟩ := hadvance.back hun h.rest.order ht hc
    refine h.checking ht₀ hc₀ fun hdone => ?_
    have hended : task₀.stage.isEnded := by rw [hdone]; rfl
    obtain rfl := Option.some.inj ((hadvance.rolls.kept _ _ ht₀.1 hended).symm.trans ht.1)
    rcases hstage with hstage | hstage
    exacts [hstage hdone, hstage ⟨_, ht₀.1, hended⟩]
  mere ht hc := by
    obtain ⟨task₀, s₀, ht₀, hl, hc₀⟩ := hadvance.back hun h.rest.order ht hc
    exact (h.mere ht₀ hc₀).later hl

/-- A check is made. -/
theorem Settling.check (h : Settling settings path source v)
    (hsource : ∀ d : Disk, d.resolved path = .ok source) (henabled : settings.Enables source)
    (hlisting : settings.listingPath source = .ok listing) (b : Behaviour) :
    Settling settings path source (v.check b).1 := by
  have henabled' : v.engine.isEnabled source = .ok true := by
    rw [← h.settings] at henabled
    exact henabled
  obtain ⟨e₁, hnew⟩ :=
    Engine.newSession_eq none {} (hsource _) henabled' (h.settings.symm ▸ hlisting)
  let s : Session := { id := v.engine.nextId, source, listing, text := none, receiver := {} }
  obtain ⟨e, t, hcheck⟩ : ∃ e t, v.engine.check path none {} b = (e, .ok (s, t)) := by
    rw [Engine.check, hnew]
    exact ⟨_, _, rfl⟩
  obtain ⟨hrest, hadvance, hlatest, -, -, hnot, task, r, ht, hl⟩ := h.rest.check hcheck
  let u : Viewer := { v.tellBar { v.bar with status := "checking".toList, note := [] } with
    checks := v.checks ++ [some s.id] }
  have heq : v.check b = u.follow e := by
    rw [Viewer.check]
    simp only [Viewer.tellBar, h.path, hcheck]
    rfl
  have hconcerns : e.Concerns source :=
    Engine.Concerns.of_put (s := s) h.concerns h.rest.order.registry hrest.order.registry hlatest
  have hnewest : e.latest.get? source = some s.id := by
    rw [hlatest]
    exact Table.get?_put_self _ _ _
  -- The new session is the newest one, so no other task carries the newest session.
  have hmine : ∀ {t' task' s'}, e.Carries t' task' s' → e.isCurrent s' → t' = t := by
    intro t' task' s' ht' hc'
    refine hrest.order.schedule.alone ht'.1 ht.1 ?_
    rw [← hrest.order.registry.keyed ht.2, hl.id]
    exact Option.some.inj
      ((hconcerns.latest hrest.order.registry ht'.2 hc').symm.trans hnewest)
  rw [heq]
  refine Following.settling (v := u) ⟨h.rest, hrest, hadvance, hadvance.settings.trans h.settings,
    h.path, hconcerns, ?_, h.taken, h.handled, h.errors, .inr rfl, fun ht' hc' _ hended => ?_,
    fun _ _ _ => ⟨rfl, rfl⟩, fun ht' hc' => ?_⟩
  · rw [hnewest]
    exact List.getLast?_concat
  · exact absurd (hmine ht' hc' ▸ hended) hnot
  · obtain rfl := hmine ht' hc'
    obtain ⟨-, rfl⟩ := ht.unique ht'
    exact Session.Mere.later (s := s) ⟨rfl, rfl⟩ hl

/-- A posted report is handled. -/
theorem Settling.handle (h : Settling settings path source v) {report : List Diagnostic}
    {rest : List (List Diagnostic)} (hposted : v.posted = report :: rest) :
    Settling settings path source ({ v with posted := rest }.handleReport report).1 := by
  obtain ⟨handled, hmap, -⟩ := h.handled
  have hhandled : v.engine.deliveries.map (·.2) = (handled ++ [report]) ++ rest := by
    rw [hmap, hposted, List.append_assoc]
    rfl
  have htold : Settling settings path source
      ({ v with posted := rest, source := v.source.setReport report }.tellBar
        { v.bar with errors := report.length }) :=
    { settings := h.settings, path := h.path, rest := h.rest, concerns := h.concerns
      asked := h.asked, taken := h.taken, errors := rfl, shown := .inr rfl
      handled := ⟨handled ++ [report], hhandled, by simp [Viewer.tellBar, SourceState.setReport]⟩
      mere := h.mere, shows := fun ht hc hstage => { h.shows ht hc hstage with }
      checking := fun ht hc hstage => { h.checking ht hc hstage with } }
  exact htold.keeps (populate_keeps _)

/-! ## Runs -/

/-- The viewers that come about, with settings and the path of a source. Whatever is on the disk may
    change from outside, but not what the system denies. -/
inductive Run (settings : Settings) (path : Text) : Viewer → Prop
  | create {machine : Machine} {disk : Disk} {searchPath : List Text} {e : Engine} {v : Viewer}
      {p : Text} : Engine.create disk searchPath settings = .ok e →
      create machine e p = .ok v → v.source.path = path → Run settings path v
  | mount {v : Viewer} (b : Behaviour) : Run settings path v → Run settings path (v.mount b).1
  | recheck {v : Viewer} (b : Behaviour) : Run settings path v → Run settings path (v.recheck b).1
  | allowStart {v : Viewer} (id : Int) : Run settings path v →
      Run settings path (v.follow (v.engine.allowStart id).1).1
  | allowExit {v : Viewer} (id status : Int) : Run settings path v →
      Run settings path (v.follow (v.engine.allowExit id status).1).1
  | handle {v : Viewer} {report : List Diagnostic} {rest : List (List Diagnostic)} :
      Run settings path v → v.posted = report :: rest →
      Run settings path ({ v with posted := rest }.handleReport report).1
  | up {v : Viewer} : Run settings path v → Run settings path v.cursorUp.1
  | down {v : Viewer} : Run settings path v → Run settings path v.cursorDown.1
  | next {v : Viewer} : Run settings path v → Run settings path v.nextError.1
  | previous {v : Viewer} : Run settings path v → Run settings path v.previousError.1
  | disk {v : Viewer} {d : Disk} : d.denials = v.engine.disk.denials → Run settings path v →
      Run settings path (v.on d)

/-- The path leads on from the root. -/
theorem Run.rooted (h : Run settings path v) : (Path.ofText path).root ≠ [] := by
  induction h with
  | @create machine disk searchPath e v p _ hv hpath =>
    obtain ⟨target, htarget, rfl⟩ := create_eq hv
    exact hpath ▸ (Disk.plain_of_resolved htarget).root_ofText
  | _ => assumption

/-- Reading the source again and checking it keeps the viewer settling. -/
theorem Settling.recheck (h : Settling settings path source v)
    (hsource : ∀ d : Disk, d.resolved path = .ok source) (henabled : settings.Enables source)
    (hlisting : settings.listingPath source = .ok listing) (b : Behaviour) :
    Settling settings path source (v.recheck b).1 := by
  have hread := h.keeps (readSource_keeps v)
  unfold Viewer.recheck
  split
  · rename_i hv
    rw [hv] at hread
    exact hread
  · rename_i hv
    rw [hv] at hread
    exact hread.check hsource henabled hlisting b

/-- The first check keeps the viewer settling. -/
theorem Settling.mount (h : Settling settings path source v)
    (hsource : ∀ d : Disk, d.resolved path = .ok source) (henabled : settings.Enables source)
    (hlisting : settings.listingPath source = .ok listing) (b : Behaviour) :
    Settling settings path source (v.mount b).1 := by
  have htold : Keeps v (v.tellBar { v.bar with file := (Path.ofText v.source.path).name }) :=
    { Keeps.refl v with shown := fun _ => rfl }
  unfold Viewer.mount
  dsimp only
  split
  · exact h.keeps htold
  · refine (h.keeps (htold.trans ?_)).recheck hsource henabled hlisting b
    exact { Keeps.refl _ with engine := ⟨_, _, rfl, rfl⟩ }

/-- Whatever happens, the viewer knows what became of the newest check, or says that it is under
    way. -/
theorem Run.settling (h : Run settings path v)
    (hsource : ∀ d : Disk, d.resolved path = .ok source) (henabled : settings.Enables source)
    (hlisting : settings.listingPath source = .ok listing) : Settling settings path source v := by
  induction h with
  | create he hv hpath => exact hpath ▸ .create he hv
  | mount b _ ih => exact ih.mount hsource henabled hlisting b
  | recheck b _ ih => exact ih.recheck hsource henabled hlisting b
  | allowStart id _ ih =>
    obtain ⟨hrest, hadvance, hun⟩ := ih.rest.allowStart id
    exact (ih.following hrest hadvance hun).settling
  | allowExit id status _ ih =>
    obtain ⟨hrest, hadvance, hun⟩ := ih.rest.allowExit id status
    exact (ih.following hrest hadvance hun).settling
  | handle _ hposted ih => exact ih.handle hposted
  | up _ ih | down _ ih => exact ih.keeps (moveCursor_keeps _ _)
  | next _ ih => exact ih.keeps (nextError_keeps _)
  | previous _ ih => exact ih.keeps (previousError_keeps _)
  | disk hdenials _ ih => exact ih.keeps (on_keeps _ hdenials)

/-- With no report left, the viewer knows the diagnostics that the newest session reported. -/
theorem Settling.diagnostics_of_reports (h : Settling settings path source v)
    (hs : v.engine.sessions.get? s.id = some s) (hnewest : v.engine.IsNewest s)
    {diagnostics : List Diagnostic} (hreports : s.reports = [diagnostics])
    (hposted : v.posted = []) : v.source.diagnostics = diagnostics := by
  have hlast := h.rest.ledger.getLast?_deliveries h.concerns hs hnewest hreports
  obtain ⟨handled, hmap, hdiagnostics⟩ := h.handled
  rw [hposted, List.append_nil] at hmap
  rw [hdiagnostics, ← hmap, List.getLastD_eq_getLast?, List.getLast?_map, hlast]
  rfl

/-- The newest check broke off before it reported. -/
inductive BrokeOff (v : Viewer) (listing : Path) (task : Task) (s : Session) : Prop
  /-- Its listing could not be looked at. -/
  | unseen {fault : DiskFault} : v.engine.disk.denials.Hides listing fault →
      task.stage = .ended (.failed (.disk fault)) → s.phase = .running → BrokeOff v listing task s
  /-- Its command could not be handed to the system. -/
  | rejected {reason : Text} : task.behaviour.failedStart = some (.rejected reason) →
      task.stage = .ended (.failed (.start reason)) → s.phase = .spawning →
      BrokeOff v listing task s

/-- The newest check has reported, if it did not break off. -/
theorem Settling.reported_or_brokeOff (h : Settling settings path source v)
    (hlisting : settings.listingPath source = .ok listing)
    (hwords : ∃ words, settings.directives = .ok words) (hcarries : v.engine.Carries t task s)
    (hc : v.engine.isCurrent s) (hended : task.stage.isEnded) :
    (task.stage = .ended .done ∧ (s.phase = .reported ∨ s.phase = .reportedEmpty) ∧
      s.reports.length = 1) ∨
    v.BrokeOff listing task s ∧ task.stage ≠ .ended .done ∧ s.reports = [] := by
  have hid := h.rest.order.registry.keyed hcarries.2
  have hnewest := h.rest.order.registry.isNewest hc
  have hnot := h.rest.ledger.not_superseded hcarries.2 hid hnewest
  have hmere := h.mere hcarries hc
  have hlisting' : s.listing = listing := by
    have hproper := (h.rest.proper _ _ hcarries.2).listing
    rw [h.settings, h.concerns _ _ hcarries.2, hlisting] at hproper
    exact (Except.ok.inj hproper).symm
  obtain ⟨outcome, hstage⟩ : ∃ outcome, task.stage = .ended outcome := by
    cases hstage : task.stage with
    | ended outcome => exact ⟨outcome, rfl⟩
    | _ => simp [hstage, Stage.isEnded] at hended
  -- The viewer's sessions have no text of their own, and its receiver never fails.
  cases Engine.concluded h.rest.order h.rest.ledger (h.settings.symm ▸ hwords) hcarries hstage with
  | reported hphase hone => exact .inl ⟨hstage, hphase, hone⟩
  | overtaken hphase | null _ hphase => exact absurd hphase hnot
  | unwritable htext => simp [hmere.text] at htext
  | untold hfailure => simp [hmere.receiver] at hfailure
  | rejected hfailed hphase hreports =>
    exact .inr ⟨.rejected hfailed hstage hphase, by simp [hstage], hreports⟩
  | unseen hhides hphase hreports =>
    exact .inr ⟨.unseen (hlisting' ▸ hhides) hstage hphase, by simp [hstage], hreports⟩

/-- Have all tasks ended? -/
def allEnded (v : Viewer) : Bool := v.engine.tasks.values.all (·.stage.isEnded)

theorem ended_of_allEnded (h : v.allEnded) (t : TaskId) (task : Task)
    (ht : v.engine.tasks.get? t = some task) : task.stage.isEnded :=
  List.all_eq_true.1 h task (Table.mem_values_of_get? ht)

end Viewer

end LiveCheck
