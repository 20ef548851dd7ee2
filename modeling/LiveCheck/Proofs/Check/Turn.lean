import LiveCheck.Proofs.Check.Act

/-!
# How a turn leaves its task

A turn that begins with a task in its stage ends in one of a few ways (`Left`), and gets there act
by act (`Reaches`). This holds of the last turn of a check, after the compiler has exited
(`collect_reaches`), and so of all turns before it, which may end with the last one. In none of them
is a session to move to a phase that cannot follow its own.

A task fails in six ways only: the text of the source is none, the words of the compiler command
cannot be told from the settings, or cannot be handed to the system; the listing cannot be looked
at; its path holds a null character, which shows when the listing of an overtaken session is to be
deleted; or the receiver of the report fails and cannot tell why.
-/

namespace LiveCheck

/-- The ways in which a turn leaves its task, whose compiler behaves in some way, and its
    session. -/
inductive Left (around : Engine.Surroundings) (b : Behaviour) : Progress → Session → Prop
  /-- The compiler was asked for, and its start is held. -/
  | asked {s} : s.phase = .spawning → s.process = none → Left around b (.waits .starting) s
  /-- The compiler is running. -/
  | running {s p} : s.phase = .running → s.process = some p → p.isRunning →
      Left around b (.waits .waiting) s
  /-- The check is over. -/
  | finished {s} : s.phase.isFinal → s.Rests → Left around b (.ends .done) s
  /-- The text of the source is none. -/
  | unwritable {s text fault} : s.text = some text → text.encode = .error fault →
      s.phase = .idle → s.process = none → Left around b (.ends (.failed (.text fault))) s
  /-- The settings do not tell how to call the compiler. -/
  | uncallable {s fault} : around.settings.directives = .error fault → s.phase = .spawning →
      s.process = none → Left around b (.ends (.failed (.setting fault))) s
  /-- The command could not be handed to the system. -/
  | rejected {s reason} : b.failedStart = some (.rejected reason) → s.phase = .spawning →
      s.process = none → Left around b (.ends (.failed (.start reason))) s
  /-- The listing cannot be looked at. -/
  | unseen {s fault} : around.denials.Hides s.listing fault → s.phase = .running → s.Rests →
      Left around b (.ends (.failed (.disk fault))) s
  /-- The session was overtaken, and the path of its listing holds a null character. -/
  | null {s} : '\x00' ∈ s.listing.text → s.phase = .superseded → s.Rests →
      Left around b (.ends (.failed (.disk .nullCharacter))) s
  /-- The session has reported, and its receiver failed and could not tell why. -/
  | untold {s reason} : s.receiver.failure = some (.untold reason) →
      s.phase = .reported ∨ s.phase = .reportedEmpty → s.Rests →
      Left around b (.ends (.failed (.receiver reason))) s

/-- No turn leaves its task aborted: that comes from outside only. -/
theorem Left.ne_aborted {around : Engine.Surroundings} {b : Behaviour} {progress : Progress}
    {s : Session} (h : Left around b progress s) : progress ≠ .ends .aborted := by
  rintro rfl
  cases h

/-- A session that was cancelled before stops its process at once. -/
theorem started_eq (s : Session) (b : Behaviour) :
    (if ({ s with process := some { behaviour := b } } : Session).cancelled then
      ({ s with process := some { behaviour := b } } : Session).cancel
    else { s with process := some { behaviour := b } }) = { s with process := s.started b } := by
  cases hc : s.cancelled <;> simp [Session.started, Session.cancel, hc]

/-- What is wrong with a command is wrong with its directives. -/
theorem directives_of_command {settings : Settings} {compiler : Compiler} {source : Path}
    {fault : SettingFault} (h : settings.command compiler source = .error fault) :
    settings.directives = .error fault := by
  rw [Settings.command] at h
  cases hd : settings.directives with
  | error _ => rw [hd] at h; exact h
  | ok words => rw [hd] at h; simp [bind, Except.bind, pure, Except.pure] at h

namespace Engine

/-- Act by act, a task gets to the given end of its turn. -/
def Reaches (e : Engine) (b : Behaviour) (s : Session) (r : Engine × Progress) : Prop :=
  ∃ s', Works (e, s) (r.1, s') ∧ Left e.surroundings b r.2 s'

variable {b : Behaviour}

theorem Works.reaches {e e' : Engine} {s s' : Session} {r : Engine × Progress}
    (h : Works (e, s) (e', s')) (h' : Reaches e' b s' r) : Reaches e b s r := by
  obtain ⟨s'', hw, hl⟩ := h'
  exact ⟨s'', h.trans hw, h.kept.surroundings ▸ hl⟩

/-- An act comes first in a turn that goes on from it. -/
theorem Act.reaches {e e' : Engine} {s s' : Session} {r : Engine × Progress}
    (h : Act (e, s) (e', s')) (h' : Reaches e' b s' r) : Reaches e b s r :=
  h.works.reaches h'

/-- An engine and a session from which nothing more is done. -/
theorem reaches_of_left {e : Engine} {s : Session} {progress : Progress}
    (h : Left e.surroundings b progress s) : Reaches e b s (e, progress) := ⟨s, .refl, h⟩

/-! ## The ends of a check -/

/-- Whether a session is current depends on its source and its number alone. -/
theorem isCurrent_congr {e e' : Engine} {s s' : Session} (he : e'.latest = e.latest)
    (hs : s'.source = s.source ∧ s'.id = s.id) : e'.isCurrent s' = e.isCurrent s := by
  rw [isCurrent, isCurrent, he, hs.1, hs.2]

/-- A session that may be overtaken ends so, and nothing else happens. -/
theorem supersede_eq {e : Engine} {s : Session} (hs : .superseded ∈ s.phase.successors) :
    e.supersede s = (e.moved s .superseded, .ok ()) := by
  rw [supersede, move_eq hs]

theorem supersede_act {e : Engine} {s : Session} (hs : .superseded ∈ s.phase.successors)
    (hc : e.isCurrent s = false) : Act (e, s) (e.moved s .superseded, s.to .superseded) :=
  .move hs (by decide) (by decide) fun _ => hc

/-- A report is a move to its phase, and a delivery. -/
theorem report_eq {e : Engine} {s : Session} {next : Phase} (hs : next ∈ s.phase.successors)
    (diagnostics : List Diagnostic) : e.report s next diagnostics =
      ((e.moved s next).deliver (s.to next) diagnostics, (s.to next).deliveryResult) := by
  rw [report, move_eq hs]

/-- How the report of a session ended: well, or its receiver failed and could not tell why. -/
def Received (s : Session) (result : Except TaskFault Unit) : Prop :=
  result = .ok () ∨
    ∃ reason, s.receiver.failure = some (.untold reason) ∧ result = .error (.receiver reason)

theorem received_deliveryResult {s s' : Session} (h : s'.receiver = s.receiver) :
    Received s' s.deliveryResult := by
  rw [Session.deliveryResult]
  cases hfault : s.deliveryFault? with
  | none => exact .inl rfl
  | some reason => exact .inr ⟨reason, h ▸ (Session.deliveryFault?_eq_some.1 hfault).2, rfl⟩

/-- After a report, a turn leaves its task ended, well or with the receiver's fault. -/
theorem Received.left {around : Surroundings} {e : Engine} {s : Session}
    {result : Except TaskFault Unit} (h : Received s result)
    (hphase : s.phase = .reported ∨ s.phase = .reportedEmpty) (hr : s.Rests) :
    Left around b (endTurn (e, result)).2 s := by
  rcases h with rfl | ⟨reason, hfailure, rfl⟩
  · exact .finished (by rcases hphase with h | h <;> rw [h] <;> rfl) hr
  · exact .untold hfailure hphase hr

/-- A report that is made in the end of a turn. -/
theorem report_reaches {e : Engine} {s : Session} {next : Phase} (diagnostics : List Diagnostic)
    (hs : next ∈ s.phase.successors) (hnext : next = .reported ∨ next = .reportedEmpty)
    (hc : e.isCurrent s) (hr : s.Rests) :
    Reaches e b s (endTurn (e.report s next diagnostics)) := by
  rw [report_eq hs]
  have hact := Act.report diagnostics hc hs hnext
  refine ⟨_, ?_, (received_deliveryResult ((s.to next).deliver_same diagnostics).receiver).left
    ?_ ?_⟩
  · cases (s.to next).deliveryResult <;> exact hact.works
  · rwa [Session.deliver_phase]
  · rwa [Session.Rests, Session.deliver_process]

/-- A session that ends without diagnostics while it is the newest one reports that. -/
theorem reportEmpty_reaches {e : Engine} {s : Session} (hs : .reportedEmpty ∈ s.phase.successors)
    (hc : e.isCurrent s) (hr : s.Rests) : Reaches e b s (endTurn (e.reportEmpty s)) :=
  report_reaches [] hs (.inr rfl) hc hr

/-- The listing of a session is deleted or left behind, unless its path holds a null character. -/
theorem removeListing_cases (e : Engine) (s : Session) : Works (e, s) ((e.removeListing s).1, s) ∧
    ((e.removeListing s).2 = .ok () ∨
      (e.removeListing s).2 = .error (.disk .nullCharacter) ∧ '\x00' ∈ s.listing.text) := by
  rw [removeListing]
  split
  · exact ⟨(Act.clean ‹_›).works, .inl rfl⟩
  · exact ⟨.refl, .inl rfl⟩
  · exact ⟨(Act.note _).works, .inl rfl⟩
  · rename_i fault _ hsystem hfault
    refine ⟨.refl, .inr ?_⟩
    cases fault with
    | nullCharacter => exact ⟨rfl, Disk.atPath_eq_null_iff.1 hfault⟩
    | tooDeep => exact absurd hfault Disk.atPath_ne_tooDeep
    | system error path => exact absurd rfl (hsystem error path)

theorem removeListing_congr {e : Engine} {s s' : Session} (h : s'.listing = s.listing) :
    e.removeListing s' = e.removeListing s := by
  unfold removeListing
  rw [h]

/-! ## After the compiler has exited -/

/-- Reading a listing changes nothing but the log. -/
theorem readDiagnostics_works (e : Engine) (s : Session) :
    Works (e, s) ((e.readDiagnostics s).1, s) := by
  rw [readDiagnostics]
  split
  · exact .refl
  split
  · exact .refl
  dsimp only
  split
  · exact (Act.note _).works
  · exact (Act.note _).works.trans (Act.note _).works

/-- The listing of a session that is parsing is reported, or the session ends without
    diagnostics. -/
theorem reportListing_works {e : Engine} {s : Session} (hs : s.phase = .parsing)
    (hc : e.isCurrent s) : ∃ s', Works (e, s) ((e.reportListing s).1, s') ∧
      (s'.phase = .reported ∨ s'.phase = .reportedEmpty) ∧ s'.process = s.process ∧
      Received s' (e.reportListing s).2 := by
  have hread := e.readDiagnostics_works s
  have hc' : (e.readDiagnostics s).1.isCurrent s :=
    (isCurrent_congr hread.kept.latest ⟨rfl, rfl⟩).trans hc
  rw [reportListing]
  split
  · rename_i e' diagnostics h
    rw [h] at hread hc'
    have hnext : .reported ∈ s.phase.successors := by rw [hs]; decide
    rw [report_eq hnext]
    refine ⟨_, hread.trans (Act.report diagnostics hc' hnext (.inl rfl)).works, ?_, ?_, ?_⟩
    · rw [Session.deliver_phase]
      exact .inl rfl
    · rw [Session.deliver_process]; rfl
    · exact received_deliveryResult (Session.deliver_same _ _).receiver
  · rename_i e' fault h
    rw [h] at hread hc'
    have hnext : .reportedEmpty ∈ s.phase.successors := by rw [hs]; decide
    have hfail : Works (e', s) ((e'.note [.listingUnusable s.listing fault]).putSession
        { s with fault := some fault }, { s with fault := some fault }) :=
      (Act.note _).works.trans (Act.fail fault).works
    have hreport := Act.report (s := { s with fault := some fault }) []
      ((isCurrent_congr hfail.kept.latest ⟨rfl, rfl⟩).trans hc') hnext (.inr rfl)
    dsimp only
    rw [reportEmpty, report_eq (s := { s with fault := some fault }) hnext]
    refine ⟨_, hread.trans (hfail.trans hreport.works), ?_, ?_, ?_⟩
    · rw [Session.deliver_phase]
      exact .inr rfl
    · rw [Session.deliver_process]; rfl
    · exact received_deliveryResult (Session.deliver_same _ _).receiver

/-- Ending a turn leaves the engine as it is. -/
theorem endTurn_fst (r : Engine × Except TaskFault Unit) : (endTurn r).1 = r.1 := by
  obtain ⟨e, result⟩ := r
  cases result <;> rfl

/-- A newer check began meanwhile: the listing goes, and nothing is reported. -/
theorem afterExit_reaches_of_outdated {e : Engine} {s : Session} (hs : s.phase = .running)
    (hr : s.Rests) (hc : e.isCurrent s = false) (status : Int) :
    Reaches e b s (e.afterExit s status) := by
  have hover : .superseded ∈ s.phase.successors := by rw [hs]; decide
  rw [afterExit, hc, Bool.not_false, if_pos rfl, supersede_eq hover]
  refine (supersede_act hover hc).reaches ?_
  obtain ⟨hw, hresult⟩ := removeListing_cases (e.moved s .superseded) (s.to .superseded)
  rw [removeListing_congr (s.to_listing .superseded)] at hw hresult
  dsimp only
  generalize (e.moved s .superseded).removeListing s = r at hw hresult
  obtain ⟨e', result⟩ := r
  rcases hresult with rfl | ⟨rfl, hnull⟩
  · exact hw.reaches (reaches_of_left (.finished rfl hr))
  · exact hw.reaches (reaches_of_left (.null hnull rfl hr))

/-- There is a listing: it is read and reported, and then removed. -/
theorem afterExit_reaches_of_listing {e : Engine} {s : Session} (hs : s.phase = .running)
    (hr : s.Rests) (hc : e.isCurrent s) (hexists : e.disk.pathExists s.listing = .ok true)
    (status : Int) : Reaches e b s (e.afterExit s status) := by
  have hparse : .parsing ∈ s.phase.successors := by rw [hs]; decide
  rw [afterExit, hc, Bool.not_true, if_neg Bool.false_ne_true, hexists]
  dsimp only
  rw [move_eq hparse]
  refine (Act.move hparse (by decide) (by decide) (by simp)).reaches ?_
  obtain ⟨s', hw, hphase, hproc, hreceived⟩ :=
    reportListing_works (e := e.moved s .parsing) (s := s.to .parsing) rfl hc
  dsimp only
  generalize (e.moved s .parsing).reportListing (s.to .parsing) = r at hw hreceived
  obtain ⟨e', reported⟩ := r
  -- The listing was found, so its path can be deleted from as well.
  have hnull : '\x00' ∉ s'.listing.text := by
    rw [hw.same.listing]
    exact Disk.not_mem_null_of_pathExists hexists
  obtain ⟨hw', hresult⟩ := removeListing_cases e' s'
  rw [removeListing_congr hw.same.listing] at hw' hresult
  generalize e'.removeListing (s.to .parsing) = r at hw' hresult
  obtain ⟨e'', removed⟩ := r
  obtain rfl := hresult.resolve_right fun h => hnull h.2
  refine ⟨s', ?_, hreceived.left hphase ?_⟩
  · rw [endTurn_fst]
    exact hw.trans hw'
  · rwa [Session.Rests, hproc]

/-- What comes after the exit of the compiler is done act by act. -/
theorem afterExit_reaches {e : Engine} {s : Session} (hs : s.phase = .running) (hr : s.Rests)
    (hplain : s.listing.Plain) (status : Int) : Reaches e b s (e.afterExit s status) := by
  cases hc : e.isCurrent s with
  | false => exact afterExit_reaches_of_outdated hs hr hc status
  | true =>
    cases hexists : e.disk.pathExists s.listing with
    | error fault =>
      -- Nothing catches the fault of a look, so the session stays where it is.
      rw [afterExit, hc, Bool.not_true, if_neg Bool.false_ne_true, hexists]
      exact reaches_of_left (.unseen (Disk.hides_of_pathExists hplain hexists) hs hr)
    | ok found =>
      cases found with
      | true => exact afterExit_reaches_of_listing hs hr hc hexists status
      | false =>
        have hempty : .reportedEmpty ∈ s.phase.successors := by rw [hs]; decide
        rw [afterExit, hc, Bool.not_true, if_neg Bool.false_ne_true, hexists]
        exact (Act.note _).reaches (reportEmpty_reaches hempty hc hr)

/-- Collecting the exit of the compiler is done act by act. -/
theorem collect_reaches {e : Engine} {s : Session} (hs : s.phase = .running) (hr : s.Rests)
    (hplain : s.listing.Plain) (p : CompilerProcess) (status : Int) :
    Reaches e b s (e.collect s p status) :=
  (Act.note _).reaches (afterExit_reaches hs hr hplain status)

/-! ## Up to the compiler's exit -/

/-- A process that exits by itself leaves its listing first. -/
theorem exitProcess_works {e : Engine} {s : Session} {p : CompilerProcess}
    (hp : s.process = some p) (hr : p.isRunning) (status : Int) :
    Works (e, s) ((e.exitProcess s p status).1, (e.exitProcess s p status).2) :=
  (Act.emit p.behaviour p.behaviour.listing).works.trans (Act.exit status hp hr).works

end Engine

end LiveCheck
