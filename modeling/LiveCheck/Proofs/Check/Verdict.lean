import LiveCheck.Proofs.Check.Ledger

/-!
# What a check comes to

What a check comes to depends on the disk that it begins on and on its compiler (`Yields`), once the
source is saved, on the disk and the compiler (`ComesTo`), and once the compiler has exited, on the
disk alone (`Finds`): diagnostics are reported if a listing is there, and if it and the text of the
source can be read; nothing is reported otherwise. A check whose text is none, or whose command
cannot be handed to the system, fails before it reports. Every turn of a session that is the newest
one of its source and was not told to stop leads to that verdict (`Heading`), whether the start or
the exit of the compiler is held or not.
-/

namespace LiveCheck

/-- How the task of a check ends that has reported to the receiver. -/
def Receiver.outcome (receiver : Receiver) : Outcome :=
  match receiver.failure with
  | some (.untold reason) => .failed (.receiver reason)
  | _ => .done

/-- What a check comes to. -/
structure Verdict where
  /-- How its task ends. -/
  outcome : Outcome
  /-- The phase that its session ends in. -/
  phase : Phase
  /-- What is reported: one list of diagnostics, or none. -/
  reports : List (List Diagnostic)
  /-- Did something go wrong that the session knows of? -/
  faulty : Bool

namespace Verdict

/-- The diagnostics are reported. -/
def told (receiver : Receiver) (diagnostics : List Diagnostic) : Verdict :=
  ⟨receiver.outcome, .reported, [diagnostics], false⟩

/-- It is reported that there are no diagnostics. -/
def empty (receiver : Receiver) (faulty : Bool) : Verdict :=
  ⟨receiver.outcome, .reportedEmpty, [[]], faulty⟩

/-- The check fails before it reports. -/
def fails (fault : TaskFault) (phase : Phase) : Verdict := ⟨.failed fault, phase, [], false⟩

end Verdict

namespace Behaviour

/-- The disk on which a compiler has put a node in the place of the listing of a source. -/
def leave (b : Behaviour) (source : Path) (node : Option Node) (d : Disk) : Disk :=
  match source.withSuffix ('.' :: b.listingSuffix), node with
  | .ok p, some node => d.plant (p.fullNames d.here) node
  | _, _ => d

/-- The disk that a compiler leaves when it has started and exited. -/
def exitDisk (b : Behaviour) (source : Path) (d : Disk) : Disk :=
  b.leave source b.listing (b.leave source b.early d)

end Behaviour

section Verdicts

variable (source listing : Path) (text : Option JsonString) (receiver : Receiver)

/-- There is no text, or one that can be written. -/
def Writable : Prop := ∀ string, text = some string → ∃ written, string.encode = .ok written

/-- The listing on the disk tells diagnostics of the source, whose text is either given or on the
    disk, too. -/
def Tells (d : Disk) (diagnostics : List Diagnostic) : Prop :=
  ∃ printed buffer records, d.readText listing = .ok printed ∧
    text.elim (d.readText source) (.ok ·.shown) = .ok buffer ∧ readListing printed = .ok records ∧
    placeRecords records buffer source.text = diagnostics

/-- The listing cannot be read, or the text of the source cannot, or a numeral of the listing is too
    long. -/
def Unusable (d : Disk) : Prop :=
  (∃ fault, d.readText listing = .error fault) ∨
    (∃ fault, text.elim (d.readText source) (.ok ·.shown) = .error fault) ∨
    ∃ printed numeral, d.readText listing = .ok printed ∧ readListing printed = .error numeral

/-- What a check comes to when its compiler has exited. -/
inductive Finds (d : Disk) : Verdict → Prop
  /-- There is no listing. -/
  | nothing : d.pathExists listing = .ok false → Finds d (.empty receiver false)
  /-- The listing is of no use. -/
  | unusable : d.pathExists listing = .ok true → Unusable source listing text d →
      Finds d (.empty receiver true)
  /-- The listing tells diagnostics. -/
  | told {diagnostics} : d.pathExists listing = .ok true → Tells source listing text d diagnostics →
      Finds d (.told receiver diagnostics)

/-- What a check comes to when its compiler is to start. -/
inductive ComesTo (b : Behaviour) (d : Disk) : Verdict → Prop
  /-- The system refuses to start the compiler. -/
  | refused {fault} : b.failedStart = some (.refused fault) → ComesTo b d (.empty receiver true)
  /-- The command cannot be handed to the system. -/
  | rejected {reason} : b.failedStart = some (.rejected reason) →
      ComesTo b d (.fails (.start reason) .spawning)
  /-- The compiler starts, and exits. -/
  | exited {verdict} : b.failedStart = none →
      Finds source listing text receiver (b.exitDisk source d) verdict → ComesTo b d verdict

/-- Saving the text of a source, if there is one, as far as it can be written. -/
def saved (d : Disk) : Except DiskFault Disk := text.elim (.ok d) (d.writeText source ·.written)

/-- What a check comes to when it begins. -/
inductive Yields (b : Behaviour) (d : Disk) : Verdict → Prop
  /-- The source cannot be written. -/
  | unsaved {fault} : saved source text d = .error fault → Yields b d (.empty receiver true)
  /-- The text is none, which shows when the source has been emptied. -/
  | spoiled {string fault d'} : text = some string → string.encode = .error fault →
      saved source text d = .ok d' → Yields b d (.fails (.text fault) .idle)
  /-- The text is saved. -/
  | saved {d' verdict} : Writable text → saved source text d = .ok d' →
      ComesTo source listing text receiver b d' verdict → Yields b d verdict

/-- The diagnostics that a listing tells when the source was saved, and the compiler has started and
    exited. -/
def TellsAtLast (b : Behaviour) (d : Disk) (diagnostics : List Diagnostic) : Prop :=
  ∃ d', saved source text d = .ok d' ∧ b.failedStart = none ∧
    Tells source listing text (b.exitDisk source d') diagnostics

/-- The source cannot be saved, the compiler does not start, or there is a listing in the end that
    is of no use. -/
def GoesWrong (b : Behaviour) (d : Disk) : Prop :=
  (∃ fault, saved source text d = .error fault) ∨ ∃ d', saved source text d = .ok d' ∧
    (b.failedStart.isSome ∨ b.failedStart = none ∧
      (b.exitDisk source d').pathExists listing = .ok true ∧
      Unusable source listing text (b.exitDisk source d'))

/-- The check fails before it reports: its text is none, or its command cannot be handed to the
    system. -/
inductive Fails (b : Behaviour) (d : Disk) : TaskFault → Phase → Prop
  | text {string fault d'} : text = some string → string.encode = .error fault →
      saved source text d = .ok d' → Fails b d (.text fault) .idle
  | start {reason d'} : Writable text → saved source text d = .ok d' →
      b.failedStart = some (.rejected reason) → Fails b d (.start reason) .spawning

end Verdicts

/-- A listing that can be read is not found missing. -/
theorem Disk.pathExists_of_readText {d : Disk} {p : Path} {text : Text}
    (h : d.readText p = .ok text) : d.pathExists p ≠ .ok false := by
  intro hmissing
  rw [readText] at h
  cases hread : d.readBytes p with
  | error fault =>
    rw [hread] at h
    cases h
  | ok bytes => exact no_file_of_pathExists hmissing (hasFile_of_readBytes hread)

/-- A listing tells diagnostics unless it is of no use. -/
theorem unusable_iff {source listing : Path} {text : Option JsonString} {d : Disk} :
    Unusable source listing text d ↔ ∀ diagnostics, ¬Tells source listing text d diagnostics := by
  constructor
  · rintro hunusable diagnostics ⟨printed, buffer, records, hprinted, hbuffer, hrecords, -⟩
    rcases hunusable with ⟨fault, hfault⟩ | ⟨fault, hfault⟩ |
      ⟨printed', numeral, hprinted', hnumeral⟩
    · simp [hprinted] at hfault
    · simp [hbuffer] at hfault
    · obtain rfl := Except.ok.inj (hprinted.symm.trans hprinted')
      simp [hrecords] at hnumeral
  · intro hnone
    cases hprinted : d.readText listing with
    | error fault => exact .inl ⟨fault, hprinted⟩
    | ok printed =>
      cases hbuffer : text.elim (d.readText source) (.ok ·.shown) with
      | error fault => exact .inr (.inl ⟨fault, hbuffer⟩)
      | ok buffer =>
        cases hrecords : readListing printed with
        | error numeral => exact .inr (.inr ⟨printed, numeral, hprinted, hrecords⟩)
        | ok records => exact absurd ⟨_, _, _, hprinted, hbuffer, hrecords, rfl⟩ (hnone _)

section Outcomes

variable {source listing : Path} {text : Option JsonString} {receiver : Receiver} {b : Behaviour}
  {d : Disk} {verdict : Verdict}

/-- A listing tells one list of diagnostics. -/
theorem TellsAtLast.unique {diagnostics told : List Diagnostic}
    (h : TellsAtLast source listing text b d diagnostics)
    (h' : TellsAtLast source listing text b d told) : diagnostics = told := by
  obtain ⟨disk, hsaved, -, printed, buffer, records, hprinted, hbuffer, hrecords, rfl⟩ := h
  obtain ⟨disk', hsaved', -, printed', buffer', records', hprinted', hbuffer', hrecords', rfl⟩ := h'
  obtain rfl := Except.ok.inj (hsaved.symm.trans hsaved')
  obtain rfl := Except.ok.inj (hprinted.symm.trans hprinted')
  obtain rfl := Except.ok.inj (hbuffer.symm.trans hbuffer')
  obtain rfl := Except.ok.inj (hrecords.symm.trans hrecords')
  rfl

/-- What is reported does not come with a fault. -/
theorem TellsAtLast.not_goesWrong {diagnostics : List Diagnostic}
    (h : TellsAtLast source listing text b d diagnostics) : ¬GoesWrong source listing text b d := by
  obtain ⟨disk, hsaved, hstart, htells⟩ := h
  have hnot : ¬Unusable source listing text (b.exitDisk source disk) := fun hunusable =>
    unusable_iff.1 hunusable _ htells
  simp [GoesWrong, hsaved, hstart, hnot]

/-- What a check reports: what the listing tells in the end, or that there are no diagnostics. -/
structure Verdict.Reports (source listing : Path) (text : Option JsonString) (receiver : Receiver)
    (b : Behaviour) (d : Disk) (verdict : Verdict) : Prop where
  outcome : verdict.outcome = receiver.outcome
  reports : (∃ diagnostics, verdict.phase = .reported ∧ verdict.reports = [diagnostics] ∧
      TellsAtLast source listing text b d diagnostics) ∨
    (verdict.phase = .reportedEmpty ∧ verdict.reports = [[]] ∧
      ∀ told, ¬TellsAtLast source listing text b d told)
  faulty : verdict.faulty ↔ GoesWrong source listing text b d

/-- Once the compiler has exited, its check reports. -/
theorem Finds.reports {d' : Disk} (hsaved : saved source text d = .ok d')
    (hf : b.failedStart = none)
    (h : Finds source listing text receiver (b.exitDisk source d') verdict) :
    verdict.Reports source listing text receiver b d := by
  cases h with
  | nothing hnot =>
    refine ⟨rfl, .inr ⟨rfl, rfl, fun told htells => ?_⟩, by
      simp [Verdict.empty, GoesWrong, hsaved, hf, hnot]⟩
    obtain ⟨disk, hdisk, -, printed, -, -, hprinted, -⟩ := htells
    obtain rfl := Except.ok.inj (hsaved.symm.trans hdisk)
    exact Disk.pathExists_of_readText hprinted hnot
  | unusable hexists hunusable =>
    refine ⟨rfl, .inr ⟨rfl, rfl, fun told htells => ?_⟩, by
      simp [Verdict.empty, GoesWrong, hsaved, hf, hexists, hunusable]⟩
    obtain ⟨disk, hdisk, -, htells⟩ := htells
    obtain rfl := Except.ok.inj (hsaved.symm.trans hdisk)
    exact unusable_iff.1 hunusable told htells
  | told _ htells =>
    have hlast : TellsAtLast source listing text b d _ := ⟨d', hsaved, hf, htells⟩
    exact ⟨rfl, .inl ⟨_, rfl, rfl, hlast⟩, iff_of_false nofun hlast.not_goesWrong⟩

/-- A check reports, or fails before. -/
theorem Yields.reports_or_fails (h : Yields source listing text receiver b d verdict) :
    verdict.Reports source listing text receiver b d ∨
      ∃ fault phase, verdict = .fails fault phase ∧ Fails source text b d fault phase := by
  have hnone : ∀ {d'}, LiveCheck.saved source text d = .ok d' → b.failedStart ≠ none →
      ∀ told, ¬TellsAtLast source listing text b d told := by
    rintro d' hsaved hstart told ⟨-, -, hnone, -⟩
    exact hstart hnone
  cases h with
  | unsaved hsaved =>
    exact .inl ⟨rfl, .inr ⟨rfl, rfl, fun told htells => by simp [TellsAtLast, hsaved] at htells⟩,
      by simp [Verdict.empty, GoesWrong, hsaved]⟩
  | spoiled htext hencode hsaved => exact .inr ⟨_, _, rfl, .text htext hencode hsaved⟩
  | saved hwritable hsaved hcomes =>
    cases hcomes with
    | refused hstart =>
      exact .inl ⟨rfl, .inr ⟨rfl, rfl, hnone hsaved (by simp [hstart])⟩,
        by simp [Verdict.empty, GoesWrong, hsaved, hstart]⟩
    | rejected hstart => exact .inr ⟨_, _, rfl, .start hwritable hsaved hstart⟩
    | exited hstart hfinds => exact .inl (hfinds.reports hsaved hstart)

/-- If it can be told whether a listing is there, its check comes to something. -/
theorem exists_finds {found : Bool} (h : d.pathExists listing = .ok found) :
    ∃ verdict, Finds source listing text receiver d verdict := by
  cases found with
  | false => exact ⟨_, .nothing h⟩
  | true =>
    by_cases hunusable : Unusable source listing text d
    · exact ⟨_, .unusable h hunusable⟩
    · rw [unusable_iff] at hunusable
      push Not at hunusable
      obtain ⟨diagnostics, htells⟩ := hunusable
      exact ⟨_, .told h htells⟩

/-- A text that cannot be written is none. -/
theorem not_writable_iff : ¬Writable text ↔
    ∃ string fault, text = some string ∧ string.encode = .error fault := by
  constructor
  · intro hnot
    rw [Writable] at hnot
    push Not at hnot
    obtain ⟨string, hsome, hnone⟩ := hnot
    cases hencode : string.encode with
    | ok written => exact absurd hencode (hnone written)
    | error fault => exact ⟨string, fault, hsome, hencode⟩
  · rintro ⟨string, fault, hsome, hencode⟩ hwritable
    obtain ⟨written, hwritten⟩ := hwritable string hsome
    rw [hwritten] at hencode
    cases hencode

/-- If it can be told whether the compiler left a listing, a check comes to something. -/
theorem exists_yields (h : ∀ d', saved source text d = .ok d' → b.failedStart = none →
      ∃ found, (b.exitDisk source d').pathExists listing = .ok found) :
    ∃ verdict, Yields source listing text receiver b d verdict := by
  cases hsaved : saved source text d with
  | error fault => exact ⟨_, .unsaved hsaved⟩
  | ok d' =>
    by_cases hwritable : Writable text
    · suffices hcomes : ∃ verdict, ComesTo source listing text receiver b d' verdict from
        ⟨_, .saved hwritable hsaved hcomes.choose_spec⟩
      cases hstart : b.failedStart with
      | some failure =>
        cases failure with
        | refused fault => exact ⟨_, .refused hstart⟩
        | rejected reason => exact ⟨_, .rejected hstart⟩
      | none =>
        obtain ⟨found, hfound⟩ := h d' hsaved hstart
        obtain ⟨verdict, hfinds⟩ : ∃ verdict,
            Finds source listing text receiver (b.exitDisk source d') verdict := exists_finds hfound
        exact ⟨verdict, .exited hstart hfinds⟩
    · obtain ⟨string, fault, hsome, hencode⟩ := not_writable_iff.1 hwritable
      exact ⟨_, .spoiled hsome hencode hsaved⟩

end Outcomes

namespace Session

/-- The session has not reported, and was not told to stop. -/
structure Unheard (s : Session) : Prop where
  delivered : s.delivered = false
  reports : s.reports = []
  cancelled : s.cancelled = false

/-- The session came to a verdict. -/
structure CameTo (s : Session) (verdict : Verdict) : Prop where
  phase : s.phase = verdict.phase
  reports : s.reports = verdict.reports
  fault : s.fault.isSome = verdict.faulty

variable {s : Session}

theorem Unheard.started (h : s.Unheard) (b : Behaviour) : s.started b = { behaviour := b } := by
  simp [Session.started, h.cancelled]

/-- The first report of a session. -/
theorem Unheard.cameTo (h : s.Unheard) (outcome : Outcome) (next : Phase)
    (diagnostics : List Diagnostic) : ((s.to next).deliver diagnostics).CameTo
      ⟨outcome, next, [diagnostics], s.fault.isSome⟩ := by
  have hdelivered : (s.to next).delivered = false := h.delivered
  refine ⟨deliver_phase _ _, ?_, congrArg Option.isSome (deliver_fault _ _)⟩
  rw [(deliver_of_not_delivered hdelivered diagnostics).2, to_reports, h.reports, List.nil_append]

/-- How the first report of a session ends its task. -/
theorem Unheard.endTurn (h : s.Unheard) (e : Engine) :
    Engine.endTurn (e, s.deliveryResult) = (e, .ends s.receiver.outcome) := by
  rw [deliveryResult, deliveryFault?, h.delivered, Receiver.outcome]
  cases s.receiver.failure with
  | none => rfl
  | some failure => cases failure <;> rfl

end Session

namespace Engine

variable {e e₁ : Engine} {s s₁ : Session} {b : Behaviour} {verdict : Verdict}
  {r : Engine × Progress}

/-- How a turn leads to a verdict: the compiler is to start, or to exit, or the check is over. -/
inductive Heading (e : Engine) (s : Session) (b : Behaviour) (verdict : Verdict) :
    Engine × Progress → Prop
  | starting {e' s'} : Works (e, s) (e', s') → s'.Unheard → s'.fault = none →
      ComesTo s.source s.listing s.text s.receiver b e'.disk verdict →
      Heading e s b verdict (e', .waits .starting)
  | waiting {e' s'} : Works (e, s) (e', s') → s'.process = some { behaviour := b } →
      s'.Unheard → s'.fault = none →
      Finds s.source s.listing s.text s.receiver (b.leave s.source b.listing e'.disk) verdict →
      Heading e s b verdict (e', .waits .waiting)
  | ended {e' s'} : Works (e, s) (e', s') → s'.CameTo verdict →
      Heading e s b verdict (e', .ends verdict.outcome)

/-- What was done before the last part of a turn. -/
theorem Works.heading (hworks : Works (e, s) (e₁, s₁)) (h : Heading e₁ s₁ b verdict r) :
    Heading e s b verdict r := by
  have hsame := hworks.same
  cases h with
  | starting h hunheard hfault hcomes =>
    rw [hsame.source, hsame.listing, hsame.text, hsame.receiver] at hcomes
    exact .starting (hworks.trans h) hunheard hfault hcomes
  | waiting h hprocess hunheard hfault hfinds =>
    rw [hsame.source, hsame.listing, hsame.text, hsame.receiver] at hfinds
    exact .waiting (hworks.trans h) hprocess hunheard hfault hfinds
  | ended h hcame => exact .ended (hworks.trans h) hcame

/-- A session that ends without diagnostics. -/
theorem reportEmpty_heading (hs : .reportedEmpty ∈ s.phase.successors) (hc : e.isCurrent s)
    (hunheard : s.Unheard) :
    Heading e s b (.empty s.receiver s.fault.isSome) (endTurn (e.reportEmpty s)) := by
  have hunheard' : (s.to .reportedEmpty).Unheard := { hunheard with }
  rw [reportEmpty, report_eq hs, hunheard'.endTurn]
  exact .ended (Act.report [] hc hs (.inr rfl)).works (hunheard.cameTo _ _ _)

/-! ## After the compiler has exited -/

/-- A listing that tells diagnostics is read. -/
theorem readDiagnostics_eq_ok {diagnostics : List Diagnostic}
    (h : Tells s.source s.listing s.text e.disk diagnostics) :
    (e.readDiagnostics s).2 = .ok diagnostics := by
  obtain ⟨printed, buffer, records, hprinted, hbuffer, hrecords, rfl⟩ := h
  simp only [readDiagnostics, hprinted, hbuffer, hrecords]

/-- A listing of no use fails to be read. -/
theorem readDiagnostics_eq_error (h : Unusable s.source s.listing s.text e.disk) :
    ∃ fault, (e.readDiagnostics s).2 = .error fault := by
  rw [readDiagnostics]
  split
  · exact ⟨_, rfl⟩
  split
  · exact ⟨_, rfl⟩
  dsimp only
  split
  · exact ⟨_, rfl⟩
  · rename_i _ printed hprinted _ buffer hbuffer _ records hrecords
    exact absurd ⟨printed, buffer, records, hprinted, hbuffer, hrecords, rfl⟩
      (unusable_iff.1 h _)

/-- What a session reports of its listing. -/
theorem reportListing_cameTo (hs : s.phase = .parsing) (hc : e.isCurrent s)
    (hunheard : s.Unheard) (hfault : s.fault = none)
    (hexists : e.disk.pathExists s.listing = .ok true)
    (h : Finds s.source s.listing s.text s.receiver e.disk verdict) :
    ∃ e' s' result, e.reportListing s = (e', result) ∧ Works (e, s) (e', s') ∧
      s'.CameTo verdict ∧ ∀ e'' : Engine, endTurn (e'', result) = (e'', .ends verdict.outcome) := by
  have hread := e.readDiagnostics_works s
  have hc' : (e.readDiagnostics s).1.isCurrent s :=
    (isCurrent_congr hread.kept.latest ⟨rfl, rfl⟩).trans hc
  have hnext : .reported ∈ s.phase.successors := by rw [hs]; decide
  have hempty : .reportedEmpty ∈ s.phase.successors := by rw [hs]; decide
  rw [reportListing]
  cases h with
  | nothing hnot => simp [hexists] at hnot
  | unusable _ hunusable =>
    obtain ⟨fault, herror⟩ := readDiagnostics_eq_error hunusable
    generalize e.readDiagnostics s = read at *
    obtain ⟨e₁, result⟩ := read
    obtain rfl : result = .error fault := herror
    let s₁ : Session := { s with fault := some (fault) }
    have hfail : Works (e₁, s) ((e₁.note [.listingUnusable s.listing fault]).putSession s₁, s₁) :=
      (Act.note _).works.trans (Act.fail fault).works
    have hunheard₁ : s₁.Unheard := { hunheard with }
    have hreporting : (s₁.to .reportedEmpty).Unheard := { hunheard with }
    have hreport := Act.report (s := s₁) []
      ((isCurrent_congr hfail.kept.latest ⟨rfl, rfl⟩).trans hc') hempty (.inr rfl)
    dsimp only
    rw [reportEmpty, report_eq (s := s₁) hempty]
    exact ⟨_, _, _, rfl, hread.trans (hfail.trans hreport.works), hunheard₁.cameTo _ _ _,
      hreporting.endTurn⟩
  | @told diagnostics _ htells =>
    have hok := readDiagnostics_eq_ok htells
    have hreporting : (s.to .reported).Unheard := { hunheard with }
    generalize e.readDiagnostics s = read at *
    obtain ⟨e₁, result⟩ := read
    obtain rfl : result = .ok diagnostics := hok
    dsimp only
    rw [report_eq hnext]
    refine ⟨_, _, _, rfl, hread.trans (Act.report diagnostics hc' hnext (.inl rfl)).works, ?_,
      hreporting.endTurn⟩
    have hcame := hunheard.cameTo s.receiver.outcome .reported diagnostics
    rwa [hfault] at hcame

/-- When its compiler has exited, a check comes to its verdict. -/
theorem afterExit_heading (hs : s.phase = .running) (hc : e.isCurrent s) (hunheard : s.Unheard)
    (hfault : s.fault = none) (h : Finds s.source s.listing s.text s.receiver e.disk verdict)
    (status : Int) : Heading e s b verdict (e.afterExit s status) := by
  have hempty : .reportedEmpty ∈ s.phase.successors := by rw [hs]; decide
  have hparse : .parsing ∈ s.phase.successors := by rw [hs]; decide
  have hfound : e.disk.pathExists s.listing = .ok true →
      Heading e s b verdict (e.afterExit s status) := by
    intro hexists
    obtain ⟨e', s', result, hreport, hworks, hcame, hend⟩ := reportListing_cameTo
      (e := e.moved s .parsing) (s := s.to .parsing) rfl hc { hunheard with } hfault hexists h
    -- The listing was found, so there is no null character in its path.
    have hnull : '\x00' ∉ s'.listing.text := by
      rw [hworks.same.listing]
      exact Disk.not_mem_null_of_pathExists hexists
    obtain ⟨hworks', hremove⟩ := removeListing_cases e' s'
    have hremove : (e'.removeListing s').2 = .ok () := hremove.resolve_right fun h => hnull h.2
    rw [removeListing_congr hworks.same.listing] at hremove hworks'
    have hmove : Works (e, s) (e.moved s .parsing, s.to .parsing) :=
      (Act.move hparse (by decide) (by decide) (by simp)).works
    have hafter : e.afterExit s status =
        ((e'.removeListing (s.to .parsing)).1, .ends verdict.outcome) := by
      simp only [afterExit, hc, Bool.not_true, Bool.false_eq_true, if_false, hexists,
        move_eq hparse, hreport, hremove]
      exact hend _
    rw [hafter]
    exact .ended (hmove.trans (hworks.trans hworks')) hcame
  cases h with
  | nothing hnot =>
    simp only [afterExit, hc, Bool.not_true, Bool.false_eq_true, if_false, hnot]
    have hreport := reportEmpty_heading (e := e.note [.noListing s.source.name status]) (b := b)
      hempty hc hunheard
    rw [hfault] at hreport
    exact (Act.note _).works.heading hreport
  | unusable hexists | told hexists => exact hfound hexists

/-- When the exit of its compiler is collected, a check comes to its verdict. -/
theorem collect_heading (hs : s.phase = .running) (hc : e.isCurrent s) (hunheard : s.Unheard)
    (hfault : s.fault = none) (h : Finds s.source s.listing s.text s.receiver e.disk verdict)
    (p : CompilerProcess) (status : Int) : Heading e s b verdict (e.collect s p status) :=
  (Act.note _).works.heading (afterExit_heading (e := e.note _) hs hc hunheard hfault h status)

/-! ## Up to the compiler's exit -/

/-- What a compiler leaves depends on its behaviour and the source alone. -/
theorem emit_disk (e : Engine) (s : Session) (b : Behaviour) (node : Option Node) :
    (e.emit s b node).disk = b.leave s.source node e.disk := by
  unfold emit outputPlace Behaviour.leave
  cases s.source.withSuffix ('.' :: b.listingSuffix) <;> cases node <;> rfl

theorem started_disk (e : Engine) (s : Session) (b : Behaviour) :
    (e.started s b).disk = b.leave s.source b.early e.disk := e.emit_disk s b b.early

theorem exitProcess_disk (e : Engine) (s : Session) (p : CompilerProcess) (status : Int) :
    (e.exitProcess s p status).1.disk = p.behaviour.leave s.source p.behaviour.listing e.disk :=
  e.emit_disk _ _ _

/-- The compiler of a session exits by itself. -/
theorem exitProcess_heading (hs : s.phase = .running) (hc : e.isCurrent s) (hunheard : s.Unheard)
    (hfault : s.fault = none) (hp : s.process = some { behaviour := b })
    (h : Finds s.source s.listing s.text s.receiver (b.leave s.source b.listing e.disk) verdict)
    (p : CompilerProcess) (status : Int) : Heading e s b verdict
      ((e.exitProcess s { behaviour := b } status).1.collect
        (e.exitProcess s { behaviour := b } status).2 p status) := by
  have hworks := exitProcess_works (e := e) hp rfl status
  have hc' := (isCurrent_congr hworks.kept.latest ⟨hworks.same.source, hworks.same.id⟩).trans hc
  have hunheard' : (e.exitProcess s { behaviour := b } status).2.Unheard :=
    { hunheard with }
  refine hworks.heading (collect_heading (s := (e.exitProcess s { behaviour := b } status).2) hs hc'
    hunheard' hfault ?_ p status)
  rw [exitProcess_disk]
  exact h

/-- When its compiler is to start, a check is on its way to its verdict. -/
theorem launch_heading {task : Task} (hs : s.phase = .spawning) (hp : s.process = none)
    (hc : e.isCurrent s) (hunheard : s.Unheard) (hfault : s.fault = none)
    (h : ComesTo s.source s.listing s.text s.receiver task.behaviour e.disk verdict) :
    Heading e s task.behaviour verdict (e.launch task s) := by
  cases h with
  | @refused startFault hf =>
    let fault := e.spawnFault startFault
    let s₁ : Session := { s with fault := some (.spawn fault) }
    let e₁ : Engine := (e.note [.checkFailed s.source.name fault]).putSession s₁
    have hfail : Works (e, s) (e₁, s₁) := (Act.note _).works.trans (Act.fail (.spawn fault)).works
    have hc₁ : e₁.isCurrent s₁ := hc
    have hlaunch : e.launch task s = endTurn (e₁.reportEmpty s₁) := by
      simp only [launch, hf, giveUp]
      rw [if_pos hc₁]
    rw [hlaunch]
    have hempty : .reportedEmpty ∈ s₁.phase.successors := by simp only [s₁, hs]; decide
    exact hfail.heading (reportEmpty_heading hempty hc₁ { hunheard with })
  | @rejected reason hf =>
    have hlaunch : e.launch task s = (e, .ends (.failed (.start reason))) := by
      simp only [launch, hf]
    rw [hlaunch]
    exact .ended .refl ⟨hs, hunheard.reports, by rw [hfault]; rfl⟩
  | exited hf hfinds =>
    rw [launch_eq hs hf, hunheard.started]
    dsimp only
    have hworks := started_works (e := e) (b := task.behaviour) hs hp
    have hdisk := e.started_disk s task.behaviour
    have hc₁ : (e.started s task.behaviour).isCurrent (runs s task.behaviour) :=
      (isCurrent_congr hworks.kept.latest ⟨hworks.same.source, hworks.same.id⟩).trans hc
    have hunheard₁ : (runs s task.behaviour).Unheard := { hunheard with }
    have hprocess : (runs s task.behaviour).process = some { behaviour := task.behaviour } :=
      congrArg some (hunheard.started _)
    rw [Behaviour.exitDisk, ← hdisk] at hfinds
    refine hworks.heading ?_
    split
    · exact .waiting .refl hprocess hunheard₁ hfault hfinds
    · exact exitProcess_heading rfl hc₁ hunheard₁ hfault hprocess hfinds _ _

/-! ## Up to the start of the compiler -/

/-- The engine in which the compiler was asked for, with words that follow the source. -/
def asked (e : Engine) (s : Session) (words : List Json) : Engine :=
  let command : List Json := .string e.compiler.called :: .text s.source.name :: words
  let noted := (e.moved s .spawning).note [.spawning command s.source.parent]
  { noted with spawns := noted.spawns ++ [⟨s.id, command, s.source.parent⟩] }

theorem asked_works (hs : s.phase = .idle) (hc : e.isCurrent s) (words : List Json) :
    Works (e, s) (e.asked s words, s.to .spawning) := by
  have hnext : .spawning ∈ s.phase.successors := by rw [hs]; decide
  have hmove : Works (e, s) (e.moved s .spawning, s.to .spawning) :=
    (Act.move hnext (by decide) (by decide) (by simp)).works
  let command : List Json := .string e.compiler.called :: .text s.source.name :: words
  let noted := (e.moved s .spawning).note [.spawning command s.source.parent]
  exact hmove.trans ((Act.note _).works.trans
    (Act.ask (e := noted) (s := s.to .spawning) command hc rfl).works)

/-- What follows when the settings tell how to call the compiler. -/
theorem spawn_of_directives {task : Task} {words : List Json} (hs : s.phase = .idle)
    (hwords : e.settings.directives = .ok words) : e.spawn task s =
      if task.behaviour.holdsStart then (e.asked s words, .waits .starting)
      else (e.asked s words).launch task (s.to .spawning) := by
  have hnext : .spawning ∈ s.phase.successors := by rw [hs]; decide
  have hcommand : e.settings.command e.compiler s.source =
      .ok (.string e.compiler.called :: .text s.source.name :: words) := by
    rw [Settings.command, hwords]
    rfl
  rw [spawn, move_eq hnext]
  dsimp only
  rw [show (e.moved s .spawning).settings.command (e.moved s .spawning).compiler
    (s.to .spawning).source = .ok _ from hcommand]
  rfl

/-- When it asks for its compiler, a check is on its way to its verdict. -/
theorem spawn_heading {task : Task} (hs : s.phase = .idle) (hp : s.process = none)
    (hc : e.isCurrent s) (hunheard : s.Unheard) (hfault : s.fault = none)
    (hwords : ∃ words, e.settings.directives = .ok words)
    (h : ComesTo s.source s.listing s.text s.receiver task.behaviour e.disk verdict) :
    Heading e s task.behaviour verdict (e.spawn task s) := by
  obtain ⟨words, hwords⟩ := hwords
  have hask := asked_works hs hc words
  have hunheard₁ : (s.to .spawning).Unheard := { hunheard with }
  rw [spawn_of_directives hs hwords]
  split
  · exact .starting hask hunheard₁ hfault h
  · exact hask.heading (launch_heading (e := e.asked s words) rfl hp hc hunheard₁ hfault h)

/-- When it has its source, a check is on its way to its verdict. -/
theorem proceed_heading {task : Task} (hs : s.phase = .idle) (hp : s.process = none)
    (hc : e.isCurrent s) (hunheard : s.Unheard) (hfault : s.fault = none)
    (hwords : ∃ words, e.settings.directives = .ok words)
    (h : Yields s.source s.listing s.text s.receiver task.behaviour e.disk verdict) :
    Heading e s task.behaviour verdict (e.proceed task s) := by
  -- What is asked for once the text is saved.
  have hspawn : ∀ {d}, ComesTo s.source s.listing s.text s.receiver task.behaviour d verdict →
      Heading { e with disk := d } s task.behaviour verdict (spawn { e with disk := d } task s) :=
    fun hcomes => spawn_heading (e := { e with disk := _ }) hs hp hc hunheard hfault hwords hcomes
  simp only [proceed, hc, Bool.not_true, Bool.false_eq_true, if_false]
  split
  · rename_i htext
    rw [htext] at h hspawn
    cases h with
    | unsaved hsaved => cases hsaved
    | spoiled hsome => cases hsome
    | saved _ hsaved hcomes =>
      obtain rfl := Except.ok.inj hsaved
      exact hspawn hcomes
  · rename_i string htext
    rw [htext] at h hspawn
    cases h with
    | @unsaved fault hsaved =>
      have hwrite : e.disk.writeText s.source string.written = .error fault := hsaved
      let s₁ : Session := { s with fault := some (.disk fault) }
      let e₁ : Engine := (e.note [.sourceNotSaved s.source fault]).putSession s₁
      have hfail : Works (e, s) (e₁, s₁) := (Act.note _).works.trans (Act.fail (.disk fault)).works
      have hc₁ : e₁.isCurrent s₁ := hc
      have hempty : .reportedEmpty ∈ s₁.phase.successors := by simp only [s₁, hs]; decide
      simp only [hwrite]
      exact hfail.heading (reportEmpty_heading (e := e₁) hempty hc₁ { hunheard with })
    | @spoiled _ fault d hsome hencode hsaved =>
      obtain rfl := Option.some.inj hsome
      have hwrite : e.disk.writeText s.source string.written = .ok d := hsaved
      simp only [hwrite, hencode]
      exact .ended (Act.save hc hs htext hwrite).works
        ⟨hs, hunheard.reports, by rw [hfault]; rfl⟩
    | @saved d _ hwritable hsaved hcomes =>
      have hwrite : e.disk.writeText s.source string.written = .ok d := hsaved
      obtain ⟨written, hencode⟩ := hwritable string rfl
      simp only [hwrite, hencode]
      exact (Act.save hc hs htext hwrite).works.heading (hspawn hcomes)

end Engine

end LiveCheck
