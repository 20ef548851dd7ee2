import LiveCheck.Proofs.Check.Act

/-!
# The life of a session

A session may be moved, made to report, told to stop, given a process and given a fault, in any
order (`Session.Call`). While the receiver has the report of a session, it may deliver to the
session in turn and fail in the end (`Session.Delivers`). The session counts as delivered before the
receiver gets anything, so such deliveries are dropped like all later ones
(`Session.delivers_iff`). A receiver that fails and gives a reason is not noticed by the caller; if
it cannot tell its reason, the fault of asking for it gets out of the delivery, which counts all the
same (`Session.Run.answers`).

Whatever has happened to a session (`Session.Run`), the first report is the only one that reached
the receiver (`Session.Run.one_report`). Each move uses up one of the moves that are left
(`Phase.movesLeft_lt`), and a final phase leaves none.
-/

namespace LiveCheck

/-! ## Moves that are left -/

namespace Phase

/-- How many moves a phase leaves at most. -/
def movesLeft : Phase → Nat
  | idle => 4
  | spawning => 3
  | running => 2
  | parsing => 1
  | _ => 0

/-- A move leaves fewer moves. -/
theorem movesLeft_lt {p q : Phase} (h : q ∈ p.successors) : q.movesLeft < p.movesLeft := by
  revert h
  cases p <;> cases q <;> decide

/-- No move leads on from a final phase. -/
theorem successors_of_isFinal {p : Phase} (h : p.isFinal) : p.successors = [] := by
  revert h
  cases p <;> decide

end Phase

namespace Session

/-! ## Deliveries in turn -/

/-- The session when it calls the receiver with a report. -/
def reporting (s : Session) (report : List Diagnostic) : Session :=
  { s with delivered := true, diagnostics := report, reports := s.reports ++ [report] }

mutual

/-- A delivery to a session, with whether it counts, the answers to the deliveries that the receiver
    makes in turn, the events, and the session that it leaves. -/
inductive Delivers :
    Session → List Diagnostic → Bool → List Bool → List Event → Session → Prop
  /-- The session has delivered before. -/
  | dropped {s : Session} {report : List Diagnostic} :
      s.delivered = true → Delivers s report false [] [.secondReport s.id] s
  /-- The receiver gets the report. A reason that it gives for a failure is noted. -/
  | handed {s t : Session} {report : List Diagnostic} {inTurn : List Bool} {events : List Event} :
      s.delivered = false →
      DeliversAll (s.reporting report) s.receiver.deliversAgain inTurn events t →
      Delivers s report true inTurn
        (events ++ ((s.receiver.failure.bind (·.told?)).map (.receiverFailed s.id)).toList) t

/-- Deliveries to a session, one after the other. -/
inductive DeliversAll :
    Session → List (List Diagnostic) → List Bool → List Event → Session → Prop
  | done {s : Session} : DeliversAll s [] [] [] s
  | next {s t u : Session} {report : List Diagnostic} {rest : List (List Diagnostic)}
      {answer : Bool} {deeper answers : List Bool} {events more : List Event} :
      Delivers s report answer deeper events t → DeliversAll t rest answers more u →
      DeliversAll s (report :: rest) (answer :: deeper ++ answers) (events ++ more) u

end

variable {s t u : Session} {report : List Diagnostic} {counts : Bool} {inTurn : List Bool}
  {events : List Event}

/-- A session that has delivered before notes the second report, and nothing else happens. -/
theorem delivers_of_delivered (h : s.delivered = true) :
    Delivers s report counts inTurn events t ↔
      counts = false ∧ inTurn = [] ∧ events = [.secondReport s.id] ∧ t = s := by
  constructor
  · rintro (_ | ⟨hnot, -⟩)
    · exact ⟨rfl, rfl, rfl, rfl⟩
    · exact absurd h (by rw [hnot]; decide)
  · rintro ⟨rfl, rfl, rfl, rfl⟩
    exact .dropped h

/-- After the first delivery, all are dropped. -/
theorem deliversAll_of_delivered (h : s.delivered = true) {reports : List (List Diagnostic)} :
    DeliversAll s reports inTurn events t ↔ inTurn = reports.map (fun _ => false) ∧
      events = reports.map (fun _ => .secondReport s.id) ∧ t = s := by
  induction reports generalizing inTurn events with
  | nil =>
    constructor
    · rintro ⟨⟩
      exact ⟨rfl, rfl, rfl⟩
    · rintro ⟨rfl, rfl, rfl⟩
      exact .done
  | cons report rest ih =>
    constructor
    · rintro (_ | ⟨hfirst, hrest⟩)
      obtain ⟨rfl, rfl, rfl, rfl⟩ := (delivers_of_delivered h).1 hfirst
      obtain ⟨rfl, rfl, rfl⟩ := ih.1 hrest
      exact ⟨rfl, rfl, rfl⟩
    · rintro ⟨rfl, rfl, rfl⟩
      exact .next (.dropped h) (ih.2 ⟨rfl, rfl, rfl⟩)

/-- What a delivery comes to, with all that the receiver does. -/
theorem delivers_iff : Delivers s report counts inTurn events t ↔
    counts = !s.delivered ∧
    inTurn = (if s.delivered then [] else s.receiver.deliversAgain.map fun _ => false) ∧
    events = s.deliverEvents ∧ t = s.deliver report := by
  cases h : s.delivered with
  | true =>
    rw [delivers_of_delivered h, deliverEvents, if_pos h, deliver, if_pos h]
    rfl
  | false =>
    have hmarked : (s.reporting report).delivered = true := rfl
    have hdeliver : s.deliver report = s.reporting report := if_neg (by simp [h])
    rw [deliverEvents, if_neg Bool.false_ne_true, if_neg (by simp [h]), hdeliver]
    constructor
    · rintro (hdelivered | ⟨-, hall⟩)
      · exact absurd hdelivered (by rw [h]; decide)
      · obtain ⟨rfl, rfl, rfl⟩ := (deliversAll_of_delivered hmarked).1 hall
        exact ⟨rfl, rfl, rfl, rfl⟩
    · rintro ⟨rfl, rfl, rfl, rfl⟩
      exact .handed h ((deliversAll_of_delivered hmarked).2 ⟨rfl, rfl, rfl⟩)

/-! ## Calls -/

/-- What is done to a session. -/
inductive Call
  /-- It is to move to another phase. -/
  | advance (next : Phase)
  /-- It is to deliver a report. -/
  | deliver (report : List Diagnostic)
  /-- It is told to stop. -/
  | cancel
  /-- It gets a process. -/
  | attach (process : CompilerProcess)
  /-- Something went wrong. -/
  | fail (fault : CheckFault)

/-- The report of a call that delivers one. -/
def Call.report? : Call → Option (List Diagnostic)
  | deliver report => some report
  | _ => none

/-- What a call answers. -/
inductive Answer
  | done
  /-- The move cannot be made. -/
  | refused (move : InvalidMove)
  /-- Whether the delivery counts, and what the receiver was answered when it delivered in turn. -/
  | delivered (counts : Bool) (inTurn : List Bool)
  /-- The receiver failed and could not tell why, which is all that the caller learns; and what the
      receiver was answered when it delivered in turn. -/
  | escaped (reason : Text) (inTurn : List Bool)

/-- The answer to a delivery. -/
def deliverAnswer (s : Session) : Answer :=
  let inTurn := if s.delivered then [] else s.receiver.deliversAgain.map fun _ => false
  match s.deliveryFault? with
  | none => .delivered (!s.delivered) inTurn
  | some reason => .escaped reason inTurn

/-- A call of a session, with its answer and with the session that it leaves. -/
inductive Step : Session → Call → Answer → Session → Prop
  | advanced {s t : Session} {next : Phase} :
      s.advance next = .ok t → Step s (.advance next) .done t
  | refused {s : Session} {next : Phase} {move : InvalidMove} :
      s.advance next = .error move → Step s (.advance next) (.refused move) s
  | delivered {s t : Session} {report : List Diagnostic} {counts : Bool} {inTurn : List Bool}
      {events : List Event} : Delivers s report counts inTurn events t → s.deliveryFault? = none →
      Step s (.deliver report) (.delivered counts inTurn) t
  | escaped {s t : Session} {report : List Diagnostic} {counts : Bool} {inTurn : List Bool}
      {events : List Event} {reason : Text} : Delivers s report counts inTurn events t →
      s.deliveryFault? = some reason → Step s (.deliver report) (.escaped reason inTurn) t
  | cancelled {s : Session} : Step s .cancel .done s.cancel
  | attached {s : Session} (process : CompilerProcess) :
      Step s (.attach process) .done { s with process := some process }
  | failed {s : Session} (fault : CheckFault) :
      Step s (.fail fault) .done { s with fault := some fault }

/-- The calls of a session so far, with their answers, and the session that they left. -/
inductive Run (s : Session) : List (Call × Answer) → Session → Prop
  | start : Run s [] s
  | step {history : List (Call × Answer)} {t u : Session} {c : Call} {a : Answer} :
      Run s history t → Step t c a u → Run s (history ++ [(c, a)]) u

variable {c : Call} {a : Answer} {history : List (Call × Answer)}

/-- A move is made if the table has it, and refused otherwise. -/
theorem step_advance {next : Phase} : Step s (.advance next) a t ↔
    (next ∈ s.phase.successors ∧ a = .done ∧ t = s.to next) ∨
      (next ∉ s.phase.successors ∧ a = .refused ⟨s.id, s.phase, next⟩ ∧ t = s) := by
  by_cases h : next ∈ s.phase.successors
  · have hmove : s.advance next = .ok (s.to next) := advance_eq h
    constructor
    · rintro (hok | herror)
      · exact .inl ⟨h, rfl, Except.ok.inj (hok.symm.trans hmove)⟩
      · cases herror.symm.trans hmove
    · rintro (⟨-, rfl, rfl⟩ | ⟨hnot, -⟩)
      · exact .advanced hmove
      · exact absurd h hnot
  · have hmove : s.advance next = .error ⟨s.id, s.phase, next⟩ := if_neg h
    constructor
    · rintro (hok | herror)
      · cases hok.symm.trans hmove
      · exact .inr ⟨h, congrArg _ (Except.error.inj (herror.symm.trans hmove)), rfl⟩
    · rintro (⟨hmem, -⟩ | ⟨-, rfl, rfl⟩)
      · exact absurd hmem h
      · exact .refused hmove

/-- A delivery has one answer and leaves one session. -/
theorem step_deliver : Step s (.deliver report) a t ↔
    a = s.deliverAnswer ∧ t = s.deliver report := by
  have hall := delivers_iff.2 (⟨rfl, rfl, rfl, rfl⟩ : _ ∧ _ ∧ _ ∧ s.deliver report = _)
  constructor
  · intro h
    cases h with
    | delivered hdelivers hfault | escaped hdelivers hfault =>
      obtain ⟨rfl, rfl, -, rfl⟩ := delivers_iff.1 hdelivers
      rw [deliverAnswer, hfault]
      exact ⟨rfl, rfl⟩
  · rintro ⟨rfl, rfl⟩
    cases hfault : s.deliveryFault? with
    | none =>
      rw [deliverAnswer, hfault]
      exact .delivered hall hfault
    | some reason =>
      rw [deliverAnswer, hfault]
      exact .escaped hall hfault

/-- Every call has one answer, and leaves one session. -/
theorem existsUnique_step (s : Session) (c : Call) :
    ∃ a t, Step s c a t ∧ ∀ a' t', Step s c a' t' → a' = a ∧ t' = t := by
  cases c with
  | advance next =>
    by_cases h : next ∈ s.phase.successors
    · refine ⟨_, _, step_advance.2 (.inl ⟨h, rfl, rfl⟩), fun a' t' hstep => ?_⟩
      rcases step_advance.1 hstep with ⟨-, ha, ht⟩ | ⟨hnot, -⟩
      · exact ⟨ha, ht⟩
      · exact absurd h hnot
    · refine ⟨_, _, step_advance.2 (.inr ⟨h, rfl, rfl⟩), fun a' t' hstep => ?_⟩
      rcases step_advance.1 hstep with ⟨hmem, -⟩ | ⟨-, ha, ht⟩
      · exact absurd hmem h
      · exact ⟨ha, ht⟩
  | deliver report => exact ⟨_, _, step_deliver.2 ⟨rfl, rfl⟩, fun _ _ => step_deliver.1⟩
  | cancel => exact ⟨_, _, .cancelled, by rintro _ _ ⟨⟩; exact ⟨rfl, rfl⟩⟩
  | attach process => exact ⟨_, _, .attached process, by rintro _ _ ⟨⟩; exact ⟨rfl, rfl⟩⟩
  | fail fault => exact ⟨_, _, .failed fault, by rintro _ _ ⟨⟩; exact ⟨rfl, rfl⟩⟩

/-! ## What a step keeps -/

/-- The report that reached the receiver, or that none did, is what is told of the session. -/
structure Tells (s : Session) (first : Option (List Diagnostic)) : Prop where
  delivered : s.delivered = first.isSome
  reports : s.reports = first.toList
  diagnostics : s.diagnostics = first.getD []

/-- Whether a call is a move that was made. -/
def isMove : Call × Answer → Bool
  | (.advance _, .done) => true
  | _ => false

theorem Tells.deliver {first : Option (List Diagnostic)} (h : s.Tells first)
    (report : List Diagnostic) : (s.deliver report).Tells (first.or (some report)) := by
  cases first with
  | none =>
    have hreporting : s.deliver report = s.reporting report := if_neg (by simp [h.delivered])
    rw [hreporting]
    exact ⟨rfl, by rw [reporting, h.reports]; rfl, rfl⟩
  | some earlier =>
    have hdropped : s.deliver report = s := if_pos h.delivered
    rw [hdropped]
    exact h

/-- A step delivers its report if none was delivered before. -/
theorem Tells.step {first : Option (List Diagnostic)} (h : s.Tells first) (hstep : Step s c a t) :
    t.Tells (first.or c.report?) := by
  cases c with
  | deliver report => exact (step_deliver.1 hstep).2 ▸ h.deliver report
  | advance next =>
    change t.Tells (first.or none)
    rw [Option.or_none]
    rcases step_advance.1 hstep with ⟨-, -, rfl⟩ | ⟨-, -, rfl⟩
    · exact ⟨h.delivered, h.reports, h.diagnostics⟩
    · exact h
  | cancel | attach | fail =>
    change t.Tells (first.or none)
    rw [Option.or_none]
    cases hstep
    exact ⟨h.delivered, h.reports, h.diagnostics⟩

/-- A session keeps its receiver. -/
theorem step_receiver (h : Step s c a t) : t.receiver = s.receiver := by
  cases c with
  | advance next => rcases step_advance.1 h with ⟨-, -, rfl⟩ | ⟨-, -, rfl⟩ <;> rfl
  | deliver report =>
    obtain ⟨-, rfl⟩ := step_deliver.1 h
    exact (s.deliver_same report).receiver
  | cancel | attach | fail =>
    cases h
    rfl

/-- A step is a move along the table, or leaves the phase as it is. -/
theorem step_phase (h : Step s c a t) :
    (isMove (c, a) = true ∧ t.phase ∈ s.phase.successors) ∨
      (isMove (c, a) = false ∧ t.phase = s.phase) := by
  cases c with
  | advance next =>
    rcases step_advance.1 h with ⟨hnext, rfl, rfl⟩ | ⟨-, rfl, rfl⟩
    · exact .inl ⟨rfl, hnext⟩
    · exact .inr ⟨rfl, rfl⟩
  | deliver report =>
    obtain ⟨rfl, rfl⟩ := step_deliver.1 h
    exact .inr ⟨rfl, deliver_phase s report⟩
  | cancel | attach | fail =>
    cases h
    exact .inr ⟨rfl, rfl⟩

/-- Moving, delivering and cancelling each touch fields of their own. -/
theorem step_frame (h : Step s c a t) :
    (∀ next, c = .advance next → t = { s with phase := t.phase }) ∧
    (∀ report, c = .deliver report →
      t = { s with delivered := t.delivered, diagnostics := t.diagnostics, reports := t.reports }) ∧
    (c = .cancel → t = { s with cancelled := t.cancelled, process := t.process }) := by
  refine ⟨?_, ?_, ?_⟩
  · rintro next rfl
    rcases step_advance.1 h with ⟨-, -, rfl⟩ | ⟨-, -, rfl⟩ <;> rfl
  · rintro report rfl
    obtain ⟨-, rfl⟩ := step_deliver.1 h
    rw [deliver]
    split <;> rfl
  · rintro rfl
    cases h
    rfl

/-! ## Runs -/

/-- The first report that calls deliver. -/
def firstReport (history : List (Call × Answer)) : Option (List Diagnostic) :=
  history.findSome? (·.1.report?)

/-- How many moves were made. -/
def moves (history : List (Call × Answer)) : Nat := history.countP isMove

namespace Run

/-- After a run, the receiver has the first report that was delivered in it, if there was one. -/
theorem tells (hs : s.Tells none) (h : Run s history t) : t.Tells (firstReport history) := by
  induction h with
  | start => exact hs
  | step hrun hstep ih =>
    rw [firstReport, List.findSome?_append, List.findSome?_singleton]
    exact ih.step hstep

/-- The moves of a run and those that are left after it are no more than were left before. -/
theorem moves_le (h : Run s history t) :
    moves history + t.phase.movesLeft ≤ s.phase.movesLeft := by
  induction h with
  | start => exact Nat.le_of_eq (Nat.zero_add _)
  | @step history t u c a hrun hstep ih =>
    rw [moves, List.countP_append, List.countP_singleton, ← moves]
    rcases step_phase hstep with ⟨hmove, hphase⟩ | ⟨hmove, hphase⟩
    · have := Phase.movesLeft_lt hphase
      rw [if_pos hmove]
      omega
    · rw [hphase, if_neg (by simp [hmove])]
      omega

/-- A run keeps a final phase. -/
theorem phase_of_isFinal (h : Run s history t) (hs : s.phase.isFinal) : t.phase = s.phase := by
  induction h with
  | start => rfl
  | step hrun hstep ih =>
    rcases step_phase hstep with ⟨-, hphase⟩ | ⟨-, hphase⟩
    · rw [ih, Phase.successors_of_isFinal hs] at hphase
      exact absurd hphase List.not_mem_nil
    · rw [hphase, ih]

/-- Every call of a run is a step. -/
theorem split {before later : List (Call × Answer)} (h : Run s history t)
    (hsplit : history = before ++ (c, a) :: later) : ∃ u v, Run s before u ∧ Step u c a v := by
  induction h generalizing later with
  | start => simp at hsplit
  | @step history u v c' a' hrun hstep ih =>
    rcases List.eq_nil_or_concat later with rfl | ⟨later, last, rfl⟩
    · obtain ⟨rfl, hlast⟩ := List.append_inj' hsplit rfl
      obtain ⟨rfl, rfl⟩ := Prod.mk.inj (List.singleton_inj.1 hlast)
      exact ⟨u, v, hrun, hstep⟩
    · rw [List.concat_eq_append, ← List.cons_append, ← List.append_assoc] at hsplit
      exact ih (List.append_inj' hsplit rfl).1

theorem receiver (h : Run s history t) : t.receiver = s.receiver := by
  induction h with
  | start => rfl
  | step _ hstep ih => exact (step_receiver hstep).trans ih

/-- Only the first delivery counts, and all that a receiver delivers in turn is dropped. The first
    one does not answer if the receiver fails and cannot tell why. -/
theorem answers {before later : List (Call × Answer)} (hs : s.Tells none) (h : Run s history t)
    (hsplit : history = before ++ (.deliver report, a) :: later) :
    ∃ inTurn, (∀ b ∈ inTurn, b = false) ∧ (a = .delivered (firstReport before).isNone inTurn ∨
      ∃ reason, firstReport before = none ∧ s.receiver.failure = some (.untold reason) ∧
        a = .escaped reason inTurn) := by
  obtain ⟨u, v, hbefore, hstep⟩ := h.split hsplit
  obtain ⟨rfl, -⟩ := step_deliver.1 hstep
  have hdelivered := (tells hs hbefore).delivered
  refine ⟨if u.delivered then [] else u.receiver.deliversAgain.map fun _ => false, ?_, ?_⟩
  · intro b hb
    split at hb
    · exact absurd hb List.not_mem_nil
    · obtain ⟨-, -, rfl⟩ := List.mem_map.1 hb
      rfl
  · -- The answer depends on the session at the time of the call, which tells whether there was a
    -- report before.
    cases hfault : u.deliveryFault? with
    | none =>
      left
      rw [deliverAnswer, hfault, hdelivered, Option.not_isSome]
    | some reason =>
      right
      obtain ⟨hnot, huntold⟩ := deliveryFault?_eq_some.1 hfault
      refine ⟨reason, ?_, receiver hbefore ▸ huntold, by rw [deliverAnswer, hfault]⟩
      rw [hdelivered] at hnot
      exact Option.not_isSome_iff_eq_none.1 (by simp [hnot])

end Run

end Session

end LiveCheck
