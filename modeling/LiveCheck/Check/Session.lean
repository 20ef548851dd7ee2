import LiveCheck.Check.Event
import LiveCheck.Compiler.Behaviour

/-!
# Sessions

A session is one check of a source. It moves through the phases, owns the compiler process that it
started, and hands its diagnostics to a receiver. Moving, delivering and cancelling each touch
fields of their own; only the first delivery reaches the receiver.
-/

namespace LiveCheck

/-- How a receiver fails. -/
inductive ReceiverFault
  /-- It gives a reason. -/
  | told (reason : Text)
  /-- Asking it for the reason fails in turn, for a reason of its own. -/
  | untold (reason : Text)
  deriving DecidableEq, Repr

namespace ReceiverFault

/-- The reason that is told. -/
def told? : ReceiverFault → Option Text
  | told reason => some reason
  | untold _ => none

/-- The reason of the fault that asking for a reason ends with. -/
def untold? : ReceiverFault → Option Text
  | told _ => none
  | untold reason => some reason

end ReceiverFault

/-- What a receiver does with a report. -/
structure Receiver where
  /-- Deliveries that it makes to the same session in turn. -/
  deliversAgain : List (List Diagnostic) := []
  /-- How it fails in the end, if it does. -/
  failure : Option ReceiverFault := none
  deriving DecidableEq, Repr

/-- One check of a source. -/
structure Session where
  /-- The number of the session. -/
  id : Int
  /-- The source. -/
  source : Path
  /-- The listing that the compiler is to leave. -/
  listing : Path
  /-- The text of the source, if it is to be saved before the check. A string that is no text cannot
      be saved. -/
  text : Option JsonString := none
  /-- The receiver of the report. -/
  receiver : Receiver := {}
  /-- How far the check has come. -/
  phase : Phase := .idle
  /-- The compiler process. -/
  process : Option CompilerProcess := none
  /-- What went wrong. -/
  fault : Option CheckFault := none
  /-- The diagnostics that were delivered. -/
  diagnostics : List Diagnostic := []
  /-- Was the session told to stop? -/
  cancelled : Bool := false
  /-- Was a report delivered? -/
  delivered : Bool := false
  /-- The reports that reached the receiver. -/
  reports : List (List Diagnostic) := []

/-- A session was to move to a phase that cannot follow its own. -/
structure InvalidMove where
  /-- The number of the session. -/
  id : Int
  /-- The phase of the session. -/
  before : Phase
  /-- The phase it was to move to. -/
  after : Phase
  deriving DecidableEq, Repr

/-- What is said of a move that cannot be made. -/
def InvalidMove.message (m : InvalidMove) : String :=
  s!"session {decimal m.id}: {m.before.name} -> {m.after.name}"

namespace Session

/-- Moves the session to the next phase. -/
def advance (s : Session) (next : Phase) : Except InvalidMove Session :=
  if next ∈ s.phase.successors then .ok { s with phase := next }
  else .error ⟨s.id, s.phase, next⟩

/-- The event of a move to the next phase. -/
def advanceEvent (s : Session) (next : Phase) : Event :=
  .advanced s.id s.source.name s.phase next

/-- Delivers diagnostics. Only the first delivery counts. -/
def deliver (s : Session) (diagnostics : List Diagnostic) : Session :=
  if s.delivered then s
  else { s with delivered := true, diagnostics, reports := s.reports ++ [diagnostics] }

/-- The events of a delivery, with those that the receiver causes. -/
def deliverEvents (s : Session) : List Event :=
  if s.delivered then [.secondReport s.id]
  else
    s.receiver.deliversAgain.map (fun _ => .secondReport s.id) ++
      ((s.receiver.failure.bind (·.told?)).map (.receiverFailed s.id)).toList

/-- The reason of the fault that gets out of a delivery, if one does: the receiver failed, and its
    reason could not be told. -/
def deliveryFault? (s : Session) : Option Text :=
  if s.delivered then none else s.receiver.failure.bind (·.untold?)

/-- Stops the compiler process if it is running. -/
def cancel (s : Session) : Session :=
  { s with cancelled := true, process := s.process.map (·.stop) }

end Session

end LiveCheck
