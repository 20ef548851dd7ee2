import LiveCheck.Disk.Basic

/-!
# Compiler behaviours

How the compiler behaves is not known to the program that starts it. A behaviour fixes all that can
make a difference: whether and when the compiler starts, the listing it leaves, when it exits and
with what status, and what it does when it is told to stop. Any start may fail in any way, whatever
the words of the command are.
-/

namespace LiveCheck

/-- What a process does when it is told to stop. -/
inductive StopResponse
  /-- It exits. -/
  | exits
  /-- It goes on. -/
  | ignores
  /-- It turns out to be out of reach, and goes on. -/
  | vanished
  deriving DecidableEq, Repr

/-- Why the system does not start the compiler. -/
inductive StartFault
  /-- There is no such program. -/
  | notFound
  /-- The program may not be run. -/
  | notPermitted
  /-- Any other reason. -/
  | other (reason : Text)
  deriving DecidableEq, Repr

/-- How a start fails. -/
inductive FailedStart
  /-- The system refuses it. -/
  | refused (fault : StartFault)
  /-- The command cannot be handed to the system at all: a word of it is no string, or holds a null
      character or half of a surrogate pair. -/
  | rejected (reason : Text)
  deriving DecidableEq, Repr

/-- The words for a start that failed. -/
def StartFault.reason : StartFault → Text
  | notFound => "executable not found".toList
  | notPermitted => "permission denied".toList
  | other reason => reason

/-- How a compiler process behaves. -/
structure Behaviour where
  /-- Does the start take until the environment lets it happen? -/
  holdsStart : Bool := false
  /-- How the start fails, if it does. -/
  failedStart : Option FailedStart := none
  /-- What is put in the place of the listing when the process starts. -/
  early : Option Node := none
  /-- What is put in the place of the listing when the process exits by itself. -/
  listing : Option Node := none
  /-- Does the process run until the environment lets it exit? -/
  holdsExit : Bool := false
  /-- The exit status of a process that is not held. -/
  status : Int := 0
  /-- What it writes to its error output. -/
  errorOutput : Text := []
  /-- What it does when it is told to stop. -/
  onStop : StopResponse := .exits
  /-- The suffix that it gives the listing, without the dot. -/
  listingSuffix : Text := "lst".toList
  deriving DecidableEq, Repr

/-- A compiler process. -/
structure CompilerProcess where
  /-- How it behaves. -/
  behaviour : Behaviour := {}
  /-- The exit status, once the process has exited. -/
  status : Option Int := none
  /-- How often it was told to stop. -/
  stops : Nat := 0
  deriving DecidableEq, Repr

/-- The exit status of a process that was stopped. -/
def stoppedStatus : Int := -15

namespace CompilerProcess

/-- Is the process running? -/
def isRunning (p : CompilerProcess) : Bool := p.status.isNone

/-- Tells a process to stop, unless it has exited. -/
def stop (p : CompilerProcess) : CompilerProcess :=
  match p.status with
  | some _ => p
  | none =>
    { p with
      stops := p.stops + 1
      status := if p.behaviour.onStop = .exits then some stoppedStatus else none }

end CompilerProcess

end LiveCheck
