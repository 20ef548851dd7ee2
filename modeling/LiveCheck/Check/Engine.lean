import LiveCheck.Check.Session
import LiveCheck.Disk.Planting
import LiveCheck.Settings.Basic
import LiveCheck.Source.Kind

/-!
# The state of the engine

The engine runs checks. Every session gets a larger number than the one before, and the largest
number handed out for a source is its newest session. The checks of one source take turns: each
joins a queue, and the one at the head of the queue has the source to itself.

A check is carried out by a task, which runs without interruption until it has to wait: for its
turn, for the compiler to start, or for the compiler to exit. Tasks that can go on do so in the
order in which they became able to.
-/

namespace LiveCheck

/-- What can end a task other than the end of its check. -/
inductive TaskFault
  /-- The session could not move to its next phase. -/
  | move (move : InvalidMove)
  /-- A setting is of the wrong kind. -/
  | setting (fault : SettingFault)
  /-- The disk could not look at the listing, or take a path with a null character. -/
  | disk (fault : DiskFault)
  /-- The text of the source is none. -/
  | text (fault : EncodingFault)
  /-- The command could not be handed to the system. -/
  | start (reason : Text)
  /-- The receiver of the report failed, and its reason could not be told. -/
  | receiver (reason : Text)
  deriving DecidableEq, Repr

/-- What is said of a task that failed. -/
def TaskFault.message : TaskFault → String
  | move m => m.message
  | setting fault => fault.message
  | disk fault => fault.message
  | text fault => fault.message
  | start reason => String.ofList reason
  | receiver reason => String.ofList reason

/-- How a delivery of diagnostics to the receiver of a session ends. -/
def Session.deliveryResult (s : Session) : Except TaskFault Unit :=
  match s.deliveryFault? with
  | some reason => .error (.receiver reason)
  | none => .ok ()

/-- How a task ended. -/
inductive Outcome
  /-- Its check came to an end. -/
  | done
  /-- It was aborted. -/
  | aborted
  /-- It failed. -/
  | failed (fault : TaskFault)
  deriving DecidableEq, Repr

/-- Where a task stands. -/
inductive Stage
  /-- It has not begun. -/
  | created
  /-- It waits for its turn. -/
  | queued
  /-- Its turn has come. -/
  | admitted
  /-- The compiler is being started. -/
  | starting
  /-- The compiler is running. -/
  | waiting
  /-- It has ended. -/
  | ended (outcome : Outcome)
  deriving DecidableEq, Repr

/-- Has the task ended? -/
def Stage.isEnded : Stage → Bool
  | ended _ => true
  | _ => false

/-- The number of a task. -/
abbrev TaskId := Nat

/-- A run of a check. -/
structure Task where
  /-- The session that is checked. -/
  session : Int
  /-- How the compiler behaves if the task starts it. -/
  behaviour : Behaviour
  /-- Where the task stands. -/
  stage : Stage := .created
  /-- Is the start of the compiler held, once it was asked for? -/
  startHeld : Option Bool := none
  deriving DecidableEq, Repr

/-- An attempt to start the compiler. -/
structure Spawn where
  /-- The session that it is for. -/
  session : Int
  /-- The words of the command. -/
  command : List Json
  /-- The directory that the compiler runs in. -/
  directory : Path

/-- The state of the engine, with the disk that it works on. -/
structure Engine where
  /-- The disk. -/
  disk : Disk
  /-- The settings. -/
  settings : Settings
  /-- The compiler. -/
  compiler : Compiler
  /-- The number of the next session. -/
  nextId : Int := 1
  /-- The newest session of each source. -/
  latest : Table Path Int := ∅
  /-- The session of each source that was started last and has not ended. -/
  active : Table Path Int := ∅
  /-- The tasks of each source that take turns, the one whose turn it is first. -/
  queues : Table Path (List TaskId) := ∅
  /-- The sessions. -/
  sessions : Table Int Session := ∅
  /-- The tasks. -/
  tasks : Table TaskId Task := ∅
  /-- The tasks that can go on, in the order in which they became able to. -/
  ready : List TaskId := []
  /-- The tasks that have ended, in order. -/
  finished : List TaskId := []
  /-- The attempts to start the compiler, in order. -/
  spawns : List Spawn := []
  /-- The reports that reached a receiver, with their sessions, in order. -/
  deliveries : List (Int × List Diagnostic) := []
  /-- What happened, in order. -/
  log : List Event := []

namespace Engine

/-- Notes events in the log. -/
def note (e : Engine) (events : List Event) : Engine := { e with log := e.log ++ events }

/-- Puts a session in the place of the one with its number. -/
def putSession (e : Engine) (s : Session) : Engine := { e with sessions := e.sessions.put s.id s }

/-- Puts a task in the place of the one with its number. -/
def putTask (e : Engine) (t : TaskId) (task : Task) : Engine :=
  { e with tasks := e.tasks.put t task }

/-- Lets a task go on when its turn comes. -/
def enqueue (e : Engine) (t : TaskId) : Engine := { e with ready := e.ready ++ [t] }

/-- The tasks that take turns for a source. -/
def queueOf (e : Engine) (source : Path) : List TaskId := (e.queues.get? source).getD []

/-- Is the session the newest one of its source? -/
def isCurrent (e : Engine) (s : Session) : Bool := e.latest.get? s.source = some s.id

/-- The suffixes that checking is enabled for. -/
def suffixes (e : Engine) : Except SettingFault (List Json) :=
  (e.settings.getOrDefault "extensions").settingItems

/-- Is checking enabled for a path? -/
def isEnabled (e : Engine) (p : Path) : Except SettingFault Bool := do
  isEnabledBy (← e.suffixes) p

/-- The task that waits for the compiler of a session. -/
def waitingTask? (e : Engine) (id : Int) : Option TaskId :=
  (e.tasks.entries.find? fun t => t.2.session = id ∧ t.2.stage = .waiting).map (·.1)

/-- Lets the task that waits for the compiler of a session go on. -/
def wake (e : Engine) (id : Int) : Engine :=
  match e.waitingTask? id with
  | some t => e.enqueue t
  | none => e

/-- Cancels a session. If this makes its compiler exit, the task that waits for it can go on. -/
def cancelSession (e : Engine) (id : Int) : Engine :=
  match e.sessions.get? id with
  | none => e
  | some s =>
    let e := e.putSession s.cancel
    if s.process.any (·.isRunning) ∧ s.cancel.process.all (!·.isRunning) then e.wake id else e

/-- Moves a session to its next phase. -/
def move (e : Engine) (s : Session) (next : Phase) : Except TaskFault (Engine × Session) :=
  match s.advance next with
  | .ok s' => .ok ((e.note [s.advanceEvent next]).putSession s', s')
  | .error m => .error (.move m)

/-- Delivers diagnostics to the receiver of a session. -/
def deliver (e : Engine) (s : Session) (diagnostics : List Diagnostic) : Engine :=
  let e := (e.note s.deliverEvents).putSession (s.deliver diagnostics)
  if s.delivered then e else { e with deliveries := e.deliveries ++ [(s.id, diagnostics)] }

/-- Reports diagnostics for a session that moves to its last phase. -/
def report (e : Engine) (s : Session) (last : Phase) (diagnostics : List Diagnostic) :
    Engine × Except TaskFault Unit :=
  match e.move s last with
  | .error fault => (e, .error fault)
  | .ok (e, s) => (e.deliver s diagnostics, s.deliveryResult)

/-- Ends a session without diagnostics. -/
def reportEmpty (e : Engine) (s : Session) : Engine × Except TaskFault Unit :=
  e.report s .reportedEmpty []

/-- What is said of a start that the system refused. -/
def spawnFault (e : Engine) (fault : StartFault) : SpawnFault :=
  ⟨.string e.compiler.called, fault.reason⟩

/-- Deletes the listing of a session, if there is one. A listing that the system does not let go is
    left behind, but a null character in its path is a fault. -/
def removeListing (e : Engine) (s : Session) : Engine × Except TaskFault Unit :=
  match e.disk.removeFile s.listing with
  | .ok disk => ({ e with disk }, .ok ())
  | .error (.system .notFound _) => (e, .ok ())
  | .error (.system error path) => (e.note [.listingKept s.listing (.system error path)], .ok ())
  | .error fault => (e, .error (.disk fault))

end Engine

end LiveCheck
