import LiveCheck.Check.Turn

/-!
# Controlling the engine

What can be asked of the engine: to check a source, to stop its check or all checks, to abort a task
from outside. The environment lets compilers start and exit. After each of these, tasks take their
turns until none can go on.
-/

namespace LiveCheck

/-- Why no session was made for a source. -/
inductive Refusal
  /-- Checking is not enabled for the source. -/
  | unsupported (name : Text) (enabled : Text)
  /-- The setting that tells what is enabled is of the wrong kind. -/
  | setting (fault : SettingFault)
  /-- The listing of the source has no name. -/
  | listing (fault : ListingNameFault)
  /-- The path holds a null character. -/
  | path (fault : DiskFault)
  deriving DecidableEq, Repr

/-- What is said of a refused source. -/
def Refusal.message : Refusal → String
  | unsupported name enabled => s!"Checking is not enabled for '{name}' (enabled: {enabled})"
  | setting fault => fault.message
  | listing fault => fault.message
  | path fault => fault.message

namespace Engine

/-- The engine for a disk and settings, with the compiler that the settings name. -/
def create (disk : Disk) (searchPath : List Text) (settings : Settings) :
    Except SettingFault Engine := do
  let compiler ← Compiler.choose disk searchPath (settings.getOrDefault "compiler")
  let e : Engine := { disk, settings, compiler }
  return if compiler.program.isSome then e else e.note [.compilerNotFound compiler.name]

/-- Decides whether a resolved source may be checked. -/
def admission (e : Engine) (source : Path) : Except Refusal Unit :=
  match e.suffixes with
  | .error fault => .error (.setting fault)
  | .ok suffixes =>
    match isEnabledBy suffixes source with
    | .error fault => .error (.setting fault)
    | .ok true => .ok ()
    | .ok false =>
      match (Json.list suffixes).joinSetting with
      | .error fault => .error (.setting fault)
      | .ok enabled => .error (.unsupported source.name enabled)

/-- Makes a session for a source. Its number is used up even if its listing turns out to have no
    name. -/
def newSession (e : Engine) (path : Text) (text : Option JsonString) (receiver : Receiver) :
    Engine × Except Refusal Session :=
  match e.disk.resolved path with
  | .error fault => (e, .error (.path fault))
  | .ok source =>
    match e.admission source with
    | .error refusal => (e, .error refusal)
    | .ok () =>
      let id := e.nextId
      let e := { e with nextId := id + 1 }
      match e.settings.listingPath source with
      | .error fault => (e, .error (.listing fault))
      | .ok listing =>
        let s : Session := { id, source, listing, text, receiver }
        ({ e.putSession s with latest := e.latest.put source id }, .ok s)

/-- Begins the check of a session: a new task takes its first turn. -/
def beginCheck (e : Engine) (id : Int) (behaviour : Behaviour) : Engine × TaskId :=
  let t := e.tasks.entries.length
  ((e.putTask t { session := id, behaviour }).resume t, t)

/-- Runs the check of a session. -/
def runSession (e : Engine) (id : Int) (behaviour : Behaviour) : Engine × TaskId :=
  let (e, t) := e.beginCheck id behaviour
  (e.drain, t)

/-- Checks a source: makes a session for it and runs its check. -/
def check (e : Engine) (path : Text) (text : Option JsonString) (receiver : Receiver)
    (behaviour : Behaviour) : Engine × Except Refusal (Session × TaskId) :=
  match e.newSession path text receiver with
  | (e, .error refusal) => (e, .error refusal)
  | (e, .ok s) =>
    let (e, t) := e.runSession s.id behaviour
    (e, .ok (s, t))

/-- The task that asked for the compiler of a session and was held. -/
def heldTask? (e : Engine) (id : Int) : Option (TaskId × Task) :=
  e.tasks.entries.find? fun t => t.2.session = id ∧ t.2.startHeld.isSome

/-- Opens the start of the compiler of a session, if it is held. -/
def openStart (e : Engine) (id : Int) : Option Engine :=
  match e.heldTask? id with
  | none => none
  | some (t, task) =>
    if task.startHeld = some true then
      let e := e.putTask t { task with startHeld := some false }
      some (if task.stage = .starting then e.enqueue t else e)
    else none

/-- Ends the compiler process of a session, if it is running. -/
def endProcess (e : Engine) (id : Int) (status : Int) : Option Engine :=
  match e.sessions.get? id with
  | none => none
  | some s =>
    match s.process with
    | none => none
    | some p => if p.isRunning then some ((e.exitProcess s p status).1.wake id) else none

/-- Lets tasks take turns after something that may have had an effect, and tells whether it had. -/
def followUp (e : Engine) : Option Engine → Engine × Bool
  | some e => (e.drain, true)
  | none => (e, false)

/-- Lets the compiler of a session start, if its start is held. -/
def allowStart (e : Engine) (id : Int) : Engine × Bool := e.followUp (e.openStart id)

/-- Lets the compiler of a session exit, if it is running. -/
def allowExit (e : Engine) (id : Int) (status : Int) : Engine × Bool :=
  e.followUp (e.endProcess id status)

/-- Aborts a task, if it has not ended. -/
def abort (e : Engine) (t : TaskId) : Engine :=
  match e.tasks.get? t with
  | none => e
  | some task =>
    if task.stage.isEnded then e
    else
      match e.sessions.get? task.session with
      | none => e
      | some s => (e.settle t s (.ends .aborted)).drain

/-- Cancels the active session of a source, if there is one. -/
def cancelActive (e : Engine) (source : Path) : Engine :=
  match e.active.get? source with
  | none => e
  | some id => e.cancelSession id

/-- Cancels all active sessions. -/
def cancelAll (e : Engine) : Engine := e.active.values.foldl cancelSession e

/-- Cancels the check of a source that was started last, if it has not ended. -/
def cancel (e : Engine) (path : Text) : Except DiskFault Engine :=
  (e.disk.resolved path).map fun source => (e.cancelActive source).drain

/-- Cancels the checks that have not ended, of each source the one that was started last. -/
def shutdown (e : Engine) : Engine := e.cancelAll.drain

end Engine

end LiveCheck
