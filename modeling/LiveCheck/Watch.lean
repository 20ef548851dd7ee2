import LiveCheck.Disk.Basic
import LiveCheck.Number.Binary64

/-!
# Watching a source

A watch looks out for saves of one file. A file is saved when it is modified in place, or when
another file is moved over it; events of directories and of other files do not count. Editors often
write twice for one save, so a save triggers the check only if enough time has passed since the last
one that did.

The clock may be of any type with differences and an order.
-/

namespace LiveCheck

/-- Something that happened to a file or directory. -/
inductive FileEvent
  /-- Its contents changed. -/
  | modified (path : Text) (directory : Bool)
  /-- It got another path. -/
  | moved (source destination : Text) (directory : Bool)
  deriving DecidableEq, Repr

namespace FileEvent

/-- The path whose contents are new. -/
def renewed : FileEvent → Text
  | modified path _ => path
  | moved _ destination _ => destination

/-- Did it happen to a directory? -/
def onDirectory : FileEvent → Bool
  | modified _ directory => directory
  | moved _ _ directory => directory

end FileEvent

/-- A watch on one file, with a clock of type `T`. -/
structure Watch (T : Type) where
  /-- The file, resolved. -/
  target : Path
  /-- How much time has to pass between two triggers. -/
  window : T
  /-- When the watch was triggered last. -/
  last : T
  deriving Repr

namespace Watch

variable {T : Type} [Sub T] [LT T] [DecidableRel (fun a b : T => a < b)]

/-- Is the event a save of the watched file? -/
def matchesEvent (w : Watch T) (d : Disk) (e : FileEvent) : Except DiskFault Bool :=
  if e.onDirectory then .ok false
  else (d.resolved e.renewed).map (· = w.target)

/-- Takes an event at a time, and tells whether it triggers. -/
def observe (w : Watch T) (d : Disk) (e : FileEvent) (now : T) :
    Except DiskFault (Watch T × Bool) := do
  if (← w.matchesEvent d e) ∧ w.window < now - w.last then
    return ({ w with last := now }, true)
  return (w, false)

end Watch

/-- A call to the observer of the file system. -/
inductive ObserverCall
  /-- Events of a directory are wanted, for the sake of a file in it. -/
  | schedule (target directory : Path)
  | start
  | stop
  | join
  deriving DecidableEq, Repr

/-- Why a file cannot be watched. -/
inductive WatchFault
  /-- There is no such file. -/
  | missing (path : Text)
  /-- The path cannot be looked up. -/
  | disk (fault : DiskFault)
  deriving DecidableEq, Repr

/-- What is said of a file that cannot be watched. -/
def WatchFault.message : WatchFault → String
  | missing path => s!"Cannot watch non-existent file: {path}"
  | disk fault => fault.message

/-- A watcher: its observer, and the watch that was set up last. -/
structure Watcher (T : Type) where
  /-- How much time has to pass between two triggers. -/
  window : T
  /-- The calls to the observer so far. -/
  calls : List ObserverCall := []
  /-- Is the observer running? -/
  alive : Bool := false
  /-- The watch that receives the events. -/
  watch : Option (Watch T) := none
  deriving Repr

namespace Watcher

variable {T : Type}

/-- Starts to watch a file; `origin` is the time that counts as its last trigger. -/
def start (w : Watcher T) (origin : T) (d : Disk) (file : Text) :
    Except WatchFault (Watcher T × Path) :=
  match d.resolved file with
  | .error fault => .error (.disk fault)
  | .ok target =>
    match d.pathExists target with
    | .error fault => .error (.disk fault)
    | .ok false => .error (.missing file)
    | .ok true =>
      .ok ({ w with
        calls := w.calls ++ [.schedule target target.parent, .start]
        alive := true
        watch := some ⟨target, w.window, origin⟩ }, target)

/-- Stops watching, if the observer is running. -/
def stop (w : Watcher T) : Watcher T :=
  if w.alive then { w with calls := w.calls ++ [.stop, .join], alive := false } else w

end Watcher

end LiveCheck
