import LiveCheck.Check.Fault
import LiveCheck.Check.Phase
import LiveCheck.Listing.Basic
import LiveCheck.Source.Diagnostic

/-!
# Events

An event is something worth a line in the log. Each has a level and a message.
-/

namespace LiveCheck

/-- How much an event matters. -/
inductive Level
  | debug
  | info
  | warning
  | error
  deriving DecidableEq, Repr

/-- The name of a level. -/
def Level.name : Level → String
  | debug => "DEBUG"
  | info => "INFO"
  | warning => "WARNING"
  | error => "ERROR"

/-- Something worth a line in the log. -/
inductive Event
  /-- A setting was passed over. -/
  | loadNote (note : LoadNote)
  /-- A compiler name means no program. -/
  | compilerNotFound (name : JsonString)
  /-- A check came to another phase. -/
  | advanced (id : Int) (name : Text) (before after : Phase)
  /-- A check was overtaken by a newer one. -/
  | overtaken (newer older : Int)
  /-- The compiler is about to be started. -/
  | spawning (command : List Json) (directory : Path)
  /-- The compiler wrote to its error output. -/
  | compilerErrors (output : Text)
  /-- The compiler exited. -/
  | exited (id status : Int)
  /-- The compiler left no listing. -/
  | noListing (name : Text) (status : Int)
  /-- A listing was read. -/
  | diagnosed (name : Text) (count : Nat)
  /-- An error block of a listing has no records. -/
  | skippedBlock (fault : BlockFault)
  /-- A record has no place in the source. -/
  | droppedRecord (record : DroppedRecord)
  /-- A listing could not be deleted. -/
  | listingKept (listing : Path) (fault : DiskFault)
  /-- A listing could not be read. -/
  | listingUnusable (listing : Path) (fault : CheckFault)
  /-- A source could not be saved. -/
  | sourceNotSaved (source : Path) (fault : DiskFault)
  /-- A source could not be read. -/
  | sourceUnreadable (source : Path) (fault : DiskFault)
  /-- The compiler could not be started. -/
  | checkFailed (name : Text) (fault : SpawnFault)
  /-- A check was to report once more. -/
  | secondReport (id : Int)
  /-- The receiver of a report failed. -/
  | receiverFailed (id : Int) (reason : Text)
  /-- A file is being watched. -/
  | watching (path : Path)

namespace Event

/-- The level of an event. -/
def level : Event → Level
  | advanced .. | overtaken .. | spawning .. | compilerErrors .. | exited .. | skippedBlock ..
  | watching .. => .debug
  | noListing .. | diagnosed .. => .info
  | loadNote .. | compilerNotFound .. | droppedRecord .. | listingKept .. | secondReport .. =>
    .warning
  | listingUnusable .. | sourceNotSaved .. | sourceUnreadable .. | checkFailed ..
  | receiverFailed .. => .error

/-- The message of an event. -/
def message : Event → String
  | loadNote note => note.message
  | compilerNotFound name => s!"Compiler '{name.shown}' not found on PATH."
  | advanced id name before after =>
    s!"Session {decimal id} ({name}): {before.name} -> {after.name}"
  | overtaken newer older => s!"Session {decimal newer} supersedes session {decimal older}"
  | spawning command directory => s!"Spawning {(Json.list command).literal} in {directory}"
  | compilerErrors output => s!"Compiler stderr: {output}"
  | exited id status => s!"Session {decimal id}: compiler exited with {decimal status}"
  | noListing name status => s!"No listing for {name} (exit status {decimal status})"
  | diagnosed name count => s!"{name}: {count} diagnostic(s)"
  | skippedBlock fault => s!"Skipping malformed block: {fault.message}"
  | droppedRecord record => record.message
  | listingKept listing fault => s!"Could not delete listing {listing}: {fault.message}"
  | listingUnusable listing fault => s!"Could not process listing {listing}: {fault.message}"
  | sourceNotSaved source fault => s!"Cannot save {source} before checking: {fault.message}"
  | sourceUnreadable source fault => s!"Cannot read {source}: {fault.message}"
  | checkFailed name fault => s!"Check of {name} failed: {fault.message}"
  | secondReport id =>
    s!"Session {decimal id} already reported; dropping second report"
  | receiverFailed id reason => s!"Report callback of session {decimal id} failed: {reason}"
  | watching path => s!"Watching {path}"

end Event

/-- The events of reading a listing. -/
def listingEvents (text : Text) : List Event := (listingFaults text).map .skippedBlock

/-- The events of placing records onto a buffer. -/
def placingEvents (records : List Record) (text source : Text) : List Event :=
  (droppedRecords records text source).map .droppedRecord

end LiveCheck
