import LiveCheck.Check.Control
import LiveCheck.Machine
import LiveCheck.Viewer.Row
import LiveCheck.Viewer.StatusBar
import LiveCheck.Watch

/-!
# The viewer

The viewer shows a source with its diagnostics. It reads the source and checks it when it is opened,
when the source is saved and on demand. The checks run in the engine. When one ends, its outcome
goes to the status bar, unless a newer check has overtaken it; the report of a check is posted, and
handled when nothing else is left to do.

The cursor is on one line, about which the peek panel tells. It moves line by line, or from one line
with diagnostics to the next.
-/

namespace LiveCheck

/-- What can go wrong in the viewer. -/
inductive ViewerFault
  /-- The source cannot be watched. -/
  | watch (fault : WatchFault)
  /-- The engine refused the source. -/
  | refusal (refusal : Refusal)
  /-- A check failed. -/
  | check (fault : TaskFault)
  /-- The peek panel cannot be made. -/
  | peek (fault : Peek.Fault)

/-- The state of the viewer. -/
structure Viewer where
  /-- The machine that the viewer runs on. -/
  machine : Machine
  /-- The engine that runs the checks. -/
  engine : Engine
  /-- The watcher of the source. Its window is the setting as it stands. -/
  watcher : Watcher Json
  /-- What is known of the source. -/
  source : SourceState
  /-- What the status bar is told to show. -/
  bar : StatusBar := {}
  /-- What the status bar shows, once it was told anything. -/
  status : Option Text := none
  /-- The row of the cursor, from zero. -/
  cursor : Nat := 0
  /-- How often the rows were made. -/
  generation : Nat := 0
  /-- The rows. -/
  rows : List Row := []
  /-- What the peek panel shows, once it was told anything. -/
  peek : Option StyledText := none
  /-- The sessions of the checks that the viewer asked for, in order; none where it was refused. -/
  checks : List (Option Int) := []
  /-- How many ends of checks and how many reports of the engine the viewer has taken in. -/
  taken : Nat × Nat := (0, 0)
  /-- The reports that were posted and are still to be handled. -/
  posted : List (List Diagnostic) := []

namespace Viewer

/-- A viewer with what went wrong in its last step, if anything did. -/
abbrev Stepped := Viewer × Option ViewerFault

/-- The viewer of a path, before it is opened. -/
def create (machine : Machine) (engine : Engine) (path : Text) : Except DiskFault Viewer :=
  (engine.disk.resolved path).map fun target => {
    machine, engine, watcher := { window := engine.settings.getOrDefault "debounce_seconds" }
    source := { path := target.text } }

/-- The title of the view of the source. -/
def title (v : Viewer) : String := (SourceKind.ofPath (Path.ofText v.source.path)).label

/-- Tells the status bar what to show. -/
def tellBar (v : Viewer) (bar : StatusBar) : Viewer := { v with bar, status := some bar.text }

/-! ## Rows and cursor -/

/-- Shows the line of the cursor in the peek panel. -/
def showPeek (v : Viewer) : Stepped :=
  let line : Int := v.cursor + 1
  match Peek.panel v.machine.width line (v.source.line? line) (v.source.diagnosticsOn line) with
  | .ok text => ({ v with peek := some text }, none)
  | .error fault => (v, some (.peek fault))

/-- Makes the rows anew. The cursor stays on its line, or goes to the last one if there are
    fewer. -/
def populate (v : Viewer) : Stepped :=
  let generation := v.generation + 1
  let cursor := min v.cursor (v.source.lines.length - 1)
  { v with generation, cursor, rows := v.source.rows generation cursor }.showPeek

/-- Moves the cursor to a row, if there is such a row. -/
def moveCursor (v : Viewer) (row : Int) : Stepped :=
  if 0 ≤ row ∧ row < v.source.lines.length then
    let cursor := row.toNat
    { v with cursor, rows := v.rows.map (Row.moveCursor v.cursor cursor) }.showPeek
  else (v, none)

/-- Moves the cursor to the line above. -/
def cursorUp (v : Viewer) : Stepped := v.moveCursor (v.cursor - 1)

/-- Moves the cursor to the line below. -/
def cursorDown (v : Viewer) : Stepped := v.moveCursor (v.cursor + 1)

/-- The lines of the diagnostics, in their order in the source. -/
def errorLines (v : Viewer) : List Int := (v.source.diagnostics.map (·.line)).mergeSort (· ≤ ·)

/-- Moves the cursor to the next line with diagnostics. -/
def nextError (v : Viewer) : Stepped :=
  match v.errorLines.find? fun line => (v.cursor : Int) < line - 1 with
  | some line => v.moveCursor (line - 1)
  | none => (v, none)

/-- Moves the cursor to the line with diagnostics before it. -/
def previousError (v : Viewer) : Stepped :=
  match v.errorLines.reverse.find? fun line => line - 1 < (v.cursor : Int) with
  | some line => v.moveCursor (line - 1)
  | none => (v, none)

/-! ## Reports -/

/-- Posts a report. -/
def post (v : Viewer) (report : List Diagnostic) : Viewer :=
  { v with posted := v.posted ++ [report] }

/-- Takes a report in. -/
def handleReport (v : Viewer) (report : List Diagnostic) : Stepped :=
  let v := { v with source := v.source.setReport report }
  (v.tellBar { v.bar with errors := report.length }).populate

/-- Handles reports in turn. The first fault is the one that counts. -/
def handleReports (v : Viewer) : List (List Diagnostic) → Stepped
  | [] => (v, none)
  | report :: rest =>
    let (v, fault) := v.handleReport report
    let (v, later) := v.handleReports rest
    (v, fault <|> later)

/-- Handles the posted reports in the order in which they were posted. -/
def handlePosted (v : Viewer) : Stepped := { v with posted := [] }.handleReports v.posted

/-! ## Checks -/

/-- Takes in the outcome of a check. -/
def conclude (v : Viewer) (s : Session) : Viewer :=
  if s.phase = .superseded then v
  else
    let fault := ((s.fault.map (·.message)).getD "").toList
    let v := { v with source := { v.source with sessionId := s.id, phase := s.phase, fault } }
    v.tellBar { v.bar with status := s.phase.name.toList, note := fault }

/-- Takes in the end of a task of the engine. -/
def concludeTask (v : Viewer) (t : TaskId) : Stepped :=
  match v.engine.tasks.get? t with
  | none => (v, none)
  | some task =>
    match task.stage with
    | .ended (.failed fault) => (v, some (.check fault))
    | .ended .done =>
      match v.engine.sessions.get? task.session with
      | some s => (v.conclude s, none)
      | none => (v, none)
    | _ => (v, none)

/-- Takes in the ends of tasks in turn. -/
def concludeTasks (v : Viewer) : List TaskId → Stepped
  | [] => (v, none)
  | t :: rest =>
    let (v, fault) := v.concludeTask t
    let (v, later) := v.concludeTasks rest
    (v, fault <|> later)

/-- Takes in what the engine did: the ends of checks, and reports, which are posted. -/
def follow (v : Viewer) (engine : Engine) : Stepped :=
  let ended := engine.finished.drop v.taken.1
  let reports := (engine.deliveries.drop v.taken.2).map (·.2)
  let taken := (engine.finished.length, engine.deliveries.length)
  { v with engine, taken, posted := v.posted ++ reports }.concludeTasks ended

/-- Reads the source. If it cannot be read, the lines stay as they are. -/
def readSource (v : Viewer) : Stepped :=
  let path := Path.ofText v.source.path
  match v.engine.disk.readText path with
  | .error fault => ({ v with engine := v.engine.note [.sourceUnreadable path fault] }, none)
  | .ok text => { v with source := v.source.setSource text }.populate

/-- Checks the source. -/
def check (v : Viewer) (behaviour : Behaviour) : Stepped :=
  let v := v.tellBar { v.bar with status := "checking".toList, note := [] }
  match v.engine.check v.source.path none {} behaviour with
  | (engine, .error (.unsupported name enabled)) =>
    let reason := (Refusal.unsupported name enabled).message.toList
    let v := v.tellBar { v.bar with status := "disabled".toList, note := reason }
    ({ v with engine, checks := v.checks ++ [none] }, none)
  | (engine, .error refusal) =>
    ({ v with engine, checks := v.checks ++ [none] }, some (.refusal refusal))
  | (engine, .ok (s, _)) => { v with checks := v.checks ++ [some s.id] }.follow engine

/-- Reads the source and checks it. -/
def recheck (v : Viewer) (behaviour : Behaviour) : Stepped :=
  match v.readSource with
  | (v, some fault) => (v, some fault)
  | (v, none) => v.check behaviour

/-- Opens the viewer. -/
def mount (v : Viewer) (behaviour : Behaviour) : Stepped :=
  let v := v.tellBar { v.bar with file := (Path.ofText v.source.path).name }
  match v.watcher.start (.int 0) v.engine.disk v.source.path with
  | .error fault => (v, some (.watch fault))
  | .ok (watcher, target) =>
    { v with watcher, engine := v.engine.note [.watching target] }.recheck behaviour

/-- Closes the viewer. -/
def unmount (v : Viewer) : Stepped :=
  { v with watcher := v.watcher.stop }.follow v.engine.shutdown

end Viewer

end LiveCheck
