import LiveCheck.Check.Control
import LiveCheck.CommandLine.Arguments
import LiveCheck.CommandLine.Report
import LiveCheck.Machine

/-!
# Running the command line

The program checks one source. It makes sure that the source exists and that checking is enabled for
it, and then either checks it once and prints the diagnostics, or opens the viewer. Checking once
ends with the status `1` if there are diagnostics, and with `0` if there are none.
-/

namespace LiveCheck

namespace CommandLine

/-- How a viewer ends. -/
inductive ViewerEnd
  /-- It was closed. -/
  | closed
  /-- It was interrupted. -/
  | interrupted
  /-- It refused the source. -/
  | refused (reason : Text)
  /-- It failed. -/
  | failed (reason : Text)
  deriving DecidableEq, Repr

/-- What the program is run in. -/
structure Environment where
  /-- The machine. -/
  machine : Machine := .usual
  /-- The disk. -/
  disk : Disk
  /-- The directory that holds the settings of the user. -/
  home : Place
  /-- The directories that programs are looked for in. -/
  searchPath : List Text := []
  /-- How the compiler behaves. -/
  behaviour : Behaviour := {}
  /-- How the viewer ends, if it is opened. -/
  viewerEnd : ViewerEnd := .closed

/-- A fault that the program does not report itself. -/
inductive Escape
  /-- The settings could not be loaded. -/
  | load (fault : LoadFault)
  /-- A setting is of the wrong kind. -/
  | setting (fault : SettingFault)
  deriving DecidableEq, Repr

/-- What is said of a fault that the program does not report itself. -/
def Escape.message : Escape → String
  | load fault => fault.message
  | setting fault => fault.message

/-- How the log was set up. -/
structure LogRequest where
  /-- The least level of a line. -/
  level : String
  /-- The file that lines go to. -/
  file : Json
  /-- Do lines go to the console? -/
  console : Bool

/-- The outcome of a run of the program. -/
structure Outcome where
  /-- The disk in the end. -/
  disk : Disk
  /-- The exit status, if the program ended itself. -/
  status : Option Int := none
  /-- The fault that was not reported. -/
  escape : Option Escape := none
  /-- What was written to the output. -/
  output : String := ""
  /-- What was written to the error output. -/
  errorOutput : String := ""
  /-- What was printed on the console. -/
  printed : List Printed := []
  /-- The path that the viewer was opened for, and the compiler that it was to use. -/
  viewed : Option (Path × Json) := none
  /-- How the log was set up. -/
  logging : Option LogRequest := none
  /-- The attempts to start the compiler. -/
  spawns : List Spawn := []
  /-- What happened. -/
  log : List Event := []

namespace Outcome

/-- Prints lines and ends with a status. -/
def finish (o : Outcome) (status : Int) (lines : List String) : Outcome :=
  { o with
    status := some status, printed := o.printed ++ lines.map fun l => .line l.toList }

/-- Ends with a fault that is not reported. -/
def escaping (o : Outcome) (escape : Escape) : Outcome := { o with escape := some escape }

end Outcome

/-- The line for a fault that the program does not expect. -/
def fatalLine (message : String) : String := s!"Fatal Error: {message}"

/-- Checks a source once. -/
def checkOnce (env : Environment) (settings : Settings) (source : Path) (o : Outcome) : Outcome :=
  match Engine.create o.disk env.searchPath settings with
  | .error fault => o.finish 1 [fatalLine fault.message]
  | .ok e =>
    let (e, checked) := e.check source.text none {} env.behaviour
    let o := { o with disk := e.disk, spawns := o.spawns ++ e.spawns, log := o.log ++ e.log }
    match checked with
    | .error (.unsupported name enabled) =>
      o.finish 1 [s!"Error: {(Refusal.unsupported name enabled).message}"]
    | .error refusal => o.finish 1 [fatalLine refusal.message]
    | .ok (s, t) =>
      match (e.tasks.get? t).map (·.stage) with
      | some (Stage.ended (.failed fault)) => o.finish 1 [fatalLine fault.message]
      | _ =>
        let reports := ((e.sessions.get? s.id).map (·.reports)).getD []
        let diagnostics := reports.flatten
        match printReport source.text diagnostics with
        | .error number => o.finish 1 [fatalLine number.message]
        | .ok report =>
          { o with
            status := some (if diagnostics.isEmpty then 0 else 1)
            printed := o.printed ++ [report] }

/-- Opens the viewer for a source. -/
def view (env : Environment) (settings : Settings) (source : Path) (o : Outcome) : Outcome :=
  let o := { o with viewed := some (source, (settings.get? "compiler").getD .null) }
  match env.viewerEnd with
  | .closed | .interrupted => o
  | .refused reason => o.finish 1 [s!"Error: {reason}"]
  | .failed reason => o.finish 1 [fatalLine (String.ofList reason)]

/-- Checks or views a source that exists. -/
def runWith (env : Environment) (request : Request) (settings : Settings) (source : Path)
    (o : Outcome) : Outcome :=
  let settings :=
    match request.compiler with
    | some (.text (c :: rest)) => settings.assign "compiler".toList (.text (c :: rest))
    | _ => settings
  match isSupported (settings.get? "extensions") source with
  | .error fault => o.escaping (.setting fault)
  | .ok false =>
    match ((settings.get? "extensions").getD (.list [])).joinSetting with
    | .error fault => o.escaping (.setting fault)
    | .ok enabled => o.finish 1 [s!"Error: Unsupported file type. Enabled: {enabled}"]
  | .ok true =>
    let level := if request.verbose then "DEBUG" else "INFO"
    let file := (settings.get? "log_file").getD .null
    let o := { o with logging := some ⟨level, file, request.once⟩ }
    if request.once then checkOnce env settings source o else view env settings source o

/-- The absolute path of a file argument, without dots. -/
def sourcePath (here : Place) (file : Text) : Path :=
  let p := Path.ofText file
  { p.resolve here with root := if p.root.isEmpty then ['/'] else p.root }

/-- Carries out a request. -/
def carryOut (env : Environment) (request : Request) : Outcome :=
  let o : Outcome := { disk := env.disk }
  match request.file with
  | none | some [] =>
    o.finish 1 ["Error: No source file specified.", "Usage: gamscheck <model.gms> [--once]"]
  | some file =>
    let source := sourcePath env.disk.here file
    match env.disk.lookup source with
    | .error _ => o.finish 1 [s!"Error: File not found: {source}"]
    | .ok _ =>
      let directory := Settings.defaultDirectory env.home
      let loaded := Settings.load env.machine env.disk directory
      let o := { o with disk := loaded.disk, log := loaded.note.toList.map .loadNote }
      match loaded.settings with
      | .error fault => o.escaping (.load fault)
      | .ok values => runWith env request ⟨directory, values⟩ source o

/-- Runs the program with the given arguments. -/
def run (env : Environment) (arguments : List Text) : Outcome :=
  match readArguments arguments with
  | .ok request => carryOut env request
  | .error stop =>
    let o : Outcome := { disk := env.disk, status := some stop.status }
    match stop with
    | .help => { o with output := helpText }
    | .complaint c => { o with errorOutput := complaintText c }

end CommandLine

end LiveCheck
