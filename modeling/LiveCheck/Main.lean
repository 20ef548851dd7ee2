import LiveCheck.CommandLine.Run
import LiveCheck.Viewer.Key

/-!
# The program

The program reads the source, the settings of the user and the listing that the compiler has left
beside the source, and works on what it has read; it changes no file and starts no compiler. With
`--once` it prints the diagnostics, otherwise it shows the viewer and takes a line of input for each
key.
-/

namespace LiveCheck

/-- The contents of a file, if it can be read. -/
def fileBytes? (p : Path) : IO (Option (List UInt8)) := do
  try
    let bytes ← IO.FS.readBinFile (String.ofList p.text)
    return some bytes.toList
  catch _ => return none

/-- Puts the contents of a file on a disk as they are now. -/
def loadFile (d : Disk) (p : Path) : IO Disk := do
  let p := p.resolve d.here
  match ← fileBytes? p with
  | some bytes => return d.plant p.names (.file bytes false)
  | none => return d.removeNode p.names

/-- Puts a source and its listing on a disk. -/
def loadSource (d : Disk) (settings : Settings) (source : Path) : IO Disk := do
  let d ← loadFile d source
  match settings.listingPath source with
  | .ok listing => loadFile d listing
  | .error _ => return d

/-- The place that an environment variable names. -/
def placeOfVariable (name : String) : IO Place := do
  let value ← IO.getEnv name
  return (Path.ofText (value.getD "/").toList).names

/-- Prints lines. -/
def printLines (lines : List Text) : IO Unit :=
  lines.forM fun line => IO.println (String.ofList line)

/-- What the program is run in, with the source that the arguments name. -/
def readEnvironment (arguments : List Text) : IO CommandLine.Environment := do
  let here := (Path.ofText (← IO.currentDir).toString.toList).names
  let home ← placeOfVariable "HOME"
  let directory := Settings.defaultDirectory home
  let start : Disk := { here }
  let start := (start.clearWay [] here).clearWay [] home
  let d ← loadFile start (Settings.fileIn directory)
  let file := match CommandLine.readArguments arguments with
    | .ok request => request.file
    | .error _ => none
  match file with
  | none => return { disk := d, home }
  | some file =>
    let source := CommandLine.sourcePath here file
    match (Settings.load .usual d directory).settings with
    | .ok values => return { disk := ← loadSource d ⟨directory, values⟩ source, home }
    | .error _ => return { disk := ← loadFile d source, home }

/-- Shows the viewer, and lets it take keys until it is closed or the input ends. -/
partial def takeKeys (input : IO.FS.Stream) (v : Viewer) : IO Unit := do
  let (v, _) := v.handlePosted
  printLines v.screen
  let line ← input.getLine
  if line.isEmpty then return
  match line.toList.head?.bind Key.ofChar? with
  | none => takeKeys input v
  | some .quit => return
  | some key =>
    let d ← loadSource v.engine.disk v.engine.settings (Path.ofText v.source.path)
    let v := { v with engine := { v.engine with disk := d } }
    takeKeys input (v.press {} key).1

/-- Opens the viewer for a source. -/
def openViewer (env : CommandLine.Environment) (disk : Disk) (source : Path) (compiler : Json) :
    IO UInt32 := do
  let directory := Settings.defaultDirectory env.home
  let values := match (Settings.load env.machine disk directory).settings with
    | .ok values => values
    | .error _ => defaultSettings
  let settings := Settings.assign ⟨directory, values⟩ "compiler".toList compiler
  match Engine.create disk env.searchPath settings with
  | .error fault =>
    IO.println (CommandLine.fatalLine fault.message)
    return 1
  | .ok engine =>
    match Viewer.create env.machine engine source.text with
    | .error fault =>
      IO.println (CommandLine.fatalLine fault.message)
      return 1
    | .ok v =>
      takeKeys (← IO.getStdin) (v.mount {}).1
      return 0

/-- Runs the program and tells its exit status. -/
def runProgram (arguments : List Text) : IO UInt32 := do
  let env ← readEnvironment arguments
  let o := CommandLine.run env arguments
  IO.print o.output
  IO.eprint o.errorOutput
  printLines (o.printed.map (·.plainLines)).flatten
  match o.escape, o.viewed with
  | some escape, _ =>
    IO.eprintln (CommandLine.fatalLine escape.message)
    return 1
  | none, some (source, compiler) => openViewer env o.disk source compiler
  | none, none => return UInt32.ofNat (o.status.getD 0).toNat

end LiveCheck

/-- Runs the program. -/
def main (arguments : List String) : IO UInt32 :=
  LiveCheck.runProgram (arguments.map (·.toList))
