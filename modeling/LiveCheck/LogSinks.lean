import LiveCheck.Json.Basic

/-!
# Log sinks

The log goes to the console, to a file, or to both. The file is kept small and for a limited time.
-/

namespace LiveCheck

/-- Where log lines go. -/
inductive LogTarget
  /-- The error output of the console. -/
  | console
  /-- A file. -/
  | file (path : Json)

/-- A receiver of log lines. -/
structure LogSink where
  /-- Where the lines go. -/
  target : LogTarget
  /-- The least level of a line. -/
  level : Json
  /-- The form of a line. -/
  format : String
  /-- Are the lines coloured? -/
  coloured : Bool := false
  /-- When a new file is begun, and how long an old one is kept. -/
  rotation : Option (String × String) := none

/-- The form of a line in a file. -/
def fileFormat : String :=
  "\x7btime:YYYY-MM-DD HH:mm:ss\x7d | \x7blevel: <8\x7d | " ++
    "\x7bname\x7d:\x7bfunction\x7d:\x7bline\x7d - \x7bmessage\x7d"

/-- The form of a line on the console. -/
def consoleFormat : String :=
  "<level>\x7blevel: <8\x7d</level> | <cyan>\x7bname\x7d</cyan> - <level>\x7bmessage\x7d</level>"

/-- The sinks for a level, a file unless none is named, and the console if it is wanted. -/
def logSinks (level file : Json) (console : Bool) : List LogSink :=
  (if console then [{ target := .console, level, format := consoleFormat, coloured := true }]
    else []) ++
  (if file.isFalsy then []
    else [{
      target := .file file, level, format := fileFormat, rotation := some ("10 MB", "1 week") }])

end LiveCheck
