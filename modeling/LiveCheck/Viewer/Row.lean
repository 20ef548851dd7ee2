import LiveCheck.Viewer.Peek
import LiveCheck.Viewer.SourceState

/-!
# Rows

A row shows one line of the source, with a cross in front if the line has a diagnostic. The rows of
a source are made anew whenever its lines or diagnostics change; each time counts as a generation,
which keeps the names of old and new rows apart.
-/

namespace LiveCheck

/-- What a row looks like. -/
inductive Mark
  | cursor
  | error
  deriving DecidableEq, Repr

/-- The name of a mark. -/
def Mark.name : Mark → String
  | cursor => "cursor"
  | error => "has-error"

/-- A row of the viewer. -/
structure Row where
  /-- The generation of rows that it is from. -/
  generation : Nat
  /-- Its place among the rows, from zero. -/
  index : Nat
  /-- What it shows. -/
  text : StyledText
  /-- Does its line have a diagnostic? -/
  hasError : Bool
  /-- Is the cursor on it? -/
  hasCursor : Bool
  /-- How often it was brought into view. -/
  views : Nat := 0
  deriving DecidableEq, Repr

namespace Row

/-- The name of a row. -/
def name (r : Row) : Text :=
  "src-line-".toList ++ decimal r.generation ++ ['-'] ++ decimal r.index

/-- The marks of a row, by name. -/
def marks (r : Row) : List Mark :=
  (if r.hasCursor then [.cursor] else []) ++ if r.hasError then [.error] else []

/-- The text of the row of a line. -/
def lineText (number : Nat) (hasError : Bool) (line : Text) : StyledText :=
  let t : StyledText := {}
  let t :=
    if hasError then t.append "✖ ".toList (some "bold #a80000") else t.append "  ".toList
  (t.append (Peek.gutter number) (some "dim")).append line

/-- The row of a line, which has `index` lines above it. -/
def ofLine (s : SourceState) (generation cursor index : Nat) (line : Text) : Row :=
  let hasError := s.hasDiagnosticOn (index + 1)
  { generation, index, text := lineText (index + 1) hasError line, hasError
    hasCursor := index = cursor }

/-- The row after the cursor went from one row to another, which is brought into view. -/
def moveCursor (before after : Nat) (r : Row) : Row :=
  if r.index = after then { r with hasCursor := true, views := r.views + 1 }
  else if r.index = before then { r with hasCursor := false }
  else r

end Row

/-- The rows of a source. -/
def SourceState.rows (s : SourceState) (generation cursor : Nat) : List Row :=
  s.lines.mapIdx (Row.ofLine s generation cursor)

end LiveCheck
