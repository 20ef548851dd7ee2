import LiveCheck.Source.Diagnostic
import LiveCheck.Viewer.StyledText

/-!
# The peek panel

The peek panel tells about one line of the source: the line itself, a row with a caret under every
column of a diagnostic, and the messages. A line without diagnostics has a note in their place.
-/

namespace LiveCheck

namespace Peek

/-- The number of a line with the rule that sets it off from the source. -/
def gutter (line : Int) : Text := Text.alignRight 5 (decimal line) ++ " │ ".toList

/-- The gutter of a row that belongs to no line. -/
def emptyGutter : Text := "      │ ".toList

/-- Why a panel cannot be made. -/
inductive Fault
  /-- A column lies in front of the row. -/
  | outOfRow
  /-- A column lies so far in front of the row that it is no index. -/
  | noIndex
  /-- The length of the row is no length. -/
  | noLength
  /-- There is no room for the row. -/
  | noRoom
  /-- The number of a column is too long to be written. -/
  | unwritable (number : UnwritableNumber)
  deriving DecidableEq, Repr

/-- What is said of a panel that cannot be made. -/
def Fault.message : Fault → String
  | outOfRow => "list assignment index out of range"
  | noIndex | noLength => "cannot fit 'int' into an index-sized integer"
  | noRoom => ""
  | unwritable number => number.message

/-- Indices and lengths lie below this number, and not below its negative. -/
def indexLimit : Int := 0x8000000000000000

/-- Puts a caret into a row. A negative column counts from the end of the row. -/
def putCaret (row : Text) (column : Int) : Except Fault Text :=
  let place := if column < 0 then row.length + column else column
  if 0 ≤ place ∧ place < row.length then .ok (row.set place.toNat '^')
  else if column < -indexLimit then .error .noIndex
  else .error .outOfRow

/-- The row with a caret at every column; it ends at the greatest of them. There is room for shorter
    rows than the given length only. -/
def caretRow (room : Int) (columns : List Int) : Except Fault Text :=
  let width := columns.foldl max (columns.headD 0) + 1
  if width < -indexLimit ∨ indexLimit ≤ width then .error .noLength
  else if room ≤ width then .error .noRoom
  else (columns.mergeSort (· ≤ ·)).foldlM putCaret (List.replicate width.toNat ' ')

/-- The note for a line without diagnostics. -/
def emptyNote (line : Int) : StyledText :=
  (({} : StyledText).append "GAMS ".toList (some "bold cyan")).append "│ ".toList (some "dim")
    |>.append ("no diagnostics on line ".toList ++ decimal line) (some "dim italic")

/-- The source line with its carets. -/
def context (room line : Int) (code : Text) (diagnostics : List Diagnostic) :
    Except Fault StyledText := do
  let carets ← caretRow room (diagnostics.map (·.column))
  return ({} : StyledText).append (gutter line) (some "bold yellow")
    |>.append code (some "bold white")
    |>.append ['\n']
    |>.append emptyGutter (some "dim")
    |>.append carets (some "bold red")
    |>.append ['\n']

/-- Adds the message of a diagnostic. -/
def appendMessage (t : StyledText) (d : Diagnostic) : Except Fault StyledText :=
  match writeDecimal (d.column + 1) with
  | .error number => .error (.unwritable number)
  | .ok column =>
    let place := "  col ".toList ++ Text.alignRight 3 column ++ [' ', ' ']
    .ok (t.append place (some "dim") |>.append d.message (some "red") |>.append ['\n'])

/-- What the panel shows for a line. -/
def panel (room line : Int) (code : Option Text) (diagnostics : List Diagnostic) :
    Except Fault StyledText := do
  if diagnostics.isEmpty then return emptyNote line
  let start ←
    match code with
    | none => pure {}
    | some code => context room line code diagnostics
  diagnostics.foldlM appendMessage start

end Peek

end LiveCheck
