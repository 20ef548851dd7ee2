import LiveCheck.Path.Basic
import LiveCheck.Source.Diagnostic

/-!
# Printed reports

The diagnostics of a source are printed as a table with a row for each, columns counted from one,
or as a line of text if there are none. On a plain terminal the cells of a table are padded to the
width of their column, and style marks are left out.
-/

namespace LiveCheck

/-- A column of a printed table. -/
structure Column where
  /-- The header of the column. -/
  header : String
  /-- Is its text aligned at the right? -/
  alignsRight : Bool := false
  /-- The style of its text. -/
  style : String := ""
  deriving DecidableEq, Repr

/-- Something printed on the console. -/
inductive Printed
  /-- A line of text, with style marks in brackets. -/
  | line (text : Text)
  /-- A table. -/
  | table (title : Text) (columns : List Column) (rows : List (List Text))
  deriving DecidableEq, Repr

/-- The columns of the table of diagnostics. -/
def reportColumns : List Column :=
  [{ header := "Line", alignsRight := true, style := "bold yellow" },
    { header := "Col", alignsRight := true }, { header := "Code", style := "bold red" },
    { header := "Message" }]

/-- The line that stands for a source without errors. -/
def noErrorsLine (source : Text) : Text :=
  "[bold green]✔[/] ".toList ++ source ++ ": no errors".toList

/-- The row of a diagnostic. -/
def reportRow (d : Diagnostic) : Except UnwritableNumber (List Text) :=
  (writeDecimal (d.column + 1)).map fun column => [decimal d.line, column, d.code, d.message]

/-- What is printed for the diagnostics of a source. -/
def printReport (source : Text) (diagnostics : List Diagnostic) :
    Except UnwritableNumber Printed :=
  if diagnostics.isEmpty then .ok (.line (noErrorsLine source))
  else (diagnostics.mapM reportRow).map (.table source reportColumns)

namespace Printed

/-- A stretch of text that follows an opening bracket, without the style mark that it may begin
    with. -/
def withoutMark (text : Text) : Text :=
  match text with
  | c :: _ =>
    if (c.isLower || c = '/') && text.contains ']' then (text.dropWhile (· ≠ ']')).drop 1
    else '[' :: text
  | [] => ['[']

/-- A line of text without its style marks. -/
def unstyled (line : Text) : Text :=
  match splitOn '[' line with
  | [] => []
  | start :: marked => start ++ (marked.map withoutMark).flatten

/-- A cell of a table, padded to a width. -/
def pad (width : Nat) (alignsRight : Bool) (cell : Text) : Text :=
  if alignsRight then Text.alignRight width cell
  else cell ++ List.replicate (width - cell.length) ' '

/-- The lines that are shown on a plain terminal. -/
def plainLines : Printed → List Text
  | line text => [unstyled text]
  | table title columns rows =>
    let rows := columns.map (·.header.toList) :: rows
    let width (i : Nat) : Nat := (rows.map fun row => (row.getD i []).length).foldl max 0
    let shown (row : List Text) : Text :=
      Text.join "  ".toList <| (columns.zip row).mapIdx fun i c => pad (width i) c.1.alignsRight c.2
    title :: rows.map shown

end Printed

end LiveCheck
