import LiveCheck.Text.Basic

/-!
# Records

A record is one occurrence of an error code in a listing: the code, the column that its marker
points at, the line of the source that its block names, and the message collected for it.
-/

namespace LiveCheck

/-- One occurrence of an error code in a listing. -/
structure Record where
  /-- The error code, a run of digits. -/
  code : Text
  /-- The column of the source line that the marker points at, the first column being `0`. -/
  column : Int
  /-- The line of the source, the first line being `1`. -/
  line : Int
  /-- What the listing tells about the error. -/
  message : Text
  deriving DecidableEq, Repr

/-- Records are ordered by their line, and on one line by their column. -/
def Record.le (a b : Record) : Bool :=
  a.line < b.line || (a.line == b.line && a.column ≤ b.column)

end LiveCheck
