import LiveCheck.Number.Numeral

/-!
# Line indexes

A line index places the lines of a buffer. Lines are numbered from `1` and end at line feeds only; a
line feed at the very end opens one last, empty line. The carriage return that may stand before a
line feed, or at the end of the buffer, does not belong to the line.
-/

namespace LiveCheck

/-- A line number points outside of a buffer. -/
structure LineOutOfRange where
  /-- The line number. -/
  line : Int
  /-- How many lines the buffer has. -/
  count : Nat
  deriving DecidableEq, Repr

/-- What is said of a line number outside of a buffer. -/
def LineOutOfRange.message (e : LineOutOfRange) : String :=
  s!"Line {decimal e.line} is outside the buffer (1..{e.count})"

/-- The offsets after the line feeds of the rest of a text that begins at `offset`. -/
def lineStartsFrom (offset : Nat) : Text → List Nat
  | [] => []
  | c :: rest =>
    if c = '\n' then (offset + 1) :: lineStartsFrom (offset + 1) rest
    else lineStartsFrom (offset + 1) rest

/-- A buffer with the places of its lines. -/
structure LineIndex where
  /-- The buffer. -/
  text : Text
  /-- The offset of every line's first character. -/
  starts : List Nat

namespace LineIndex

/-- The index of a buffer. -/
def ofText (text : Text) : LineIndex := ⟨text, 0 :: lineStartsFrom 0 text⟩

/-- How many lines the buffer has. -/
def lineCount (index : LineIndex) : Nat := index.starts.length

/-- Applies `f` to the position of a line among the lines, if the buffer has the line. -/
def atLine {α : Type} (index : LineIndex) (line : Int) (f : Nat → α) : Except LineOutOfRange α :=
  if 1 ≤ line ∧ line ≤ index.lineCount then .ok (f (line - 1).toNat)
  else .error ⟨line, index.lineCount⟩

/-- Where the line at a position starts. -/
def startAt (index : LineIndex) (position : Nat) : Nat := index.starts.getD position 0

/-- Where the line at a position ends: just past its last character. -/
def endAt (index : LineIndex) (position : Nat) : Nat :=
  let stop :=
    match index.starts[position + 1]? with
    | some next => next - 1
    | none => index.text.length
  if index.startAt position < stop ∧ index.text[stop - 1]? = some '\r' then stop - 1 else stop

/-- The offset of the first character of a line. -/
def lineStart (index : LineIndex) (line : Int) : Except LineOutOfRange Nat :=
  index.atLine line index.startAt

/-- The offset just past the last character of a line. -/
def lineEnd (index : LineIndex) (line : Int) : Except LineOutOfRange Nat :=
  index.atLine line index.endAt

/-- The offset of a column of a line. A column in front of the line counts as its first one, and a
    column past its end as the end. -/
def offset (index : LineIndex) (line column : Int) : Except LineOutOfRange Nat :=
  index.atLine line fun position =>
    min (index.startAt position + column.toNat) (index.endAt position)

end LineIndex

end LiveCheck
