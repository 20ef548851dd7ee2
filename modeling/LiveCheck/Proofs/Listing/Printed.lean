import LiveCheck.Listing.Basic
import LiveCheck.Proofs.Listing.Marker
import LiveCheck.Proofs.Text.Line

/-!
# Error blocks in print

The documented form of a listing: a list of error blocks (`Printed.Block`), each of which prints as

* a marker line: four asterisks and groups of codes, with spaces before each of them;
* a line directive;
* the texts of its context, indented;
* for each of its sections a code with a text, which may stand on a marked line, and then the
  further texts of the section, indented.

A block has a record for each of its codes (`Printed.Block.records`): the message is the context
with the texts of the sections of that code.
-/

namespace LiveCheck.Printed

/-! ## Texts -/

/-- A text that fits on a line and has no blanks at its ends. -/
structure Phrase where
  /-- The text. -/
  text : Text
  unbroken : text.Unbroken
  stripped : text.strip = text

/-- Does the text begin with the word `LINE`, blanks and a digit? -/
def beginsDirective : Text → Bool
  | 'L' :: 'I' :: 'N' :: 'E' :: rest =>
    rest.head?.any isBlank && (Text.stripLeft rest).head?.any isDecimalDigit
  | _ => false

/-- Does the text begin with a number and two blanks? -/
def beginsEcho (text : Text) : Bool :=
  text.head?.any isDecimalDigit && 2 ≤ ((text.dropWhile isDecimalDigit).takeWhile isBlank).length

/-- A text that stands on an indented line of its own. -/
structure Remark extends Phrase where
  nonempty : text ≠ []
  not_directive : ¬beginsDirective text
  not_echo : ¬beginsEcho text

/-- A text that an error code is written as. -/
structure Code where
  /-- The digits of the code. -/
  digits : Text
  nonempty : digits ≠ []
  decimal : ∀ c ∈ digits, isDecimalDigit c

/-! ## Blocks -/

/-- Codes that share a dollar sign. -/
structure Group where
  /-- The number of spaces before the dollar sign. -/
  gap : Nat
  /-- The codes after the dollar sign. -/
  codes : List Code
  gap_pos : 0 < gap
  nonempty : codes ≠ []

/-- The text about one code. The code may be any, also one that the block does not place. -/
structure Section where
  /-- The code that the section is about. -/
  code : Code
  /-- Does the line of the code begin with asterisks? -/
  marked : Bool
  /-- The text on the line of the code. -/
  first : Phrase
  /-- The texts on the lines after it. -/
  more : List Remark
  unambiguous : marked → ¬namesCode first.text

/-- An error block. -/
structure Block where
  /-- The groups of codes, from left to right. -/
  groups : List Group
  /-- The line of the source. -/
  line : Nat
  /-- The text about all codes. -/
  context : List Remark
  /-- The text about one code after the other. -/
  sections : List Section
  nonempty : groups ≠ []
  line_pos : 1 ≤ line
  line_short : (Nat.toDigits 10 line).length ≤ digitLimit

/-! ## Printing -/

/-- The four asterisks at the beginning of a marked line. -/
def asterisks : Text := List.replicate 4 '*'

/-- So many spaces. -/
def spaces (n : Nat) : Text := List.replicate n ' '

/-- The text of a group on its marker line. -/
def Group.print (g : Group) : Text :=
  spaces g.gap ++ '$' :: Text.join [','] (g.codes.map (·.digits))

/-- The indented line of a remark. -/
def Remark.print (r : Remark) : Text := spaces 5 ++ r.text

/-- The code of a section with the text on its line. -/
def Section.heading (s : Section) : Text := s.code.digits ++ spaces 2 ++ s.first.text

/-- The line of the code of a section. -/
def Section.printCode (s : Section) : Text :=
  if s.marked then asterisks ++ spaces 2 ++ s.heading else s.heading

/-- The lines of a section. -/
def Section.print (s : Section) : List Text := s.printCode :: s.more.map Remark.print

namespace Block

/-- The line with the groups of codes. -/
def printMarkers (b : Block) : Text := asterisks ++ b.groups.flatMap Group.print

/-- The line with the line of the source. -/
def printLine (b : Block) : Text := asterisks ++ "  LINE ".toList ++ decimal b.line

/-- The lines of a block. -/
def print (b : Block) : List Text :=
  b.printMarkers :: b.printLine :: b.context.map Remark.print ++ b.sections.flatMap Section.print

end Block

/-- The text of a listing of blocks. -/
def print (blocks : List Block) : Text := (blocks.flatMap Block.print).flatMap (· ++ ['\n'])

/-! ## What is printed -/

/-- The codes of groups with the columns that their dollar signs point at, if the groups begin at
    `offset` on their line. -/
def markersAt (offset : Nat) : List Group → List Marker
  | [] => []
  | g :: rest =>
    g.codes.map (fun code => ⟨code.digits, (offset + g.gap : Nat) - markerShift⟩) ++
      markersAt (offset + g.print.length) rest

/-- The texts of a section, of which the first may be left out. -/
def Section.texts (s : Section) : List Text :=
  (if s.first.text = [] then [] else [s.first.text]) ++ s.more.map (·.text)

namespace Block

/-- The codes of a block with their columns. -/
def markers (b : Block) : List Marker := markersAt asterisks.length b.groups

/-- The texts of a block for a code. -/
def texts (b : Block) (code : Text) : List Text :=
  b.context.map (·.text) ++
    (b.sections.filter fun s => s.code.digits = code).flatMap Section.texts

/-- The records of a block, one for each of its codes. -/
def records (b : Block) : List Record :=
  b.markers.map fun m =>
    { code := m.code, column := m.column, line := b.line, message := joinMessage (b.texts m.code) }

end Block

end LiveCheck.Printed
