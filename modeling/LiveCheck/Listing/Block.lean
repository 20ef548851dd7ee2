import LiveCheck.Number.Numeral
import LiveCheck.Text.Blank
import LiveCheck.Text.Quoted
import LiveCheck.Listing.Marker
import LiveCheck.Listing.Record
import LiveCheck.Table

/-!
# Error blocks

An error block begins with the markers of a marker line. The lines after it give the block one line
number and collect fragments of message text for each of its codes. Text goes to the code that was
named last; text before the first named code goes to every code of the block, and text for a code
that the block did not announce is dropped.

A block turns into one record per marker. It has no records if it was given no line number, or one
that no line has.
-/

namespace LiveCheck

/-- What has been read of one error block. -/
structure Block where
  /-- The markers of the marker line, from left to right. -/
  markers : List Marker
  /-- The line number, once one was given. -/
  line : Option Int := none
  /-- The message text collected for each code, the codes in the order of the markers. -/
  fragments : Table Text (List Text)
  /-- The code that was named last. -/
  current : Option Text := none
  deriving DecidableEq, Repr

/-- Why a block has no records. -/
inductive BlockFault
  /-- The block was given no line number. -/
  | withoutLine (codes : List Text)
  /-- The block was given a line number below `1`. -/
  | belowFirstLine (codes : List Text) (line : Int)
  deriving DecidableEq, Repr

/-- What is said of a block without records. -/
def BlockFault.message : BlockFault → String
  | withoutLine codes => s!"error block {Text.quotedList codes} has no LINE directive"
  | belowFirstLine codes line => s!"error block {Text.quotedList codes} has line {decimal line}"

/-- The message that fragments make: they are joined by spaces, and a number that the whole begins
    with is taken for a repetition of the code and left out. -/
def joinMessage (fragments : List Text) : Text :=
  let whole := Text.join [' '] fragments
  match whole.takeWhile isDecimalDigit with
  | [] => whole
  | _ :: _ => Text.stripLeft (whole.dropWhile isDecimalDigit)

namespace Block

/-- The block that a marker line opens. -/
def ofMarkers (markers : List Marker) : Block where
  markers
  fragments := markers.foldl (fun t m => t.put m.code []) ∅

/-- The codes of the markers, repetitions included. -/
def codes (b : Block) : List Text := b.markers.map (·.code)

/-- Gives the block its line number. Only the first one counts. -/
def setLine (b : Block) (line : Int) : Block := { b with line := b.line <|> some line }

/-- Names the code that the following text belongs to, and adds the text that comes with it. -/
def switchCode (b : Block) (code text : Text) : Block :=
  { b with
    current := some code
    fragments := if text.isEmpty then b.fragments else b.fragments.modify code (· ++ [text]) }

/-- Adds text to the code named last, or to every code if none was named yet. -/
def addContinuation (b : Block) (text : Text) : Block :=
  if text.isEmpty then b
  else
    match b.current with
    | none => { b with fragments := ⟨b.fragments.entries.map fun e => (e.1, e.2 ++ [text])⟩ }
    | some code => { b with fragments := b.fragments.modify code (· ++ [text]) }

/-- The record of one marker of a block with the given line number. -/
def recordOf (b : Block) (line : Int) (m : Marker) : Record where
  code := m.code
  column := m.column
  line := line
  message := joinMessage ((b.fragments.get? m.code).getD [])

/-- The records of the block, one per marker and in the order of the markers. -/
def records (b : Block) : Except BlockFault (List Record) :=
  match b.line with
  | none => .error (.withoutLine b.codes)
  | some line =>
    if line < 1 then .error (.belowFirstLine b.codes line)
    else .ok (b.markers.map (b.recordOf line))

end Block

end LiveCheck
