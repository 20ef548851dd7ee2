import LiveCheck.Text.Blank
import LiveCheck.Listing.Marker

/-!
# Lines of a listing

Every line of a listing is of one kind, which its own text decides. A line is *marked* if it begins
with exactly four asterisks; what counts of it is its body after them. The kinds are tried in this
order:

* a marked line with markers opens an error block;
* a line directive is the word `LINE` with a number after it;
* a code message is a number that ends the line or has a blank after it. Only the body of a marked
  line may have blanks in front of the number;
* a blank line has no visible character;
* of the others, a marked line continues a message, as does an indented line that does not look
  like the echo of a source line;
* all other text closes the error block that is open: the echo of a source line, which is an
  indented number with at least two blanks and some text after it, and text that is not indented.
-/

namespace LiveCheck

/-- What a line of a listing does to the error block that is open. -/
inductive ListingLine
  /-- Closes the open block and opens one with these markers. -/
  | markers (markers : List Marker)
  /-- Gives the block the line number that the numeral stands for. -/
  | directive (numeral : Text)
  /-- Names a code, with the text after it. -/
  | codeMessage (code text : Text)
  /-- Does nothing. -/
  | blank
  /-- Adds to the message. -/
  | continuation (text : Text)
  /-- Closes the block. -/
  | closing
  deriving DecidableEq, Repr

namespace ListingLine

/-- Does the line begin with exactly four asterisks? -/
def isMarked : Text → Bool
  | '*' :: '*' :: '*' :: '*' :: rest => rest.head? != some '*'
  | _ => false

/-- What counts of a line. -/
def body (line : Text) : Text := if isMarked line then line.drop 4 else line

/-- The numeral of a line directive. -/
def directive? (body : Text) : Option Text :=
  match body.stripLeft with
  | 'L' :: 'I' :: 'N' :: 'E' :: rest =>
    let numeral := (Text.stripLeft rest).takeWhile isDecimalDigit
    if (rest.head?.any isBlank) && !numeral.isEmpty then some numeral else none
  | _ => none

/-- The code and the text of a code message that begins with its number. -/
def codeMessage? (body : Text) : Option (Text × Text) :=
  let code := body.takeWhile isDecimalDigit
  let rest := body.dropWhile isDecimalDigit
  if !code.isEmpty && rest.head?.all isBlank then some (code, Text.strip rest) else none

/-- Is this the echo of a source line? -/
def isSourceEcho (line : Text) : Bool :=
  let indented := line.stripLeft
  let rest := indented.dropWhile isDecimalDigit
  line.head?.any isBlank && indented.head?.any isDecimalDigit &&
    2 ≤ (rest.takeWhile isBlank).length && !(Text.stripLeft rest).isEmpty

/-- The kind of a line that opens no block, given its body. -/
def ofBody (marked : Bool) (body : Text) : ListingLine :=
  match directive? body with
  | some numeral => directive numeral
  | none =>
    match codeMessage? (if marked then body.stripLeft else body) with
    | some (code, text) => codeMessage code text
    | none =>
      if body.all isBlank then blank
      else if marked then continuation body.strip
      else if body.head?.any isBlank && !isSourceEcho body then continuation body.strip
      else closing

/-- The kind of a line. -/
def read (line : Text) : ListingLine :=
  let found := if isMarked line then findMarkers line else []
  if found.isEmpty then ofBody (isMarked line) (body line) else markers found

end ListingLine

end LiveCheck
