import LiveCheck.Json.Basic
import LiveCheck.Number.Decimal

/-!
# Reading JSON

The reader takes strict JSON, and besides it the words `NaN`, `Infinity` and `-Infinity`. Of several
members with one name the last value counts, at the place of the first. A text is refused at its
first fault, which is its form, a whole number that is too long, or a container too deep inside of
others.

Every function returns what it read with the rest of the text. The fuel of a string is the length
of its text; values have twice as much, for two calls, one into a container and one into its first
item, have at least one character less before them.
-/

namespace LiveCheck

namespace Json

/-- A kind of value that holds others. -/
inductive Container
  | array
  | object
  deriving DecidableEq, Repr

/-- The name of a kind of container. -/
def Container.name : Container → String
  | array => "array"
  | object => "object"

/-- Why a text was refused. -/
inductive Fault
  /-- The text is not of the form of JSON. -/
  | malformed
  /-- A whole number is too long. -/
  | overlong (numeral : OverlongNumeral)
  /-- A container is too deep inside of others. -/
  | tooDeep (container : Container)
  deriving DecidableEq, Repr

/-- White space between the parts of a value. -/
def isSpace (c : Char) : Bool := c = ' ' || c = '\t' || c = '\n' || c = '\r'

/-- The text without the white space at its front. -/
def skipSpace (text : Text) : Text := text.dropWhile isSpace

/-- One of the digits `0` to `9`. -/
def isAsciiDigit (c : Char) : Bool := '0' ≤ c && c ≤ '9'

/-- The value of a hexadecimal digit. -/
def hexValue? (c : Char) : Option Nat :=
  if '0' ≤ c ∧ c ≤ '9' then some (c.toNat - '0'.toNat)
  else if 'a' ≤ c ∧ c ≤ 'f' then some (c.toNat - 'a'.toNat + 10)
  else if 'A' ≤ c ∧ c ≤ 'F' then some (c.toNat - 'A'.toNat + 10)
  else none

/-- The number that four hexadecimal digits at the front of a text stand for. -/
def readHex4 : Text → Option (Nat × Text)
  | a :: b :: c :: d :: rest => do
    let a ← hexValue? a
    let b ← hexValue? b
    let c ← hexValue? c
    let d ← hexValue? d
    return (((a * 16 + b) * 16 + c) * 16 + d, rest)
  | _ => none

/-- The character that a one-letter escape stands for. -/
def simpleEscape? : Char → Option Char
  | '"' => some '"'
  | '\\' => some '\\'
  | '/' => some '/'
  | 'b' => some '\x08'
  | 'f' => some '\x0c'
  | 'n' => some '\n'
  | 'r' => some '\r'
  | 't' => some '\t'
  | _ => none

/-- The letter that an escape by UTF-16 unit stands for, after its letter `u`. Two escapes that make
    up a surrogate pair stand for one character. -/
def readUnicodeEscape (text : Text) : Option (Letter × Text) := do
  let (high, rest) ← readHex4 text
  if 0xD800 ≤ high ∧ high < 0xDC00 then
    if let '\\' :: 'u' :: more := rest then
      if let some (low, after) := readHex4 more then
        if 0xDC00 ≤ low ∧ low < 0xE000 then
          return (.char (Char.ofNat (0x10000 + (high - 0xD800) * 0x400 + (low - 0xDC00))), after)
  if 0xD800 ≤ high ∧ high < 0xE000 then return (.half high, rest)
  return (.char (Char.ofNat high), rest)

/-- The rest of a string, after its opening quote. -/
def readString : (fuel : Nat) → Text → Except Fault (JsonString × Text)
  | 0, _ => .error .malformed
  | _, [] => .error .malformed
  | fuel + 1, c :: rest =>
    if c = '"' then .ok (.text [], rest)
    else if c = '\\' then
      match rest with
      | [] => .error .malformed
      | e :: more =>
        let escaped := if e = 'u' then readUnicodeEscape more
          else (simpleEscape? e).map fun c => (.char c, more)
        match escaped with
        | none => .error .malformed
        | some (letter, after) => do
          let (s, rest) ← readString fuel after
          return (s.cons letter, rest)
    else if c.toNat < 0x20 then .error .malformed
    else do
      let (s, rest) ← readString fuel rest
      return (s.cons (.char c), rest)

/-- The exponent of a number, with its letter; nothing is read if no digit follows. -/
def readExponent? (text : Text) : Option (Int × Text) :=
  match text with
  | e :: rest =>
    if e = 'e' ∨ e = 'E' then
      let (negative, digits) :=
        match rest with
        | '+' :: more => (false, more)
        | '-' :: more => (true, more)
        | _ => (false, rest)
      match digits.takeWhile isAsciiDigit with
      | [] => none
      | power =>
        let n : Int := numeralValue power
        some (if negative then -n else n, digits.dropWhile isAsciiDigit)
    else none
  | [] => none

/-- The fraction of a number, with its point; nothing is read if no digit follows. -/
def readFraction? (text : Text) : Option (Text × Text) :=
  match text with
  | '.' :: rest =>
    match rest.takeWhile isAsciiDigit with
    | [] => none
    | digits => some (digits, rest.dropWhile isAsciiDigit)
  | _ => none

/-- A number without its sign. It is whole if it has neither a fraction nor an exponent. -/
def readNumber (negative : Bool) (text : Text) : Except Fault (Json × Text) :=
  let (whole, afterWhole) :=
    match text with
    | '0' :: rest => (['0'], rest)
    | _ => (text.takeWhile isAsciiDigit, text.dropWhile isAsciiDigit)
  if whole.isEmpty then .error .malformed
  else
    let (fraction, afterFraction) := (readFraction? afterWhole).getD ([], afterWhole)
    match readExponent? afterFraction with
    | none =>
      if fraction.isEmpty then
        match readNumeral whole with
        | .ok n => .ok (int (if negative then -n else n), afterWhole)
        | .error e => .error (.overlong e)
      else
        let d : Decimal := ⟨numeralValue (whole ++ fraction), -fraction.length⟩
        .ok (float (d.toBinary64 negative), afterFraction)
    | some (power, rest) =>
      let d : Decimal := ⟨numeralValue (whole ++ fraction), power - fraction.length⟩
      .ok (float (d.toBinary64 negative), rest)

/-- The words that stand for a value. -/
def words : List (Text × Json) :=
  [("null".toList, null), ("true".toList, bool true), ("false".toList, bool false),
    ("NaN".toList, float .nan), ("Infinity".toList, float (.infinite false)),
    ("-Infinity".toList, float (.infinite true))]

/-- A word at the front of the text. -/
def readWord? (text : Text) : Option (Json × Text) :=
  words.findSome? fun w => if w.1.isPrefixOf text then some (w.2, text.drop w.1.length) else none

/-- A word or a number. -/
def readScalar (text : Text) : Except Fault (Json × Text) :=
  match readWord? text with
  | some found => .ok found
  | none =>
    match text with
    | '-' :: rest => readNumber true rest
    | _ => readNumber false text

mutual

/-- A value, with no white space before it. Containers may be nested as deep in it as the room
    allows. -/
def readValue : (fuel room : Nat) → Text → Except Fault (Json × Text)
  | 0, _, _ => .error .malformed
  | fuel + 1, room, text =>
    match text with
    | '"' :: rest => do
      let (s, rest) ← readString rest.length.succ rest
      return (string s, rest)
    | '[' :: rest =>
      match room, skipSpace rest with
      | 0, _ => .error (.tooDeep .array)
      | _ + 1, ']' :: after => .ok (list [], after)
      | room + 1, items => do
        let (items, rest) ← readItems fuel room items
        return (list items, rest)
    | '\x7b' :: rest =>
      match room, skipSpace rest with
      | 0, _ => .error (.tooDeep .object)
      | _ + 1, '\x7d' :: after => .ok (object [], after)
      | room + 1, members => do
        let (members, rest) ← readMembers fuel room [] members
        return (object members, rest)
    | _ => readScalar text

/-- The items of a list, from the first one to the closing bracket. -/
def readItems : (fuel room : Nat) → Text → Except Fault (List Json × Text)
  | 0, _, _ => .error .malformed
  | fuel + 1, room, text => do
    let (item, rest) ← readValue fuel room text
    match skipSpace rest with
    | ']' :: after => return ([item], after)
    | ',' :: more =>
      let (items, rest) ← readItems fuel room (skipSpace more)
      return (item :: items, rest)
    | _ => .error .malformed

/-- The members of an object that join the given ones, up to the closing brace. -/
def readMembers : (fuel room : Nat) → List (JsonString × Json) → Text →
    Except Fault (List (JsonString × Json) × Text)
  | 0, _, _, _ => .error .malformed
  | fuel + 1, room, members, text =>
    match text with
    | '"' :: rest => do
      let (name, rest) ← readString rest.length.succ rest
      match skipSpace rest with
      | ':' :: more =>
        let (value, rest) ← readValue fuel room (skipSpace more)
        let members := putMember name value members
        match skipSpace rest with
        | '\x7d' :: after => return (members, after)
        | ',' :: more => readMembers fuel room members (skipSpace more)
        | _ => .error .malformed
      | _ => .error .malformed
    | _ => .error .malformed

end

/-- Reads a text that holds one value and nothing else but white space. Containers may be nested as
    deep as there is room. -/
def read (room : Nat) (text : Text) : Except Fault Json := do
  let (value, rest) ← readValue (2 * text.length + 2) room (skipSpace text)
  if (skipSpace rest).isEmpty then return value else throw .malformed

end Json

end LiveCheck
