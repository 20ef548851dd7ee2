import LiveCheck.Json.Basic
import LiveCheck.Number.DecimalText
import LiveCheck.Text.Quoted

/-!
# Writing JSON

A value is written in ASCII: strings escape quotes, backslashes, control characters and every
character beyond ASCII, the latter by its UTF-16 units; halves of surrogate pairs are escaped alike.
`Json.indented` gives each item and member a line of its own with an indentation of two spaces per
level; `Json.compact` writes one line.
-/

namespace LiveCheck

namespace Json

/-- The escape of a UTF-16 unit. -/
def unitEscape (unit : Nat) : Text := '\\' :: 'u' :: Text.hexadecimal 4 unit

/-- The form of one character in a string. -/
def escapeChar (c : Char) : Text :=
  if c = '"' then ['\\', '"']
  else if c = '\\' then ['\\', '\\']
  else if c = '\n' then ['\\', 'n']
  else if c = '\r' then ['\\', 'r']
  else if c = '\t' then ['\\', 't']
  else if c = '\x08' then ['\\', 'b']
  else if c = '\x0c' then ['\\', 'f']
  else if 0x20 ≤ c.toNat ∧ c.toNat ≤ 0x7E then [c]
  else if c.toNat < 0x10000 then unitEscape c.toNat
  else
    let n := c.toNat - 0x10000
    unitEscape (0xD800 + n / 0x400) ++ unitEscape (0xDC00 + n % 0x400)

/-- The form of one letter in a string. -/
def escapeLetter : Letter → Text
  | .char c => escapeChar c
  | .half unit => unitEscape unit

/-- A string between quotes. -/
def quoteString (s : JsonString) : Text := '"' :: s.letters.flatMap escapeLetter ++ ['"']

/-- The text of a number that is not whole. -/
def floatText : Binary64 → Text := Binary64.textWith "NaN".toList "Infinity".toList

/-- Parts between two brackets, each on a line of its own, at a depth of indentation. -/
def bracketed (opening closing : Char) (depth : Nat) (parts : List Text) : Text :=
  let indent (n : Nat) : Text := '\n' :: List.replicate (2 * n) ' '
  if parts.isEmpty then [opening, closing]
  else
    opening :: indent (depth + 1) ++ Text.join (',' :: indent (depth + 1)) parts ++
      indent depth ++ [closing]

mutual

/-- The text of a value at a depth of indentation. -/
def indentedAt (depth : Nat) : Json → Text
  | null => "null".toList
  | bool b => (if b then "true" else "false").toList
  | int n => decimal n
  | float x => floatText x
  | string s => quoteString s
  | list items => bracketed '[' ']' depth (indentedItems (depth + 1) items)
  | object members => bracketed '\x7b' '\x7d' depth (indentedMembers (depth + 1) members)

/-- The texts of items at a depth of indentation. -/
def indentedItems (depth : Nat) : List Json → List Text
  | [] => []
  | item :: rest => indentedAt depth item :: indentedItems depth rest

/-- The texts of members at a depth of indentation. -/
def indentedMembers (depth : Nat) : List (JsonString × Json) → List Text
  | [] => []
  | (name, value) :: rest =>
    (quoteString name ++ [':', ' '] ++ indentedAt depth value) :: indentedMembers depth rest

end

/-- The text of a value, with each item and member on a line of its own. -/
def indented (value : Json) : Text := indentedAt 0 value

mutual

/-- The text of a value on one line. -/
def compact : Json → Text
  | list items => '[' :: Text.join [','] (compactItems items) ++ [']']
  | object members => '\x7b' :: Text.join [','] (compactMembers members) ++ ['\x7d']
  | value => indentedAt 0 value

/-- The texts of items on one line. -/
def compactItems : List Json → List Text
  | [] => []
  | item :: rest => compact item :: compactItems rest

/-- The texts of members on one line. -/
def compactMembers : List (JsonString × Json) → List Text
  | [] => []
  | (name, value) :: rest => (quoteString name ++ ':' :: compact value) :: compactMembers rest

end

end Json

end LiveCheck
