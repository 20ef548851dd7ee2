import LiveCheck.Text.Quoted

/-!
# Strings of JSON

The escapes of a JSON string name UTF-16 units, so that a string can hold half of a surrogate pair
without the other half. Such a half is no character, and a string that holds one is no text: it is
kept apart by its letters, and so differs from every text.
-/

namespace LiveCheck

/-- What a string is made of. -/
inductive Letter
  /-- A character. -/
  | char (c : Char)
  /-- Half of a surrogate pair, by its UTF-16 unit. -/
  | half (unit : Nat)
  deriving DecidableEq, Repr

namespace Letter

/-- The character, if the letter is one. -/
def char? : Letter → Option Char
  | char c => some c
  | half _ => none

/-- The unit of the half, if the letter is one. -/
def unit? : Letter → Option Nat
  | char _ => none
  | half unit => some unit

/-- The letter, with a character in the place of a half. -/
def charOr (standIn : Char) (l : Letter) : Char := l.char?.getD standIn

end Letter

/-- A string of JSON. -/
inductive JsonString
  /-- A text. -/
  | text (value : Text)
  /-- A string that holds halves of surrogate pairs, and so is no text. -/
  | broken (letters : List Letter)
  deriving DecidableEq, Repr

/-- A string that is no text has no bytes. What is said of it is about the first halves in it that
    stand together. -/
structure EncodingFault where
  /-- How many letters stand in front of them. -/
  position : Nat
  /-- Their units. -/
  units : List Nat
  deriving DecidableEq, Repr

/-- What is said of a string that has no bytes. -/
def EncodingFault.message (f : EncodingFault) : String :=
  let place :=
    match f.units with
    | [unit] => s!"character '\\u{Text.hexadecimal 4 unit}' in position {f.position}"
    | _ => s!"characters in position {f.position}-{f.position + f.units.length - 1}"
  s!"'utf-8' codec can't encode {place}: surrogates not allowed"

namespace JsonString

instance : Inhabited JsonString := ⟨text []⟩

/-- The letters of a string. -/
def letters : JsonString → List Letter
  | text t => t.map .char
  | broken letters => letters

/-- Puts a letter in front of a string. -/
def cons : Letter → JsonString → JsonString
  | .char c, text t => text (c :: t)
  | letter, s => broken (letter :: s.letters)

/-- The text that the string is, if it is one. -/
def text? : JsonString → Option Text
  | text t => some t
  | broken _ => none

/-- The text that the string is, or the fault of a string that is none. -/
def encode : JsonString → Except EncodingFault Text
  | text t => .ok t
  | broken letters =>
    let front := letters.takeWhile (·.char?.isSome)
    .error ⟨front.length,
      ((letters.drop front.length).takeWhile (·.char?.isNone)).filterMap (·.unit?)⟩

/-- What comes into a file that the string is written to: nothing, if it is no text. -/
def written (s : JsonString) : Text := s.text?.getD []

/-- The string as a text, with a character in the place of every half. -/
def textWith (standIn : Char) : JsonString → Text
  | text t => t
  | broken letters => letters.map (·.charOr standIn)

/-- The string as a message shows it: the replacement character stands for a half. -/
def shown : JsonString → Text := textWith '\ufffd'

/-- The form of one letter between quotes: a half is written by its unit. -/
def escapeLetter (quote : Char) : Letter → Text
  | .char c => Text.escapeChar quote c
  | .half unit => '\\' :: 'u' :: Text.hexadecimal 4 unit

/-- A string between quotes. -/
def quoted : JsonString → Text
  | text t => t.quoted
  | broken letters =>
    let quote := Text.quoteFor (letters.filterMap (·.char?))
    quote :: letters.flatMap (escapeLetter quote) ++ [quote]

end JsonString

end LiveCheck
