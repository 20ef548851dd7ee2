import LiveCheck.Json.Basic
import LiveCheck.Number.DecimalText
import LiveCheck.Text.Quoted

/-!
# Literals

The text of a value as messages show it: strings between quotes, items in brackets, members in
braces, and the capitalised words for the three constants.
-/

namespace LiveCheck

namespace Json

mutual

/-- The text of a value in a message. -/
def literal : Json → Text
  | null => "None".toList
  | bool b => (if b then "True" else "False").toList
  | int n => decimal n
  | float x => x.text
  | string s => s.quoted
  | list items => '[' :: Text.join [',', ' '] (literalItems items) ++ [']']
  | object members => '\x7b' :: Text.join [',', ' '] (literalMembers members) ++ ['\x7d']

/-- The texts of items in a message. -/
def literalItems : List Json → List Text
  | [] => []
  | item :: rest => literal item :: literalItems rest

/-- The texts of members in a message. -/
def literalMembers : List (JsonString × Json) → List Text
  | [] => []
  | (name, value) :: rest =>
    (name.quoted ++ [':', ' '] ++ literal value) :: literalMembers rest

end

/-- The text of a value where a text is wanted: a string stands for itself. -/
def plain : Json → Text
  | string s => s.shown
  | value => value.literal

/-- The name of a value's kind. -/
def kindName : Json → String
  | null => "NoneType"
  | bool _ => "bool"
  | int _ => "int"
  | float _ => "float"
  | string _ => "str"
  | list _ => "list"
  | object _ => "dict"

end Json

end LiveCheck
