import LiveCheck.Json.Literal

/-!
# Settings of the wrong kind

Settings are not checked when they are loaded: a value of the wrong kind fails where it is used. A
string counts as the list of its characters and an object as the list of its names.
-/

namespace LiveCheck

/-- A setting is not of the kind that its use needs. -/
inductive SettingFault
  /-- A list was needed. -/
  | notAList (found : String)
  /-- A list to write in one line was needed. -/
  | notJoinable
  /-- An item of a list to write in one line is not a text. -/
  | itemNotText (position : Nat) (found : String)
  /-- A text was needed for an operation. -/
  | withoutOperation (found operation : String)
  /-- A command was needed. -/
  | notACommand (found : String)
  deriving DecidableEq, Repr

/-- What is said of a setting of the wrong kind. -/
def SettingFault.message : SettingFault → String
  | notAList found => s!"'{found}' object is not iterable"
  | notJoinable => "can only join an iterable"
  | itemNotText position found => s!"sequence item {position}: expected str instance, {found} found"
  | withoutOperation found operation => s!"'{found}' object has no attribute '{operation}'"
  | notACommand found => s!"expected str, bytes or os.PathLike object, not {found}"

namespace Json

/-- The items that a value counts as, if it counts as a list. -/
def items? : Json → Option (List Json)
  | list items => some items
  | string s => some (s.letters.map fun letter => string (JsonString.cons letter (.text [])))
  | object members => some (members.map fun m => string m.1)
  | _ => none

/-- The items of a setting that must count as a list. -/
def settingItems (value : Json) : Except SettingFault (List Json) :=
  match value.items? with
  | some items => .ok items
  | none => .error (.notAList value.kindName)

/-- The strings of items that must be strings, for an operation on each. -/
def itemStrings (operation : String) : List Json → Except SettingFault (List JsonString)
  | [] => .ok []
  | string s :: rest => (itemStrings operation rest).map (s :: ·)
  | value :: _ => .error (.withoutOperation value.kindName operation)

/-- The texts of items, the first of which has the given position. -/
def joinableTexts (position : Nat) : List Json → Except SettingFault (List Text)
  | [] => .ok []
  | string s :: rest => (joinableTexts (position + 1) rest).map (s.shown :: ·)
  | value :: _ => .error (.itemNotText position value.kindName)

/-- The items of a setting in one line. -/
def joinSetting (value : Json) : Except SettingFault Text :=
  match value.items? with
  | none => .error .notJoinable
  | some items => (joinableTexts 0 items).map (Text.join [',', ' '])

end Json

end LiveCheck
