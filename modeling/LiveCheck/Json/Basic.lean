import LiveCheck.Json.String
import LiveCheck.Number.Binary64

/-!
# JSON values

Settings are kept as JSON values. Whole numbers are exact and distinct from binary64 numbers, and
the members of an object keep their order.
-/

namespace LiveCheck

/-- A JSON value. -/
inductive Json
  | null
  | bool (value : Bool)
  | int (value : Int)
  | float (value : Binary64)
  | string (value : JsonString)
  | list (items : List Json)
  | object (members : List (JsonString × Json))
  deriving Repr

namespace Json

instance : Inhabited Json := ⟨null⟩

/-- A string that is a text. -/
@[match_pattern] protected abbrev text (value : Text) : Json := string (.text value)

/-- Puts a member into an object: a name that is present keeps its place. -/
def putMember (name : JsonString) (value : Json) :
    List (JsonString × Json) → List (JsonString × Json)
  | [] => [(name, value)]
  | m :: rest => if m.1 = name then (name, value) :: rest else m :: putMember name value rest

/-- Is the value one that a condition takes for false: nothing, zero or empty? -/
def isFalsy : Json → Bool
  | null => true
  | bool b => !b
  | int n => n == 0
  | float (.finite _ units) => units == 0
  | float _ => false
  | string s => s = .text []
  | list items => items.isEmpty
  | object members => members.isEmpty

end Json

end LiveCheck
