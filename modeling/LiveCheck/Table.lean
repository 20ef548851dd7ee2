/-!
# Tables

A table assigns values to keys and keeps the order in which the keys came in. Assigning to a key
that is present keeps its place, a new key goes to the end, and a key that was removed comes in
anew.
-/

namespace LiveCheck

/-- Values by key, in the order in which the keys came in. -/
structure Table (κ : Type) (α : Type) where
  /-- The keys with their values. -/
  entries : List (κ × α) := []
  deriving DecidableEq, Repr

namespace Table

variable {κ α : Type} [DecidableEq κ]

/-- The table without keys. -/
def empty : Table κ α := ⟨[]⟩

instance : EmptyCollection (Table κ α) := ⟨empty⟩

instance : Inhabited (Table κ α) := ⟨empty⟩

/-- The value of a key. -/
def get? (t : Table κ α) (k : κ) : Option α := (t.entries.find? fun e => e.1 = k).map (·.2)

/-- Does the key have a value? -/
def contains (t : Table κ α) (k : κ) : Bool := (t.get? k).isSome

/-- Puts a value under a key in a list of entries. -/
def putEntry (k : κ) (v : α) : List (κ × α) → List (κ × α)
  | [] => [(k, v)]
  | e :: rest => if e.1 = k then (k, v) :: rest else e :: putEntry k v rest

/-- Assigns a value to a key. -/
def put (t : Table κ α) (k : κ) (v : α) : Table κ α := ⟨putEntry k v t.entries⟩

/-- Removes a key. -/
def erase (t : Table κ α) (k : κ) : Table κ α := ⟨t.entries.filter fun e => e.1 ≠ k⟩

/-- Changes the value of a key, if it has one. -/
def modify (t : Table κ α) (k : κ) (f : α → α) : Table κ α :=
  ⟨t.entries.map fun e => if e.1 = k then (e.1, f e.2) else e⟩

/-- Assigns all entries of a list, one after the other. -/
def overlay (t : Table κ α) (entries : List (κ × α)) : Table κ α :=
  entries.foldl (fun t e => t.put e.1 e.2) t

/-- The keys, in the order in which they came in. -/
def keys (t : Table κ α) : List κ := t.entries.map (·.1)

/-- The values, in the order in which their keys came in. -/
def values (t : Table κ α) : List α := t.entries.map (·.2)

end Table

end LiveCheck
