/-!
# Ranges of characters

Character classes of a standard are kept as tables of ranges of code points.
-/

namespace LiveCheck

/-- A first and a last code point. -/
abbrev CodeRange := Nat × Nat

/-- Does the character lie in one of the ranges? -/
def inRanges (table : List CodeRange) (c : Char) : Bool :=
  table.any fun r => r.1 ≤ c.toNat && c.toNat ≤ r.2

end LiveCheck
