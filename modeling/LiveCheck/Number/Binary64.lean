/-!
# Binary64 numbers

A finite binary64 number is a whole number of *units* of `2 ^ -1074` with at most 53 significant
bits, or the negative of one, the two zeros being distinct. A ratio of natural numbers is rounded to
the nearest such number, a tie going to the one whose last bit is even; what would reach `2 ^ 1024`
becomes infinite. Differences and comparisons are exact up to that rounding.
-/

namespace LiveCheck

/-- A binary64 number. -/
inductive Binary64
  /-- Not a number. -/
  | nan
  /-- One of the two infinities. -/
  | infinite (negative : Bool)
  /-- A sign, and a magnitude in units of `2 ^ -1074`. -/
  | finite (negative : Bool) (units : Nat)
  deriving DecidableEq, Repr

/-- The whole number nearest to a ratio; a tie goes to the even one. -/
def roundQuotient (num den : Nat) : Nat :=
  let quotient := num / den
  let twice := 2 * (num % den)
  if twice < den then quotient
  else if den < twice then quotient + 1
  else quotient + quotient % 2

namespace Binary64

/-- How many units make one. -/
def unitsPerOne : Nat := Nat.pow 2 1074

/-- The units of the smallest magnitude that is too large to be finite. -/
def unitsLimit : Nat := Nat.pow 2 2098

/-- The magnitude nearest to a ratio, in units: it keeps 53 significant bits of the ratio. -/
def roundUnits (num den : Nat) : Nat :=
  let scaled := num * unitsPerOne
  let step := Nat.pow 2 (Nat.log2 (scaled / den) - 52)
  roundQuotient scaled (den * step) * step

/-- The number of the given sign that is nearest to a ratio. -/
def ofRatio (negative : Bool) (num den : Nat) : Binary64 :=
  let units := roundUnits num den
  if units < unitsLimit then finite negative units else infinite negative

/-- The number nearest to a ratio of an integer and a positive number. -/
def ofIntRatio (num : Int) (den : Nat) : Binary64 := ofRatio (num < 0) num.natAbs den

/-- A finite number in units, with its sign. -/
def signedUnits (negative : Bool) (units : Nat) : Int := if negative then -units else units

/-- The difference of two numbers, rounded. -/
def sub : Binary64 → Binary64 → Binary64
  | finite s a, finite t b => ofIntRatio (signedUnits s a - signedUnits t b) unitsPerOne
  | infinite s, finite _ _ => infinite s
  | finite _ _, infinite t => infinite !t
  | infinite s, infinite t => if s = t then nan else infinite s
  | nan, _ => nan
  | _, nan => nan

/-- Is the first number less than the second? Nothing is less or greater than what is no number. -/
def less : Binary64 → Binary64 → Bool
  | finite s a, finite t b => signedUnits s a < signedUnits t b
  | infinite s, finite _ _ => s
  | finite _ _, infinite t => !t
  | infinite s, infinite t => s && !t
  | nan, _ => false
  | _, nan => false

instance : Sub Binary64 := ⟨sub⟩

instance : LT Binary64 := ⟨fun a b => less a b = true⟩

instance (a b : Binary64) : Decidable (a < b) := inferInstanceAs (Decidable (less a b = true))

end Binary64

end LiveCheck
