import LiveCheck.Number.Binary64
import LiveCheck.Number.Numeral

/-!
# Decimal fractions

A decimal fraction is a whole number times a power of ten. It is read as the nearest binary64
number, and a binary64 number is written as the decimal fraction of the fewest digits that reads
back as it, the nearest one of them if there are several. Every candidate is tested by reading it,
and the exact value stands ready behind the last of them.
-/

namespace LiveCheck

/-- The number `digits * 10 ^ exponent`. -/
structure Decimal where
  /-- The significant digits, as one whole number. -/
  digits : Nat
  /-- The power of ten. -/
  exponent : Int
  deriving DecidableEq, Repr

namespace Decimal

/-- Moves up to `fuel` zeros from the end of the digits into the exponent. -/
def dropZeros : Nat → Decimal → Decimal
  | 0, d => d
  | fuel + 1, d =>
    if d.digits % 10 = 0 then dropZeros fuel ⟨d.digits / 10, d.exponent + 1⟩ else d

/-- The same number with no zero at the end of its digits; zero has the exponent `0`. -/
def normalize (d : Decimal) : Decimal :=
  if d.digits = 0 then ⟨0, 0⟩ else dropZeros (Nat.log2 d.digits + 1) d

/-- How many digits a positive number has; zero has one. -/
def digitCount (n : Nat) : Nat := (Nat.toDigits 10 n).length

/-- The binary64 number of the given sign nearest to a decimal fraction. Fractions too large or too
    small for any power of ten that matters are decided by their magnitude. -/
def toBinary64 (negative : Bool) (d : Decimal) : Binary64 :=
  let d := d.normalize
  let magnitude := digitCount d.digits + d.exponent
  if d.digits = 0 ∨ magnitude < -400 then .finite negative 0
  else if 400 < magnitude then .infinite negative
  else if 0 ≤ d.exponent then .ofRatio negative (d.digits * Nat.pow 10 d.exponent.toNat) 1
  else .ofRatio negative d.digits (Nat.pow 10 (-d.exponent).toNat)

/-- The greatest `e` with `10 ^ e ≤ num / den`, for a positive ratio. -/
def magnitudeOf (num den : Nat) : Int :=
  let reached (e : Int) : Bool :=
    if 0 ≤ e then den * Nat.pow 10 e.toNat ≤ num else den ≤ num * Nat.pow 10 (-e).toNat
  let guess := Int.fdiv (((Nat.log2 num : Int) - Nat.log2 den) * 30103) 100000
  if reached (guess + 1) then guess + 1
  else if reached guess then guess
  else guess - 1

/-- The decimal fraction with the same value as a number of units. -/
def exact (units : Nat) : Decimal := ⟨units * Nat.pow 5 1074, -1074⟩

/-- The best of the two neighbours of a number of units on the grid of multiples of `10 ^ exponent`,
    among those that read back as it. -/
def neighbour? (units : Nat) (exponent : Int) : Option Decimal :=
  let num := if 0 ≤ exponent then units else units * Nat.pow 10 (-exponent).toNat
  let den := if 0 ≤ exponent then Binary64.unitsPerOne * Nat.pow 10 exponent.toNat
    else Binary64.unitsPerOne
  let below : Decimal := ⟨num / den, exponent⟩
  let above : Decimal := ⟨num / den + 1, exponent⟩
  let readsBack (d : Decimal) : Bool := d.toBinary64 false = .finite false units
  match readsBack below, readsBack above with
  | true, true => some (if roundQuotient num den = num / den then below else above)
  | true, false => some below
  | false, true => some above
  | false, false => none

/-- The decimal fraction of the fewest digits that reads back as a number of units. -/
def shortest (units : Nat) : Decimal :=
  let magnitude := magnitudeOf units Binary64.unitsPerOne
  let found := (List.range 17).findSome? fun (n : Nat) => neighbour? units (magnitude - n)
  (found.getD (exact units)).normalize

end Decimal

end LiveCheck
