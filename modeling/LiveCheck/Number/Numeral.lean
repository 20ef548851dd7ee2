import LiveCheck.Text.Basic
import LiveCheck.Text.Digit

/-!
# Numerals

A numeral is a run of decimal digits, of one script or of several, and stands for the number that
their values make in positional notation. A numeral of more than `digitLimit` digits, leading zeros
counted, is not read, and a number that was computed is not written if it needs more digits.
-/

namespace LiveCheck

/-- The most digits that a numeral may have. -/
def digitLimit : Nat := 4300

/-- A numeral was refused for its length. -/
structure OverlongNumeral where
  /-- How many digits it has. -/
  digits : Nat
  deriving DecidableEq, Repr

/-- What is said of a refused numeral. -/
def OverlongNumeral.message (e : OverlongNumeral) : String :=
  s!"Exceeds the limit ({digitLimit} digits) for integer string conversion: " ++
    s!"value has {e.digits} digits; use sys.set_int_max_str_digits() to increase the limit"

/-- The number that a run of decimal digits stands for. -/
def numeralValue (digits : Text) : Nat :=
  digits.foldl (fun n c => 10 * n + (digitValue? c).getD 0) 0

/-- Reads a numeral, if it is not too long. -/
def readNumeral (digits : Text) : Except OverlongNumeral Nat :=
  if digits.length ≤ digitLimit then .ok (numeralValue digits) else .error ⟨digits.length⟩

/-- The decimal numeral of a number, with a minus sign in front of a negative one. -/
def decimal (n : Int) : Text :=
  if n < 0 then '-' :: Nat.toDigits 10 n.natAbs else Nat.toDigits 10 n.natAbs

/-- A number was not written, for its numeral would have more than `digitLimit` digits. -/
structure UnwritableNumber where
  deriving DecidableEq, Repr

/-- What is said of a number that was not written. -/
def UnwritableNumber.message (_ : UnwritableNumber) : String :=
  s!"Exceeds the limit ({digitLimit} digits) for integer string conversion; " ++
    "use sys.set_int_max_str_digits() to increase the limit"

/-- Writes the decimal numeral of a number, if it is not too long. -/
def writeDecimal (n : Int) : Except UnwritableNumber Text :=
  if (Nat.toDigits 10 n.natAbs).length ≤ digitLimit then .ok (decimal n) else .error {}

end LiveCheck
