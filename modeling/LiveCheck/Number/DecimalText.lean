import LiveCheck.Number.Decimal

/-!
# The text of binary64 numbers

A binary64 number is written with the digits of the shortest decimal fraction that reads back. A
number whose leading digit has a place from `10 ^ -4` up to `10 ^ 15` is written with a decimal
point and at least one digit after it, any other with an exponent of at least two digits and a sign.
-/

namespace LiveCheck

/-- Zeros. -/
def zeros (n : Nat) : Text := List.replicate n '0'

namespace Decimal

/-- The text of a decimal fraction with its point in place. -/
def positional (digits : Text) (place : Int) : Text :=
  if place < 0 then '0' :: '.' :: zeros (-place - 1).toNat ++ digits
  else
    let whole := place.toNat + 1
    let fraction := digits.drop whole
    digits.take whole ++ zeros (whole - digits.length) ++ '.' ::
      if fraction.isEmpty then ['0'] else fraction

/-- The text of a decimal fraction with an exponent, given the place of its leading digit. -/
def scientific (digits : Text) (place : Int) : Text :=
  let fraction := digits.drop 1
  let power := Nat.toDigits 10 place.natAbs
  digits.take 1 ++ (if fraction.isEmpty then [] else '.' :: fraction) ++
    ['e', if place < 0 then '-' else '+'] ++ zeros (2 - power.length) ++ power

/-- The text of a decimal fraction. -/
def text (d : Decimal) : Text :=
  let digits := Nat.toDigits 10 d.digits
  let place := digits.length + d.exponent - 1
  if -4 ≤ place ∧ place < 16 then positional digits place else scientific digits place

end Decimal

namespace Binary64

/-- The text of a number, with the given names for the numbers that have no digits. -/
def textWith (noNumber infinity : Text) : Binary64 → Text
  | nan => noNumber
  | infinite negative => if negative then '-' :: infinity else infinity
  | finite negative units =>
    let magnitude := if units = 0 then ['0', '.', '0'] else (Decimal.shortest units).text
    if negative then '-' :: magnitude else magnitude

/-- The text of a number. -/
def text : Binary64 → Text := textWith "nan".toList "inf".toList

end Binary64

end LiveCheck
