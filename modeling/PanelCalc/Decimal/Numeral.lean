import PanelCalc.Binary64.Rounding

/-!
# Decimal numerals

A numeral is a row of digits with at most one decimal point. It denotes the quotient
`numerator / tenTo places`, and `magnitude` is the binary64 magnitude nearest to that.
-/

namespace PanelCalc.Decimal

/-- Whether a character is one of the ten digits. -/
def isDigit (char : Char) : Bool := '0' ≤ char && char ≤ '9'

/-- The number a digit stands for. -/
def digitValue (char : Char) : Nat := char.toNat - '0'.toNat

/-- The whole number written by a row of digits. -/
def ofDigits (digits : List Char) : Nat :=
  digits.foldl (fun value char => 10 * value + digitValue char) 0

/-- The digits of a numeral read as one whole number, without the point. -/
def numerator (numeral : List Char) : Nat := ofDigits (numeral.filter isDigit)

/-- The power of ten with a given exponent. -/
def tenTo (exponent : Nat) : Nat := Nat.pow 10 exponent

/-- How many digits follow the point. -/
def places (numeral : List Char) : Nat := (numeral.dropWhile (· ≠ '.')).length - 1

/-- The bits of the binary64 magnitude nearest to a numeral, a tie going to the even significand;
those of infinity when the numeral lies past the finite range. -/
def magnitude (numeral : List Char) : Nat :=
  Binary64.nearestBits (numerator numeral * Binary64.unitsPerOne) (tenTo (places numeral))

/-- The number a numeral reads as: `none` without a digit and past the finite range. -/
def read? (numeral : List Char) : Option Float :=
  if numeral.any isDigit && magnitude numeral < Binary64.infinityBits then
    some (Binary64.ofMagnitude false (magnitude numeral))
  else none

end PanelCalc.Decimal
