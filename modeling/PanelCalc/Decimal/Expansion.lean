import PanelCalc.Decimal.Numeral

/-!
# Decimal expansions

A positive quotient is written out with more digits than are ever shown, and rounded by looking at
its digits: the first ones are kept, and the next one decides if one is added to them, which may
carry through all of them. `exactPlaces` is so large that no binary64 number has further digits.
-/

namespace PanelCalc.Decimal

/-- How many decimal digits a whole number has; zero has one. -/
def digitCount (number : Nat) : Nat :=
  if number < 10 then 1 else digitCount (number / 10) + 1
termination_by number

/-- The last `count` decimal digits of a whole number, the most significant first. -/
def lastDigits : (count : Nat) → Nat → List Char
  | 0, _ => []
  | count + 1, number =>
      Nat.digitChar (number / tenTo count % 10) :: lastDigits count number

/-- The place after the point down to which a quotient is counted to find its leading digit. That is
fine enough for every quotient of at least the smallest positive binary64 number. -/
def finestPlace : Nat := 340

/-- How many digits are written behind the leading one. -/
def exactPlaces : Nat := 1100

/-- A row of digits with a point behind the first one, multiplied by a power of ten. -/
structure Expansion where
  digits : List Char
  exponent : Int
  deriving DecidableEq, Repr

namespace Expansion

/-- The expansion of the quotient `num / den`. -/
def ofQuotient (num den : Nat) : Expansion :=
  let exponent : Int := (digitCount (num * tenTo finestPlace / den) : Int) - 1 - finestPlace
  let significand := num * tenTo (exactPlaces - exponent).toNat / den
  { digits := lastDigits (exactPlaces + 1) significand, exponent }

/-- Adds one to the last of some digits. A nine becomes a zero, and one is carried to the digit
before it. Answers whether one is carried beyond the first digit. -/
def carry : List Char → Bool × List Char
  | [] => (true, [])
  | digit :: others =>
      match carry others with
      | (false, carried) => (false, digit :: carried)
      | (true, carried) =>
          if digit = '9' then (true, '0' :: carried)
          else (false, Nat.digitChar (digitValue digit + 1) :: carried)

/-- An expansion rounded to its first `count` digits. A five behind them adds one to them. If all of
them are nines, they become a one and zeros, and the exponent grows. -/
def roundHalfUp (count : Nat) (expansion : Expansion) : Expansion :=
  let kept := (expansion.digits.take count).rightpad count '0'
  if expansion.digits[count]?.any ('5' ≤ ·) then
    match carry kept with
    | (false, carried) => { expansion with digits := carried }
    | (true, carried) =>
        { digits := ('1' :: carried).take count, exponent := expansion.exponent + 1 }
  else { expansion with digits := kept }

end Expansion
end PanelCalc.Decimal
