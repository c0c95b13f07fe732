import PanelCalc.Decimal.Expansion
import PanelCalc.Text.Basic

/-!
# Decimal figures

A number written out in figures, and how a rounded expansion is written: positionally, or with an
exponent where its digits would not reach the point or would lie too far behind it, and without
superfluous zeros either way.
-/

namespace PanelCalc.Decimal

/-- A number in figures: the digits before and behind the point, and the power of ten by which
they are to be multiplied if one is written. -/
structure Figures where
  negative : Bool := false
  whole : List Char
  fraction : List Char := []
  exponent : Option Int := none
  deriving DecidableEq, Repr

namespace Figures

/-- An exponent, always with its sign. -/
def exponentText (exponent : Int) : List Char :=
  (if exponent < 0 then '-' else '+') :: Nat.toDigits 10 exponent.natAbs

/-- The text of a number. A point is written only in front of a digit. -/
def text (figures : Figures) : List Char :=
  let sign := if figures.negative then ['-'] else []
  let fraction := if figures.fraction = [] then [] else '.' :: figures.fraction
  let exponent := match figures.exponent with
    | some exponent => 'e' :: exponentText exponent
    | none => []
  sign ++ figures.whole ++ fraction ++ exponent

/-- The figures of zero. -/
def zero : Figures := { whole := ['0'] }

/-- Digits without the zeros at their end. -/
def significant (digits : List Char) : List Char := Text.dropEnd (· == '0') digits

end Figures

/-- Numbers with a smaller exponent than this one are written with an exponent. -/
def leastFixedExponent : Int := -6

/-- The figures of an expansion that has been rounded to `count` digits. -/
def Expansion.figures (negative : Bool) (count : Nat) (rounded : Expansion) : Figures :=
  if rounded.exponent < leastFixedExponent || (count : Int) ≤ rounded.exponent then
    { negative
      whole := rounded.digits.take 1
      fraction := Figures.significant (rounded.digits.drop 1)
      exponent := some rounded.exponent }
  else if 0 ≤ rounded.exponent then
    let places := rounded.exponent.toNat + 1
    { negative
      whole := rounded.digits.take places
      fraction := Figures.significant (rounded.digits.drop places) }
  else
    let zeros := List.replicate (rounded.exponent.natAbs - 1) '0'
    { negative
      whole := ['0']
      fraction := Figures.significant (zeros ++ rounded.digits) }

end PanelCalc.Decimal
