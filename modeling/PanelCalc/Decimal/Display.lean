import PanelCalc.Binary64.Units
import PanelCalc.Decimal.Figures
import PanelCalc.Fault

/-!
# Displayed numbers

How a panel shows a value: rounded to 14 significant digits, or to 16 where the magnitude is very
large or very small, which keeps the noise of binary arithmetic off the display.
-/

namespace PanelCalc.Decimal

/-- Significant digits of an ordinary magnitude. -/
def usualDigits : Nat := 14

/-- Significant digits of a very large or very small magnitude. -/
def extremeDigits : Nat := 16

/-- Magnitudes from ten thousand million on are very large. -/
def largeUnits : Nat := tenTo 10 * Binary64.unitsPerOne

/-- Magnitudes below the binary64 number nearest to one millionth are very small. -/
def smallUnits : Nat := Binary64.unitsOfBits (magnitude "0.000001".toList)

/-- The number of significant digits with which a magnitude is shown. -/
def displayDigits (units : Nat) : Nat :=
  if largeUnits ≤ units || units < smallUnits then extremeDigits else usualDigits

/-- The figures of a finite value. The two zeros look alike. -/
def figures (value : Float) : Figures :=
  if Binary64.isZero value then .zero
  else
    let units := Binary64.units value
    let digits := displayDigits units
    let rounded := (Expansion.ofQuotient units Binary64.unitsPerOne).roundHalfUp digits
    rounded.figures (Binary64.isNegative value) digits

/-- The text a panel shows for a value. A value that is no finite number shows the error text. -/
def display (value : Float) : String :=
  if Binary64.isFinite value then String.ofList (figures value).text else errorText

end PanelCalc.Decimal
