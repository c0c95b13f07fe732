import PanelCalc.Binary64.Units

/-!
# Rounding quotients

`halfUp` and `halfEven` round a quotient of natural numbers to a nearest whole number and differ
only in ties. `nearestBits` rounds a quotient of units to a nearest binary64 magnitude.
-/

namespace PanelCalc.Binary64

/-- The whole number nearest to `num / den`, a tie going to the larger one. -/
def halfUp (num den : Nat) : Nat := (2 * num + den) / (2 * den)

/-- The whole number nearest to `num / den`, a tie going to the even one. -/
def halfEven (num den : Nat) : Nat :=
  let whole := num / den
  let rest := num % den
  if 2 * rest < den || (2 * rest == den && whole % 2 == 0) then whole else whole + 1

/-- The exponent above the smallest one at which a magnitude of `whole` units is written with a
significand of at most 53 bits. -/
def exponentFor (whole : Nat) : Nat := whole.log2 - 52

/-- The magnitude bits nearest to `num / den` units, a tie going to the even significand. A
quotient that rounds past the largest finite magnitude gives `infinityBits`.

The significand is added to the exponent's place rather than put beside it: its leading bit, and
a carry out of it, then raise the exponent by one as they should. -/
def nearestBits (num den : Nat) : Nat :=
  let exponent := exponentFor (num / den)
  min (exponent * leadingBit + halfEven num (den <<< exponent)) infinityBits

end PanelCalc.Binary64
