import PanelCalc.Binary64.Rounding

/-!
# Remainder

The remainder of truncated division. It is always a binary64 number itself, so the rounding in
`remainder` never rounds.
-/

namespace PanelCalc.Binary64

/-- The remainder of dividing `x` by `y`, with the sign of `x` even when it is zero. There is none
for an infinite dividend or a zero divisor; an infinite divisor leaves the dividend as it is. -/
def remainder (x y : Float) : Float :=
  if !isFinite x || isUndefined y || isZero y then 0 / 0
  else if !isFinite y then x
  else ofMagnitude (isNegative x) (nearestBits (units x % units y) 1)

end PanelCalc.Binary64
