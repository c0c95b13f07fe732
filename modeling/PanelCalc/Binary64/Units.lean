/-!
# Exact magnitudes of binary64 numbers

Every finite binary64 number is, up to its sign, a whole number of units of `2 ^ -1074`, the
smallest positive one. Reading, writing and dividing with remainder are therefore exact integer
arithmetic on `units`; nothing in them depends on a further rounding of the machine.
-/

namespace PanelCalc.Binary64

/-- The sign bit of a number, the highest of its 64 bits. -/
def signBit : Nat := 0x8000000000000000

/-- The place of the exponent's lowest bit, which is also that of the leading bit that the 52
stored bits of a significand leave out. -/
def leadingBit : Nat := 0x10000000000000

/-- How many units make up the number one: two to the power of 1074. -/
def unitsPerOne : Nat := 1 <<< 1074

/-- The bits of a number below its sign bit. They grow with the magnitude. -/
def magnitudeBits (x : Float) : Nat := x.toBits.toNat % signBit

/-- Whether the sign bit is set, as it is for negative zero too. -/
def isNegative (x : Float) : Bool := signBit ≤ x.toBits.toNat

/-- The magnitude bits of infinity, the first that belong to no finite number. -/
def infinityBits : Nat := 2047 * leadingBit

/-- Whether a number is neither infinite nor undefined. -/
def isFinite (x : Float) : Bool := magnitudeBits x < infinityBits

/-- Whether a number is undefined, as a quotient of two zeros is. -/
def isUndefined (x : Float) : Bool := infinityBits < magnitudeBits x

/-- Whether a number is one of the two zeros. -/
def isZero (x : Float) : Bool := magnitudeBits x = 0

/-- The units that magnitude bits stand for. Below `leadingBit` they count units themselves; above,
the upper part is the exponent and the lower one the significand without its leading bit. -/
def unitsOfBits (bits : Nat) : Nat :=
  if bits < leadingBit then bits
  else (leadingBit + bits % leadingBit) <<< (bits / leadingBit - 1)

/-- The magnitude of a finite number, in units. -/
def units (x : Float) : Nat := unitsOfBits (magnitudeBits x)

/-- The number with the given sign and magnitude bits. -/
def ofMagnitude (negative : Bool) (bits : Nat) : Float :=
  Float.ofBits (UInt64.ofNat (if negative then signBit + bits else bits))

end PanelCalc.Binary64
