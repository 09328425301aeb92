/-!
# Binary64 numbers

A double is its sixty-four bits: sign, eleven bits of exponent, fifty-two of fraction. Counts and
character codes are read from doubles, and both have to be whole numbers, so the one question asked
of a double here is which natural number it is. No machine arithmetic takes part.
-/

namespace PatternAlgebra

/-- A number in the binary64 format. -/
structure Double where
  bits : UInt64
  deriving DecidableEq

namespace Double

/-- The number of fractions: two to the power 52. -/
def fractionCount : Nat := 0x10000000000000

/-- The number of biased exponents: two to the power 11. -/
def exponentCount : Nat := 0x800

/-- The biased exponent field. -/
def exponentField (d : Double) : Nat := d.bits.toNat / fractionCount % exponentCount

/-- The fraction field. -/
def fractionField (d : Double) : Nat := d.bits.toNat % fractionCount

/-- The sign bit. -/
def isNegative (d : Double) : Bool := fractionCount * exponentCount ≤ d.bits.toNat

/-- Neither infinite nor a NaN. -/
def isFinite (d : Double) : Bool := d.exponentField != 2047

def isNaN (d : Double) : Bool := d.exponentField == 2047 && d.fractionField != 0

/-- The significand of a finite double; subnormal numbers lack the leading bit. -/
def significand (d : Double) : Nat :=
  if d.exponentField = 0 then d.fractionField else fractionCount + d.fractionField

/-- The power of two that scales the significand of a finite double. -/
def scale (d : Double) : Int :=
  if d.exponentField = 0 then -1074 else (d.exponentField : Int) - 1075

/-- Whether the number is zero, of either sign. -/
def isZero (d : Double) : Bool := d.exponentField == 0 && d.fractionField == 0

/-- The absolute value of a finite double, if it is a whole number. -/
def wholeMagnitude? (d : Double) : Option Nat :=
  if d.isFinite then
    match d.scale with
    | .ofNat k => some (d.significand * Nat.pow 2 k)
    | .negSucc k =>
      if d.significand % Nat.pow 2 (k + 1) = 0 then some (d.significand / Nat.pow 2 (k + 1))
      else none
  else none

/-- The natural number that a double is, if it is one; negative zero is zero. -/
def toNat? (d : Double) : Option Nat :=
  match d.wholeMagnitude? with
  | some n => if d.isNegative && n != 0 then none else some n
  | none => none

end Double

end PatternAlgebra
