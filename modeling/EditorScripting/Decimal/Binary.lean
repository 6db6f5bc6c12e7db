/-!
A double-precision number as sign, integer significand and power of two.
-/
namespace EditorScripting.Decimal

/-- The finite number `± significand · 2 ^ exponent`. -/
structure Binary where
  negative : Bool
  significand : Nat
  exponent : Int
deriving Repr, DecidableEq

/-- What the bits of a double-precision number stand for. -/
inductive Reading where
  | notANumber
  | infinite (negative : Bool)
  | finite (number : Binary)
deriving Repr, DecidableEq

/-- Reads the bits of a double-precision number: one sign bit, eleven exponent bits and 52 bits of
significand, whose leading one is left out except in subnormal numbers. -/
def Reading.ofBits (bits : UInt64) : Reading :=
  let negative := bits >>> 63 == 1
  let biased := ((bits >>> 52) &&& 0x7ff).toNat
  let fraction := (bits &&& 0xfffffffffffff).toNat
  if biased = 2047 then
    if fraction = 0 then .infinite negative else .notANumber
  else if biased = 0 then .finite ⟨negative, fraction, -1074⟩
  else .finite ⟨negative, Nat.pow 2 52 + fraction, biased - 1075⟩

namespace Binary

/-- The distance to the next smaller number is half the distance to the next larger one. -/
def atBoundary (x : Binary) : Bool := x.significand == Nat.pow 2 52 && x.exponent != -1074

/-- The part before the point, without sign. -/
def truncate (x : Binary) : Nat :=
  if 0 ≤ x.exponent then x.significand * Nat.pow 2 x.exponent.toNat
  else x.significand / Nat.pow 2 (-x.exponent).toNat

/-- There is nothing behind the point. -/
def isIntegral (x : Binary) : Bool :=
  0 ≤ x.exponent || x.significand % Nat.pow 2 (-x.exponent).toNat == 0

/-- The remainder of truncating division. It has the sign of the dividend, and its exponent is the
smaller of the two. -/
def remainder (x y : Binary) : Binary :=
  let e := min x.exponent y.exponent
  let a := x.significand * Nat.pow 2 (x.exponent - e).toNat
  let b := y.significand * Nat.pow 2 (y.exponent - e).toNat
  ⟨x.negative, a % b, e⟩

/-- The double-precision number that `x` denotes, for a significand that fits once its trailing
zeros are dropped. -/
def toFloat (x : Binary) : Float :=
  let magnitude := (Float.ofNat x.significand).scaleB x.exponent
  if x.negative then -magnitude else magnitude

end Binary

end EditorScripting.Decimal
