import EditorScripting.Decimal.Layout

/-!
The double-precision number nearest to a decimal.
-/
namespace EditorScripting.Decimal

/-- The number nearest to `digits · 10 ^ exponent`. Magnitudes beyond the largest number become
infinite, those below half the smallest one become zero. -/
def nearest (negative : Bool) (digits : Nat) (exponent : Int) : Float :=
  let place : Int := exponent + (Text.decimalDigits digits).length
  let magnitude :=
    if digits = 0 then 0.0
    else if 310 < place then 1.0 / 0.0
    else if place < -330 then 0.0
    else Float.ofScientific digits (exponent < 0) exponent.natAbs
  if negative then -magnitude else magnitude

end EditorScripting.Decimal
