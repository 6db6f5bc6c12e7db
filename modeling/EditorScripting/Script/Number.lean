import EditorScripting.Decimal.Layout
import EditorScripting.Script.Fault

/-!
Arithmetic on integers of 64 bits and on floating-point numbers. Integer operations whose result
does not fit fail with the operands in the message.
-/
namespace EditorScripting.Script

namespace Arithmetic

/-- A message that shows two operands around an operator. -/
def operands (what : String) (x : Int) (op : String) (y : Int) : Fault :=
  .arithmetic (what ++ ": " ++ toString x ++ " " ++ op ++ " " ++ toString y)

/-- A result that fits, or else a fault. -/
def checked (n : Int) (overflow : Fault) : Except Fault Int :=
  match checkInt? n with
  | some n => .ok n
  | none => .error overflow

def add (x y : Int) : Except Fault Int := checked (x + y) (operands "Addition overflow" x "+" y)

def sub (x y : Int) : Except Fault Int := checked (x - y) (operands "Subtraction overflow" x "-" y)

def mul (x y : Int) : Except Fault Int :=
  checked (x * y) (operands "Multiplication overflow" x "*" y)

/-- Division toward zero. -/
def div (x y : Int) : Except Fault Int :=
  if y = 0 then .error (operands "Division by zero" x "/" y)
  else checked (x.tdiv y) (operands "Division overflow" x "/" y)

/-- The remainder of division toward zero. It fails where the division does. -/
def rem (x y : Int) : Except Fault Int :=
  if y = 0 ∨ (x = minInt ∧ y = -1) then
    .error (operands "Modulo division by zero or overflow" x "%" y)
  else .ok (x.tmod y)

/-- Powers with exponents of up to 32 bits. -/
def pow (x y : Int) : Except Fault Int :=
  let overflow := operands "Exponential overflow" x "**" y
  if y < 0 then .error (operands "Integer raised to a negative power" x "**" y)
  else if 4294967295 < y then .error overflow
  else if x = 0 ∨ x = 1 ∨ x = -1 then .ok (Int.pow x (if y = 0 then 0 else 2 - (y % 2).toNat))
  else if 63 < y then .error overflow
  else checked (Int.pow x y.toNat) overflow

/-- Shifts bits to the left for a positive count and to the right, keeping the sign, for a negative
one. Bits that leave the 64 are lost. -/
def shift (x count : Int) : Int :=
  if 64 ≤ count then 0
  else if 0 ≤ count then wrapInt (x * Int.pow 2 count.toNat)
  else if count ≤ -64 then (if x < 0 then -1 else 0)
  else x.fdiv (Int.pow 2 (-count).toNat)

/-- An operation on the bits of two integers. -/
def bitwise (f : UInt64 → UInt64 → UInt64) (x y : Int) : Int :=
  (f (UInt64.ofInt x) (UInt64.ofInt y)).toInt64.toInt

def neg (x : Int) : Except Fault Int :=
  checked (-x) (.arithmetic ("Negation overflow: -" ++ toString x))

def abs (x : Int) : Except Fault Int := if x < 0 then neg x else .ok x

/-- The difference of two floating-point numbers in proportion to the greater magnitude; the bare
difference if one of them is zero. -/
def deviation (x y : Float) : Float :=
  let scale := if x * y == 0.0 then 1.0 else if x.abs < y.abs then y.abs else x.abs
  (x - y) / scale

/-- Floating-point numbers whose deviation is within the distance from one to the next number count
as equal. -/
def tolerance : Float := 2.220446049250313e-16

/-- The remainder of division toward zero of floating-point numbers. -/
def floatRem (x y : Float) : Float :=
  match Decimal.Reading.ofBits x.toBits, Decimal.Reading.ofBits y.toBits with
  | .finite a, .finite b =>
    if b.significand = 0 then 0.0 / 0.0 else (a.remainder b).toFloat
  | .finite _, .infinite _ => x
  | _, _ => 0.0 / 0.0

/-- The nearest floating-point number. -/
def toFloat (n : Int) : Float := Float.ofInt n

/-- The integer part of a floating-point number; what is not a number counts as zero. -/
def truncate (x : Float) : Except Fault Int :=
  let overflow (text : List Char) : Except Fault Int :=
    .error (.arithmetic ("Integer overflow: to_int(" ++ String.ofList text ++ ")"))
  match Decimal.Reading.ofBits x.toBits with
  | .notANumber => .ok 0
  | .infinite negative => overflow (if negative then "-inf".toList else "inf".toList)
  | .finite b =>
    let n : Int := if b.negative then -b.truncate else b.truncate
    if Nat.pow 2 63 < n ∨ n < minInt then
      overflow ((if b.negative then ['-'] else []) ++ b.shortest.positional)
    else .ok (min n maxInt)

end Arithmetic

end EditorScripting.Script
