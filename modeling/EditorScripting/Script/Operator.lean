import EditorScripting.Script.Limits
import EditorScripting.Script.Number

/-!
Binary operators, and what they do to numbers, truth values, characters and text.
-/
namespace EditorScripting.Script

inductive Operator where
  | plus | minus | times | divide | modulo | power
  | shiftLeft | shiftRight | bitAnd | bitOr | bitXor
  | equal | notEqual | less | lessEqual | greater | greaterEqual
  | range | closedRange
deriving DecidableEq, Repr

namespace Operator

def text : Operator → String
  | plus => "+"
  | minus => "-"
  | times => "*"
  | divide => "/"
  | modulo => "%"
  | power => "**"
  | shiftLeft => "<<"
  | shiftRight => ">>"
  | bitAnd => "&"
  | bitOr => "|"
  | bitXor => "^"
  | equal => "=="
  | notEqual => "!="
  | less => "<"
  | lessEqual => "<="
  | greater => ">"
  | greaterEqual => ">="
  | range => ".."
  | closedRange => "..="

def all : List Operator :=
  [plus, minus, times, divide, modulo, power, shiftLeft, shiftRight, bitAnd, bitOr, bitXor, equal,
    notEqual, less, lessEqual, greater, greaterEqual, range, closedRange]

def ofText? (s : String) : Option Operator := all.find? fun op => op.text == s

/-- The operators that compare. -/
def isComparison : Operator → Bool
  | equal | notEqual | less | lessEqual | greater | greaterEqual => true
  | _ => false

/-- The answer of a comparison, from the order of its operands. -/
def holds (op : Operator) (o : Ordering) : Bool :=
  match op with
  | equal => o == .eq
  | notEqual => o != .eq
  | less => o == .lt
  | lessEqual => o != .gt
  | greater => o == .gt
  | greaterEqual => o != .lt
  | _ => false

open Arithmetic in
/-- Two integers. -/
def onInts (op : Operator) (x y : Int) : Except Fault Value :=
  match op with
  | plus => (add x y).map .int
  | minus => (sub x y).map .int
  | times => (mul x y).map .int
  | divide => (div x y).map .int
  | modulo => (rem x y).map .int
  | power => (pow x y).map .int
  | shiftLeft => .ok (.int (shift x y))
  | shiftRight => .ok (.int (shift x (-y)))
  | bitAnd => .ok (.int (bitwise (· &&& ·) x y))
  | bitOr => .ok (.int (bitwise (· ||| ·) x y))
  | bitXor => .ok (.int (bitwise (· ^^^ ·) x y))
  | range => .ok (.range x y false)
  | closedRange => .ok (.range x y true)
  | _ => .ok (.bool (op.holds (compare x y)))

open Arithmetic in
/-- Two floating-point numbers, or one of them and an integer. -/
def onFloats (op : Operator) (x y : Float) : Option Value :=
  match op with
  | plus => some (.float (x + y))
  | minus => some (.float (x - y))
  | times => some (.float (x * y))
  | divide => some (.float (x / y))
  | modulo => some (.float (floatRem x y))
  | power => some (.float (x.pow y))
  | equal => some (.bool (decide ((deviation x y).abs ≤ tolerance)))
  | notEqual => some (.bool (decide (tolerance < (deviation x y).abs)))
  | less => some (.bool (decide (tolerance < deviation y x)))
  | lessEqual => some (.bool (decide (-tolerance < deviation y x)))
  | greater => some (.bool (decide (tolerance < deviation x y)))
  | greaterEqual => some (.bool (decide (-tolerance < deviation x y)))
  | _ => none

/-- Text with every occurrence of another text taken out. -/
def without (s part : List Char) : Nat → List Char
  | 0 => s
  | fuel + 1 =>
    match s with
    | [] => []
    | c :: r =>
      if !part.isEmpty && part.isPrefixOf s then without (s.drop part.length) part fuel
      else c :: without r part fuel

/-- Two texts; a character counts as a text of length one, and two characters are not subtracted. -/
def onTexts (op : Operator) (s t : String) : Option Value :=
  match op with
  | plus => some (.string (s ++ t))
  | minus => some (.string (String.ofList (without s.toList t.toList (s.length + 1))))
  | _ => if op.isComparison then some (.bool (op.holds (compare s t))) else none

def onBools (op : Operator) (x y : Bool) : Option Value :=
  match op with
  | bitAnd => some (.bool (x && y))
  | bitOr => some (.bool (x || y))
  | bitXor => some (.bool (x != y))
  | _ => if op.isComparison then some (.bool (op.holds (compare x.toNat y.toNat))) else none

/-- What an operator does to operands of the simple types, and how values of different types
compare: they are unequal and in no order. Other operands need a function. -/
def onSimple? (op : Operator) : Value → Value → Option (Except Fault Value)
  | .int x, .int y => some (op.onInts x y)
  | .float x, .float y => (op.onFloats x y).map .ok
  | .int x, .float y => (op.onFloats (Arithmetic.toFloat x) y).map .ok
  | .float x, .int y => (op.onFloats x (Arithmetic.toFloat y)).map .ok
  | .bool x, .bool y => (op.onBools x y).map .ok
  | .char x, .char y =>
    if op = minus then none else (op.onTexts x.toString y.toString).map .ok
  | .string s, .string t => (op.onTexts s t).map .ok
  | .string s, .char c => (op.onTexts s c.toString).map .ok
  | .char c, .string s => if op = minus then none else (op.onTexts c.toString s).map .ok
  | .unit, .unit =>
    if op.isComparison then some (.ok (.bool (op == equal))) else none
  | .range a b c, .range d e f =>
    match op with
    -- only ranges that are both open or both closed can be found equal
    | equal => if c == f then some (.ok (.bool (a == d && b == e))) else none
    | notEqual => some (.ok (.bool (!(a == d && b == e && c == f))))
    | _ => none
  | a, b =>
    if op.isComparison && !a.sameType b then some (.ok (.bool (op == notEqual))) else none

end Operator

end EditorScripting.Script
