import EditorScripting.Decimal.Layout
import EditorScripting.Host.Object
import EditorScripting.Text.Quoted

/-!
Values of guest expressions. Integers are meant to have 64 bits with sign; the operations check
their results. The entries of a map are kept in the order of their keys.
-/
namespace EditorScripting.Script

open Host

inductive Value where
  | unit
  | bool (b : Bool)
  | int (n : Int)
  | float (x : Float)
  | char (c : Char)
  | string (s : String)
  | array (items : List Value)
  | map (entries : List (String × Value))
  /-- Integers from `first` up to `last`, which belongs to a closed range only. -/
  | range (first last : Int) (closed : Bool)
  /-- The characters of a text, to be looped over. -/
  | letters (s : String)
  /-- A wrapped host value. -/
  | object (handle : Handle)
deriving Inhabited, Repr

namespace Value

/-- The name of a value's type as the guest sees it. -/
def typeName : Value → String
  | unit => "()"
  | bool _ => "bool"
  | int _ => "i64"
  | float _ => "f64"
  | char _ => "char"
  | string _ => "string"
  | array _ => "array"
  | map _ => "map"
  | range _ _ false => "range"
  | range _ _ true => "range="
  | letters _ => "range"
  | object _ => "LispObject"

/-- The name under which the wrapper of host values is known to the evaluator itself. -/
def internalWrapperName : String := "lisp_bridge::scripting::wrapper::LispObject"

/-- The name of a value's type in the report of a wrong type. Types that the language does not have
by itself go by their internal names. -/
def internalName : Value → String
  | range _ _ false => "core::ops::range::Range<i64>"
  | range _ _ true => "core::ops::range::RangeInclusive<i64>"
  | object _ => internalWrapperName
  | v => v.typeName

/-- The name of a value's type in the signature of a function that does not exist. -/
def signatureName : Value → String
  | string _ => "&str | ImmutableString | String"
  | v => v.typeName

/-- Two values of one type. -/
def sameType (a b : Value) : Bool := a.typeName == b.typeName

mutual

/-- The wrappers inside a value, one entry for each place where one stands. -/
def handles : Value → List Handle
  | object h => [h]
  | array items => handlesOfItems items
  | map entries => handlesOfEntries entries
  | _ => []

def handlesOfItems : List Value → List Handle
  | [] => []
  | v :: r => handles v ++ handlesOfItems r

def handlesOfEntries : List (String × Value) → List Handle
  | [] => []
  | (_, v) :: r => handles v ++ handlesOfEntries r

end

end Value

/-- The amounts that size limits are about. -/
structure DataSize where
  /-- Items of arrays. -/
  items : Nat
  /-- Entries of maps. -/
  entries : Nat
  /-- Bytes of text. -/
  bytes : Nat
deriving DecidableEq, Repr, Inhabited

namespace DataSize

instance : Add DataSize :=
  ⟨fun a b => ⟨a.items + b.items, a.entries + b.entries, a.bytes + b.bytes⟩⟩

def zero : DataSize := ⟨0, 0, 0⟩

end DataSize

namespace Value

mutual

/-- The size of a value with all that is inside it. -/
def size : Value → DataSize
  | string s => ⟨0, 0, s.utf8ByteSize⟩
  | array items => sizeOfItems items
  | map entries => sizeOfEntries entries
  | _ => DataSize.zero

def sizeOfItems : List Value → DataSize
  | [] => DataSize.zero
  | v :: r => ⟨1, 0, 0⟩ + size v + sizeOfItems r

def sizeOfEntries : List (String × Value) → DataSize
  | [] => DataSize.zero
  | (_, v) :: r => ⟨0, 1, 0⟩ + size v + sizeOfEntries r

end

/-- The entry of a key. -/
def lookup (key : String) : List (String × Value) → Option Value
  | [] => none
  | (k, v) :: r => if k = key then some v else lookup key r

/-- Puts an entry at its place in the order of keys; an entry of the same key is replaced where it
stands. -/
def insertEntry (key : String) (value : Value) : List (String × Value) → List (String × Value)
  | [] => [(key, value)]
  | (k, v) :: r =>
    if k = key then (key, value) :: r
    else if key < k ∧ (lookup key r).isNone then (key, value) :: (k, v) :: r
    else (k, v) :: insertEntry key value r

end Value

/-- The greatest and the least integer. -/
def maxInt : Int := 9223372036854775807

def minInt : Int := -9223372036854775808

/-- The integer, if 64 bits hold it. -/
def checkInt? (n : Int) : Option Int := if minInt ≤ n ∧ n ≤ maxInt then some n else none

/-- The integer that has the lowest 64 bits of a number. -/
def wrapInt (n : Int) : Int := n.bmod (Nat.pow 2 64)

end EditorScripting.Script
