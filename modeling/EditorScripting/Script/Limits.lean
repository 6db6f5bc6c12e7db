import EditorScripting.Script.Fault

/-!
Bounds on scripts and on the values that they compute. Zero means that there is no bound.
-/
namespace EditorScripting.Script

structure Limits where
  exprDepth : Nat
  callDepth : Nat
  stringSize : Nat
  arraySize : Nat
  mapSize : Nat
deriving Repr

namespace Limits

/-- An amount is above a bound. -/
def exceeds (bound amount : Nat) : Bool := bound != 0 && decide (bound < amount)

/-- The first bound that a size is above: text comes before arrays and arrays before maps. -/
def violation? (l : Limits) (d : DataSize) : Option Fault :=
  if exceeds l.stringSize d.bytes then some (.tooLarge "Length of string")
  else if exceeds l.arraySize d.items then some (.tooLarge "Size of array/BLOB")
  else if exceeds l.mapSize d.entries then some (.tooLarge "Size of object map")
  else none

/-- A value that is within the bounds. -/
def check (l : Limits) (v : Value) : Except Fault Value :=
  match l.violation? v.size with
  | some f => .error f
  | none => .ok v

end Limits

end EditorScripting.Script
