import EditorScripting.Text.Quoted
import EditorScripting.Decimal.Layout

/-!
Host objects and the handles by which the guest names them.
-/
namespace EditorScripting.Host

/-- A handle names a place in the host's heap and one of its successive occupants. It owns nothing:
once its occupant is reclaimed the handle is stale, which its generation shows. -/
structure Handle where
  index : UInt32
  generation : UInt32
deriving DecidableEq, Repr, Inhabited

/-- The printed form of a handle. -/
def Handle.text (h : Handle) : String :=
  "#<object " ++ toString h.index.toNat ++ "." ++ toString h.generation.toNat ++ ">"

/-- What can go wrong in the host. -/
inductive HostError where
  | reclaimed (handle : Handle)
  | notCallable (printed : String)
  | void (name : String)
deriving DecidableEq, Repr

/-- The wording of host errors. -/
def HostError.message : HostError → String
  | .reclaimed h => "object " ++ h.text ++ " has been reclaimed"
  | .notCallable printed => "invalid function: " ++ printed
  | .void name => "symbol's function definition is void: " ++ name

/-- The functions that the host itself provides; none takes an argument. -/
inductive Primitive where
  | point
  | pointMin
  | pointMax
  | bufferSize
  | bufferString
  | mark
  | lineNumberAtPos
deriving DecidableEq, Repr

namespace Primitive

/-- All primitives, in the order in which a new editor creates them. -/
def all : List Primitive :=
  [point, pointMin, pointMax, bufferSize, bufferString, mark, lineNumberAtPos]

/-- The symbol that calls the primitive. -/
def name : Primitive → String
  | point => "point"
  | pointMin => "point-min"
  | pointMax => "point-max"
  | bufferSize => "buffer-size"
  | bufferString => "buffer-string"
  | mark => "mark"
  | lineNumberAtPos => "line-number-at-pos"

end Primitive

/-- A value in the host's heap. -/
inductive Object where
  | nil
  | t
  | integer (n : Int)
  | float (x : Float)
  | string (text : String)
  | symbol (name : String)
  | marker (position : Option Nat)
  | primitive (p : Primitive)
deriving Repr, Inhabited

namespace Object

/-- The host's name for the type; nil and t are symbols. -/
def typeName : Object → String
  | nil | t | symbol _ => "symbol"
  | integer _ => "integer"
  | float _ => "float"
  | string _ => "string"
  | marker _ => "marker"
  | primitive _ => "subr"

/-- The name of a symbol. -/
def symbolName? : Object → Option String
  | nil => some "nil"
  | t => some "t"
  | symbol name => some name
  | _ => none

/-- The form that the host's reader would read. -/
def printed : Object → String
  | nil => "nil"
  | t => "t"
  | integer n => toString n
  | float x => Decimal.hostText x
  | string text => String.ofList (Text.readable text.toList)
  | symbol name => name
  | marker (some position) => "#<marker at " ++ toString position ++ ">"
  | marker none => "#<marker in no buffer>"
  | primitive p => "#<subr " ++ p.name ++ ">"

/-- Equality of values. It is that of numbers on floats, so a value that is not a number differs
from itself. -/
def equals : Object → Object → Bool
  | nil, nil | t, t => true
  | integer m, integer n => m == n
  | float x, float y => x == y
  | string s, string u => s == u
  | symbol s, symbol u => s == u
  | marker p, marker q => p == q
  | primitive p, primitive q => p == q
  | _, _ => false

end Object

end EditorScripting.Host
