import EditorScripting.Script.Value

/-!
The texts of values. A value on its own is shown bare; inside arrays and maps text is quoted and
unit is visible. How wrapped host values are shown, and what surrounds the printing of an element,
is left open. Plain texts need nobody's help: they quote characters too, and show a wrapped value by
its type.
-/
namespace EditorScripting.Script

open Host

namespace Value

/-- The text of a range. The greatest integer as its end is left out. -/
def rangeText (first last : Int) (closed : Bool) : String :=
  toString first ++ (if closed then "..=" else "..") ++ if last = maxInt then "" else toString last

mutual

/-- The plain text of a value inside an array or a map. -/
def plainInside : Value → String
  | unit => "()"
  | bool b => if b then "true" else "false"
  | int n => toString n
  | float x => Decimal.nestedLayout.format x
  | char c => Text.debugQuotedChar c
  | string s => Text.debugQuoted s
  | array items => "[" ++ ", ".intercalate (plainItems items) ++ "]"
  | map entries => "#\x7b" ++ ", ".intercalate (plainEntries entries) ++ "\x7d"
  | range a b closed => rangeText a b closed
  | letters s => (letters s).typeName
  | object _ => internalWrapperName

def plainItems : List Value → List String
  | [] => []
  | v :: r => plainInside v :: plainItems r

def plainEntries : List (String × Value) → List String
  | [] => []
  | (key, v) :: r => (Text.debugQuoted key ++ ": " ++ plainInside v) :: plainEntries r

end

/-- The plain text of a value on its own. -/
def plainText : Value → String
  | unit => ""
  | float x => Decimal.guestLayout.format x
  | char c => c.toString
  | string s => s
  | v => plainInside v

/-- The plain text that stands in for an element whose own text is not to be had. -/
def substitute : Value → String
  | object h => (object h).typeName
  | v => plainInside v

end Value

/-- How to print what is not plain data, in a monad `m`. -/
structure Printer (m : Type → Type) where
  /-- Prints an element that lies `depth` levels down. -/
  element : Nat → Value → m String → m String
  object : Handle → m String

namespace Printer

/-- The text of such a value inside an array or a map. Characters stay bare. -/
def framed : Value → String
  | .char c => c.toString
  | v => v.plainInside

variable {m : Type → Type} [Monad m]

mutual

/-- The text of an element. Containers are shown alike on their own and inside others. -/
def inside (p : Printer m) (depth : Nat) : Value → m String
  | .array items => do return "[" ++ ", ".intercalate (← itemTexts p (depth + 1) items []) ++ "]"
  | .map entries => do
    return "#\x7b" ++ ", ".intercalate (← entryTexts p (depth + 1) entries []) ++ "\x7d"
  | .object h => p.object h
  | v => pure (framed v)

/-- The items' texts behind those that are done, which are in reverse. -/
def itemTexts (p : Printer m) (depth : Nat) : List Value → List String → m (List String)
  | [], done => pure done.reverse
  | v :: r, done => do
    let text ← p.element depth v (inside p depth v)
    itemTexts p depth r (text :: done)

def entryTexts (p : Printer m) (depth : Nat) :
    List (String × Value) → List String → m (List String)
  | [], done => pure done.reverse
  | (key, v) :: r, done => do
    let text ← p.element depth v (inside p depth v)
    entryTexts p depth r ((Text.debugQuoted key ++ ": " ++ text) :: done)

end

/-- The text of a value on its own. -/
def display (p : Printer m) (depth : Nat) (v : Value) : m String :=
  match v with
  | .array _ | .map _ | .object _ => inside p depth v
  | v => pure v.plainText

end Printer

end EditorScripting.Script
