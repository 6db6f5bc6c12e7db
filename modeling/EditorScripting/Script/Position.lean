/-!
Places in a source text. Lines and columns count from one, columns in characters.
-/
namespace EditorScripting.Script

structure Position where
  line : Nat
  column : Nat
deriving DecidableEq, Repr, Inhabited

namespace Position

def start : Position := ⟨1, 1⟩

/-- No place at all. -/
def nowhere : Position := ⟨0, 0⟩

/-- The place behind a character. -/
def next (p : Position) (c : Char) : Position :=
  if c = '\n' then ⟨p.line + 1, 1⟩ else ⟨p.line, p.column + 1⟩

def text (p : Position) : String :=
  "line " ++ toString p.line ++ ", position " ++ toString p.column

end Position

/-- A message with its place, where there is one. -/
def located (message : String) : Option Position → String
  | some p => if p = .nowhere then message else message ++ " (" ++ p.text ++ ")"
  | none => message

end EditorScripting.Script
