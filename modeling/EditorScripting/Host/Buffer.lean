/-!
The text being edited, with a point and an optional mark. Positions count characters from one; the
last position lies behind the last character.
-/
namespace EditorScripting.Host

structure Buffer where
  text : String
  path : Option String
  point : Nat
  mark : Option Nat
deriving Repr

namespace Buffer

/-- A new buffer has its point at the start and no mark. -/
def ofText (text : String) (path : Option String) : Buffer := ⟨text, path, 1, none⟩

def size (b : Buffer) : Nat := b.text.length

def pointMin (_ : Buffer) : Nat := 1

def pointMax (b : Buffer) : Nat := b.size + 1

/-- The position nearest to a number. -/
def clamp (b : Buffer) (position : Int) : Nat :=
  (max (b.pointMin : Int) (min position b.pointMax)).toNat

/-- Moves point to the position nearest to a number, and returns it. -/
def gotoChar (b : Buffer) (position : Int) : Nat × Buffer :=
  (b.clamp position, { b with point := b.clamp position })

/-- Sets the mark to the position nearest to a number, and returns it. -/
def setMark (b : Buffer) (position : Int) : Nat × Buffer :=
  (b.clamp position, { b with mark := some (b.clamp position) })

/-- A line ends after a character: after line feed, vertical tab, form feed, next line, line
separator and paragraph separator, and after a carriage return unless a line feed follows. -/
def endsLine (c : Char) (next : Option Char) : Bool :=
  c == '\n' || c == '\x0b' || c == '\x0c' || c == '\u0085' || c == '\u2028' || c == '\u2029' ||
  (c == '\r' && next != some '\n')

/-- The number of line ends among the first `n` characters. -/
def lineEnds : Nat → List Char → Nat
  | n + 1, c :: r => (if endsLine c r.head? then 1 else 0) + lineEnds n r
  | _, _ => 0

/-- The line of a position. The position is read as a signed number before it is brought into the
text, so its upper half counts as negative. -/
def lineNumberAt (b : Buffer) (position : UInt64) : Nat :=
  lineEnds (b.clamp position.toInt64.toInt - 1) b.text.toList + 1

end Buffer

end EditorScripting.Host
