import Std.Data.TreeMap
import EditorScripting.Host.Object

/-!
The host's table of global symbols. An interned name has a symbol object and up to two cells, one
for a value and one for a function. The entries stand in the order of interning, and an index maps
each name to the position of its entry.
-/
namespace EditorScripting.Host

/-- What is kept for an interned name. -/
structure Cell where
  symbol : Handle
  value : Option Handle
  function : Option Handle
deriving DecidableEq, Repr, Inhabited

structure Obarray where
  entries : Array (String × Cell)
  index : Std.TreeMap String Nat

namespace Obarray

def empty : Obarray := ⟨#[], ∅⟩

/-- The cells of a name, found through the index. -/
def get? (table : Obarray) (name : String) : Option Cell :=
  table.index[name]?.bind fun i => table.entries[i]?.map (·.2)

/-- Changes the cells of a name, if it is interned. -/
def modify (table : Obarray) (name : String) (f : Cell → Cell) : Obarray :=
  match table.index[name]? with
  | some i => { table with entries := table.entries.modify i fun e => (e.1, f e.2) }
  | none => table

/-- Adds a name that is not interned yet, with empty cells. -/
def insert (table : Obarray) (name : String) (symbol : Handle) : Obarray :=
  { entries := table.entries.push (name, ⟨symbol, none, none⟩)
    index := table.index.insert name table.entries.size }

/-- Removes a name and returns its cells. The entries after it move up, and the index follows. -/
def remove (table : Obarray) (name : String) : Option Cell × Obarray :=
  match table.index[name]? with
  | some i =>
    (table.entries[i]?.map (·.2),
      { entries := table.entries.eraseIdxIfInBounds i
        index := (table.index.erase name).map fun _ j => if i < j then j - 1 else j })
  | none => (none, table)

/-- Names and cells in the order of interning. -/
def toList (table : Obarray) : List (String × Cell) := table.entries.toList

def size (table : Obarray) : Nat := table.entries.size

end Obarray

end EditorScripting.Host
