import EditorScripting.Failure

/-!
A bounded stream of failed operations. When it is full, a new entry pushes out the oldest one.
-/
namespace EditorScripting

/-- One failed operation. -/
structure Diagnostic where
  operation : String
  detail : String
deriving DecidableEq, Repr, Inhabited

/-- The entries, oldest first, and how many may be kept. -/
structure Diagnostics where
  entries : List Diagnostic
  capacity : Nat
deriving Repr

namespace Diagnostics

/-- An empty stream; it keeps at least one entry. -/
def empty (capacity : Nat) : Diagnostics := ⟨[], max capacity 1⟩

def record (d : Diagnostics) (entry : Diagnostic) : Diagnostics :=
  let kept := if d.entries.length = d.capacity then d.entries.tail else d.entries
  { d with entries := kept ++ [entry] }

/-- Files a failure under its own label. -/
def recordFailure (d : Diagnostics) (f : Failure) : Diagnostics :=
  d.record ⟨f.operation, f.message⟩

/-- Takes all entries out. -/
def drain (d : Diagnostics) : List Diagnostic × Diagnostics := (d.entries, { d with entries := [] })

def isEmpty (d : Diagnostics) : Bool := d.entries.isEmpty

end Diagnostics

end EditorScripting
