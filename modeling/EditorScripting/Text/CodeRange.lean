/-!
Sets of characters as ranges of codes.
-/
namespace EditorScripting.Text

/-- Whether a code lies in one of some ranges, both ends included, that are in ascending order. -/
def inRanges (code : Nat) : List (Nat × Nat) → Bool
  | [] => false
  | (first, last) :: r => first ≤ code && (code ≤ last || inRanges code r)

end EditorScripting.Text
