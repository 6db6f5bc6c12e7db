import Mathlib.Data.List.Induction
import EditorScripting.Host.Buffer

/-!
Moves of point and of the mark. A move goes to the position of the text that is nearest to a number
and changes nothing else, so after any moves point and mark are in the text, and a mark that was set
is still set.
-/
namespace EditorScripting.Host.Buffer

/-- The position of the text that is meant by a number: the number itself in the text, and otherwise
the end that is nearer to it. -/
structure Nearest (b : Buffer) (n : Int) (position : Nat) : Prop where
  inside : b.pointMin ≤ n → n ≤ b.pointMax → (position : Int) = n
  before : n < b.pointMin → position = b.pointMin
  behind : b.pointMax < n → position = b.pointMax

/-- Point is in the text, and so is the mark if it is set. -/
structure Placed (b : Buffer) : Prop where
  point : 1 ≤ b.point ∧ b.point ≤ b.size + 1
  mark : ∀ position, b.mark = some position → 1 ≤ position ∧ position ≤ b.size + 1

/-- Point has gone to the position that is meant by a number, which is the answer. Nothing else has
changed. -/
def WentTo (b : Buffer) (n answer : Int) (b' : Buffer) : Prop :=
  ∃ position : Nat, b.Nearest n position ∧ answer = position ∧ b' = { b with point := position }

/-- The mark has been set to the position that is meant by a number, which is the answer. Nothing
else has changed. -/
def MarkedAt (b : Buffer) (n answer : Int) (b' : Buffer) : Prop :=
  ∃ position : Nat, b.Nearest n position ∧ answer = position ∧
    b' = { b with mark := some position }

/-- What can happen to a buffer. -/
inductive Move where
  | point (n : Int)
  | mark (n : Int)

def Move.apply (b : Buffer) : Move → Buffer
  | point n => (b.gotoChar n).2
  | mark n => (b.setMark n).2

/-- The first buffer becomes the second one by moves. -/
def Leads (b b' : Buffer) : Prop := ∃ moves : List Move, b' = moves.foldl Move.apply b

variable {b b' b'' : Buffer}

theorem nearest_clamp (b : Buffer) (n : Int) : b.Nearest n (b.clamp n) := by
  have hends : b.pointMin ≤ b.pointMax := Nat.le_add_left 1 b.size
  unfold clamp
  constructor <;> omega

theorem clamp_bounds (b : Buffer) (n : Int) : 1 ≤ b.clamp n ∧ b.clamp n ≤ b.size + 1 := by
  unfold clamp pointMin pointMax
  omega

theorem wentTo_gotoChar (b : Buffer) (n : Int) : b.WentTo n (b.gotoChar n).1 (b.gotoChar n).2 :=
  ⟨b.clamp n, b.nearest_clamp n, rfl, rfl⟩

theorem markedAt_setMark (b : Buffer) (n : Int) : b.MarkedAt n (b.setMark n).1 (b.setMark n).2 :=
  ⟨b.clamp n, b.nearest_clamp n, rfl, rfl⟩

/-- Point of a new buffer is at its start. -/
theorem placed_ofText (text : String) (path : Option String) : (ofText text path).Placed :=
  ⟨⟨Nat.le_refl 1, Nat.le_add_left 1 _⟩, nofun⟩

theorem Placed.apply (hb : b.Placed) (m : Move) : (m.apply b).Placed := by
  cases m with
  | point n => exact ⟨b.clamp_bounds n, hb.mark⟩
  | mark n =>
    refine ⟨hb.point, fun position hm => ?_⟩
    rw [← Option.some.inj hm]
    exact b.clamp_bounds n

theorem Move.text (m : Move) (b : Buffer) : (m.apply b).text = b.text := by
  cases m <;> rfl

theorem Move.path (m : Move) (b : Buffer) : (m.apply b).path = b.path := by
  cases m <;> rfl

theorem Move.mark_isSome (m : Move) (hm : b.mark.isSome) : (m.apply b).mark.isSome := by
  cases m with
  | point n => exact hm
  | mark n => rfl

namespace Leads

theorem refl (b : Buffer) : b.Leads b := ⟨[], rfl⟩

theorem of_eq (h : b' = b) : b.Leads b' := ⟨[], h⟩

theorem trans (h : b.Leads b') (h' : b'.Leads b'') : b.Leads b'' := by
  obtain ⟨moves, rfl⟩ := h
  obtain ⟨more, rfl⟩ := h'
  exact ⟨moves ++ more, List.foldl_append.symm⟩

theorem gotoChar (b : Buffer) (n : Int) : b.Leads (b.gotoChar n).2 := ⟨[.point n], rfl⟩

theorem setMark (b : Buffer) (n : Int) : b.Leads (b.setMark n).2 := ⟨[.mark n], rfl⟩

/-- What one move preserves, moves preserve. -/
theorem keeps {I : Buffer → Prop} (hI : ∀ m b, I b → I (Move.apply b m)) (h : b.Leads b')
    (hb : I b) : I b' := by
  obtain ⟨moves, rfl⟩ := h
  induction moves using List.reverseRecOn with
  | nil => exact hb
  | append_singleton moves m ih =>
    rw [List.foldl_append]
    exact hI m _ ih

theorem placed (h : b.Leads b') (hb : b.Placed) : b'.Placed :=
  h.keeps (fun m _ hb => hb.apply m) hb

theorem text (h : b.Leads b') : b'.text = b.text :=
  h.keeps (I := fun c => c.text = b.text) (fun m c hc => (m.text c).trans hc) rfl

theorem path (h : b.Leads b') : b'.path = b.path :=
  h.keeps (I := fun c => c.path = b.path) (fun m c hc => (m.path c).trans hc) rfl

theorem mark_isSome (h : b.Leads b') (hm : b.mark.isSome) : b'.mark.isSome :=
  h.keeps (I := fun c => c.mark.isSome = true) (fun m _ hc => m.mark_isSome hc) hm

end Leads

end EditorScripting.Host.Buffer
