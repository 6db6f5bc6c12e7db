import Mathlib.Data.List.Permutation
import EditorScripting.Proofs.Editor.References

/-!
Editors without garbage. After a collection every object is pinned or a root; in a new editor all
objects are roots, and pins alone do not change that.
-/
namespace EditorScripting.Host.Editor

variable {e : Editor}

/-- Every object is pinned, or it is nil or what the table of symbols refers to. -/
def Tidy (e : Editor) : Prop :=
  ∀ (i : Nat) slot, e.heap.slots[i]? = some slot → slot.value.isSome = true →
    0 < slot.pins ∨ ⟨UInt32.ofNat i, slot.generation⟩ ∈ e.roots

/-- There is no object but nil and what the table of symbols refers to. -/
def Settled (e : Editor) : Prop :=
  ∀ (i : Nat) slot, e.heap.slots[i]? = some slot → slot.value.isSome = true →
    ⟨UInt32.ofNat i, slot.generation⟩ ∈ e.roots

theorem Settled.tidy (h : e.Settled) : e.Tidy := fun i slot hslot hv => .inr (h i slot hslot hv)

theorem tidy_collect (e : Editor) : e.collect.2.Tidy := by
  intro i slot hslot hv
  have hcollect := Heap.getElem?_collect e.heap e.roots i
  rw [show (e.heap.collect e.roots).2.slots[i]? = some slot from hslot] at hcollect
  obtain ⟨old, hold, hkept⟩ := Option.map_eq_some_iff.mp hcollect.symm
  cases hg : Heap.isGarbage e.roots i old with
  | true =>
    rw [if_pos hg] at hkept
    subst hkept
    cases hv
  | false =>
    rw [if_neg (by simp [hg])] at hkept
    subst hkept
    by_cases hp : old.pins = 0
    · right
      by_contra hroot
      have hgarbage := Heap.isGarbage_iff.mpr ⟨hv, hp, hroot⟩
      exact absurd (hg.symm.trans hgarbage) (by simp)
    · left
      omega

theorem settled_modifyPins (h : e.Settled) (g : Handle) (f : Nat → Nat) :
    Settled { e with heap := e.heap.modifyPins g f } := by
  intro i slot hslot hv
  have hpins := Heap.getElem?_modifyPins e.heap g f i
  rw [show (e.heap.modifyPins g f).slots[i]? = some slot from hslot] at hpins
  split at hpins
  · obtain ⟨old, hold, rfl⟩ := Option.map_eq_some_iff.mp hpins.symm
    exact h i old hold hv
  · exact h i slot hpins.symm hv

theorem Settled.pin (h : e.Settled) (g : Handle) : (e.pin g).2.Settled := by
  rw [pin_snd]
  exact settled_modifyPins h g _

theorem Settled.unpin (h : e.Settled) (g : Handle) : (e.unpin g).Settled :=
  settled_modifyPins h g _

theorem settled_ofBuffer (buffer : Buffer) : (ofBuffer buffer).Settled := by
  have hall : (ofBuffer buffer).heap.slots.toList.zipIdx.all (fun (slot, i) =>
      (ofBuffer buffer).roots.contains ⟨UInt32.ofNat i, slot.generation⟩) = true := by
    obtain ⟨text, path, point, mark⟩ := buffer
    cases path with
    | none => cbv
    | some path => cbv
  intro i slot hslot _
  rw [List.all_eq_true] at hall
  have hm : (slot, i) ∈ (ofBuffer buffer).heap.slots.toList.zipIdx := by
    rw [List.mem_zipIdx_iff_getElem?, Array.getElem?_toList]
    exact hslot
  simpa using hall _ hm

end EditorScripting.Host.Editor
