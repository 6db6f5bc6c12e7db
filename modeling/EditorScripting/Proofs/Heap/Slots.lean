import Mathlib.Data.List.Nodup
import EditorScripting.Host.Heap

/-!
What each operation of the heap does to the slot that a handle names. The free list of a sound heap
holds exactly the empty slots, so an allocation never touches a slot in use; while every slot has an
index of its own, a collection empties exactly what is neither pinned nor among the roots.
-/
namespace EditorScripting.Host.Heap

variable {α : Type}

/-- Every slot has an index of its own. -/
def Fits (heap : Heap α) : Prop := heap.slots.size ≤ UInt32.size

/-- The free list holds the empty slots, each once, and empty slots have no pins. -/
structure Sound (heap : Heap α) : Prop where
  free_nodup : heap.free.Nodup
  mem_free_iff : ∀ i : UInt32,
    i ∈ heap.free ↔ ∃ s, heap.slots[i.toNat]? = some s ∧ s.value = none
  pins_empty : ∀ (i : Nat) (s : Slot α), heap.slots[i]? = some s → s.value = none → s.pins = 0

theorem sound_empty : (empty : Heap α).Sound where
  free_nodup := List.nodup_nil
  mem_free_iff i := by simp [empty]
  pins_empty i s h := by simp [empty] at h

theorem slot?_eq_some_iff {heap : Heap α} {h : Handle} {s : Slot α} :
    heap.slot? h = some s ↔
      heap.slots[h.index.toNat]? = some s ∧ s.generation = h.generation ∧
        s.value.isSome = true := by
  simp [slot?, Option.filter_eq_some_iff]

theorem slot?_of_getElem? {heap : Heap α} {h : Handle} {s : Slot α}
    (he : heap.slots[h.index.toNat]? = some s) :
    heap.slot? h =
      if s.generation = h.generation ∧ s.value.isSome = true then some s else none := by
  simp [slot?, he, Option.filter_some]

theorem slot?_congr {heap heap' : Heap α} {h : Handle}
    (he : heap'.slots[h.index.toNat]? = heap.slots[h.index.toNat]?) :
    heap'.slot? h = heap.slot? h := by
  simp [slot?, he]

/-- Two handles with one index and live occupants are one handle. -/
theorem generation_of_slot? {heap : Heap α} {g h : Handle} {s : Slot α}
    (hs : heap.slot? h = some s) (hi : g.index = h.index) (hne : g ≠ h) :
    heap.slot? g = none := by
  rw [Option.eq_none_iff_forall_ne_some]
  intro t ht
  obtain ⟨he, hgen, -⟩ := slot?_eq_some_iff.mp hs
  obtain ⟨he', hgen', -⟩ := slot?_eq_some_iff.mp ht
  rw [hi, he] at he'
  obtain rfl := Option.some.inj he'
  have hg : g.generation = h.generation := hgen'.symm.trans hgen
  cases g
  cases h
  simp_all

theorem isLive_iff {heap : Heap α} {h : Handle} :
    heap.isLive h = true ↔ ∃ s, heap.slot? h = some s := by
  simp [isLive, Option.isSome_iff_exists]

theorem isLive_eq_false_iff {heap : Heap α} {h : Handle} :
    heap.isLive h = false ↔ heap.slot? h = none := by
  simp [isLive]

theorem pinCount_of_slot? {heap : Heap α} {h : Handle} {s : Slot α} (hs : heap.slot? h = some s) :
    heap.pinCount h = s.pins := by
  simp [pinCount, hs]

theorem pinCount_of_not_live {heap : Heap α} {h : Handle} (hs : heap.slot? h = none) :
    heap.pinCount h = 0 := by
  simp [pinCount, hs]

theorem isLive_of_pinCount_pos {heap : Heap α} {h : Handle} (hp : 0 < heap.pinCount h) :
    heap.isLive h = true := by
  by_contra hl
  rw [pinCount_of_not_live (isLive_eq_false_iff.mp (by simpa using hl))] at hp
  omega

theorem get_of_live {heap : Heap α} {h : Handle} (hl : heap.isLive h = true) :
    ∃ v, heap.get h = .ok v := by
  obtain ⟨s, hs⟩ := isLive_iff.mp hl
  obtain ⟨v, hv⟩ := Option.isSome_iff_exists.mp (slot?_eq_some_iff.mp hs).2.2
  exact ⟨v, by simp [get, get?, hs, hv]⟩

theorem get_of_slot? {heap : Heap α} {h : Handle} {s : Slot α} {v : α}
    (hs : heap.slot? h = some s) (hv : s.value = some v) : heap.get h = .ok v := by
  simp [get, get?, hs, hv]

theorem get_of_not_live {heap : Heap α} {h : Handle} (hs : heap.slot? h = none) :
    heap.get h = .error (.reclaimed h) := by
  simp [get, get?, hs]

/-! Allocation. -/

theorem alloc_reuse {heap : Heap α} {index : UInt32} {free : List UInt32} {s : Slot α}
    (hf : heap.free = index :: free) (hs : heap.slots[index.toNat]? = some s) (v : α) :
    heap.alloc v = (⟨index, s.generation + 1⟩,
      { slots := heap.slots.setIfInBounds index.toNat ⟨s.generation + 1, some v, 0⟩
        free := free }) := by
  simp [alloc, hf, hs]

theorem alloc_grow {heap : Heap α} (hf : heap.free = []) (v : α) :
    heap.alloc v = (⟨UInt32.ofNat heap.slots.size, 0⟩,
      { heap with slots := heap.slots.push ⟨0, some v, 0⟩ }) := by
  simp [alloc, hf]

/-- The slot that a sound heap reuses is empty. -/
theorem Sound.free_slot {heap : Heap α} (hs : heap.Sound) {index : UInt32} {free : List UInt32}
    (hf : heap.free = index :: free) :
    ∃ s, heap.slots[index.toNat]? = some s ∧ s.value = none :=
  (hs.mem_free_iff index).mp (by simp [hf])

theorem size_alloc {heap : Heap α} (v : α) : heap.slots.size ≤ (heap.alloc v).2.slots.size := by
  unfold alloc
  split <;> simp

/-- In a heap that stays within its indices, a slot behind all others gets the next index. -/
theorem toNat_size_of_push {heap : Heap α} {s : Slot α}
    (hf : Fits { heap with slots := heap.slots.push s }) :
    (UInt32.ofNat heap.slots.size).toNat = heap.slots.size := by
  simp only [Fits, Array.size_push] at hf
  exact UInt32.toNat_ofNat_of_lt' (Nat.lt_of_succ_le hf)

/-- The handle of a new object was stale before. -/
theorem slot?_alloc_fresh {heap : Heap α} (hs : heap.Sound) {v : α}
    (hf : (heap.alloc v).2.Fits) : heap.slot? (heap.alloc v).1 = none := by
  cases hfree : heap.free with
  | nil =>
    rw [alloc_grow hfree] at hf ⊢
    have hi := toNat_size_of_push hf
    simp [slot?, hi]
  | cons index free =>
    obtain ⟨s, he, hv⟩ := hs.free_slot hfree
    rw [alloc_reuse hfree he]
    simp [slot?, he, hv]

/-- A new object is in a slot of its own, without pins, and all other objects stay as they are. -/
theorem slot?_alloc {heap : Heap α} (hs : heap.Sound) {v : α} (hf : (heap.alloc v).2.Fits)
    (h : Handle) :
    (heap.alloc v).2.slot? h =
      if h = (heap.alloc v).1 then some ⟨h.generation, some v, 0⟩ else heap.slot? h := by
  cases hfree : heap.free with
  | nil =>
    rw [alloc_grow hfree] at hf ⊢
    have hi := toNat_size_of_push hf
    split
    · rename_i he
      subst he
      simp [slot?, hi]
    · rename_i hne
      by_cases hx : h.index.toNat = heap.slots.size
      · have hg : ¬ (0 : UInt32) = h.generation := by
          intro hg
          apply hne
          cases h
          simp only [Handle.mk.injEq]
          exact ⟨UInt32.toNat_inj.mp (hx.trans hi.symm), hg.symm⟩
        simp [slot?, hx, hg]
      · exact slot?_congr (by simp [Array.getElem?_push, hx])
  | cons index free =>
    obtain ⟨s, he, hv⟩ := hs.free_slot hfree
    have hlt : index.toNat < heap.slots.size := (Array.getElem?_eq_some_iff.mp he).1
    rw [alloc_reuse hfree he]
    split
    · rename_i heq
      subst heq
      simp [slot?, hlt]
    · rename_i hne
      by_cases hx : h.index = index
      · subst hx
        have hg : ¬ s.generation + 1 = h.generation := by
          intro hg
          exact hne (by rw [hg])
        rw [slot?_of_getElem? (Array.getElem?_setIfInBounds_self_of_lt hlt), slot?_of_getElem? he]
        simp [hv, hg]
      · have hx' : index.toNat ≠ h.index.toNat := fun hn => hx (UInt32.toNat_inj.mp hn).symm
        exact slot?_congr (by simp [hx'])

theorem Sound.alloc {heap : Heap α} (hs : heap.Sound) (v : α) : (heap.alloc v).2.Sound := by
  cases hfree : heap.free with
  | nil =>
    rw [alloc_grow hfree]
    refine ⟨hs.free_nodup, ?_, ?_⟩
    · intro i
      rw [hs.mem_free_iff]
      refine exists_congr fun s => and_congr_left fun hv => ?_
      rw [Array.getElem?_push]
      split
      · rename_i hi
        simp only [hi, Array.getElem?_size, reduceCtorEq, Option.some.injEq, false_iff]
        rintro rfl
        cases hv
      · rfl
    · intro i s he hv
      rw [Array.getElem?_push] at he
      split at he
      · rw [← Option.some.inj he]
      · exact hs.pins_empty i s he hv
  | cons index free =>
    obtain ⟨s, he, -⟩ := hs.free_slot hfree
    have hlt : index.toNat < heap.slots.size := (Array.getElem?_eq_some_iff.mp he).1
    have hn := hs.free_nodup
    rw [hfree, List.nodup_cons] at hn
    rw [alloc_reuse hfree he]
    refine ⟨hn.2, ?_, ?_⟩
    · intro i
      by_cases hx : i = index
      · subst hx
        simp [hlt, hn.1]
      · have hx' : index.toNat ≠ i.toNat := fun hn => hx (UInt32.toNat_inj.mp hn).symm
        have hm := hs.mem_free_iff i
        rw [hfree, List.mem_cons] at hm
        simpa [Array.getElem?_setIfInBounds, hx', hx] using hm
    · intro i t ht hv
      rw [Array.getElem?_setIfInBounds] at ht
      split at ht
      · rw [← Option.some.inj ht]
      · exact hs.pins_empty i t ht hv

/-! Pins. -/

theorem size_modifyPins (heap : Heap α) (h : Handle) (f : Nat → Nat) :
    (heap.modifyPins h f).slots.size = heap.slots.size := by
  unfold modifyPins
  split <;> simp

theorem modifyPins_of_not_live {heap : Heap α} {h : Handle} (hs : heap.slot? h = none)
    (f : Nat → Nat) : heap.modifyPins h f = heap := by
  simp [modifyPins, isLive_eq_false_iff.mpr hs]

/-- Pins of a live object change, and nothing else does. -/
theorem slot?_modifyPins (heap : Heap α) (h g : Handle) (f : Nat → Nat) :
    (heap.modifyPins h f).slot? g =
      if g = h then (heap.slot? h).map fun s => { s with pins := f s.pins } else heap.slot? g := by
  cases hs : heap.slot? h with
  | none =>
    rw [modifyPins_of_not_live hs]
    split
    · rename_i he
      simp [he, hs]
    · rfl
  | some s =>
    obtain ⟨he, hgen, hv⟩ := slot?_eq_some_iff.mp hs
    have hl : heap.isLive h = true := isLive_iff.mpr ⟨s, hs⟩
    rw [modifyPins, if_pos hl]
    split
    · rename_i hg
      subst hg
      rw [Option.map_some, slot?_eq_some_iff]
      simp [Array.getElem?_modify, he, hgen, hv]
    · rename_i hne
      by_cases hi : g.index = h.index
      · rw [generation_of_slot? hs hi hne, Option.eq_none_iff_forall_ne_some]
        intro t ht
        obtain ⟨ht, htg, -⟩ := slot?_eq_some_iff.mp ht
        simp only [hi, Array.getElem?_modify, he, if_true, Option.map_some, Option.some.injEq] at ht
        rw [← ht] at htg
        exact hne (by cases g; cases h; simp_all)
      · have hx : h.index.toNat ≠ g.index.toNat := fun hn => hi (UInt32.toNat_inj.mp hn).symm
        exact slot?_congr (by simp [Array.getElem?_modify, hx])

theorem Sound.modifyPins {heap : Heap α} (hs : heap.Sound) (h : Handle) (f : Nat → Nat) :
    (heap.modifyPins h f).Sound := by
  by_cases hl : heap.isLive h = true
  · obtain ⟨s, hslot⟩ := isLive_iff.mp hl
    obtain ⟨he, -, hv⟩ := slot?_eq_some_iff.mp hslot
    rw [Heap.modifyPins, if_pos hl]
    refine ⟨hs.free_nodup, ?_, ?_⟩
    · intro i
      rw [hs.mem_free_iff, Array.getElem?_modify]
      split
      · cases heap.slots[i.toNat]? <;> simp
      · rfl
    · intro i t ht hn
      rw [Array.getElem?_modify] at ht
      split at ht
      · rename_i hi
        rw [← hi, he, Option.map_some] at ht
        rw [← Option.some.inj ht] at hn
        have hn : s.value = none := hn
        simp [hn] at hv
      · exact hs.pins_empty i t ht hn
  · rw [modifyPins_of_not_live (isLive_eq_false_iff.mp (by simpa using hl))]
    exact hs

theorem pin_of_live {heap : Heap α} {h : Handle} (hl : heap.isLive h = true) :
    heap.pin h = (.ok (), heap.modifyPins h (· + 1)) := by
  simp [pin, hl]

theorem pin_of_not_live {heap : Heap α} {h : Handle} (hs : heap.slot? h = none) :
    heap.pin h = (.error (.reclaimed h), heap) := by
  simp [pin, isLive_eq_false_iff.mpr hs]

theorem unpin_of_not_live {heap : Heap α} {h : Handle} (hs : heap.slot? h = none) :
    heap.unpin h = heap :=
  modifyPins_of_not_live hs _

/-- Pinning a stale handle changes nothing, so in either case pins are all that changes. -/
theorem pin_snd (heap : Heap α) (h : Handle) : (heap.pin h).2 = heap.modifyPins h (· + 1) := by
  cases hs : heap.slot? h with
  | none => rw [pin_of_not_live hs, modifyPins_of_not_live hs]
  | some s => rw [pin_of_live (isLive_iff.mpr ⟨s, hs⟩)]

/-! Collection. -/

theorem size_collect (heap : Heap α) (roots : List Handle) :
    (heap.collect roots).2.slots.size = heap.slots.size := by
  simp [collect]

theorem isGarbage_iff {roots : List Handle} {i : Nat} {s : Slot α} :
    isGarbage roots i s = true ↔
      s.value.isSome = true ∧ s.pins = 0 ∧ ⟨UInt32.ofNat i, s.generation⟩ ∉ roots := by
  simp [isGarbage, and_assoc]

theorem getElem?_collect (heap : Heap α) (roots : List Handle) (i : Nat) :
    (heap.collect roots).2.slots[i]? =
      heap.slots[i]?.map fun s => if isGarbage roots i s then { s with value := none } else s := by
  simp [collect]

/-- A collection keeps what is pinned or among the roots as it is, and makes all else stale. -/
theorem slot?_collect (heap : Heap α) (roots : List Handle) (h : Handle) :
    (heap.collect roots).2.slot? h =
      (heap.slot? h).filter fun s => s.pins != 0 || roots.contains h := by
  have he' := getElem?_collect heap roots h.index.toNat
  cases he : heap.slots[h.index.toNat]? with
  | none => simp [slot?, he, he']
  | some s =>
    rw [he, Option.map_some] at he'
    rw [slot?_of_getElem? he, slot?_of_getElem? he']
    by_cases hgen : s.generation = h.generation
    · have hname : (⟨UInt32.ofNat h.index.toNat, s.generation⟩ : Handle) = h := by
        rw [UInt32.ofNat_toNat, hgen]
      by_cases hv : s.value.isSome = true
      · by_cases hk : s.pins = 0 ∧ h ∉ roots
        · have hg := isGarbage_iff.mpr ⟨hv, hk.1, hname.symm ▸ hk.2⟩
          simp [hg, hgen, hv, Option.filter_some, hk.1, hk.2]
        · have hg : isGarbage roots h.index.toNat s = false := by
            rw [Bool.eq_false_iff, Ne, isGarbage_iff, hname]
            exact fun hg => hk hg.2
          have hk' : s.pins = 0 → h ∈ roots := fun hp => by_contra fun hr => hk ⟨hp, hr⟩
          simpa [hg, hgen, hv, Option.filter_some, ← imp_iff_not_or] using hk'
      · have hg : isGarbage roots h.index.toNat s = false := by simp [isGarbage, hv]
        simp [hg, hv]
    · cases isGarbage roots h.index.toNat s <;> simp [hgen]

/-- Indices that are chosen by what stands in their slots. -/
theorem mem_filter_slots_iff {heap : Heap α} {p : Nat → Slot α → Bool} {i : Nat} :
    i ∈ (List.range heap.slots.size).filter (fun i => heap.slots[i]?.any (p i)) ↔
      ∃ s, heap.slots[i]? = some s ∧ p i s = true := by
  simp only [List.mem_filter, List.mem_range, Option.any_eq_true]
  constructor
  · exact fun h => h.2
  · rintro ⟨s, he, hg⟩
    exact ⟨(Array.getElem?_eq_some_iff.mp he).1, s, he, hg⟩

theorem mem_garbage_iff {heap : Heap α} {roots : List Handle} {i : Nat} :
    i ∈ heap.garbage roots ↔ ∃ s, heap.slots[i]? = some s ∧ isGarbage roots i s = true :=
  mem_filter_slots_iff

theorem nodup_garbage (heap : Heap α) (roots : List Handle) : (heap.garbage roots).Nodup :=
  List.nodup_range.filter _

/-- The indices of emptied slots do not clash while every slot has an index of its own. -/
theorem toNat_of_mem_garbage {heap : Heap α} (hf : heap.Fits) {roots : List Handle} {i : Nat}
    (hi : i ∈ heap.garbage roots) : (UInt32.ofNat i).toNat = i := by
  obtain ⟨s, he, -⟩ := mem_garbage_iff.mp hi
  have hlt : i < heap.slots.size := (Array.getElem?_eq_some_iff.mp he).1
  exact UInt32.toNat_ofNat_of_lt' (Nat.lt_of_lt_of_le hlt hf)

theorem mem_map_garbage_iff {heap : Heap α} (hf : heap.Fits) {roots : List Handle} {i : UInt32} :
    i ∈ (heap.garbage roots).map UInt32.ofNat ↔ i.toNat ∈ heap.garbage roots := by
  rw [List.mem_map]
  constructor
  · rintro ⟨j, hj, rfl⟩
    rwa [toNat_of_mem_garbage hf hj]
  · intro h
    exact ⟨i.toNat, h, UInt32.ofNat_toNat⟩

/-- A collection leaves a sound heap. -/
theorem Sound.collect {heap : Heap α} (hs : heap.Sound) (hf : heap.Fits) (roots : List Handle) :
    (heap.collect roots).2.Sound := by
  have hfree : (heap.collect roots).2.free =
      ((heap.garbage roots).map UInt32.ofNat).reverse ++ heap.free := rfl
  refine ⟨?_, ?_, ?_⟩
  · rw [hfree]
    refine List.Nodup.append (List.nodup_reverse.mpr ?_) hs.free_nodup ?_
    · refine (nodup_garbage heap roots).map_on fun i hi j hj he => ?_
      rw [← toNat_of_mem_garbage hf hi, he, toNat_of_mem_garbage hf hj]
    · intro i hi hi'
      rw [List.mem_reverse, mem_map_garbage_iff hf, mem_garbage_iff] at hi
      obtain ⟨s, he, hg⟩ := hi
      obtain ⟨t, ht, hv⟩ := (hs.mem_free_iff i).mp hi'
      rw [he] at ht
      obtain rfl := Option.some.inj ht
      simp [isGarbage_iff, hv] at hg
  · intro i
    rw [hfree, List.mem_append, List.mem_reverse, mem_map_garbage_iff hf, mem_garbage_iff,
      hs.mem_free_iff, getElem?_collect]
    cases he : heap.slots[i.toNat]? with
    | none => simp
    | some s =>
      cases hg : isGarbage roots i.toNat s <;> simp [hg]
  · intro i s he hv
    rw [getElem?_collect] at he
    obtain ⟨t, ht, rfl⟩ := Option.map_eq_some_iff.mp he
    cases hg : isGarbage roots i t with
    | true => simpa [hg] using (isGarbage_iff.mp hg).2.1
    | false =>
      simp only [hg, Bool.false_eq_true, if_false] at hv ⊢
      exact hs.pins_empty i t ht hv

/-- In a heap that does not fit, an object can be lost although it is pinned: a collection frees the
last slot, whose number is cut down to an index that is in use, and the next object is put there. -/
theorem isLive_of_clash {heap : Heap α} {n : Nat} {t : Slot α} {roots : List Handle} {h : Handle}
    (hsize : heap.slots.size = n + 1) (ht : heap.slots[n]? = some t)
    (hg : isGarbage roots n t = true) (hn : UInt32.ofNat n = h.index)
    (hp : 0 < heap.pinCount h) (v : α) :
    ((heap.collect roots).2.alloc v).2.isLive h = false := by
  obtain ⟨s, hs⟩ := isLive_iff.mp (isLive_of_pinCount_pos hp)
  obtain ⟨he, hgen, -⟩ := slot?_eq_some_iff.mp hs
  have hgarbage : ∃ l, heap.garbage roots = l ++ [n] := by
    refine ⟨(List.range n).filter fun i => heap.slots[i]?.any (isGarbage roots i), ?_⟩
    unfold garbage
    rw [hsize, List.range_succ, List.filter_append]
    simp [ht, hg]
  obtain ⟨l, hgarbage⟩ := hgarbage
  have hfree : (heap.collect roots).2.free =
      h.index :: ((l.map UInt32.ofNat).reverse ++ heap.free) := by
    simp [collect, hgarbage, hn]
  have hslot : ∃ s', (heap.collect roots).2.slots[h.index.toNat]? = some s' ∧
      s'.generation = h.generation := by
    rw [getElem?_collect, he]
    refine ⟨_, rfl, ?_⟩
    dsimp only
    split
    · exact hgen
    · exact hgen
  obtain ⟨s', he', hgen'⟩ := hslot
  have hlt : h.index.toNat < (heap.collect roots).2.slots.size :=
    (Array.getElem?_eq_some_iff.mp he').1
  rw [alloc_reuse hfree he', isLive_eq_false_iff,
    slot?_of_getElem? (Array.getElem?_setIfInBounds_self_of_lt hlt), if_neg]
  rintro ⟨hnext, -⟩
  have hsame : s'.generation + 1 = s'.generation := hnext.trans hgen'.symm
  simp at hsame

/-! What stays live, and pinned as often as before. -/

/-- Allocation pins nothing. -/
theorem pinCount_alloc {heap : Heap α} (hs : heap.Sound) {v : α} (hf : (heap.alloc v).2.Fits)
    (h : Handle) : (heap.alloc v).2.pinCount h = heap.pinCount h := by
  unfold pinCount
  rw [slot?_alloc hs hf]
  split
  · rename_i he
    rw [he, slot?_alloc_fresh hs hf]
    rfl
  · rfl

theorem isLive_alloc {heap : Heap α} (hs : heap.Sound) {v : α} (hf : (heap.alloc v).2.Fits)
    {h : Handle} (hl : heap.isLive h = true) : (heap.alloc v).2.isLive h = true := by
  have hne : h ≠ (heap.alloc v).1 := by
    rintro rfl
    rw [isLive, slot?_alloc_fresh hs hf] at hl
    cases hl
  rw [isLive, slot?_alloc hs hf, if_neg hne]
  exact hl

theorem isLive_alloc_new {heap : Heap α} (hs : heap.Sound) {v : α} (hf : (heap.alloc v).2.Fits) :
    (heap.alloc v).2.isLive (heap.alloc v).1 = true := by
  rw [isLive, slot?_alloc hs hf, if_pos rfl]
  rfl

/-- A collection leaves all pins where they are. -/
theorem pinCount_collect (heap : Heap α) (roots : List Handle) (h : Handle) :
    (heap.collect roots).2.pinCount h = heap.pinCount h := by
  unfold pinCount
  rw [slot?_collect]
  cases heap.slot? h with
  | none => rfl
  | some s =>
    rw [Option.filter_some]
    split
    · rfl
    · rename_i hk
      simp only [Bool.or_eq_true, bne_iff_ne, not_or, not_not] at hk
      simp [hk.1]

theorem isLive_collect {heap : Heap α} {roots : List Handle} {h : Handle}
    (hl : heap.isLive h = true) (hr : h ∈ roots) : (heap.collect roots).2.isLive h = true := by
  obtain ⟨s, hs⟩ := isLive_iff.mp hl
  rw [isLive, slot?_collect, hs]
  simp [Option.filter_some, hr]

theorem isLive_modifyPins (heap : Heap α) (h g : Handle) (f : Nat → Nat) :
    (heap.modifyPins h f).isLive g = heap.isLive g := by
  unfold isLive
  rw [slot?_modifyPins]
  split
  · rename_i he
    rw [he, Option.isSome_map]
  · rfl

theorem pinCount_modifyPins {heap : Heap α} {h : Handle} (hl : heap.isLive h = true)
    (g : Handle) (f : Nat → Nat) :
    (heap.modifyPins h f).pinCount g = if g = h then f (heap.pinCount h) else heap.pinCount g := by
  obtain ⟨s, hs⟩ := isLive_iff.mp hl
  unfold pinCount
  rw [slot?_modifyPins]
  split
  · rw [hs]
    rfl
  · rfl

theorem getElem?_modifyPins (heap : Heap α) (h : Handle) (f : Nat → Nat) (i : Nat) :
    (heap.modifyPins h f).slots[i]? =
      if heap.isLive h = true ∧ h.index.toNat = i then
        heap.slots[i]?.map fun s => { s with pins := f s.pins }
      else heap.slots[i]? := by
  unfold modifyPins
  by_cases hl : heap.isLive h = true <;> simp [hl, Array.getElem?_modify]

theorem free_modifyPins (heap : Heap α) (h : Handle) (f : Nat → Nat) :
    (heap.modifyPins h f).free = heap.free := by
  unfold modifyPins
  split <;> rfl

theorem eq_of_slots {heap heap' : Heap α} (hfree : heap.free = heap'.free)
    (hslots : ∀ i : Nat, heap.slots[i]? = heap'.slots[i]?) : heap = heap' := by
  have harray : heap.slots = heap'.slots := Array.ext_getElem? hslots
  cases heap
  cases heap'
  simp_all

/-- A pin and an unpin leave nothing behind. -/
theorem unpin_pin (heap : Heap α) (h : Handle) : (heap.pin h).2.unpin h = heap := by
  rw [pin_snd]
  refine eq_of_slots ?_ fun i => ?_
  · rw [unpin, free_modifyPins, free_modifyPins]
  · rw [unpin, getElem?_modifyPins, isLive_modifyPins, getElem?_modifyPins]
    split
    · cases heap.slots[i]? <;> simp
    · rfl

/-- It does not matter in which order pins are taken away. -/
theorem unpin_comm (heap : Heap α) (h g : Handle) :
    (heap.unpin h).unpin g = (heap.unpin g).unpin h := by
  refine eq_of_slots ?_ fun i => ?_
  · simp only [unpin, free_modifyPins]
  · simp only [unpin, getElem?_modifyPins, isLive_modifyPins]
    split <;> split <;> rfl

/-- Pins never go below zero. -/
theorem pinCount_unpin (heap : Heap α) (h g : Handle) :
    (heap.unpin h).pinCount g = heap.pinCount g - if g = h then 1 else 0 := by
  by_cases hl : heap.isLive h = true
  · rw [unpin, pinCount_modifyPins hl]
    split
    · rename_i hg
      rw [hg]
    · rfl
  · have hs := isLive_eq_false_iff.mp (by simpa using hl)
    rw [unpin_of_not_live hs]
    split
    · rename_i hg
      rw [hg, pinCount_of_not_live hs]
    · rfl

end EditorScripting.Host.Heap
