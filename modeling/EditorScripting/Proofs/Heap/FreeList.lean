import EditorScripting.Proofs.Heap.Handles

/-!
The free list and the slots say the same. After any run the free list holds the indices of the empty
slots, each once, so a slot is either live or free, and an allocation never takes a live one. A
collection empties exactly what is neither pinned nor among the roots, and a second one finds
nothing left to take.
-/
namespace EditorScripting.Host.Heap

variable {α : Type} {heap : Heap α}

/-- The indices of the empty slots, in ascending order. -/
def emptySlots (heap : Heap α) : List Nat :=
  (List.range heap.slots.size).filter fun i => heap.slots[i]?.any (·.value.isNone)

theorem mem_emptySlots_iff {i : Nat} :
    i ∈ heap.emptySlots ↔ ∃ s, heap.slots[i]? = some s ∧ s.value = none := by
  rw [emptySlots, mem_filter_slots_iff]
  simp only [Option.isNone_iff_eq_none]

theorem nodup_emptySlots (heap : Heap α) : heap.emptySlots.Nodup :=
  List.nodup_range.filter _

/-- The free list of a sound heap that fits holds the indices of the empty slots, each once. -/
theorem Sound.free_perm (hs : heap.Sound) (hf : heap.Fits) :
    (heap.free.map UInt32.toNat).Perm heap.emptySlots := by
  have hn : (heap.free.map UInt32.toNat).Nodup :=
    hs.free_nodup.map fun i j he => UInt32.toNat_inj.mp he
  rw [List.perm_ext_iff_of_nodup hn (nodup_emptySlots heap)]
  intro i
  rw [mem_emptySlots_iff, List.mem_map]
  constructor
  · rintro ⟨index, hmem, rfl⟩
    exact (hs.mem_free_iff index).mp hmem
  · rintro ⟨s, he, hv⟩
    have hlt : i < UInt32.size := Nat.lt_of_lt_of_le (Array.getElem?_eq_some_iff.mp he).1 hf
    have hi : (UInt32.ofNat i).toNat = i := UInt32.toNat_ofNat_of_lt' hlt
    exact ⟨UInt32.ofNat i, (hs.mem_free_iff _).mpr ⟨s, hi.symm ▸ he, hv⟩, hi⟩

/-- The bound is needed: the index of an empty slot that does not fit is not in the free list. -/
theorem not_free_perm_of_large {i : Nat} (hlarge : UInt32.size ≤ i) (hi : i ∈ heap.emptySlots) :
    ¬ (heap.free.map UInt32.toNat).Perm heap.emptySlots := by
  intro hp
  obtain ⟨index, -, rfl⟩ := List.mem_map.mp (hp.mem_iff.mpr hi)
  exact absurd index.toNat_lt_size (Nat.not_lt.mpr hlarge)

/-! Counting slots. -/

/-- Slots are counted by their indices. -/
theorem countP_toList (slots : Array (Slot α)) (p : Slot α → Bool) :
    slots.toList.countP p = (List.range slots.size).countP fun i => slots[i]?.any p := by
  obtain ⟨slots⟩ := slots
  simp only [List.getElem?_toArray, List.size_toArray]
  induction slots using List.reverseRecOn with
  | nil => rfl
  | append_singleton slots s ih =>
    have hinit : (List.range slots.length).countP (fun i => (slots ++ [s])[i]?.any p) =
        (List.range slots.length).countP fun i => slots[i]?.any p := by
      refine List.countP_congr fun i hi => ?_
      rw [List.getElem?_append_left (List.mem_range.mp hi)]
    rw [List.countP_append, ih, List.length_append, List.length_singleton, List.range_succ,
      List.countP_append, hinit]
    simp

theorem liveCount_eq (heap : Heap α) :
    heap.liveCount =
      (List.range heap.slots.size).countP fun i => heap.slots[i]?.any (·.value.isSome) :=
  countP_toList heap.slots _

/-- Every slot is live or empty. -/
theorem liveCount_add_emptySlots (heap : Heap α) :
    heap.liveCount + heap.emptySlots.length = heap.slots.size := by
  have hempty : heap.emptySlots.length = heap.slots.toList.countP (·.value.isNone) := by
    rw [emptySlots, ← List.countP_eq_length_filter, countP_toList]
  have hnot : (fun s : Slot α => decide ¬ s.value.isSome = true) = (·.value.isNone) := by
    funext s
    cases s.value <;> rfl
  rw [hempty, ← Array.length_toList,
    List.length_eq_countP_add_countP (fun s : Slot α => s.value.isSome), hnot]
  rfl

theorem Sound.liveCount_add_free (hs : heap.Sound) (hf : heap.Fits) :
    heap.liveCount + heap.free.length = heap.slots.size := by
  rw [← liveCount_add_emptySlots heap, ← (hs.free_perm hf).length_eq, List.length_map]

/-- An allocation leaves every live slot as it is. -/
theorem Sound.getElem?_alloc_of_live (hs : heap.Sound) (v : α) {i : Nat} {s : Slot α}
    (he : heap.slots[i]? = some s) (hl : s.value.isSome = true) :
    (heap.alloc v).2.slots[i]? = some s := by
  cases hfree : heap.free with
  | nil =>
    have hlt : i < heap.slots.size := (Array.getElem?_eq_some_iff.mp he).1
    rw [alloc_grow hfree]
    simp [Array.getElem?_push, Nat.ne_of_lt hlt, he]
  | cons index free =>
    obtain ⟨t, ht, hempty⟩ := hs.free_slot hfree
    have hne : index.toNat ≠ i := by
      rintro rfl
      rw [he] at ht
      rw [Option.some.inj ht, hempty] at hl
      cases hl
    rw [alloc_reuse hfree ht]
    simp [hne, he]

/-! What a collection keeps. -/

/-- A collection keeps what is pinned or among the roots, and nothing else. -/
theorem slot?_collect_eq_some_iff (heap : Heap α) (roots : List Handle) (h : Handle) (s : Slot α) :
    (heap.collect roots).2.slot? h = some s ↔
      heap.slot? h = some s ∧ (0 < s.pins ∨ h ∈ roots) := by
  rw [slot?_collect, Option.filter_eq_some_iff]
  simp [Nat.pos_iff_ne_zero]

/-- Garbage is live before a collection and is all that is not live after it. -/
theorem any_isSome_collect (heap : Heap α) (roots : List Handle) (i : Nat) :
    ((heap.collect roots).2.slots[i]?.any fun s => s.value.isSome) =
      ((heap.slots[i]?.any fun s => s.value.isSome) &&
        !heap.slots[i]?.any (isGarbage roots i)) := by
  rw [getElem?_collect]
  cases heap.slots[i]? with
  | none => rfl
  | some s => cases hg : isGarbage roots i s <;> simp [hg]

theorem any_isSome_of_garbage (heap : Heap α) (roots : List Handle) (i : Nat) :
    ((heap.slots[i]?.any fun s => s.value.isSome) && heap.slots[i]?.any (isGarbage roots i)) =
      heap.slots[i]?.any (isGarbage roots i) := by
  cases heap.slots[i]? with
  | none => rfl
  | some s => simpa using fun hg => (isGarbage_iff.mp hg).1

/-- A collection returns by how much the live slots have become fewer. -/
theorem collect_fst_add_liveCount (heap : Heap α) (roots : List Handle) :
    (heap.collect roots).1 + (heap.collect roots).2.liveCount = heap.liveCount := by
  have hgarbage : (heap.collect roots).1 =
      (List.range heap.slots.size).countP fun i => heap.slots[i]?.any (isGarbage roots i) :=
    List.countP_eq_length_filter.symm
  rw [hgarbage, liveCount_eq, liveCount_eq, size_collect,
    List.countP_eq_countP_filter_add (List.range heap.slots.size)
      (fun i => heap.slots[i]?.any fun s => s.value.isSome)
      (fun i => heap.slots[i]?.any (isGarbage roots i)),
    List.countP_filter, List.countP_filter]
  simp only [any_isSome_collect, any_isSome_of_garbage]

/-- Without garbage there is nothing to collect. -/
theorem collect_of_no_garbage {roots : List Handle}
    (hg : ∀ (i : Nat) (s : Slot α), heap.slots[i]? = some s → isGarbage roots i s = false) :
    heap.collect roots = (0, heap) := by
  have hgarbage : heap.garbage roots = [] := by
    rw [List.eq_nil_iff_forall_not_mem]
    intro i hi
    obtain ⟨s, he, hs⟩ := mem_garbage_iff.mp hi
    rw [hg i s he] at hs
    cases hs
  have hslots : heap.slots.mapIdx
      (fun i s => if isGarbage roots i s then { s with value := none } else s) = heap.slots := by
    refine Array.ext_getElem? fun i => ?_
    rw [Array.getElem?_mapIdx]
    cases he : heap.slots[i]? with
    | none => rfl
    | some s => simp [hg i s he]
  rw [collect, hgarbage, hslots]
  rfl

/-- A second collection with the same roots takes nothing and changes nothing. -/
theorem collect_collect (heap : Heap α) (roots : List Handle) :
    (heap.collect roots).2.collect roots = (0, (heap.collect roots).2) := by
  refine collect_of_no_garbage fun i s he => ?_
  rw [getElem?_collect] at he
  obtain ⟨t, -, rfl⟩ := Option.map_eq_some_iff.mp he
  split
  · simp [isGarbage]
  · rename_i hg
    simpa using hg

/-! Runs. -/

theorem Sound.apply (hs : heap.Sound) (hf : heap.Fits) (op : Op α) : (op.apply heap).Sound := by
  cases op with
  | alloc v => exact hs.alloc v
  | pin h =>
    rw [Op.apply, pin_snd]
    exact hs.modifyPins h _
  | unpin h =>
    rw [Op.apply, unpin]
    exact hs.modifyPins h _
  | collect roots => exact hs.collect hf roots

theorem sound_run {ops : List (Op α)} (hf : (run ops).Fits) : (run ops).Sound := by
  induction ops using List.reverseRecOn with
  | nil => exact sound_empty
  | append_singleton ops op ih =>
    rw [run_concat] at hf ⊢
    have hfits : (run ops).Fits := Nat.le_trans (size_apply op (run ops)) hf
    exact (ih hfits).apply hfits op

/-- The free list and the slots agree after every run. While every slot has an index of its own, the
free list holds exactly the indices of the empty slots, each once, and empty slots have no pins; so
live slots and free indices make up all slots, and an allocation leaves every live slot as it is.
(For an empty slot without an index of its own see `not_free_perm_of_large`.) A collection keeps
exactly the objects that are pinned or among the roots, with their values, generations and pins; it
moves no slot to another generation and changes no pins; it returns by how much the live slots have
become fewer; and a second one with the same roots takes nothing and changes nothing. -/
theorem free_list_run (ops : List (Op α)) :
    ((run ops).Fits →
      ((run ops).free.map UInt32.toNat).Perm (run ops).emptySlots ∧
      (run ops).emptySlots.Nodup ∧
      (∀ (i : Nat) (s : Slot α), (run ops).slots[i]? = some s → s.value = none → s.pins = 0) ∧
      (run ops).liveCount + (run ops).free.length = (run ops).slots.size ∧
      ∀ (v : α) (i : Nat) (s : Slot α), (run ops).slots[i]? = some s → s.value.isSome = true →
        ((run ops).alloc v).2.slots[i]? = some s) ∧
    ∀ roots : List Handle,
      (∀ h s, ((run ops).collect roots).2.slot? h = some s ↔
        (run ops).slot? h = some s ∧ (0 < s.pins ∨ h ∈ roots)) ∧
      ((run ops).collect roots).2.slots.map (fun s => (s.generation, s.pins)) =
        (run ops).slots.map (fun s => (s.generation, s.pins)) ∧
      ((run ops).collect roots).1 + ((run ops).collect roots).2.liveCount = (run ops).liveCount ∧
      ((run ops).collect roots).2.collect roots = (0, ((run ops).collect roots).2) := by
  constructor
  · intro hf
    have hs := sound_run hf
    exact ⟨hs.free_perm hf, nodup_emptySlots _, hs.pins_empty, hs.liveCount_add_free hf,
      fun v i s he hl => hs.getElem?_alloc_of_live v he hl⟩
  · intro roots
    refine ⟨slot?_collect_eq_some_iff _ roots, ?_, collect_fst_add_liveCount _ roots,
      collect_collect _ roots⟩
    refine Array.ext_getElem? fun i => ?_
    rw [Array.getElem?_map, getElem?_collect, Array.getElem?_map, Option.map_map]
    refine congrArg (Option.map · (run ops).slots[i]?) (funext fun s => ?_)
    simp only [Function.comp_apply]
    split <;> rfl

/-- The first object is reclaimed and its slot is given to another one; of the other two, one is
pinned. -/
def reusedSlot : List (Op Char) :=
  [.alloc 'a', .alloc 'b', .alloc 'c', .pin ⟨1, 0⟩, .collect [⟨2, 0⟩], .alloc 'd']

/-- Of the roots of the next collection, one is stale, so the slot that it names is emptied. -/
theorem free_list_run_reusedSlot :
    (run (reusedSlot ++ [.collect []])).Fits ∧
    ((run (reusedSlot ++ [.collect []])).free.map UInt32.toNat).Perm [0, 2] ∧
    (run (reusedSlot ++ [.collect []])).liveCount + 2 = 3 ∧
    ((run reusedSlot).collect [⟨2, 0⟩, ⟨0, 0⟩]).2.slot? ⟨0, 1⟩ = none ∧
    ((run reusedSlot).collect [⟨2, 0⟩, ⟨0, 0⟩]).2.slot? ⟨1, 0⟩ = some ⟨0, some 'b', 1⟩ ∧
    ((run reusedSlot).collect [⟨2, 0⟩, ⟨0, 0⟩]).2.slot? ⟨2, 0⟩ = some ⟨0, some 'c', 0⟩ := by
  have hf : (run (reusedSlot ++ [.collect []])).Fits := by
    unfold Fits
    decide +kernel
  obtain ⟨hp, -, -, hcount, -⟩ := (free_list_run (reusedSlot ++ [.collect []])).1 hf
  obtain ⟨hkeep, -⟩ := (free_list_run reusedSlot).2 [⟨2, 0⟩, ⟨0, 0⟩]
  refine ⟨hf, hp.trans (.of_eq rfl), hcount, ?_, (hkeep _ _).mpr ⟨rfl, .inl (by decide)⟩,
    (hkeep _ _).mpr ⟨rfl, .inr (by decide)⟩⟩
  rw [Option.eq_none_iff_forall_ne_some]
  intro s hs
  obtain ⟨hold, hcase⟩ := (hkeep _ _).mp hs
  obtain rfl : s = ⟨1, some 'd', 0⟩ := (Option.some.inj hold).symm
  revert hcase
  decide

end EditorScripting.Host.Heap
