import Mathlib.Data.List.Induction
import EditorScripting.Proofs.Heap.Slots

/-!
Runs of heap operations. While indices and generations do not run out, no handle is issued twice, a
handle names its object until a collection takes it, and from then on it is stale for good, whatever
later becomes of its slot.
-/
namespace EditorScripting.Host.Heap

variable {α : Type}

/-- An operation of the heap. -/
inductive Op (α : Type) where
  | alloc (value : α)
  | pin (h : Handle)
  | unpin (h : Handle)
  | collect (roots : List Handle)

def Op.apply : Op α → Heap α → Heap α
  | alloc v, heap => (heap.alloc v).2
  | pin h, heap => (heap.pin h).2
  | unpin h, heap => heap.unpin h
  | collect roots, heap => (heap.collect roots).2

/-- The handles that an operation hands out. -/
def Op.issues : Op α → Heap α → List Handle
  | alloc v, heap => [(heap.alloc v).1]
  | _, _ => []

/-- The heap after a run of operations that starts with an empty heap. -/
def run (ops : List (Op α)) : Heap α := ops.foldl (fun heap op => op.apply heap) empty

/-- The handles that a run from some heap on hands out, in order. -/
def issuedFrom : Heap α → List (Op α) → List Handle
  | _, [] => []
  | heap, op :: ops => op.issues heap ++ issuedFrom (op.apply heap) ops

/-- The handles that a run hands out, in order. -/
def issued (ops : List (Op α)) : List Handle := issuedFrom empty ops

/-- How often a slot has been given to a new object after its first one. -/
def reallocations (ops : List (Op α)) (index : UInt32) : Nat :=
  (issued ops).countP (·.index == index) - 1

/-- Neither the indices of slots nor the generations of any slot run out. -/
structure Bounded (ops : List (Op α)) : Prop where
  slots : (run ops).slots.size < UInt32.size
  generations : ∀ index, reallocations ops index < UInt32.size

/-- A collection that takes the object of a handle: the object is there, and it is neither pinned
nor among the roots. -/
def Takes (heap : Heap α) (roots : List Handle) (h : Handle) : Prop :=
  heap.isLive h = true ∧ heap.pinCount h = 0 ∧ h ∉ roots

theorem run_concat (ops : List (Op α)) (op : Op α) : run (ops ++ [op]) = op.apply (run ops) := by
  simp [run, List.foldl_append]

theorem issuedFrom_append (heap : Heap α) (ops ops' : List (Op α)) :
    issuedFrom heap (ops ++ ops') =
      issuedFrom heap ops ++ issuedFrom (ops.foldl (fun heap op => op.apply heap) heap) ops' := by
  induction ops generalizing heap with
  | nil => rfl
  | cons op ops ih => simp [issuedFrom, ih]

theorem issued_concat (ops : List (Op α)) (op : Op α) :
    issued (ops ++ [op]) = issued ops ++ op.issues (run ops) := by
  simp [issued, issuedFrom_append, issuedFrom, run]

theorem size_apply (op : Op α) (heap : Heap α) :
    heap.slots.size ≤ (op.apply heap).slots.size := by
  cases op with
  | alloc v => exact size_alloc v
  | pin h => exact Nat.le_of_eq (pin_snd heap h ▸ size_modifyPins heap h _).symm
  | unpin h => exact Nat.le_of_eq (size_modifyPins heap h _).symm
  | collect roots => exact Nat.le_of_eq (size_collect heap roots).symm

/-- What a run stays within, its beginnings stay within. -/
theorem Bounded.of_concat {ops : List (Op α)} {op : Op α} (hb : Bounded (ops ++ [op])) :
    Bounded ops := by
  refine ⟨?_, ?_⟩
  · have h := hb.slots
    rw [run_concat] at h
    exact Nat.lt_of_le_of_lt (size_apply op (run ops)) h
  · intro index
    have h := hb.generations index
    simp only [reallocations, issued_concat, List.countP_append] at h ⊢
    omega

/-! The generation of a slot counts its allocations. -/

/-- The generation that a slot is in, if there is such a slot. -/
def generation? (heap : Heap α) (index : UInt32) : Option UInt32 :=
  heap.slots[index.toNat]?.map (·.generation)

theorem generation?_modifyPins (heap : Heap α) (h : Handle) (f : Nat → Nat) (i : UInt32) :
    (heap.modifyPins h f).generation? i = heap.generation? i := by
  unfold generation? modifyPins
  split
  · rw [Array.getElem?_modify]
    split
    · cases heap.slots[i.toNat]? <;> rfl
    · rfl
  · rfl

theorem generation?_collect (heap : Heap α) (roots : List Handle) (i : UInt32) :
    (heap.collect roots).2.generation? i = heap.generation? i := by
  unfold generation?
  rw [getElem?_collect, Option.map_map]
  refine congrArg (Option.map · _) (funext fun s => ?_)
  simp only [Function.comp_apply]
  split <;> rfl

/-- An allocation moves its slot to the next generation, or starts a new slot at the first one. -/
theorem generation_alloc {heap : Heap α} (hs : heap.Sound) {v : α} (hf : (heap.alloc v).2.Fits) :
    (heap.alloc v).1.generation =
      ((heap.generation? (heap.alloc v).1.index).map (· + 1)).getD 0 := by
  cases hfree : heap.free with
  | nil =>
    rw [alloc_grow hfree] at hf ⊢
    simp [generation?, toNat_size_of_push hf]
  | cons index free =>
    obtain ⟨s, he, -⟩ := hs.free_slot hfree
    rw [alloc_reuse hfree he]
    simp [generation?, he]

theorem generation?_alloc {heap : Heap α} (hs : heap.Sound) {v : α}
    (hf : (heap.alloc v).2.Fits) (i : UInt32) :
    (heap.alloc v).2.generation? i =
      if i = (heap.alloc v).1.index then some (heap.alloc v).1.generation
      else heap.generation? i := by
  cases hfree : heap.free with
  | nil =>
    rw [alloc_grow hfree] at hf ⊢
    have hi := toNat_size_of_push hf
    split
    · rename_i h
      simp [generation?, h, hi]
    · rename_i h
      have hne : i.toNat ≠ heap.slots.size := fun hx => h (UInt32.toNat_inj.mp (hx.trans hi.symm))
      simp [generation?, Array.getElem?_push, hne]
  | cons index free =>
    obtain ⟨s, he, -⟩ := hs.free_slot hfree
    have hlt : index.toNat < heap.slots.size := (Array.getElem?_eq_some_iff.mp he).1
    rw [alloc_reuse hfree he]
    split
    · rename_i h
      subst h
      simp [generation?, hlt]
    · rename_i h
      have hne : index.toNat ≠ i.toNat := fun hx => h (UInt32.toNat_inj.mp hx).symm
      simp [generation?, hne]

/-- A heap and the handles that it has issued: each slot has issued one handle for every generation
up to its present one. -/
structure Issuing (heap : Heap α) (hs : List Handle) : Prop where
  sound : heap.Sound
  nodup : hs.Nodup
  count : ∀ i g, heap.generation? i = some g → hs.countP (·.index == i) = g.toNat + 1
  known : ∀ h ∈ hs, ∃ g, heap.generation? h.index = some g ∧ h.generation.toNat ≤ g.toNat

theorem issuing_empty : Issuing (empty : Heap α) [] where
  sound := sound_empty
  nodup := List.nodup_nil
  count i g h := by simp [generation?, empty] at h
  known h hm := by simp at hm

theorem Issuing.of_generation? {heap heap' : Heap α} {hs : List Handle} (h : Issuing heap hs)
    (hsound : heap'.Sound) (hg : ∀ i, heap'.generation? i = heap.generation? i) :
    Issuing heap' hs where
  sound := hsound
  nodup := h.nodup
  count i g hi := h.count i g (by rw [← hg i, hi])
  known k hk := by rw [hg]; exact h.known k hk

/-- An allocation issues a handle that was not issued before. -/
theorem Issuing.alloc {heap : Heap α} {hs : List Handle} (h : Issuing heap hs) {v : α}
    (hf : (heap.alloc v).2.Fits)
    (hb : (hs ++ [(heap.alloc v).1]).countP (·.index == (heap.alloc v).1.index) ≤ UInt32.size) :
    Issuing (heap.alloc v).2 (hs ++ [(heap.alloc v).1]) := by
  have hgen := generation_alloc h.sound hf
  have hgen' := generation?_alloc h.sound hf
  generalize (heap.alloc v).1 = new at hb hgen hgen' ⊢
  -- the new generation is the number of handles that the slot has issued so far
  have hnew : new.generation.toNat = hs.countP (·.index == new.index) ∧
      ∀ k ∈ hs, k.index = new.index → k.generation.toNat < new.generation.toNat := by
    cases hg : heap.generation? new.index with
    | none =>
      have hnone : ∀ k ∈ hs, k.index ≠ new.index := by
        intro k hk he
        obtain ⟨g, hkg, -⟩ := h.known k hk
        rw [he, hg] at hkg
        cases hkg
      refine ⟨?_, fun k hk he => absurd he (hnone k hk)⟩
      rw [hgen, hg, List.countP_eq_zero.mpr (by simpa using hnone)]
      rfl
    | some g =>
      have hcount := h.count _ g hg
      have hlt : g.toNat + 1 < UInt32.size := by
        simp only [List.countP_append, hcount, List.countP_singleton, beq_self_eq_true,
          if_true] at hb
        omega
      have hnext : new.generation.toNat = g.toNat + 1 := by
        rw [hgen, hg, Option.map_some, Option.getD_some, UInt32.toNat_add]
        exact Nat.mod_eq_of_lt hlt
      refine ⟨by rw [hnext, hcount], fun k hk he => ?_⟩
      obtain ⟨g', hkg, hle⟩ := h.known k hk
      rw [he, hg] at hkg
      obtain rfl := Option.some.inj hkg
      omega
  have hfresh : new ∉ hs := fun hm => absurd (hnew.2 new hm rfl) (by omega)
  refine ⟨h.sound.alloc v, ?_, ?_, ?_⟩
  · rw [List.nodup_append]
    refine ⟨h.nodup, by simp, fun a ha b hb => ?_⟩
    rw [List.mem_singleton.mp hb]
    exact fun he => hfresh (he ▸ ha)
  · intro i g hi
    rw [hgen'] at hi
    split at hi
    · rename_i hx
      subst hx
      rw [← Option.some.inj hi, List.countP_append, hnew.1]
      simp
    · rename_i hx
      rw [List.countP_append, h.count i g hi]
      simp [Ne.symm hx]
  · intro k hk
    rw [hgen']
    rcases List.mem_append.mp hk with hk | hk
    · split
      · rename_i hx
        exact ⟨_, rfl, Nat.le_of_lt (hnew.2 k hk hx)⟩
      · exact h.known k hk
    · rw [List.mem_singleton.mp hk, if_pos rfl]
      exact ⟨_, rfl, Nat.le_refl _⟩

/-- Handles and generations agree after every run within the bounds. -/
theorem issuing_run {ops : List (Op α)} (hb : Bounded ops) : Issuing (run ops) (issued ops) := by
  induction ops using List.reverseRecOn with
  | nil => exact issuing_empty
  | append_singleton ops op ih =>
    have h := ih hb.of_concat
    have hfit : (op.apply (run ops)).Fits := by
      have hlt := hb.slots
      rw [run_concat] at hlt
      exact Nat.le_of_lt hlt
    rw [run_concat, issued_concat]
    cases op with
    | alloc v =>
      refine h.alloc hfit ?_
      have hlt := hb.generations ((run ops).alloc v).1.index
      simp only [reallocations, issued_concat, Op.issues] at hlt
      omega
    | pin k =>
      simp only [Op.apply, Op.issues, List.append_nil, pin_snd]
      exact h.of_generation? (h.sound.modifyPins k _) (generation?_modifyPins _ _ _)
    | unpin k =>
      simp only [Op.apply, Op.issues, List.append_nil]
      exact h.of_generation? (h.sound.modifyPins k _) (generation?_modifyPins _ _ _)
    | collect roots =>
      have hle : (run ops).Fits := Nat.le_trans (size_apply _ _) hfit
      simp only [Op.apply, Op.issues, List.append_nil]
      exact h.of_generation? (h.sound.collect hle roots) (generation?_collect _ _)

/-! What becomes of one issued handle. -/

/-- Within the bounds an operation leaves an issued handle as it is, but for its pins, unless the
operation is a collection that takes its object. -/
theorem value_apply {ops : List (Op α)} {op : Op α} (hb : Bounded (ops ++ [op])) {h : Handle}
    (hm : h ∈ issued ops) (hkeep : ∀ roots, op = .collect roots → ¬ (run ops).Takes roots h) :
    ((run (ops ++ [op])).slot? h).map (·.value) = ((run ops).slot? h).map (·.value) := by
  have hi := issuing_run hb
  have hfit : (op.apply (run ops)).Fits := by
    have hlt := hb.slots
    rw [run_concat] at hlt
    exact Nat.le_of_lt hlt
  rw [run_concat]
  cases op with
  | alloc v =>
    have hn := hi.nodup
    rw [issued_concat] at hn
    have hne : h ≠ ((run ops).alloc v).1 := by
      rintro rfl
      exact (List.nodup_append.mp hn).2.2 _ hm _ (by simp [Op.issues]) rfl
    rw [Op.apply, slot?_alloc (issuing_run hb.of_concat).sound hfit, if_neg hne]
  | pin k =>
    rw [Op.apply, pin_snd, slot?_modifyPins]
    split
    · rename_i he
      rw [he, Option.map_map]
      rfl
    · rfl
  | unpin k =>
    rw [Op.apply, unpin, slot?_modifyPins]
    split
    · rename_i he
      rw [he, Option.map_map]
      rfl
    · rfl
  | collect roots =>
    rw [Op.apply, slot?_collect]
    cases hs : (run ops).slot? h with
    | none => rfl
    | some s =>
      have hk : s.pins = 0 → h ∈ roots := by
        intro hp
        by_contra hr
        exact hkeep roots rfl
          ⟨isLive_iff.mpr ⟨s, hs⟩, by rw [pinCount_of_slot? hs, hp], hr⟩
      simpa [Option.filter_some, ← imp_iff_not_or] using hk

/-- A collection that takes the object of a handle makes the handle stale. -/
theorem slot?_collect_of_takes {heap : Heap α} {roots : List Handle} {h : Handle}
    (ht : heap.Takes roots h) : (heap.collect roots).2.slot? h = none := by
  obtain ⟨hl, hp, hr⟩ := ht
  obtain ⟨s, hs⟩ := isLive_iff.mp hl
  rw [pinCount_of_slot? hs] at hp
  rw [slot?_collect, hs]
  simp [Option.filter_some, hp, hr]

/-- Some collection of a run that follows other operations takes the object of a handle. -/
def Taken (before after : List (Op α)) (h : Handle) : Prop :=
  ∃ mid roots rest, after = mid ++ .collect roots :: rest ∧
    (run (before ++ mid)).Takes roots h

theorem taken_concat {before after : List (Op α)} {op : Op α} {h : Handle} :
    Taken before (after ++ [op]) h ↔
      Taken before after h ∨
        ∃ roots, op = .collect roots ∧ (run (before ++ after)).Takes roots h := by
  constructor
  · rintro ⟨mid, roots, rest, he, ht⟩
    rcases List.eq_nil_or_concat rest with rfl | ⟨rest, op', rfl⟩
    · obtain ⟨hmid, hlast⟩ := List.append_inj' he rfl
      exact .inr ⟨roots, (List.cons.inj hlast).1, hmid ▸ ht⟩
    · refine .inl ⟨mid, roots, rest, ?_, ht⟩
      have he' : after ++ [op] = (mid ++ .collect roots :: rest) ++ [op'] := by simp [he]
      exact (List.append_inj' he' rfl).1
  · rintro (⟨mid, roots, rest, rfl, ht⟩ | ⟨roots, rfl, ht⟩)
    · exact ⟨mid, roots, rest ++ [op], by simp, ht⟩
    · exact ⟨after, roots, [], rfl, ht⟩

theorem mem_issued_append {ops : List (Op α)} {h : Handle} (hm : h ∈ issued ops)
    (after : List (Op α)) : h ∈ issued (ops ++ after) := by
  rw [issued, issuedFrom_append]
  exact List.mem_append_left _ hm

/-- An issued handle keeps its object until a collection takes it, and is stale from then on. -/
theorem slot?_run_append {ops after : List (Op α)} (hb : Bounded (ops ++ after)) {h : Handle}
    {v : α} (hm : h ∈ issued ops) (hv : ((run ops).slot? h).map (·.value) = some (some v)) :
    (¬ Taken ops after h → ((run (ops ++ after)).slot? h).map (·.value) = some (some v)) ∧
    (Taken ops after h → (run (ops ++ after)).slot? h = none) := by
  induction after using List.reverseRecOn with
  | nil =>
    refine ⟨fun _ => by simpa using hv, ?_⟩
    rintro ⟨mid, roots, rest, he, -⟩
    simp at he
  | append_singleton after op ih =>
    rw [← List.append_assoc] at hb ⊢
    obtain ⟨hlive, hstale⟩ := ih hb.of_concat
    have hm' := mem_issued_append hm after
    rw [taken_concat]
    constructor
    · intro hn
      obtain ⟨hnt, hno⟩ := not_or.mp hn
      rw [value_apply hb hm' fun roots he ht => hno ⟨roots, he, ht⟩]
      exact hlive hnt
    · intro ht
      by_cases hold : Taken ops after h
      · have hs := hstale hold
        have hkeep := value_apply hb hm' fun roots _ ht => by
          have hl := isLive_eq_false_iff.mpr hs
          rw [ht.1] at hl
          cases hl
        rw [hs] at hkeep
        simpa using hkeep
      · obtain ⟨roots, rfl, htake⟩ := ht.resolve_left hold
        rw [run_concat]
        exact slot?_collect_of_takes htake

/-- Stale handles stay stale. In a run in which neither indices nor generations run out, handles of
different allocations differ. The handle of an object names it until a collection takes it; from
then on it names nothing, cannot be pinned, has no pins, and pinning or unpinning through it changes
nothing, in particular not a later occupant of its slot. -/
theorem issued_handles {ops : List (Op α)} (hb : Bounded ops) :
    (issued ops).Nodup ∧
    ∀ before v after, ops = before ++ .alloc v :: after →
      let h := ((run before).alloc v).1
      (¬ Taken (before ++ [.alloc v]) after h → (run ops).get h = .ok v) ∧
      (Taken (before ++ [.alloc v]) after h →
        (run ops).isLive h = false ∧ (run ops).get h = .error (.reclaimed h) ∧
        (run ops).pinCount h = 0 ∧ (run ops).pin h = (.error (.reclaimed h), run ops) ∧
        (run ops).unpin h = run ops) := by
  refine ⟨(issuing_run hb).nodup, ?_⟩
  rintro before v after rfl
  intro h
  have heq : before ++ Op.alloc v :: after = (before ++ [.alloc v]) ++ after := by simp
  rw [heq] at hb ⊢
  have hb' : Bounded (before ++ [.alloc v]) := by
    clear heq
    induction after using List.reverseRecOn with
    | nil => simpa using hb
    | append_singleton after op ih =>
      rw [← List.append_assoc] at hb
      exact ih hb.of_concat
  have hfit : ((run before).alloc v).2.Fits := by
    have hlt := hb'.slots
    rw [run_concat] at hlt
    exact Nat.le_of_lt hlt
  have hm : h ∈ issued (before ++ [.alloc v]) := by simp [issued_concat, Op.issues, h]
  have hv : ((run (before ++ [.alloc v])).slot? h).map (·.value) = some (some v) := by
    rw [run_concat, Op.apply, slot?_alloc (issuing_run hb'.of_concat).sound hfit, if_pos rfl]
    rfl
  obtain ⟨hlive, hstale⟩ := slot?_run_append hb hm hv
  constructor
  · intro hn
    obtain ⟨s, hs, hsv⟩ := Option.map_eq_some_iff.mp (hlive hn)
    exact get_of_slot? hs hsv
  · intro ht
    have hs := hstale ht
    exact ⟨isLive_eq_false_iff.mpr hs, get_of_not_live hs, pinCount_of_not_live hs,
      pin_of_not_live hs, unpin_of_not_live hs⟩

/-- An object whose slot has been given to another one is not what its slot now holds. -/
theorem issued_handles_reused_slot :
    Bounded [Op.alloc 'a', .collect [], .alloc 'b'] ∧
    (run [Op.alloc 'a', .collect [], .alloc 'b']).isLive ⟨0, 0⟩ = false ∧
    (run [Op.alloc 'a', .collect [], .alloc 'b']).get ⟨0, 1⟩ = .ok 'b' := by
  have hb : Bounded [Op.alloc 'a', .collect [], .alloc 'b'] := by
    refine ⟨by decide, fun index => ?_⟩
    have hissued : issued [Op.alloc 'a', .collect [], .alloc 'b'] = [⟨0, 0⟩, ⟨0, 1⟩] := rfl
    have hle : (issued [Op.alloc 'a', .collect [], .alloc 'b']).countP (·.index == index) ≤ 2 :=
      hissued ▸ List.countP_le_length
    unfold reallocations UInt32.size
    omega
  obtain ⟨-, hone⟩ := issued_handles hb
  refine ⟨hb, ?_, ?_⟩
  · exact ((hone [] 'a' [.collect [], .alloc 'b'] rfl).2
      ⟨[], [], [.alloc 'b'], rfl, by decide, by decide, by decide⟩).1
  · refine (hone [.alloc 'a', .collect []] 'b' [] rfl).1 ?_
    rintro ⟨mid, roots, rest, he, -⟩
    simp at he

end EditorScripting.Host.Heap
