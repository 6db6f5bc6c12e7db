import EditorScripting.Proofs.Editor.Variables

/-!
Objects that stay where they are for ever. Nil and the functions of names are made before any slot is
reused, and every collection finds them among its roots. So their slots are never up for reuse,
however many slots there are. And no second nil is ever made.
-/
namespace EditorScripting.Host

namespace Heap

variable {α : Type} {heap : Heap α} {h : Handle} {v : α}

theorem get_eq_ok_iff : heap.get h = .ok v ↔ heap.get? h = some v := by
  unfold get
  cases heap.get? h <;> simp

/-- The object of a handle is in a slot that is not free. All slots whose number is cut down to its
index are of the first generation like itself, so a collection takes them for the object. -/
structure Anchored (heap : Heap α) (h : Handle) (v : α) : Prop where
  generation : h.generation = 0
  object : heap.get? h = some v
  kept : h.index ∉ heap.free
  alike : ∀ (i : Nat) s, heap.slots[i]? = some s → UInt32.ofNat i = h.index → s.generation = 0

/-- A slot after an allocation was there before, or it holds the new object and was free or is
new. -/
theorem getElem?_alloc {w : α} {i : Nat} {s : Slot α}
    (hs : (heap.alloc w).2.slots[i]? = some s) :
    heap.slots[i]? = some s ∨
      s.value = some w ∧ (UInt32.ofNat i ∈ heap.free ∨ s.generation = 0) := by
  cases hfree : heap.free with
  | nil =>
    rw [alloc_grow hfree] at hs
    simp only [Array.getElem?_push] at hs
    split at hs
    · cases hs
      exact .inr ⟨rfl, .inr rfl⟩
    · exact .inl hs
  | cons index free =>
    unfold alloc at hs
    simp only [hfree, Array.getElem?_setIfInBounds] at hs
    split at hs
    · rename_i hi
      subst hi
      split at hs
      · cases hs
        exact .inr ⟨rfl, .inl (by simp)⟩
      · cases hs
    · exact .inl hs

theorem size_alloc_le (heap : Heap α) (w : α) :
    (heap.alloc w).2.slots.size ≤ heap.slots.size + 1 := by
  cases hfree : heap.free with
  | nil =>
    rw [alloc_grow hfree]
    simp
  | cons index free =>
    unfold alloc
    simp [hfree]

/-- An allocation touches no object whose index is not free. -/
theorem get?_alloc_of_kept {w : α} (hk : h.index ∉ heap.free) (hv : heap.get? h = some v) :
    (heap.alloc w).2.get? h = some v := by
  obtain ⟨s, hs, hvalue⟩ := Option.bind_eq_some_iff.mp hv
  have hplace := (slot?_eq_some_iff.mp hs).1
  have hsame : (heap.alloc w).2.slots[h.index.toNat]? = heap.slots[h.index.toNat]? := by
    cases hfree : heap.free with
    | nil =>
      have hlt := (Array.getElem?_eq_some_iff.mp hplace).1
      rw [alloc_grow hfree]
      simp [Array.getElem?_push, Nat.ne_of_lt hlt]
    | cons index free =>
      have hne : index.toNat ≠ h.index.toNat := by
        intro he
        rw [hfree, UInt32.toNat_inj.mp he] at hk
        exact hk List.mem_cons_self
      unfold alloc
      simp [hfree, hne]
  rw [get?, slot?_congr hsame, hs]
  exact hvalue

theorem mem_free_alloc {w : α} {i : UInt32} (hi : i ∈ (heap.alloc w).2.free) : i ∈ heap.free := by
  cases hfree : heap.free with
  | nil =>
    rw [alloc_grow hfree] at hi
    rw [← hfree]
    exact hi
  | cons index free =>
    unfold alloc at hi
    simp only [hfree] at hi
    exact List.mem_cons_of_mem _ hi

theorem Anchored.alloc (ha : heap.Anchored h v) (w : α) : (heap.alloc w).2.Anchored h v where
  generation := ha.generation
  object := get?_alloc_of_kept ha.kept ha.object
  kept hi := ha.kept (mem_free_alloc hi)
  alike i s hs hi := by
    rcases getElem?_alloc hs with hold | ⟨-, hfree | hnew⟩
    · exact ha.alike i s hold hi
    · rw [hi] at hfree
      exact absurd hfree ha.kept
    · exact hnew

theorem Anchored.modifyPins (ha : heap.Anchored h v) (g : Handle) (f : Nat → Nat) :
    (heap.modifyPins g f).Anchored h v where
  generation := ha.generation
  object := (get?_modifyPins heap g h f).trans ha.object
  kept := by
    rw [free_modifyPins]
    exact ha.kept
  alike i s hs hi := by
    rw [getElem?_modifyPins] at hs
    split at hs
    · obtain ⟨old, hold, rfl⟩ := Option.map_eq_some_iff.mp hs
      exact ha.alike i old hold hi
    · exact ha.alike i s hs hi

/-- A collection that has the object among its roots frees no slot in its stead. -/
theorem Anchored.collect (ha : heap.Anchored h v) {roots : List Handle} (hr : h ∈ roots) :
    (heap.collect roots).2.Anchored h v where
  generation := ha.generation
  object := get?_collect ha.object hr
  kept hi := by
    have hfree : (heap.collect roots).2.free =
        ((heap.garbage roots).map UInt32.ofNat).reverse ++ heap.free := rfl
    rw [hfree, List.mem_append, List.mem_reverse, List.mem_map] at hi
    rcases hi with ⟨i, hgarbage, hi⟩ | hi
    · obtain ⟨s, hs, hg⟩ := mem_garbage_iff.mp hgarbage
      have hname : (⟨UInt32.ofNat i, s.generation⟩ : Handle) = h := by
        rw [hi, ha.alike i s hs hi, ← ha.generation]
      exact (isGarbage_iff.mp hg).2.2 (hname ▸ hr)
    · exact ha.kept hi
  alike i s hs hi := by
    rw [getElem?_collect] at hs
    obtain ⟨old, hold, rfl⟩ := Option.map_eq_some_iff.mp hs
    have hgen := ha.alike i old hold hi
    split
    · exact hgen
    · exact hgen

/-- No slot has been reused. -/
structure Pristine (heap : Heap α) : Prop where
  free : heap.free = []
  generation : ∀ (i : Nat) s, heap.slots[i]? = some s → s.generation = 0

theorem pristine_empty : (empty : Heap α).Pristine := by
  refine ⟨rfl, fun i s hs => ?_⟩
  simp [empty] at hs

theorem Pristine.alloc (hp : heap.Pristine) (w : α) : (heap.alloc w).2.Pristine where
  free := by
    rw [alloc_grow hp.free]
    exact hp.free
  generation i s hs := by
    rcases getElem?_alloc hs with hold | ⟨-, hfree | hnew⟩
    · exact hp.generation i s hold
    · rw [hp.free] at hfree
      cases hfree
    · exact hnew

/-- Whatever is in such a heap may stay there for ever. -/
theorem Pristine.anchored (hp : heap.Pristine) (hv : heap.get? h = some v) :
    heap.Anchored h v where
  generation := by
    obtain ⟨s, hs, -⟩ := Option.bind_eq_some_iff.mp hv
    obtain ⟨hplace, hgen, -⟩ := slot?_eq_some_iff.mp hs
    rw [← hgen, hp.generation _ s hplace]
  object := hv
  kept := by
    rw [hp.free]
    exact List.not_mem_nil
  alike i s hs _ := hp.generation i s hs

end Heap

namespace Editor

variable {e e' : Editor} {name : String}

/-- The handle in the function cell of a name. -/
def functionCell (e : Editor) (name : String) : Option Handle :=
  (e.obarray.get? name).bind (·.function)

/-- Nil is the only object of its kind. It and the functions of names stay where they are, and a
function is the primitive that has its name. -/
structure Steady (e : Editor) : Prop where
  index : e.obarray.Indexed
  nil : e.heap.Anchored e.nil .nil
  sole : ∀ (i : Nat) s, e.heap.slots[i]? = some s → s.value = some .nil → i = e.nil.index.toNat
  function : ∀ name f, e.functionCell name = some f →
    ∃ p : Primitive, p.name = name ∧ e.heap.Anchored f (.primitive p)

theorem mem_roots_of_functionCell {f : Handle} (hf : e.functionCell name = some f) :
    f ∈ e.roots := by
  obtain ⟨cell, hcell, hfunction⟩ := Option.bind_eq_some_iff.mp hf
  obtain ⟨entry, he, rfl⟩ := Obarray.mem_toList_of_get? hcell
  exact mem_roots.mpr (.inr ⟨entry, he, .inr (.inr hfunction)⟩)

/-- A handle names nil exactly if it is the one handle of nil. -/
theorem Steady.get?_eq_nil_iff (hs : e.Steady) {h : Handle} :
    e.heap.get? h = some .nil ↔ h = e.nil := by
  constructor
  · intro hv
    obtain ⟨s, hslot, hvalue⟩ := Option.bind_eq_some_iff.mp hv
    obtain ⟨hplace, hgen, -⟩ := Heap.slot?_eq_some_iff.mp hslot
    have hindex : h.index = e.nil.index := UInt32.toNat_inj.mp (hs.sole _ s hplace hvalue)
    have hfirst : s.generation = 0 :=
      hs.nil.alike _ s hplace (UInt32.ofNat_toNat.trans hindex)
    have hgen' : h.generation = e.nil.generation := by
      rw [hs.nil.generation, ← hgen, hfirst]
    cases h
    simp_all
  · rintro rfl
    exact hs.nil.object

/-! What becomes of function cells. -/

theorem functionCell_intern (hi : e.obarray.Indexed) (other name : String) :
    (e.intern other).2.functionCell name = e.functionCell name :=
  bind_get?_intern hi other name fun _ => rfl

theorem functionCell_modify (hi : e.obarray.Indexed) (other : String) (f : Cell → Cell)
    (name : String) : functionCell { e with obarray := e.obarray.modify other f } name =
      if other = name then (e.obarray.get? name).bind fun c => (f c).function
      else e.functionCell name := by
  unfold functionCell
  dsimp only
  rw [Obarray.get?_modify hi]
  split
  · rename_i hname
    rw [hname, Option.bind_map]
    rfl
  · rfl

theorem functionCell_unintern (hi : e.obarray.Indexed) (other name : String) :
    (e.unintern other).2.functionCell name =
      if other = name then none else e.functionCell name := by
  unfold functionCell unintern
  dsimp only
  rw [Obarray.get?_remove hi]
  split <;> rfl

/-! What keeps an editor steady. -/

theorem Steady.alloc (hs : e.Steady) {v : Object} (hv : v ≠ .nil) :
    Steady { e with heap := (e.heap.alloc v).2 } where
  index := hs.index
  nil := hs.nil.alloc v
  sole i s hslot hvalue := by
    rcases Heap.getElem?_alloc hslot with hold | ⟨hnew, -⟩
    · exact hs.sole i s hold hvalue
    · rw [hnew] at hvalue
      exact absurd (Option.some.inj hvalue) hv
  function name f hf := by
    obtain ⟨p, hname, ha⟩ := hs.function name f hf
    exact ⟨p, hname, ha.alloc v⟩

/-- Another table of symbols, if it has no other functions. -/
theorem Steady.table (hs : e.Steady) {table : Obarray} (hi : table.Indexed)
    (hf : ∀ name f, functionCell { e with obarray := table } name = some f →
      e.functionCell name = some f) : Steady { e with obarray := table } where
  index := hi
  nil := hs.nil
  sole := hs.sole
  function name f h := hs.function name f (hf name f h)

theorem Steady.make (hs : e.Steady) (v : Object) : (e.make v).2.Steady := by
  unfold Editor.make
  split
  · exact hs
  · rename_i hv
    exact hs.alloc hv

theorem Steady.intern (hs : e.Steady) (name : String) : (e.intern name).2.Steady := by
  have hcell := functionCell_intern hs.index name
  unfold Editor.intern at hcell ⊢
  cases hn : e.obarray.get? name with
  | some cell => exact hs
  | none =>
    simp only [hn] at hcell
    have hnew : Object.symbol name ≠ .nil := by simp
    exact (hs.alloc hnew).table (hs.index.insert hn _) fun other f hf =>
      (hcell other).symm.trans hf

/-- Cells of a name are changed, but not for functions. -/
theorem Steady.modify (hs : e.Steady) (name : String) {f : Cell → Cell}
    (hsame : ∀ c, (f c).function = c.function) :
    Steady { e with obarray := e.obarray.modify name f } := by
  refine hs.table (hs.index.modify name f) fun other g hg => ?_
  rw [functionCell_modify hs.index] at hg
  split at hg
  · simp only [hsame] at hg
    exact hg
  · exact hg

theorem Steady.setVariable (hs : e.Steady) (name : String) (v : Object) :
    (e.setVariable name v).2.Steady :=
  ((hs.make v).intern name).modify name
    (f := fun cell => { cell with value := some (e.make v).1 }) fun _ => rfl

theorem Steady.unintern (hs : e.Steady) (name : String) : (e.unintern name).2.Steady := by
  refine hs.table (hs.index.remove name) fun other f hf => ?_
  have hcell := functionCell_unintern hs.index name other
  rw [show (e.unintern name).2.functionCell other = some f from hf] at hcell
  split at hcell
  · cases hcell
  · exact hcell.symm

theorem Steady.funcall (hs : e.Steady) (f : Handle) : (e.funcall f).2.Steady := by
  unfold Editor.funcall
  split
  · exact hs.make _
  · exact hs

theorem Steady.modifyPins (hs : e.Steady) (h : Handle) (f : Nat → Nat) :
    Steady { e with heap := e.heap.modifyPins h f } where
  index := hs.index
  nil := hs.nil.modifyPins h f
  sole i s hslot hvalue := by
    have hslot' : (e.heap.modifyPins h f).slots[i]? = some s := hslot
    rw [Heap.getElem?_modifyPins] at hslot'
    split at hslot'
    · obtain ⟨old, hold, rfl⟩ := Option.map_eq_some_iff.mp hslot'
      exact hs.sole i old hold hvalue
    · exact hs.sole i s hslot' hvalue
  function name g hg := by
    obtain ⟨p, hname, ha⟩ := hs.function name g hg
    exact ⟨p, hname, ha.modifyPins h f⟩

theorem Steady.buffer (hs : e.Steady) (buffer : Buffer) : Steady { e with buffer } :=
  ⟨hs.index, hs.nil, hs.sole, hs.function⟩

theorem Steady.collect (hs : e.Steady) : e.collect.2.Steady where
  index := hs.index
  nil := hs.nil.collect (mem_roots.mpr (.inl rfl))
  sole i s hslot hvalue := by
    have hslot' : (e.heap.collect e.roots).2.slots[i]? = some s := hslot
    rw [Heap.getElem?_collect] at hslot'
    obtain ⟨old, hold, rfl⟩ := Option.map_eq_some_iff.mp hslot'
    split at hvalue
    · cases hvalue
    · exact hs.sole i old hold hvalue
  function name f hf := by
    obtain ⟨p, hname, ha⟩ := hs.function name f hf
    exact ⟨p, hname, ha.collect (mem_roots_of_functionCell hf)⟩

/-- One operation. -/
theorem Op.steady (hs : e.Steady) (op : Op) : (op.apply e).Steady := by
  cases op with
  | intern name => exact hs.intern name
  | setVariable name v => exact hs.setVariable name v
  | makeString text => exact hs.make _
  | unintern name => exact hs.unintern name
  | funcall f => exact hs.funcall f
  | pin h =>
    rw [Op.apply, pin_snd]
    exact hs.modifyPins h _
  | unpin h => exact hs.modifyPins h _
  | gotoChar position => exact hs.buffer _
  | setMark position => exact hs.buffer _
  | collect => exact hs.collect

theorem steady_foldl (hs : e.Steady) (ops : List Op) : (ops.foldl Op.apply e).Steady := by
  induction ops generalizing e with
  | nil => exact hs
  | cons op ops ih => exact ih (Op.steady hs op)

/-! A new editor is steady. -/

theorem pristine_intern (hp : e.heap.Pristine) (name : String) :
    (e.intern name).2.heap.Pristine := by
  unfold intern
  split
  · exact hp
  · exact hp.alloc _

theorem pristine_definePrimitive (hp : e.heap.Pristine) (p : Primitive) :
    (e.definePrimitive p).heap.Pristine := by
  have halloc : Heap.Pristine { e with heap := (e.heap.alloc (.primitive p)).2 }.heap := hp.alloc _
  exact pristine_intern halloc p.name

theorem functionCell_definePrimitive (hs : e.Steady) (p : Primitive) (name : String) :
    (e.definePrimitive p).functionCell name =
      if p.name = name then some (e.heap.alloc (.primitive p)).1 else e.functionCell name := by
  have hnew : Object.primitive p ≠ .nil := by simp
  have halloc := hs.alloc hnew
  obtain ⟨cell, hcell, -⟩ := get?_intern halloc.index p.name
  unfold definePrimitive
  dsimp only
  rw [functionCell_modify (halloc.intern p.name).index, functionCell_intern halloc.index]
  split
  · rename_i hname
    rw [← hname, hcell]
    rfl
  · rfl

theorem Steady.definePrimitive (hs : e.Steady) (hp : e.heap.Pristine) (hr : e.Referring)
    {p : Primitive} (hf : (e.definePrimitive p).heap.Fits) : (e.definePrimitive p).Steady := by
  have hnew : Object.primitive p ≠ .nil := by simp
  have hintern := (hs.alloc hnew).intern p.name
  have hf' := (keeps_intern { e with heap := (e.heap.alloc (.primitive p)).2 } p.name).fits hf
  have hthere := (keeps_intern { e with heap := (e.heap.alloc (.primitive p)).2 } p.name).object hf
    ((keeps_alloc e (.primitive p)).referring hf' hr) _ _ (Heap.get?_alloc_new hr.heap hf')
  refine ⟨hintern.index.modify p.name _, hintern.nil, hintern.sole, fun name f h => ?_⟩
  rw [functionCell_definePrimitive hs] at h
  split at h
  · rename_i hname
    cases h
    exact ⟨p, hname, (pristine_definePrimitive hp p).anchored hthere⟩
  · have hcell := functionCell_intern (hs.alloc hnew).index p.name name
    exact hintern.function name f (hcell.trans h)

theorem steady_definePrimitives (hs : e.Steady) (hp : e.heap.Pristine) (hr : e.Referring)
    (ps : List Primitive) (hf : (ps.foldl definePrimitive e).heap.Fits) :
    (ps.foldl definePrimitive e).Steady ∧
      ∀ name, ((ps.foldl definePrimitive e).functionCell name).isSome = true ↔
        (e.functionCell name).isSome = true ∨ ∃ p ∈ ps, p.name = name := by
  induction ps generalizing e with
  | nil => exact ⟨hs, by simp⟩
  | cons p ps ih =>
    have hf' := (keeps_definePrimitives (e.definePrimitive p) ps).fits hf
    have hr' := (keeps_definePrimitive e p).referring hf' hr
    obtain ⟨hsteady, hcells⟩ :=
      ih (hs.definePrimitive hp hr hf') (pristine_definePrimitive hp p) hr' hf
    refine ⟨hsteady, fun name => ?_⟩
    rw [List.foldl_cons, hcells, functionCell_definePrimitive hs]
    by_cases hname : p.name = name
    · simp [hname]
    · simp [hname]

theorem functionCell_bare (buffer : Buffer) (name : String) :
    (bare buffer).functionCell name = none := by
  unfold functionCell
  cases hc : (bare buffer).obarray.get? name with
  | none => rfl
  | some cell =>
    have hm := (Obarray.mem_toList_iff (referring_bare buffer).index).mpr hc
    rw [toList_obarray_bare] at hm
    simp only [List.mem_cons, List.not_mem_nil, or_false, Prod.mk.injEq] at hm
    rcases hm with ⟨-, rfl⟩ | ⟨-, rfl⟩ <;> rfl

theorem pristine_bare (buffer : Buffer) : (bare buffer).heap.Pristine :=
  (Heap.pristine_empty.alloc _).alloc _

theorem steady_bare (buffer : Buffer) : (bare buffer).Steady where
  index := (referring_bare buffer).index
  nil := (pristine_bare buffer).anchored (referring_bare buffer).nil
  sole i s hs hvalue := by
    have hslots : (bare buffer).heap.slots = #[⟨0, some .nil, 0⟩, ⟨0, some .t, 0⟩] := rfl
    rw [hslots] at hs
    match i with
    | 0 => rfl
    | 1 =>
      cases hs
      cases hvalue
    | i + 2 => simp at hs
  function name f hf := by
    rw [functionCell_bare] at hf
    cases hf

theorem size_intern_le (e : Editor) (name : String) :
    (e.intern name).2.heap.slots.size ≤ e.heap.slots.size + 1 := by
  unfold intern
  split
  · exact Nat.le_succ _
  · exact Heap.size_alloc_le _ _

theorem size_definePrimitives_le (e : Editor) (ps : List Primitive) :
    (ps.foldl definePrimitive e).heap.slots.size ≤ e.heap.slots.size + 2 * ps.length := by
  induction ps generalizing e with
  | nil => exact Nat.le_refl _
  | cons p ps ih =>
    have halloc := Heap.size_alloc_le e.heap (.primitive p)
    have hintern : (e.definePrimitive p).heap.slots.size ≤
        (e.heap.alloc (.primitive p)).2.slots.size + 1 := size_intern_le _ p.name
    have hrest := ih (e.definePrimitive p)
    rw [List.foldl_cons, List.length_cons]
    omega

/-- The primitives of a new editor, which has few slots yet. -/
theorem fits_primitives (buffer : Buffer) :
    (Primitive.all.foldl definePrimitive (bare buffer)).heap.Fits := by
  have hsize := size_definePrimitives_le (bare buffer) Primitive.all
  have hbare : (bare buffer).heap.slots.size = 2 := rfl
  have hlength : Primitive.all.length = 7 := rfl
  have hroom : 16 ≤ UInt32.size := by decide
  unfold Heap.Fits
  omega

/-- After any run, also one that fills the heap, nil and the functions of names are where they
were. -/
theorem steady_run (buffer : Buffer) (ops : List Op) : (run buffer ops).Steady := by
  rw [run_eq]
  exact steady_foldl (steady_definePrimitives (steady_bare buffer) (pristine_bare buffer)
    (referring_bare buffer) Primitive.all (fits_primitives buffer)).1 _

end Editor

end EditorScripting.Host
