import Mathlib.Algebra.Order.Group.Multiset
import Mathlib.Data.Multiset.Count
import EditorScripting.Host.Editor
import EditorScripting.Proofs.Heap.Slots

/-!
Pins of an editor. What the editor itself refers to is live, and no operation but pinning and
unpinning changes how often a handle is pinned: a new object has no pins, and a collection takes
only what has none.
-/
namespace EditorScripting.Host

namespace Obarray

theorem mem_toList_insert {table : Obarray} {name : String} {symbol : Handle} {e : String × Cell} :
    e ∈ (table.insert name symbol).toList ↔
      e ∈ table.toList ∨ e = (name, ⟨symbol, none, none⟩) := by
  simp [toList, insert]

/-- Cells that are changed are those of entries that were there. -/
theorem mem_toList_modify {table : Obarray} {name : String} {f : Cell → Cell} {e : String × Cell}
    (he : e ∈ (table.modify name f).toList) :
    e ∈ table.toList ∨ ∃ d ∈ table.toList, e = (d.1, f d.2) := by
  unfold modify at he
  split at he
  · rename_i i hi
    obtain ⟨j, hj⟩ := List.mem_iff_getElem?.mp he
    simp only [toList, Array.getElem?_toList, Array.getElem?_modify] at hj
    split at hj
    · obtain ⟨d, hd, rfl⟩ := Option.map_eq_some_iff.mp hj
      exact .inr ⟨d, List.mem_iff_getElem?.mpr ⟨j, by simpa [toList] using hd⟩, rfl⟩
    · exact .inl (List.mem_iff_getElem?.mpr ⟨j, by simpa [toList] using hj⟩)
  · exact .inl he

theorem mem_toList_of_remove {table : Obarray} {name : String} {e : String × Cell}
    (he : e ∈ (table.remove name).2.toList) : e ∈ table.toList := by
  unfold remove at he
  split at he
  · rename_i i hi
    have hsub : (table.entries.eraseIdxIfInBounds i).toList.Sublist table.entries.toList := by
      rw [Array.toList_eraseIdxIfInBounds]
      exact List.eraseIdx_sublist _ _
    exact hsub.subset he
  · exact he

theorem mem_toList_of_get? {table : Obarray} {name : String} {cell : Cell}
    (hc : table.get? name = some cell) : ∃ e ∈ table.toList, e.2 = cell := by
  obtain ⟨i, -, hi⟩ := Option.bind_eq_some_iff.mp hc
  obtain ⟨e, he, rfl⟩ := Option.map_eq_some_iff.mp hi
  exact ⟨e, List.mem_iff_getElem?.mpr ⟨i, by simpa [toList] using he⟩, rfl⟩

end Obarray

namespace Editor

theorem mem_roots {e : Editor} {h : Handle} :
    h ∈ e.roots ↔ h = e.nil ∨ ∃ d ∈ e.obarray.toList,
      h = d.2.symbol ∨ d.2.value = some h ∨ d.2.function = some h := by
  simp [roots]

/-- What the editor refers to is live. -/
structure Sound (e : Editor) : Prop where
  heap : e.heap.Sound
  live : ∀ h ∈ e.roots, e.heap.isLive h = true

/-- A later state of the editor that has lost nothing: what was live still is, and pins are as
before. -/
structure Grows (e e' : Editor) : Prop where
  size : e.heap.slots.size ≤ e'.heap.slots.size
  sound : e'.heap.Fits → e.Sound → e'.Sound
  pins : e'.heap.Fits → e.Sound → ∀ h, e'.heap.pinCount h = e.heap.pinCount h
  live : e'.heap.Fits → e.Sound → ∀ h, e.heap.isLive h = true → e'.heap.isLive h = true

theorem Grows.refl (e : Editor) : e.Grows e :=
  ⟨Nat.le_refl _, fun _ hs => hs, fun _ _ _ => rfl, fun _ _ _ hl => hl⟩

theorem Grows.fits {e e' : Editor} (hg : e.Grows e') (hf : e'.heap.Fits) : e.heap.Fits :=
  Nat.le_trans hg.size hf

theorem Grows.trans {e e' e'' : Editor} (hg : e.Grows e') (hg' : e'.Grows e'') :
    e.Grows e'' where
  size := Nat.le_trans hg.size hg'.size
  sound hf hs := hg'.sound hf (hg.sound (hg'.fits hf) hs)
  pins hf hs h := by
    rw [hg'.pins hf (hg.sound (hg'.fits hf) hs), hg.pins (hg'.fits hf) hs]
  live hf hs h hl := hg'.live hf (hg.sound (hg'.fits hf) hs) h (hg.live (hg'.fits hf) hs h hl)

/-- New entries of the table of symbols may refer to whatever is live. -/
theorem Grows.table {e e' : Editor} (hg : e.Grows e') {table : Obarray}
    (ht : e'.heap.Fits → e.Sound → ∀ d ∈ table.toList, ∀ h,
      h = d.2.symbol ∨ d.2.value = some h ∨ d.2.function = some h → e'.heap.isLive h = true) :
    e.Grows { e' with obarray := table } where
  size := hg.size
  sound hf hs := by
    refine ⟨(hg.sound hf hs).heap, fun h hr => ?_⟩
    rcases mem_roots.mp hr with rfl | ⟨d, hd, hh⟩
    · exact (hg.sound hf hs).live _ (mem_roots.mpr (.inl rfl))
    · exact ht hf hs d hd h hh
  pins := hg.pins
  live := hg.live

theorem grows_alloc (e : Editor) (v : Object) :
    e.Grows { e with heap := (e.heap.alloc v).2 } where
  size := Heap.size_alloc v
  sound hf hs := ⟨hs.heap.alloc v, fun h hr => Heap.isLive_alloc hs.heap hf (hs.live h hr)⟩
  pins hf hs := Heap.pinCount_alloc hs.heap hf
  live hf hs _ := Heap.isLive_alloc hs.heap hf

theorem grows_intern (e : Editor) (name : String) : e.Grows (e.intern name).2 := by
  unfold intern
  split
  · exact .refl e
  · refine (grows_alloc e (.symbol name)).table fun hf hs d hd h hh => ?_
    rcases Obarray.mem_toList_insert.mp hd with hd | rfl
    · exact Heap.isLive_alloc hs.heap hf (hs.live h (mem_roots.mpr (.inr ⟨d, hd, hh⟩)))
    · rcases hh with rfl | hh | hh
      · exact Heap.isLive_alloc_new hs.heap hf
      · cases hh
      · cases hh

theorem grows_make (e : Editor) (v : Object) : e.Grows (e.make v).2 := by
  unfold make
  split
  · exact .refl e
  · exact grows_alloc e v

theorem grows_makeString (e : Editor) (text : String) : e.Grows (e.makeString text).2 :=
  grows_make e (.string text)

/-- The text and its positions are no part of the heap. -/
theorem grows_buffer (e : Editor) (buffer : Buffer) : e.Grows { e with buffer } where
  size := Nat.le_refl _
  sound _ hs := ⟨hs.heap, hs.live⟩
  pins _ _ _ := rfl
  live _ _ _ hl := hl

theorem grows_gotoChar (e : Editor) (n : Int) : e.Grows (e.gotoChar n).2 := grows_buffer e _

theorem grows_setMark (e : Editor) (n : Int) : e.Grows (e.setMark n).2 := grows_buffer e _

/-- What was made is live. -/
theorem isLive_make {e : Editor} {v : Object} (hf : (e.make v).2.heap.Fits) (hs : e.Sound) :
    (e.make v).2.heap.isLive (e.make v).1 = true := by
  cases v with
  | nil => exact hs.live _ (mem_roots.mpr (.inl rfl))
  | _ => exact Heap.isLive_alloc_new hs.heap hf

/-- Changing a cell of the table to something live. -/
theorem Grows.modify {e e' : Editor} (hg : e.Grows e') {name : String} {f : Cell → Cell}
    (new : Handle) (hnew : e'.heap.Fits → e.Sound → e'.heap.isLive new = true)
    (hcell : ∀ c h, h = (f c).symbol ∨ (f c).value = some h ∨ (f c).function = some h →
      h = new ∨ h = c.symbol ∨ c.value = some h ∨ c.function = some h) :
    e.Grows { e' with obarray := e'.obarray.modify name f } := by
  refine hg.table fun hf hs d hd h hh => ?_
  have hold : ∀ d ∈ e'.obarray.toList,
      h = d.2.symbol ∨ d.2.value = some h ∨ d.2.function = some h → e'.heap.isLive h = true :=
    fun d hd hh => (hg.sound hf hs).live h (mem_roots.mpr (.inr ⟨d, hd, hh⟩))
  rcases Obarray.mem_toList_modify hd with hd | ⟨d', hd', rfl⟩
  · exact hold d hd hh
  · rcases hcell d'.2 h hh with rfl | hh
    · exact hnew hf hs
    · exact hold d' hd' hh

theorem grows_setVariable (e : Editor) (name : String) (v : Object) :
    e.Grows (e.setVariable name v).2 := by
  have hmake := grows_make e v
  have hintern := grows_intern (e.make v).2 name
  refine (hmake.trans hintern).modify (e.make v).1 (fun hf hs => ?_) fun c h hh => ?_
  · have hf' := hintern.fits hf
    exact hintern.live hf (hmake.sound hf' hs) _ (isLive_make hf' hs)
  · rcases hh with hh | hh | hh
    · exact .inr (.inl hh)
    · exact .inl (Option.some.inj hh).symm
    · exact .inr (.inr (.inr hh))

theorem grows_definePrimitive (e : Editor) (p : Primitive) : e.Grows (e.definePrimitive p) := by
  have halloc := grows_alloc e (.primitive p)
  have hintern := grows_intern { e with heap := (e.heap.alloc (.primitive p)).2 } p.name
  refine (halloc.trans hintern).modify (e.heap.alloc (.primitive p)).1
    (fun hf hs => ?_) fun c h hh => ?_
  · have hf' := hintern.fits hf
    exact hintern.live hf (halloc.sound hf' hs) _ (Heap.isLive_alloc_new hs.heap hf')
  · rcases hh with hh | hh | hh
    · exact .inr (.inl hh)
    · exact .inr (.inr (.inl hh))
    · exact .inl (Option.some.inj hh).symm

theorem grows_unintern (e : Editor) (name : String) : e.Grows (e.unintern name).2 :=
  (Grows.refl e).table fun _ hs _ hd h hh =>
    hs.live h (mem_roots.mpr (.inr ⟨_, Obarray.mem_toList_of_remove hd, hh⟩))

theorem grows_funcall (e : Editor) (f : Handle) : e.Grows (e.funcall f).2 := by
  unfold funcall
  split
  · exact grows_make e _
  · exact .refl e

theorem toList_obarray_bare (buffer : Buffer) :
    (bare buffer).obarray.toList =
      [("nil", ⟨⟨0, 0⟩, some ⟨0, 0⟩, none⟩), ("t", ⟨⟨1, 0⟩, some ⟨1, 0⟩, none⟩)] := by
  have hsame : (bare buffer).obarray = (bare ⟨"", none, 1, none⟩).obarray := rfl
  rw [hsame]
  decide +kernel

/-- The editor is sound before it knows any primitive. -/
theorem sound_bare (buffer : Buffer) : (bare buffer).Sound := by
  have hnil : (bare buffer).heap.isLive ⟨0, 0⟩ = true := rfl
  have ht : (bare buffer).heap.isLive ⟨1, 0⟩ = true := rfl
  refine ⟨(Heap.sound_empty.alloc _).alloc _, fun h hr => ?_⟩
  rcases mem_roots.mp hr with rfl | ⟨d, hd, hh⟩
  · exact hnil
  · rw [toList_obarray_bare] at hd
    simp only [List.mem_cons, List.not_mem_nil, or_false] at hd
    rcases hd with rfl | rfl
    · simp only [Option.some.injEq, reduceCtorEq, or_false] at hh
      rcases hh with rfl | rfl <;> exact hnil
    · simp only [Option.some.injEq, reduceCtorEq, or_false] at hh
      rcases hh with rfl | rfl <;> exact ht

theorem pinCount_bare (buffer : Buffer) (h : Handle) : (bare buffer).heap.pinCount h = 0 := by
  have hfirst : ((Heap.empty.alloc Object.nil).2).Fits := by
    unfold Heap.Fits
    decide
  have hsecond : ((Heap.empty.alloc Object.nil).2.alloc Object.t).2.Fits := by
    unfold Heap.Fits
    decide
  exact (Heap.pinCount_alloc (Heap.sound_empty.alloc _) hsecond h).trans
    (Heap.pinCount_alloc Heap.sound_empty hfirst h)

/-- While slots have indices of their own, the editor is sound, and every handle is pinned as often
as the account `m` says. -/
def Balanced (m : Multiset Handle) (e : Editor) : Prop :=
  e.heap.Fits → e.Sound ∧ ∀ h, e.heap.pinCount h = m.count h

theorem Balanced.of_grows {m : Multiset Handle} {e e' : Editor} (hb : e.Balanced m)
    (hg : e.Grows e') : e'.Balanced m := by
  intro hf
  obtain ⟨hs, hp⟩ := hb (hg.fits hf)
  exact ⟨hg.sound hf hs, fun h => (hg.pins hf hs h).trans (hp h)⟩

/-- Whatever is in the account is live. -/
theorem Balanced.live {m : Multiset Handle} {e : Editor} (hb : e.Balanced m) (hf : e.heap.Fits)
    {h : Handle} (hm : h ∈ m) : e.heap.isLive h = true := by
  refine Heap.isLive_of_pinCount_pos ?_
  rw [(hb hf).2 h]
  exact Multiset.count_pos.mpr hm

theorem fits_pins {e : Editor} {h : Handle} {f : Nat → Nat}
    (hf : (e.heap.modifyPins h f).Fits) : e.heap.Fits := by
  unfold Heap.Fits at hf
  rw [Heap.size_modifyPins] at hf
  exact hf

theorem Sound.modifyPins {e : Editor} (hs : e.Sound) (h : Handle) (f : Nat → Nat) :
    Sound { e with heap := e.heap.modifyPins h f } :=
  ⟨hs.heap.modifyPins h f, fun g hg => (Heap.isLive_modifyPins _ _ _ _).trans (hs.live g hg)⟩

theorem Balanced.pin {m : Multiset Handle} {e : Editor} (hb : e.Balanced m) (h : Handle) :
    match e.pin h with
    | (.ok _, e) => e.Balanced (h ::ₘ m)
    | (.error _, e) => e.Balanced m := by
  cases hl : e.heap.isLive h with
  | false =>
    have hpin : e.pin h = (.error (.reclaimed h), e) := by
      simp [Editor.pin, Heap.pin, hl]
    rw [hpin]
    exact hb
  | true =>
    have hpin : e.pin h = (.ok (), { e with heap := e.heap.modifyPins h (· + 1) }) := by
      simp [Editor.pin, Heap.pin, hl]
    rw [hpin]
    intro hf
    obtain ⟨hs, hp⟩ := hb (fits_pins hf)
    refine ⟨hs.modifyPins h _, fun g => ?_⟩
    rw [Heap.pinCount_modifyPins hl, hp, hp, Multiset.count_cons]
    split
    · rename_i hg
      rw [hg]
    · rfl

/-- One more pin on what is in the account succeeds. -/
theorem Balanced.pin_of_mem {m : Multiset Handle} {e : Editor} (hb : e.Balanced m) {h : Handle}
    (hm : h ∈ m) : (e.pin h).2.Balanced (h ::ₘ m) := by
  intro hf
  have hpin := hb.pin h
  have hl : e.heap.isLive h = true := by
    refine hb.live ?_ hm
    rw [show (e.pin h).2.heap = e.heap.modifyPins h (· + 1) from Heap.pin_snd e.heap h] at hf
    exact fits_pins hf
  rw [show e.pin h = (.ok (), { e with heap := e.heap.modifyPins h (· + 1) }) by
    simp [Editor.pin, Heap.pin, hl]] at hpin hf ⊢
  exact hpin hf

theorem Balanced.unpin {m : Multiset Handle} {e : Editor} {h : Handle}
    (hb : e.Balanced (h ::ₘ m)) : (e.unpin h).Balanced m := by
  intro hf
  have hf' : e.heap.Fits := fits_pins hf
  obtain ⟨hs, hp⟩ := hb hf'
  have hl := hb.live hf' (Multiset.mem_cons_self h m)
  refine ⟨hs.modifyPins h _, fun g => ?_⟩
  have hg := hp g
  rw [Multiset.count_cons] at hg
  unfold Editor.unpin Heap.unpin
  dsimp only
  rw [Heap.pinCount_modifyPins hl]
  split
  · rename_i he
    rw [← he, hg, if_pos he, Nat.add_sub_cancel]
  · rename_i he
    rw [hg, if_neg he, Nat.add_zero]

theorem Balanced.collect {m : Multiset Handle} {e : Editor} (hb : e.Balanced m) :
    e.collect.2.Balanced m := by
  intro hf
  have hf' : e.heap.Fits := by
    unfold Heap.Fits at hf
    rw [show e.collect.2.heap = (e.heap.collect e.roots).2 from rfl, Heap.size_collect] at hf
    exact hf
  obtain ⟨hs, hp⟩ := hb hf'
  refine ⟨⟨hs.heap.collect hf' _, fun h hr => ?_⟩, fun h => ?_⟩
  · exact Heap.isLive_collect (hs.live h hr) hr
  · exact (Heap.pinCount_collect _ _ h).trans (hp h)

theorem balanced_bare (buffer : Buffer) : (bare buffer).Balanced 0 := fun _ =>
  ⟨sound_bare buffer, fun h => by rw [pinCount_bare, Multiset.count_zero]⟩

theorem Balanced.definePrimitives {m : Multiset Handle} {e : Editor} (hb : e.Balanced m)
    (ps : List Primitive) : (ps.foldl definePrimitive e).Balanced m := by
  induction ps generalizing e with
  | nil => exact hb
  | cons p ps ih => exact ih (hb.of_grows (grows_definePrimitive e p))

/-- A new editor has pinned nothing. -/
theorem balanced_ofBuffer (buffer : Buffer) : (ofBuffer buffer).Balanced 0 := by
  have hstart := (balanced_bare buffer).definePrimitives Primitive.all
  unfold ofBuffer
  generalize Primitive.all.foldl definePrimitive (bare buffer) = e at hstart ⊢
  have hfill := hstart.of_grows (grows_setVariable e "fill-column" (.integer 70))
  dsimp only
  generalize e.setVariable "fill-column" (.integer 70) = r at hfill ⊢
  obtain ⟨_, e⟩ := r
  have htab := hfill.of_grows (grows_setVariable e "tab-width" (.integer 8))
  dsimp only
  generalize e.setVariable "tab-width" (.integer 8) = r at htab ⊢
  obtain ⟨_, e⟩ := r
  exact htab.of_grows (grows_setVariable e _ _)

end Editor

end EditorScripting.Host
