import Mathlib.Data.List.Induction
import EditorScripting.Proofs.Editor.Access
import EditorScripting.Proofs.Editor.Index

/-!
What an editor refers to. Whatever is done to an editor, nil is there, and so is all that the table
of symbols refers to: each name has a symbol object of its own, which bears the name, and functions
are primitives.
-/
namespace EditorScripting.Host

namespace Heap

variable {α : Type} {heap : Heap α} {h : Handle} {v : α}

theorem isLive_of_get? (hv : heap.get? h = some v) : heap.isLive h = true := by
  obtain ⟨s, hs, -⟩ := Option.bind_eq_some_iff.mp hv
  exact isLive_iff.mpr ⟨s, hs⟩

theorem get_of_get? (hv : heap.get? h = some v) : heap.get h = .ok v := by
  simp [get, hv]

/-- An object stays what it is when another one is made. -/
theorem get?_alloc (hs : heap.Sound) {w : α} (hf : (heap.alloc w).2.Fits)
    (hv : heap.get? h = some v) : (heap.alloc w).2.get? h = some v := by
  have hne : h ≠ (heap.alloc w).1 := by
    rintro rfl
    rw [get?, slot?_alloc_fresh hs hf] at hv
    cases hv
  rw [get?, slot?_alloc hs hf, if_neg hne]
  exact hv

theorem get?_alloc_new (hs : heap.Sound) (hf : (heap.alloc v).2.Fits) :
    (heap.alloc v).2.get? (heap.alloc v).1 = some v := by
  rw [get?, slot?_alloc hs hf, if_pos rfl]
  rfl

/-- Pins are no part of what an object is. -/
theorem get?_modifyPins (heap : Heap α) (g h : Handle) (f : Nat → Nat) :
    (heap.modifyPins g f).get? h = heap.get? h := by
  unfold get?
  rw [slot?_modifyPins]
  split
  · rename_i he
    rw [he]
    cases heap.slot? g <;> rfl
  · rfl

theorem get?_collect {roots : List Handle} (hv : heap.get? h = some v) (hr : h ∈ roots) :
    (heap.collect roots).2.get? h = some v := by
  obtain ⟨s, hs, hv⟩ := Option.bind_eq_some_iff.mp hv
  rw [get?, slot?_collect, hs]
  simp [Option.filter_some, hr, hv]

end Heap

/-- What an entry of the table of symbols refers to is there: a symbol of its name, and a primitive
if there is a function. -/
structure Rooted (heap : Heap Object) (entry : String × Cell) : Prop where
  symbol : ∃ v, heap.get? entry.2.symbol = some v ∧ v.symbolName? = some entry.1
  value : ∀ h, entry.2.value = some h → ∃ v, heap.get? h = some v
  function : ∀ f, entry.2.function = some f → ∃ p, heap.get? f = some (.primitive p)

/-- Entries depend on nothing but the objects that they refer to. -/
theorem Rooted.mono {heap heap' : Heap Object} {entry : String × Cell} (hr : Rooted heap entry)
    (hkeep : ∀ h, h = entry.2.symbol ∨ entry.2.value = some h ∨ entry.2.function = some h →
      ∀ v, heap.get? h = some v → heap'.get? h = some v) : Rooted heap' entry where
  symbol := by
    obtain ⟨v, hv, hname⟩ := hr.symbol
    exact ⟨v, hkeep _ (.inl rfl) v hv, hname⟩
  value h hh := by
    obtain ⟨v, hv⟩ := hr.value h hh
    exact ⟨v, hkeep h (.inr (.inl hh)) v hv⟩
  function f hh := by
    obtain ⟨p, hp⟩ := hr.function f hh
    exact ⟨p, hkeep f (.inr (.inr hh)) _ hp⟩

namespace Editor

/-- Nothing that the editor refers to is missing, and names are found where they are. -/
structure Referring (e : Editor) : Prop where
  heap : e.heap.Sound
  index : e.obarray.Indexed
  nil : e.heap.get? e.nil = some .nil
  entries : ∀ entry ∈ e.obarray.toList, Rooted e.heap entry

/-- The roots of such an editor are live. -/
theorem Referring.sound {e : Editor} (hr : e.Referring) : e.Sound := by
  refine ⟨hr.heap, fun h hm => ?_⟩
  rcases mem_roots.mp hm with rfl | ⟨entry, he, rfl | hh | hh⟩
  · exact Heap.isLive_of_get? hr.nil
  · obtain ⟨v, hv, -⟩ := (hr.entries entry he).symbol
    exact Heap.isLive_of_get? hv
  · obtain ⟨v, hv⟩ := (hr.entries entry he).value h hh
    exact Heap.isLive_of_get? hv
  · obtain ⟨p, hp⟩ := (hr.entries entry he).function h hh
    exact Heap.isLive_of_get? hp

/-- The first editor becomes the second one, and all its objects are still there. -/
structure Keeps (e e' : Editor) : Prop where
  size : e.heap.slots.size ≤ e'.heap.slots.size
  referring : e'.heap.Fits → e.Referring → e'.Referring
  object : e'.heap.Fits → e.Referring → ∀ h v, e.heap.get? h = some v → e'.heap.get? h = some v

variable {e e' e'' : Editor} {name : String}

theorem Keeps.refl (e : Editor) : e.Keeps e :=
  ⟨Nat.le_refl _, fun _ hr => hr, fun _ _ _ _ hv => hv⟩

theorem Keeps.fits (hk : e.Keeps e') (hf : e'.heap.Fits) : e.heap.Fits := Nat.le_trans hk.size hf

theorem Keeps.trans (hk : e.Keeps e') (hk' : e'.Keeps e'') : e.Keeps e'' where
  size := Nat.le_trans hk.size hk'.size
  referring hf hr := hk'.referring hf (hk.referring (hk'.fits hf) hr)
  object hf hr h v hv :=
    hk'.object hf (hk.referring (hk'.fits hf) hr) h v (hk.object (hk'.fits hf) hr h v hv)

/-- Another table of symbols, if what its entries refer to is there. -/
theorem Keeps.table (hk : e.Keeps e') {table : Obarray}
    (hindex : e'.obarray.Indexed → table.Indexed)
    (hentries : e'.heap.Fits → e.Referring → ∀ entry ∈ table.toList, Rooted e'.heap entry) :
    e.Keeps { e' with obarray := table } where
  size := hk.size
  referring hf hr := by
    have hr' := hk.referring hf hr
    exact ⟨hr'.heap, hindex hr'.index, hr'.nil, hentries hf hr⟩
  object := hk.object

theorem keeps_alloc (e : Editor) (v : Object) :
    e.Keeps { e with heap := (e.heap.alloc v).2 } where
  size := Heap.size_alloc v
  referring hf hr :=
    ⟨hr.heap.alloc v, hr.index, Heap.get?_alloc hr.heap hf hr.nil, fun entry he =>
      (hr.entries entry he).mono fun _ _ _ hv => Heap.get?_alloc hr.heap hf hv⟩
  object hf hr _ _ hv := Heap.get?_alloc hr.heap hf hv

theorem keeps_intern (e : Editor) (name : String) : e.Keeps (e.intern name).2 := by
  unfold intern
  cases hn : e.obarray.get? name with
  | some cell => exact .refl e
  | none =>
    refine (keeps_alloc e (.symbol name)).table (fun hi => hi.insert hn _) fun hf hr entry he => ?_
    have halloc := (keeps_alloc e (.symbol name)).referring hf hr
    rcases Obarray.mem_toList_insert.mp he with he | rfl
    · exact halloc.entries entry he
    · exact ⟨⟨_, Heap.get?_alloc_new hr.heap hf, rfl⟩, nofun, nofun⟩

/-- The table finds the symbol that was asked for. -/
theorem get?_intern (hi : e.obarray.Indexed) (name : String) :
    ∃ cell, (e.intern name).2.obarray.get? name = some cell ∧
      cell.symbol = (e.intern name).1 := by
  unfold intern
  cases hn : e.obarray.get? name with
  | some cell => exact ⟨cell, hn, rfl⟩
  | none =>
    refine ⟨⟨_, none, none⟩, ?_, rfl⟩
    exact (Obarray.mem_toList_iff (hi.insert hn _)).mp (Obarray.mem_toList_insert.mpr (.inr rfl))

theorem keeps_make (e : Editor) (v : Object) : e.Keeps (e.make v).2 := by
  unfold make
  split
  · exact .refl e
  · exact keeps_alloc e v

/-- What was made is there. -/
theorem get?_make {v : Object} (hf : (e.make v).2.heap.Fits) (hr : e.Referring) :
    (e.make v).2.heap.get? (e.make v).1 = some v := by
  cases v with
  | nil => exact hr.nil
  | _ => exact Heap.get?_alloc_new hr.heap hf

/-- Changing a cell, if what it refers to afterwards is there. -/
theorem Keeps.modify (hk : e.Keeps e') {f : Cell → Cell}
    (hcell : e'.heap.Fits → e.Referring → ∀ entry, Rooted e'.heap entry →
      Rooted e'.heap (entry.1, f entry.2)) :
    e.Keeps { e' with obarray := e'.obarray.modify name f } := by
  refine hk.table (fun hi => hi.modify name f) fun hf hr entry he => ?_
  have hr' := hk.referring hf hr
  rcases Obarray.mem_toList_modify he with hsame | ⟨old, hold, rfl⟩
  · exact hr'.entries entry hsame
  · exact hcell hf hr old (hr'.entries old hold)

theorem keeps_setVariable (e : Editor) (name : String) (v : Object) :
    e.Keeps (e.setVariable name v).2 := by
  have hmake := keeps_make e v
  have hintern := keeps_intern (e.make v).2 name
  refine (hmake.trans hintern).modify fun hf hr entry he => ?_
  have hf' := hintern.fits hf
  have hnew := hintern.object hf (hmake.referring hf' hr) _ _ (get?_make hf' hr)
  exact ⟨he.symbol, fun h hh => ⟨v, Option.some.inj hh ▸ hnew⟩, he.function⟩

theorem keeps_definePrimitive (e : Editor) (p : Primitive) : e.Keeps (e.definePrimitive p) := by
  have halloc := keeps_alloc e (.primitive p)
  have hintern := keeps_intern { e with heap := (e.heap.alloc (.primitive p)).2 } p.name
  refine (halloc.trans hintern).modify fun hf hr entry he => ?_
  have hf' := hintern.fits hf
  have hnew := hintern.object hf (halloc.referring hf' hr) _ _ (Heap.get?_alloc_new hr.heap hf')
  exact ⟨he.symbol, he.value, fun f hh => ⟨p, Option.some.inj hh ▸ hnew⟩⟩

theorem keeps_unintern (e : Editor) (name : String) : e.Keeps (e.unintern name).2 :=
  (Keeps.refl e).table (fun hi => hi.remove name) fun _ hr entry he =>
    hr.entries entry (Obarray.mem_toList_of_remove he)

theorem keeps_funcall (e : Editor) (f : Handle) : e.Keeps (e.funcall f).2 := by
  unfold funcall
  split
  · exact keeps_make e _
  · exact .refl e

theorem pin_snd (e : Editor) (h : Handle) :
    (e.pin h).2 = { e with heap := e.heap.modifyPins h (· + 1) } := by
  unfold pin
  rw [← Heap.pin_snd]

theorem unpin_pin (e : Editor) (h : Handle) : (e.pin h).2.unpin h = e := by
  rw [pin_snd, ← Heap.pin_snd]
  unfold unpin
  rw [Heap.unpin_pin]

theorem foldl_unpin_comm (e : Editor) (hs : List Handle) (h : Handle) :
    hs.foldl unpin (e.unpin h) = (hs.foldl unpin e).unpin h := by
  induction hs generalizing e with
  | nil => rfl
  | cons g hs ih =>
    have hcomm : (e.unpin h).unpin g = (e.unpin g).unpin h := by
      unfold unpin
      rw [Heap.unpin_comm]
    rw [List.foldl_cons, List.foldl_cons, hcomm, ih]

theorem pinCount_foldl_unpin (e : Editor) (hs : List Handle) (h : Handle) :
    (hs.foldl unpin e).heap.pinCount h = e.heap.pinCount h - hs.count h := by
  induction hs generalizing e with
  | nil => rfl
  | cons g hs ih =>
    rw [List.foldl_cons, ih, unpin, Heap.pinCount_unpin, List.count_cons, Nat.sub_sub, Nat.add_comm]
    by_cases hg : h = g
    · simp [hg]
    · simp [hg, Ne.symm hg]

theorem keeps_modifyPins (e : Editor) (h : Handle) (f : Nat → Nat) :
    e.Keeps { e with heap := e.heap.modifyPins h f } where
  size := Nat.le_of_eq (Heap.size_modifyPins e.heap h f).symm
  referring _ hr :=
    ⟨hr.heap.modifyPins h f, hr.index, (Heap.get?_modifyPins _ _ _ _).trans hr.nil,
      fun entry he => (hr.entries entry he).mono fun g _ _ hv =>
        (Heap.get?_modifyPins _ _ g _).trans hv⟩
  object _ _ g _ hv := (Heap.get?_modifyPins _ _ g _).trans hv

theorem keeps_buffer (e : Editor) (buffer : Buffer) : e.Keeps { e with buffer } where
  size := Nat.le_refl _
  referring _ hr := ⟨hr.heap, hr.index, hr.nil, hr.entries⟩
  object _ _ _ _ hv := hv

/-- A collection takes nothing that the editor refers to. -/
theorem Referring.collect (hr : e.Referring) (hf : e.heap.Fits) : e.collect.2.Referring where
  heap := hr.heap.collect hf _
  index := hr.index
  nil := Heap.get?_collect hr.nil (mem_roots.mpr (.inl rfl))
  entries entry he := (hr.entries entry he).mono fun _ hh _ hv =>
    Heap.get?_collect hv (mem_roots.mpr (.inr ⟨entry, he, hh⟩))

/-! Runs. -/

/-- What can be done to an editor. -/
inductive Op where
  | intern (name : String)
  | setVariable (name : String) (value : Object)
  | makeString (text : String)
  | unintern (name : String)
  | funcall (f : Handle)
  | pin (h : Handle)
  | unpin (h : Handle)
  | gotoChar (position : Int)
  | setMark (position : Int)
  | collect

def Op.apply (e : Editor) : Op → Editor
  | intern name => (e.intern name).2
  | setVariable name value => (e.setVariable name value).2
  | makeString text => (e.makeString text).2
  | unintern name => (e.unintern name).2
  | funcall f => (e.funcall f).2
  | pin h => (e.pin h).2
  | unpin h => e.unpin h
  | gotoChar position => (e.gotoChar position).2
  | setMark position => (e.setMark position).2
  | collect => e.collect.2

/-- A new editor on a buffer after some operations. -/
def run (buffer : Buffer) (ops : List Op) : Editor := ops.foldl Op.apply (ofBuffer buffer)

theorem run_concat (buffer : Buffer) (ops : List Op) (op : Op) :
    run buffer (ops ++ [op]) = op.apply (run buffer ops) := by
  simp [run]

/-- All operations but a collection keep every object. -/
theorem Op.keeps {op : Op} (hop : op ≠ .collect) (e : Editor) : e.Keeps (op.apply e) := by
  cases op with
  | intern name => exact keeps_intern e name
  | setVariable name value => exact keeps_setVariable e name value
  | makeString text => exact keeps_make e _
  | unintern name => exact keeps_unintern e name
  | funcall f => exact keeps_funcall e f
  | pin h =>
    rw [Op.apply, pin_snd]
    exact keeps_modifyPins e h _
  | unpin h => exact keeps_modifyPins e h _
  | gotoChar position => exact keeps_buffer e _
  | setMark position => exact keeps_buffer e _
  | collect => exact absurd rfl hop

theorem Op.size_le (op : Op) (e : Editor) :
    e.heap.slots.size ≤ (op.apply e).heap.slots.size := by
  by_cases hop : op = .collect
  · subst hop
    exact Nat.le_of_eq (Heap.size_collect e.heap e.roots).symm
  · exact (Op.keeps hop e).size

/-- One operation. -/
theorem Op.referring {op : Op} (hf : (op.apply e).heap.Fits) (hr : e.Referring) :
    (op.apply e).Referring := by
  by_cases hop : op = .collect
  · subst hop
    exact hr.collect (Nat.le_trans (Op.size_le .collect e) hf)
  · exact (Op.keeps hop e).referring hf hr

theorem referring_bare (buffer : Buffer) : (bare buffer).Referring := by
  have hnil : (bare buffer).heap.get? ⟨0, 0⟩ = some .nil := rfl
  have ht : (bare buffer).heap.get? ⟨1, 0⟩ = some .t := rfl
  refine ⟨(Heap.sound_empty.alloc _).alloc _, ?_, hnil, fun entry he => ?_⟩
  · have hnew : ((Obarray.empty.insert "nil" ⟨0, 0⟩).modify "nil" fun c =>
        { c with value := some ⟨0, 0⟩ }).get? "t" = none := by decide +kernel
    have hfree : Obarray.empty.get? "nil" = none := rfl
    have hfirst := (Obarray.indexed_empty.insert hfree ⟨0, 0⟩).modify "nil" fun c =>
      { c with value := some ⟨0, 0⟩ }
    exact (hfirst.insert hnew ⟨1, 0⟩).modify "t" _
  · rw [toList_obarray_bare] at he
    simp only [List.mem_cons, List.not_mem_nil, or_false] at he
    rcases he with rfl | rfl
    · exact ⟨⟨_, hnil, rfl⟩, fun h hh => ⟨_, Option.some.inj hh ▸ hnil⟩, nofun⟩
    · exact ⟨⟨_, ht, rfl⟩, fun h hh => ⟨_, Option.some.inj hh ▸ ht⟩, nofun⟩

theorem keeps_definePrimitives (e : Editor) (ps : List Primitive) :
    e.Keeps (ps.foldl definePrimitive e) := by
  induction ps generalizing e with
  | nil => exact .refl e
  | cons p ps ih => exact (keeps_definePrimitive e p).trans (ih _)

/-- A new editor is made from the bare one without losing anything. -/
theorem keeps_ofBuffer (buffer : Buffer) : (bare buffer).Keeps (ofBuffer buffer) := by
  have hstart := keeps_definePrimitives (bare buffer) Primitive.all
  unfold ofBuffer
  generalize Primitive.all.foldl definePrimitive (bare buffer) = e at hstart ⊢
  have hfill := hstart.trans (keeps_setVariable e "fill-column" (.integer 70))
  dsimp only
  generalize (e.setVariable "fill-column" (.integer 70)).2 = e at hfill ⊢
  have htab := hfill.trans (keeps_setVariable e "tab-width" (.integer 8))
  generalize (e.setVariable "tab-width" (.integer 8)).2 = e at htab ⊢
  exact htab.trans (keeps_setVariable e _ _)

/-- Nothing is missing after any run, while slots have indices of their own. -/
theorem referring_run {buffer : Buffer} {ops : List Op} (hf : (run buffer ops).heap.Fits) :
    (run buffer ops).Referring := by
  induction ops using List.reverseRecOn with
  | nil =>
    rw [show run buffer [] = ofBuffer buffer from rfl] at hf ⊢
    exact (keeps_ofBuffer buffer).referring hf (referring_bare buffer)
  | append_singleton ops op ih =>
    rw [run_concat] at hf ⊢
    exact Op.referring hf (ih (Nat.le_trans (op.size_le _) hf))

/-- Interning finds or makes a symbol that bears the name. -/
theorem symbolName_intern (hr : e.Referring) (hf : (e.intern name).2.heap.Fits) :
    (e.intern name).2.heap.isLive (e.intern name).1 = true ∧
      (e.intern name).2.symbolName (e.intern name).1 = .ok (some name) := by
  obtain ⟨cell, hcell, hsymbol⟩ := get?_intern hr.index name
  have hr' := (keeps_intern e name).referring hf hr
  have hentry := (Obarray.mem_toList_iff hr'.index).mpr hcell
  obtain ⟨v, hv, hname⟩ := (hr'.entries _ hentry).symbol
  rw [← hsymbol]
  refine ⟨Heap.isLive_of_get? hv, ?_⟩
  rw [symbolName, Heap.get_of_get? hv, ← hname]
  rfl

/-- Two names never share a symbol, since a symbol bears one name only. -/
theorem Referring.nodup_globalSymbols (hr : e.Referring) : e.globalSymbols.Nodup := by
  have hnames := Obarray.nodup_names hr.index
  rw [List.nodup_iff_pairwise_ne, List.pairwise_map] at hnames
  rw [globalSymbols, List.nodup_iff_pairwise_ne, List.pairwise_map]
  refine hnames.imp_of_mem fun {a b} ha hb hne hsame => hne ?_
  obtain ⟨v, hv, hname⟩ := (hr.entries a ha).symbol
  obtain ⟨w, hw, hname'⟩ := (hr.entries b hb).symbol
  rw [hsame, hw] at hv
  rw [← Option.some.inj hv, hname'] at hname
  exact (Option.some.inj hname).symm

theorem funcall_ne_reclaimed {h : Handle} (hs : e.Sound) (hl : e.heap.isLive h = true)
    (g : Handle) : (e.funcall h).1 ≠ .error (.reclaimed g) := by
  have hne := resolve_ne_reclaimed hs hl g
  unfold funcall
  split
  · simp
  · rename_i hr
    exact fun he => hne (by rw [hr, Except.error.inj he])

theorem isCallable_ne_reclaimed {h : Handle} (hs : e.Sound) (hl : e.heap.isLive h = true)
    (g : Handle) : e.isCallable h ≠ .error (.reclaimed g) := by
  obtain ⟨b, hb⟩ := isCallable_of_live hs hl
  rw [hb]
  simp

/-- The handles that the editor itself holds never dangle. After any run, nil is there; the table
has one entry for a name; the symbol of an entry bears its name and is its own, its value is there,
and its function is a primitive. So interning yields a symbol of the name, and calling a live handle
never meets a reclaimed one. Once there are more slots than indices none of this holds any more, see
`intern_of_full`. -/
theorem references_run {buffer : Buffer} {ops : List Op} (hf : (run buffer ops).heap.Fits) :
    let e := run buffer ops
    (e.heap.isLive e.nil = true ∧ e.heap.get e.nil = .ok .nil) ∧
    (e.obarray.toList.map (·.1)).Nodup ∧ e.globalSymbols.Nodup ∧
    (∀ name cell, (name, cell) ∈ e.obarray.toList →
      e.heap.isLive cell.symbol = true ∧ e.symbolName cell.symbol = .ok (some name) ∧
      (∀ h, cell.value = some h → e.heap.isLive h = true) ∧
      ∀ f, cell.function = some f →
        e.heap.isLive f = true ∧ ∃ p, e.heap.get f = .ok (.primitive p)) ∧
    (∀ name, (e.intern name).2.heap.Fits →
      (e.intern name).2.heap.isLive (e.intern name).1 = true ∧
      (e.intern name).2.symbolName (e.intern name).1 = .ok (some name)) ∧
    ∀ h, e.heap.isLive h = true → ∀ g,
      (e.funcall h).1 ≠ .error (.reclaimed g) ∧ e.isCallable h ≠ .error (.reclaimed g) := by
  have hr := referring_run hf
  intro e
  refine ⟨⟨Heap.isLive_of_get? hr.nil, Heap.get_of_get? hr.nil⟩, Obarray.nodup_names hr.index,
    hr.nodup_globalSymbols, fun name cell he => ?_, fun name => symbolName_intern hr,
    fun h hl g => ⟨funcall_ne_reclaimed hr.sound hl g, isCallable_ne_reclaimed hr.sound hl g⟩⟩
  have hentry := hr.entries _ he
  obtain ⟨v, hv, hname⟩ := hentry.symbol
  refine ⟨Heap.isLive_of_get? hv, ?_, fun h hh => ?_, fun f hh => ?_⟩
  · rw [symbolName, Heap.get_of_get? hv, ← hname]
    rfl
  · obtain ⟨w, hw⟩ := hentry.value h hh
    exact Heap.isLive_of_get? hw
  · obtain ⟨p, hp⟩ := hentry.function f hh
    exact ⟨Heap.isLive_of_get? hp, p, Heap.get_of_get? hp⟩

/-- A variable is given another value, nil and a primitive are forgotten, and the name nil is interned
anew after a collection. -/
def renamed : List Op :=
  [.setVariable "x" (.string "old"), .setVariable "x" (.integer 1), .unintern "nil",
    .unintern "point", .collect, .intern "nil"]

/-- The new symbol of that name is in the slot of the old value, and nil is still there. -/
theorem references_run_renamed :
    (run (.ofText "" none) renamed).heap.Fits ∧
    (run (.ofText "" none) renamed).heap.get (run (.ofText "" none) renamed).nil = .ok .nil ∧
    (run (.ofText "" none) renamed).symbolName ⟨21, 1⟩ = .ok (some "nil") ∧
    (run (.ofText "" none) renamed).heap.isLive ⟨21, 0⟩ = false := by
  have hsize : (run (.ofText "" none) renamed).heap.slots.size ≤ UInt32.size := by decide +kernel
  have hcell : (run (.ofText "" none) renamed).obarray.toList.getLast? =
      some ("nil", ⟨⟨21, 1⟩, none, none⟩) := by decide +kernel
  obtain ⟨hnil, -, -, hentries, -, -⟩ := references_run hsize
  obtain ⟨-, hname, -, -⟩ := hentries "nil" _ (List.mem_of_getLast? hcell)
  exact ⟨hsize, hnil.2, hname, by decide +kernel⟩

/-- In a heap with as many slots as indices, the next new symbol gets the handle of the very first
object, so another object goes by the name. -/
theorem intern_of_full (hn : e.obarray.get? name = none) (hfree : e.heap.free = [])
    (hfull : e.heap.slots.size = UInt32.size) : (e.intern name).1 = ⟨0, 0⟩ := by
  unfold intern
  rw [hn]
  dsimp only
  rw [Heap.alloc_grow hfree, hfull]
  rfl

end Editor

end EditorScripting.Host
