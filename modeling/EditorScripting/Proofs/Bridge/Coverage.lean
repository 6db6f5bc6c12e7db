import EditorScripting.Proofs.Bridge.History
import EditorScripting.Proofs.Guest.Serving

/-!
A refresh from the editor misses no symbol. Whatever was done to the editor before, each interned
name has a live symbol that bears it, so the walk wraps them all.
-/
namespace EditorScripting

open Host

namespace Host.Editor

/-- The interned names in the order of interning. -/
def interned (e : Editor) : List String := e.obarray.toList.map (·.1)

/-- The editors differ in nothing but pins, as far as symbols are concerned. -/
structure Alike (e e' : Editor) : Prop where
  obarray : e'.obarray = e.obarray
  size : e'.heap.slots.size = e.heap.slots.size
  object : ∀ h, e'.heap.get? h = e.heap.get? h

variable {e e' : Editor}

theorem Alike.refl (e : Editor) : e.Alike e := ⟨rfl, rfl, fun _ => rfl⟩

theorem Alike.fits (ha : e.Alike e') (hf : e.heap.Fits) : e'.heap.Fits := by
  rw [Heap.Fits, ha.size]
  exact hf

theorem Alike.modifyPins (ha : e.Alike e') (h : Handle) (f : Nat → Nat) :
    e.Alike { e' with heap := e'.heap.modifyPins h f } :=
  ⟨ha.obarray, (Heap.size_modifyPins _ _ _).trans ha.size,
    fun g => (Heap.get?_modifyPins _ _ g _).trans (ha.object g)⟩

theorem Alike.pin (ha : e.Alike e') (h : Handle) : e.Alike (e'.pin h).2 := by
  rw [pin_snd]
  exact ha.modifyPins h _

theorem Alike.unpin (ha : e.Alike e') (h : Handle) : e.Alike (e'.unpin h) := ha.modifyPins h _

/-- The symbol of an interned name is the one that interning finds. -/
theorem intern_of_mem (hi : e.obarray.Indexed) {name : String} {cell : Cell}
    (hm : (name, cell) ∈ e.obarray.toList) : e.intern name = (cell.symbol, e) := by
  unfold intern
  rw [(Obarray.mem_toList_iff hi).mp hm]

theorem mem_interned {name : String} :
    name ∈ e.interned ↔ ∃ cell, (name, cell) ∈ e.obarray.toList := by
  simp [interned]

/-- What interning finds is live and bears the name. -/
theorem Referring.symbol (hr : e.Referring) {name : String} (hm : name ∈ e.interned) :
    (e.intern name).2 = e ∧ ∃ v, e.heap.get? (e.intern name).1 = some v ∧
      v.symbolName? = some name := by
  obtain ⟨cell, hcell⟩ := mem_interned.mp hm
  rw [intern_of_mem hr.index hcell]
  exact ⟨rfl, (hr.entries _ hcell).symbol⟩

theorem Referring.count_interned (hr : e.Referring) (name : String) :
    e.interned.count name = if name ∈ e.interned then 1 else 0 :=
  (Obarray.nodup_names hr.index).count

end Host.Editor

namespace Bridge

open Host.Editor

variable {e e' : Editor}

theorem wrapSymbol_of_named {h : Handle} {v : Object} {name : String}
    (hv : e.heap.get? h = some v) (hname : v.symbolName? = some name) :
    (wrapSymbol Editor.interface h e).1 = (name, .ok h) := by
  have hfound : e.symbolName h = .ok (some name) := by
    rw [symbolName, Heap.get_of_get? hv, ← hname]
    rfl
  have hpin : (e.pin h).1 = .ok () := pin_of_live (Heap.isLive_of_get? hv)
  unfold wrapSymbol
  rw [show Editor.interface.symbolName e h = .ok (some name) from hfound]
  dsimp only
  rw [show Wrapper.new Editor.interface h e = (.ok (), (e.pin h).2) from Prod.ext hpin rfl]

/-- The walk wraps the symbol of each entry, and nothing fails. -/
theorem found_of_alike (hr : e.Referring) (reserved : String) {entries : List (String × Cell)}
    (hmem : ∀ entry ∈ entries, entry ∈ e.obarray.toList) (ha : e.Alike e') :
    found Editor.interface reserved (fun _ => id) (entries.map (·.2.symbol)) e' =
      entries.map fun entry => (entry.1, .ok (e.intern entry.1).1) := by
  induction entries generalizing e' with
  | nil => rfl
  | cons entry entries ih =>
    have hentry := hmem entry List.mem_cons_self
    obtain ⟨v, hv, hname⟩ := (hr.entries entry hentry).symbol
    have hwrap := wrapSymbol_of_named ((ha.object _).trans hv) hname
    have hnext : e.Alike (visit Editor.interface reserved .empty entry.2.symbol e').2 :=
      keeps_visit (fun h _ ha => ha.pin h) (fun h _ ha => ha.unpin h) reserved _ _ ha
    rw [List.map_cons, List.map_cons, intern_of_mem hr.index hentry]
    unfold found
    rw [show (wrapSymbol Editor.interface entry.2.symbol (id e')).1 = _ from hwrap]
    exact congrArg _ (ih (fun entry he => hmem entry (List.mem_cons_of_mem _ he)) hnext)

/-- What a walk through the editor finds: each interned name in its order, with its symbol. -/
theorem found_of_referring (hr : e.Referring) (reserved : String) :
    found Editor.interface reserved (fun _ => id) e.globalSymbols e =
      e.interned.map fun name => (name, .ok (e.intern name).1) := by
  unfold globalSymbols interned
  rw [found_of_alike hr reserved (fun _ he => he) (.refl e), List.map_map]
  rfl

/-- A refresh leaves out the reserved name and nothing else. -/
theorem refresh_of_referring (hr : e.Referring) (b : Bridge) :
    (b.refresh Editor.interface e).1 =
      ⟨(e.interned.filter (· ≠ b.reservedName)).map fun name => (name, .ok (e.intern name).1),
        if b.reservedName ∈ e.interned then 1 else 0⟩ := by
  have hskips : (Report.skips b.reservedName ∘ fun name => (name, .ok (e.intern name).1)) =
      (· == b.reservedName) := by
    funext name
    simp [Report.skips, Bool.beq_eq_decide_eq]
  have hkept : ((fun entry => !Report.skips b.reservedName entry) ∘
      fun name => (name, .ok (e.intern name).1)) = fun name => decide (name ≠ b.reservedName) := by
    funext name
    simp [Report.skips]
  rw [refresh_eq_refreshAmid]
  unfold refreshAmid
  dsimp only
  rw [walk_fst, show Editor.interface.globalSymbols e = e.globalSymbols from rfl,
    found_of_referring hr]
  unfold Report.extend Report.empty
  rw [List.filter_map, List.countP_map, hskips, hkept, ← List.count, hr.count_interned,
    Nat.zero_add, List.nil_append]

/-- Every interned name is either listed or skipped. -/
theorem installed_add_skipped (hr : e.Referring) (b : Bridge) :
    (b.refresh Editor.interface e).1.installed + (b.refresh Editor.interface e).1.skipped =
      e.symbolCount := by
  have hall : e.symbolCount = e.interned.length := by
    simp [interned, symbolCount, Obarray.toList, Obarray.size]
  have hsplit := List.length_eq_countP_add_countP (· == b.reservedName) (l := e.interned)
  have hinstalled : (b.refresh Editor.interface e).1.installed =
      e.interned.countP (· ≠ b.reservedName) := by
    rw [refresh_of_referring hr, List.countP_eq_length_filter]
    simp [Report.installed, Except.isOk, Except.toBool, List.countP_map, Function.comp_def]
  rw [hinstalled, refresh_of_referring hr, hall, hsplit, ← hr.count_interned, List.count,
    Nat.add_comm]
  simp

/-- What a refresh leaves is an editor in use, and nothing but pins has changed. -/
theorem alike_refresh (he : e.Reachable) (b : Bridge) :
    e.Alike (b.refresh Editor.interface e).2.2 ∧ (b.refresh Editor.interface e).2.2.Reachable := by
  refine keeps_refresh (P := fun e' => e.Alike e' ∧ e'.Reachable) ?_ ?_ ⟨.refl e, he⟩
  · rintro h e' ⟨ha, hreach⟩
    exact ⟨ha.pin h, hreach.apply (.pin h)⟩
  · rintro h e' ⟨ha, hreach⟩
    exact ⟨ha.unpin h, hreach.apply (.unpin h)⟩

/-- A refresh covers every editor completely, whatever was done to it before and whatever the
dictionary already holds. Nothing fails; the reserved name is skipped if it is interned, and all
other names are listed in the order of interning. Afterwards each of them leads to a live wrapper of
its symbol. No two slots may share an index (`Heap.Fits`). -/
theorem refresh_covers (he : e.Reachable) (hf : e.heap.Fits) (b : Bridge) :
    let report := (b.refresh Editor.interface e).1
    let dictionary := (b.refresh Editor.interface e).2.1.dictionary
    let e' := (b.refresh Editor.interface e).2.2
    report.failures = [] ∧
    report.skipped = (if b.reservedName ∈ e.interned then 1 else 0) ∧
    report.installed + report.skipped = e.symbolCount ∧
    report.entries = (e.interned.filter (· ≠ b.reservedName)).map
      (fun name => (name, .ok (e.intern name).1)) ∧
    (∀ name ∈ e'.interned, name ≠ b.reservedName → ∃ h, dictionary[name]? = some h ∧
      e'.heap.isLive h = true ∧ e'.intern name = (h, e') ∧
      Wrapper.name Editor.interface e' h = .ok (some name)) ∧
    e'.interned = e.interned ∧ e'.Reachable ∧ e'.heap.Fits := by
  intro report dictionary e'
  have hr := he.referring hf
  obtain ⟨ha, he'⟩ := alike_refresh he b
  have hf' : e'.heap.Fits := ha.fits hf
  have hinterned : e'.interned = e.interned := by
    unfold interned
    rw [ha.obarray]
  have hreport : report = _ := refresh_of_referring hr b
  refine ⟨?_, ?_, ?_, ?_, ?_, hinterned, he', hf'⟩
  · rw [hreport]
    simp [Report.failures]
  · rw [hreport]
  · exact installed_add_skipped hr b
  · rw [hreport]
  · intro name hm hne
    obtain ⟨hsame, v, hv, hname⟩ := (he'.referring hf').symbol hm
    have hfirst : (e.intern name).1 = (e'.intern name).1 := by
      obtain ⟨cell, hcell⟩ := mem_interned.mp hm
      rw [intern_of_mem (he'.referring hf').index hcell]
      rw [ha.obarray] at hcell
      rw [intern_of_mem hr.index hcell]
    have hlast : Report.lastOf name report.entries = some (e'.intern name).1 := by
      rw [hreport, ← hfirst]
      rw [hinterned] at hm
      refine Report.lastOf_of_mem ?_ ?_
      · exact List.mem_map.mpr ⟨name, List.mem_filter.mpr ⟨hm, by simpa using hne⟩, rfl⟩
      · intro g hg
        obtain ⟨other, -, hother⟩ := List.mem_map.mp hg
        cases hother
        rfl
    have hbound : dictionary[name]? = some (e'.intern name).1 := by
      rw [getElem?_refresh Editor.interface b e name, hlast, Option.some_or]
    refine ⟨(e'.intern name).1, hbound, Heap.isLive_of_get? hv, Prod.ext rfl hsame, ?_⟩
    change e'.symbolName (e'.intern name).1 = .ok (some name)
    rw [symbolName, Heap.get_of_get? hv, ← hname]
    rfl

/-- The dictionary and the editor after a first refresh. -/
def refreshed : Report × Bridge × Editor :=
  refresh Editor.interface ⟨"t", ∅, .empty 16⟩ (run (.ofText "" none) [.intern "x"])

/-- The name is forgotten and interned anew. Its old symbol lives on, since the dictionary has
it. -/
def reborn : Editor := [Op.unintern "x", .collect, .intern "x"].foldl Op.apply refreshed.2.2

theorem refresh_covers_reborn :
    refreshed.2.1.dictionary["x"]? = some ⟨21, 0⟩ ∧ reborn.heap.isLive ⟨21, 0⟩ = true ∧
    reborn.Reachable ∧ reborn.heap.Fits ∧
    (refreshed.2.1.refresh Editor.interface reborn).1.failures = [] ∧
    (refreshed.2.1.refresh Editor.interface reborn).1.skipped = 1 ∧
    (refreshed.2.1.refresh Editor.interface reborn).2.1.dictionary["x"]? = some ⟨22, 0⟩ := by
  have hfirst : refreshed.2.2.Reachable :=
    (alike_refresh ⟨.ofText "" none, [.intern "x"], rfl⟩ _).2
  have hreach : reborn.Reachable :=
    ((hfirst.apply (.unintern "x")).apply .collect).apply (.intern "x")
  have hfits : reborn.heap.slots.size ≤ UInt32.size := by decide +kernel
  obtain ⟨hnone, hskipped, -, -, hall, hsame, -, -⟩ :=
    refresh_covers hreach hfits refreshed.2.1
  have ht : refreshed.2.1.reservedName ∈ reborn.interned := by decide +kernel
  have hx : "x" ∈ reborn.interned := by decide +kernel
  rw [← hsame] at hx
  obtain ⟨h, hbound, -, hintern, -⟩ := hall "x" hx (by decide +kernel)
  have hnew : ((refreshed.2.1.refresh Editor.interface reborn).2.2.intern "x").1 = ⟨22, 0⟩ := by
    decide +kernel
  rw [hintern] at hnew
  rw [if_pos ht] at hskipped
  refine ⟨by decide +kernel, by decide +kernel, hreach, hfits, hnone, hskipped, ?_⟩
  rw [hbound]
  exact congrArg some hnew

end Bridge

end EditorScripting
