import Mathlib.Algebra.Order.Group.Multiset
import EditorScripting.Bridge.Refresh
import EditorScripting.Proofs.Table

/-!
Which wrappers exist. The states of a host are read as accounts of wrappers, as a relation between
multisets of handles and states; if the host's operations respect the reading, so does all that
the bridge does through them. A reading that does not look at the wrappers is an invariant of the
host.
-/
namespace EditorScripting

open Host

variable {σ : Type}

/-- The operations of a host respect the reading `B` of its states: only pins and unpins change
which wrappers exist. -/
structure Host.Interface.Tracks (host : Interface σ) (B : Multiset Handle → σ → Prop) : Prop where
  intern : ∀ {m s} name, B m s → B m (host.intern name s).2
  makeString : ∀ {m s} text, B m s → B m (host.makeString text s).2
  funcall : ∀ {m s} f, B m s → B m (host.funcall f s).2
  point : ∀ {m s}, B m s → B m (host.point s).2
  gotoChar : ∀ {m s} n, B m s → B m (host.gotoChar n s).2
  setMark : ∀ {m s} n, B m s → B m (host.setMark n s).2
  pin : ∀ {m s} h, B m s → match host.pin h s with
    | (.ok _, s) => B (h ::ₘ m) s
    | (.error _, s) => B m s
  /-- A value that is wrapped already can be pinned once more. -/
  copy : ∀ {m s} h, B m s → h ∈ m → B (h ::ₘ m) (host.pin h s).2
  unpin : ∀ {m s} h, B (h ::ₘ m) s → B m (host.unpin h s)

/-- Making wrappers and dropping them respects the reading. Nothing is said about copies. -/
structure Host.Interface.TracksNew (host : Interface σ) (B : Multiset Handle → σ → Prop) :
    Prop where
  pin : ∀ {m s} h, B m s → match host.pin h s with
    | (.ok _, s) => B (h ::ₘ m) s
    | (.error _, s) => B m s
  unpin : ∀ {m s} h, B (h ::ₘ m) s → B m (host.unpin h s)

theorem Host.Interface.Tracks.new {host : Interface σ} {B : Multiset Handle → σ → Prop}
    (ht : host.Tracks B) : host.TracksNew B := ⟨ht.pin, ht.unpin⟩

/-- The wrapper in a value that was handed over. -/
def Marshalled.handles : Except HostError Marshalled → List Handle
  | .ok (.object h) => [h]
  | _ => []

/-- The wrappers that a dictionary holds. -/
def Dictionary.handles (d : Dictionary) : List Handle := d.entries.map (·.2)

/-- The wrappers that a report holds. -/
def Report.handles (r : Report) : List Handle := r.wrappers.map (·.2)

section

variable {host : Interface σ} {B : Multiset Handle → σ → Prop} (ht : host.Tracks B)
include ht

namespace Wrapper

theorem tracks_copies {hs : List Handle} {m : Multiset Handle} {s : σ} (hb : B m s)
    (hm : ∀ h ∈ hs, h ∈ m) : B (hs + m) (hs.foldl (fun s h => copy host h s) s) := by
  induction hs generalizing m s with
  | nil => simpa using hb
  | cons h hs ih =>
    have hcopy := ht.copy h hb (hm h (by simp))
    have hrest := ih hcopy fun g hg => Multiset.mem_cons_of_mem (hm g (by simp [hg]))
    rw [← Multiset.cons_coe, Multiset.cons_add, ← Multiset.add_cons]
    exact hrest

omit ht in
theorem tracks_drops (hn : host.TracksNew B) {hs : List Handle} {m : Multiset Handle} {s : σ}
    (hb : B (hs + m) s) : B m (hs.foldl (fun s h => drop host h s) s) := by
  induction hs generalizing s with
  | nil => simpa using hb
  | cons h hs ih =>
    rw [← Multiset.cons_coe, Multiset.cons_add] at hb
    exact ih (hn.unpin h hb)

theorem tracks_marshal {m : Multiset Handle} {s : σ} (h : Handle) (hb : B m s) :
    B (Marshalled.handles (marshal host h s).1 + m) (marshal host h s).2 := by
  have hpin := ht.pin h hb
  unfold marshal new
  split
  · simpa [Marshalled.handles] using hb
  split
  · simpa [Marshalled.handles] using hb
  · simpa [Marshalled.handles] using hb
  split
  · simpa [Marshalled.handles] using hb
  · simpa [Marshalled.handles] using hb
  split <;> rename_i hp <;> rw [hp] at hpin
  · simpa [Marshalled.handles] using hpin
  · simpa [Marshalled.handles] using hpin

theorem tracks_invoke {m : Multiset Handle} {s : σ} (h : Handle) (hb : B m s) :
    B (Marshalled.handles (invoke host h s).1 + m) (invoke host h s).2 := by
  have hcall := ht.funcall h hb
  unfold invoke
  split
  · simpa [Marshalled.handles] using hb
  · split <;> simpa [Marshalled.handles] using hb
  · split <;> rename_i hc <;> rw [hc] at hcall
    · exact tracks_marshal ht _ hcall
    · simpa [Marshalled.handles] using hcall

end Wrapper

namespace Dictionary

omit ht in
theorem handles_of_getElem? {d : Dictionary} {name : String} {h : Handle}
    (hd : d[name]? = some h) : (d.handles : Multiset Handle) = h ::ₘ handles (d.erase name) :=
  Multiset.coe_eq_coe.mpr ((Table.toList_perm_erase hd).map fun e : String × Handle => e.2)

omit ht in
theorem handles_insert (d : Dictionary) (name : String) (h : Handle) :
    (handles (d.insert name h) : Multiset Handle) = h ::ₘ handles (d.erase name) :=
  Multiset.coe_eq_coe.mpr
    ((Table.toList_insert_perm_erase d name h).map fun e : String × Handle => e.2)

omit ht in
theorem handles_erase_of_none {d : Dictionary} {name : String} (hd : d[name]? = none) :
    (handles (d.erase name) : Multiset Handle) = d.handles :=
  Multiset.coe_eq_coe.mpr ((Table.toList_erase_of_none hd).map fun e : String × Handle => e.2)

omit ht in
theorem mem_handles_of_getElem? {d : Dictionary} {name : String} {h : Handle}
    (hd : d[name]? = some h) : h ∈ d.handles :=
  List.mem_map.mpr ⟨(name, h), Std.TreeMap.mem_toList_iff_getElem?_eq_some.mpr hd, rfl⟩

omit ht in
/-- What a dictionary finds is one of its wrappers, under whichever name. -/
theorem mem_handles_of_find? {d : Dictionary} {name : String} {h : Handle}
    (hd : d.find? name = some h) : h ∈ d.handles := by
  unfold find? at hd
  cases hname : d[name]? with
  | some g =>
    rw [hname] at hd
    exact mem_handles_of_getElem? (hname.trans hd)
  | none =>
    rw [hname] at hd
    exact mem_handles_of_getElem? hd

theorem tracks_install {d : Dictionary} {name : String} {h : Handle} {m : Multiset Handle} {s : σ}
    (hb : B (d.handles + m) s) (hm : h ∈ (d.handles + m : Multiset Handle)) :
    B ((install host d name h s).1.handles + m) (install host d name h s).2 := by
  have hcopy := ht.copy h hb hm
  unfold install
  dsimp only
  rw [handles_insert]
  split
  · rename_i old hold
    rw [handles_of_getElem? hold, Multiset.cons_add, Multiset.cons_swap] at hcopy
    rw [Multiset.cons_add]
    exact ht.unpin old hcopy
  · rename_i hnone
    rw [handles_erase_of_none hnone, Multiset.cons_add]
    exact hcopy

omit ht in
theorem tracks_clear (hn : host.TracksNew B) {d : Dictionary} {m : Multiset Handle} {s : σ}
    (hb : B (d.handles + m) s) : B m (d.clear host s) := by
  have hdrop := Wrapper.tracks_drops hn hb
  rw [handles, List.foldl_map] at hdrop
  exact hdrop

end Dictionary

namespace Report

omit ht in
theorem handles_empty : Report.empty.handles = [] := rfl

omit ht in
theorem handles_ok (r : Report) (name : String) (h : Handle) :
    handles { r with entries := r.entries ++ [(name, .ok h)] } = r.handles ++ [h] := by
  simp [handles, wrappers, List.filterMap_append]

omit ht in
theorem handles_error (r : Report) (name : String) (f : Failure) :
    handles { r with entries := r.entries ++ [(name, .error f)] } = r.handles := by
  simp [handles, wrappers, List.filterMap_append]

omit ht in
theorem tracks_drop (hn : host.TracksNew B) {r : Report} {m : Multiset Handle} {s : σ}
    (hb : B (r.handles + m) s) : B m (r.drop host s) := by
  have hdrop := Wrapper.tracks_drops hn hb
  rw [handles, List.foldl_map] at hdrop
  exact hdrop

end Report

namespace Bridge

section

omit ht
variable (hn : host.TracksNew B)
include hn

theorem tracks_wrapSymbol {m : Multiset Handle} {s : σ} (h : Handle) (hb : B m s) :
    match wrapSymbol host h s with
    | ((_, .ok h), s) => B (h ::ₘ m) s
    | ((_, .error _), s) => B m s := by
  have hpin := hn.pin h hb
  unfold wrapSymbol Wrapper.new
  cases host.symbolName s h with
  | error e => exact hb
  | ok found =>
    cases found with
    | none => exact hb
    | some name =>
      dsimp only
      generalize host.pin h s = r at hpin ⊢
      obtain ⟨r | r, s⟩ := r
      · exact hpin
      · exact hpin

theorem tracks_visit {reserved : String} {r : Report} {m : Multiset Handle} {s : σ} (h : Handle)
    (hb : B (r.handles + m) s) :
    B ((visit host reserved r h s).1.handles + m) (visit host reserved r h s).2 := by
  have hwrap := tracks_wrapSymbol hn h hb
  unfold visit
  generalize wrapSymbol host h s = w at hwrap ⊢
  obtain ⟨⟨name, f | g⟩, s⟩ := w
  · rw [Report.handles_error]
    exact hwrap
  · dsimp only at hwrap ⊢
    split
    · exact hn.unpin g hwrap
    · rw [Report.handles_ok, ← Multiset.coe_add, add_right_comm,
        add_comm _ (↑[g] : Multiset Handle)]
      exact hwrap

theorem tracks_scan (reserved : String) {m : Multiset Handle} {s : σ} (hb : B m s) :
    B ((scan host reserved s).1.handles + m) (scan host reserved s).2 := by
  unfold scan
  have hstart : B (Report.empty.handles + m) s := by
    rw [Report.handles_empty]
    simpa using hb
  generalize Report.empty = r at hstart ⊢
  generalize host.globalSymbols s = hs
  clear hb
  induction hs generalizing r s with
  | nil => exact hstart
  | cons h hs ih => exact ih _ (tracks_visit hn h hstart)

end

theorem tracks_install {r : Report} {d : Dictionary} {m : Multiset Handle} {s : σ}
    (hb : B (d.handles + (r.handles + m)) s) :
    B ((install host r d s).1.handles + (r.handles + m)) (install host r d s).2 := by
  have hmem : ∀ w ∈ r.wrappers, w.2 ∈ (r.handles + m : Multiset Handle) := fun w hw =>
    Multiset.mem_add.mpr (.inl (List.mem_map.mpr ⟨w, hw, rfl⟩))
  unfold install
  generalize r.wrappers = ws at hmem ⊢
  generalize (r.handles + m : Multiset Handle) = m' at hb hmem ⊢
  induction ws generalizing d s with
  | nil => exact hb
  | cons w ws ih =>
    obtain ⟨name, h⟩ := w
    have hm : h ∈ m' := hmem (name, h) (by simp)
    exact ih (Dictionary.tracks_install ht hb (Multiset.mem_add.mpr (.inr hm)))
      fun w hw => hmem w (by simp [hw])

/-- After a refresh, the wrappers of the report exist besides those of the dictionary. -/
theorem tracks_refresh {b : Bridge} {m : Multiset Handle} {s : σ}
    (hb : B (b.dictionary.handles + m) s) :
    B ((b.refresh host s).2.1.dictionary.handles + ((b.refresh host s).1.handles + m))
      (b.refresh host s).2.2 := by
  have hscan := tracks_scan ht.new b.reservedName hb
  rw [add_left_comm] at hscan
  exact tracks_install ht hscan

end Bridge

end

end EditorScripting
