import EditorScripting.Proofs.Editor.Anchored
import EditorScripting.Proofs.Editor.Sentinel

/-!
What can be called. Functions belong to names: a symbol calls the function in the cell of its name,
whether or not it is the symbol of that name in the table. Function cells are filled in a new editor
only, so a name has its function until it is removed from the table, and never again.
-/
namespace EditorScripting.Host.Editor

variable {e : Editor} {h : Handle} {name : String}

/-! How a value is resolved. -/

/-- The ways in which looking for the primitive behind a handle ends. -/
inductive Resolution (e : Editor) (h : Handle) : Except HostError Primitive → Prop
  | stale (hl : e.heap.isLive h = false) : Resolution e h (.error (.reclaimed h))
  | primitive {p : Primitive} (hv : e.heap.get h = .ok (.primitive p)) : Resolution e h (.ok p)
  | function {name : String} {f : Handle} {p : Primitive}
      (hn : e.symbolName h = .ok (some name)) (hc : e.functionCell name = some f)
      (hp : e.heap.get f = .ok (.primitive p)) : Resolution e h (.ok p)
  | void {name : String} (hn : e.symbolName h = .ok (some name))
      (hc : e.functionCell name = none) : Resolution e h (.error (.void name))
  | other {v : Object} (hv : e.heap.get h = .ok v) (hn : v.symbolName? = none)
      (hp : ∀ p, v ≠ .primitive p) : Resolution e h (.error (.notCallable v.printed))

/-- A function that a name has is a primitive, so no search ends at a stale function or at one that
is no function. -/
theorem Steady.resolution (hs : e.Steady) (h : Handle) : Resolution e h (e.resolve h) := by
  unfold resolve
  cases hl : e.heap.isLive h with
  | false =>
    rw [Heap.get_of_not_live (Heap.isLive_eq_false_iff.mp hl)]
    exact .stale hl
  | true =>
    obtain ⟨v, hv⟩ := Heap.get_of_live hl
    rw [hv]
    simp only [bind, Except.bind]
    have hname : e.symbolName h = .ok v.symbolName? := by
      rw [symbolName, hv]
      rfl
    split
    · exact .primitive hv
    · rename_i hp
      split
      · rename_i hn
        exact .other hv hn hp
      · rename_i name hn
        rw [hn] at hname
        split
        · rename_i hc
          exact .void hname hc
        · rename_i f hc
          obtain ⟨p, -, ha⟩ := hs.function name f hc
          have hf := Heap.get_of_get? ha.object
          rw [hf]
          exact .function hname hc hf

theorem resolve_of_primitive {p : Primitive} (hv : e.heap.get h = .ok (.primitive p)) :
    e.resolve h = .ok p := by
  unfold resolve
  rw [hv]
  rfl

theorem not_primitive_of_symbolName (hn : e.symbolName h = .ok (some name)) (p : Primitive) :
    e.heap.get h ≠ .ok (.primitive p) := by
  intro hv
  rw [symbolName, hv] at hn
  cases hn

theorem isLive_of_symbolName (hn : e.symbolName h = .ok (some name)) :
    e.heap.isLive h = true := by
  by_contra hl
  rw [Bool.not_eq_true, Heap.isLive_eq_false_iff] at hl
  rw [symbolName, Heap.get_of_not_live hl] at hn
  cases hn

/-- What a symbol calls depends on nothing but its name. -/
theorem Steady.resolve_of_symbolName (hs : e.Steady) (hn : e.symbolName h = .ok (some name)) :
    (e.functionCell name = none ∧ e.resolve h = .error (.void name)) ∨
      ∃ f p, e.functionCell name = some f ∧ e.heap.get f = .ok (.primitive p) ∧
        e.resolve h = .ok p := by
  have hres := hs.resolution h
  generalize e.resolve h = r at hres
  cases hres with
  | stale hl =>
    rw [isLive_of_symbolName hn] at hl
    cases hl
  | primitive hv => exact absurd hv (not_primitive_of_symbolName hn _)
  | function hn' hc hp =>
    rw [hn] at hn'
    cases hn'
    exact .inr ⟨_, _, hc, hp, rfl⟩
  | void hn' hc =>
    rw [hn] at hn'
    cases hn'
    exact .inl ⟨hc, rfl⟩
  | @other v hv hnone _ =>
    have hname : v.symbolName? = some name := by
      rw [symbolName, hv] at hn
      exact Except.ok.inj hn
    rw [hnone] at hname
    cases hname

theorem Steady.resolve_congr (hs : e.Steady) {g : Handle}
    (hg : e.symbolName g = .ok (some name)) (hh : e.symbolName h = .ok (some name)) :
    e.resolve g = e.resolve h := by
  rcases hs.resolve_of_symbolName hg with ⟨hc, hr⟩ | ⟨f, p, hc, hp, hr⟩
  · rcases hs.resolve_of_symbolName hh with ⟨-, hr'⟩ | ⟨f, p, hc', -⟩
    · rw [hr, hr']
    · rw [hc] at hc'
      cases hc'
  · rcases hs.resolve_of_symbolName hh with ⟨hc', -⟩ | ⟨f', p', hc', hp', hr'⟩
    · rw [hc] at hc'
      cases hc'
    · rw [hc] at hc'
      cases hc'
      rw [hp] at hp'
      cases hp'
      rw [hr, hr']

theorem funcall_congr {g : Handle} (hr : e.resolve g = e.resolve h) :
    e.funcall g = e.funcall h := by
  unfold funcall
  rw [hr]

theorem funcall_of_resolve {p : Primitive} (hr : e.resolve h = .ok p) :
    e.funcall h = (.ok (e.make (e.primitiveValue p)).1, (e.make (e.primitiveValue p)).2) := by
  unfold funcall
  rw [hr]

theorem funcall_of_error {err : HostError} (hr : e.resolve h = .error err) :
    e.funcall h = (.error err, e) := by
  unfold funcall
  rw [hr]

/-- A call succeeds if there is a primitive to be called, and fails for the reason why there is
none. -/
theorem funcall_ok_iff : (∃ r, (e.funcall h).1 = .ok r) ↔ ∃ p, e.resolve h = .ok p := by
  cases hr : e.resolve h with
  | ok p => simp [funcall_of_resolve hr]
  | error err => simp [funcall_of_error hr]

theorem funcall_error_iff {err : HostError} :
    (e.funcall h).1 = .error err ↔ e.resolve h = .error err := by
  cases hr : e.resolve h with
  | ok p => simp [funcall_of_resolve hr]
  | error err => simp [funcall_of_error hr]

theorem Steady.resolve_ok_iff (hs : e.Steady) :
    (∃ p, e.resolve h = .ok p) ↔
      (∃ p, e.heap.get h = .ok (.primitive p)) ∨
        ∃ name, e.symbolName h = .ok (some name) ∧ (e.functionCell name).isSome = true := by
  have hres := hs.resolution h
  constructor
  · rintro ⟨p, hr⟩
    rw [hr] at hres
    cases hres with
    | primitive hv => exact .inl ⟨p, hv⟩
    | function hn hc hp => exact .inr ⟨_, hn, by simp [hc]⟩
  · rintro (⟨p, hv⟩ | ⟨name, hn, hc⟩)
    · exact ⟨p, resolve_of_primitive hv⟩
    · rcases hs.resolve_of_symbolName hn with ⟨hnone, -⟩ | ⟨f, p, -, -, hr⟩
      · rw [hnone] at hc
        cases hc
      · exact ⟨p, hr⟩

/-! Function cells over whole runs. -/

/-- Only removing a name takes its function away, and nothing gives it one. -/
theorem Op.functionCell (hs : e.Steady) {op : Op} (hop : op ≠ .unintern name) :
    (op.apply e).functionCell name = e.functionCell name := by
  have hsame {e' : Editor} (ho : e'.obarray = e.obarray) :
      e'.functionCell name = e.functionCell name := by
    rw [Editor.functionCell, ho]
    rfl
  cases op with
  | intern other => exact functionCell_intern hs.index other name
  | setVariable other v =>
    have hmake : (e.make v).2.functionCell name = e.functionCell name :=
      hsame (obarray_make e v)
    have hintern := functionCell_intern (hs.make v).index other name
    have hmodify := functionCell_modify ((hs.make v).intern other).index other
      (fun cell => { cell with value := some (e.make v).1 }) name
    have hset : (e.setVariable other v).2.functionCell name =
        ((e.make v).2.intern other).2.functionCell name := by
      refine hmodify.trans ?_
      split
      · rfl
      · rfl
    exact hset.trans (hintern.trans hmake)
  | makeString text => exact hsame (obarray_make e _)
  | unintern other =>
    have hne : other ≠ name := fun h => hop (h ▸ rfl)
    rw [Op.apply, functionCell_unintern hs.index, if_neg hne]
  | funcall f => exact hsame (obarray_funcall e f)
  | pin h => exact hsame rfl
  | unpin h => exact hsame rfl
  | gotoChar position => exact hsame rfl
  | setMark position => exact hsame rfl
  | collect => exact hsame rfl

theorem functionCell_foldl (hs : e.Steady) (name : String) (ops : List Op) :
    (Op.unintern name ∉ ops → (ops.foldl Op.apply e).functionCell name = e.functionCell name) ∧
      (Op.unintern name ∈ ops → (ops.foldl Op.apply e).functionCell name = none) := by
  induction ops using List.reverseRecOn with
  | nil => simp
  | append_singleton ops op ih =>
    obtain ⟨hkept, hgone⟩ := ih
    have hs' := steady_foldl hs ops
    rw [List.foldl_concat, List.mem_append, List.mem_singleton]
    by_cases hop : op = .unintern name
    · subst hop
      have hremoved := functionCell_unintern hs'.index name name
      rw [if_pos rfl] at hremoved
      exact ⟨fun hnot => absurd (.inr rfl) hnot, fun _ => hremoved⟩
    · rw [Op.functionCell hs' hop]
      refine ⟨fun hnot => hkept fun hm => hnot (.inl hm), fun hm => hgone ?_⟩
      rcases hm with hm | hm
      · exact hm
      · exact absurd hm.symm hop

/-- After any run, a name has a function exactly if a primitive has that name and the name has never
been removed from the table. -/
theorem functionCell_run (buffer : Buffer) (ops : List Op) (name : String) :
    ((run buffer ops).functionCell name).isSome = true ↔
      (∃ p : Primitive, p.name = name) ∧ Op.unintern name ∉ ops := by
  obtain ⟨hs, hcells⟩ := steady_definePrimitives (steady_bare buffer) (pristine_bare buffer)
    (referring_bare buffer) Primitive.all (fits_primitives buffer)
  have hall (p : Primitive) : p ∈ Primitive.all := by cases p <;> decide
  have hstart := hcells name
  rw [functionCell_bare] at hstart
  obtain ⟨hkept, hgone⟩ := functionCell_foldl hs name ((presets buffer).drop 2 ++ ops)
  rw [run_eq]
  by_cases hm : Op.unintern name ∈ ops
  · rw [hgone (List.mem_append_right _ hm)]
    simp [hm]
  · have hnot : Op.unintern name ∉ (presets buffer).drop 2 ++ ops := by simp [presets, hm]
    rw [hkept hnot, hstart]
    simp [hm, hall]

/-- After any run, a call succeeds exactly for primitives and for symbols whose name has a function
cell that is set. Symbols of one name are called alike, with the same result, whichever of them is
in the table: a symbol in the value of a variable, or one whose name has been removed and interned
anew, calls what the name calls. -/
theorem funcall_run (buffer : Buffer) (ops : List Op) :
    let e := run buffer ops
    ∀ h, ((∃ r, (e.funcall h).1 = .ok r) ↔
        (∃ p, e.heap.get h = .ok (.primitive p)) ∨
          ∃ name cell, e.symbolName h = .ok (some name) ∧ e.obarray.get? name = some cell ∧
            cell.function.isSome = true) ∧
      ∀ g name, e.symbolName h = .ok (some name) → e.symbolName g = .ok (some name) →
        e.funcall g = e.funcall h := by
  intro e h
  have hs := steady_run buffer ops
  constructor
  · rw [funcall_ok_iff, hs.resolve_ok_iff]
    refine or_congr_right (exists_congr fun name => ?_)
    rw [exists_and_left]
    refine and_congr_right fun _ => ?_
    unfold functionCell
    cases e.obarray.get? name with
    | none => simp
    | some cell => simp
  · intro g name hh hg
    exact funcall_congr (hs.resolve_congr hg hh)

/-- A variable is given a symbol of the name `point`, which is not the one in the table. -/
def impostor : List Op := [.setVariable "x" (.symbol "point")]

/-- It calls what the symbol in the table calls, with the same result. -/
theorem funcall_run_impostor :
    (∃ r, ((run (.ofText "" none) impostor).funcall ⟨21, 0⟩).1 = .ok r) ∧
    (run (.ofText "" none) impostor).funcall ⟨21, 0⟩ =
      (run (.ofText "" none) impostor).funcall ⟨3, 0⟩ := by
  have htwin : (run (.ofText "" none) impostor).symbolName ⟨21, 0⟩ = .ok (some "point") := by
    decide +kernel
  have hsymbol : (run (.ofText "" none) impostor).symbolName ⟨3, 0⟩ = .ok (some "point") := by
    decide +kernel
  have hcell : ∃ cell, (run (.ofText "" none) impostor).obarray.get? "point" = some cell ∧
      cell.function.isSome = true := ⟨⟨⟨3, 0⟩, none, some ⟨2, 0⟩⟩, by decide +kernel, rfl⟩
  obtain ⟨cell, hcell, hfunction⟩ := hcell
  obtain ⟨hiff, -⟩ := funcall_run (.ofText "" none) impostor ⟨21, 0⟩
  obtain ⟨-, hsame⟩ := funcall_run (.ofText "" none) impostor ⟨3, 0⟩
  exact ⟨hiff.mpr (.inr ⟨_, cell, htwin, hcell, hfunction⟩), hsame _ _ hsymbol htwin⟩

/-- The call succeeds although the object is no primitive and no symbol in the table. -/
theorem impostor_is_called :
    let e := run (.ofText "" none) impostor
    e.heap.isLive ⟨21, 0⟩ = true ∧
    (∃ r, (e.funcall ⟨21, 0⟩).1 = .ok r) ∧
    ¬ ((∃ p, e.heap.get ⟨21, 0⟩ = .ok (.primitive p)) ∨
      ∃ name cell, e.symbolName ⟨21, 0⟩ = .ok (some name) ∧ e.obarray.get? name = some cell ∧
        cell.symbol = ⟨21, 0⟩ ∧ cell.function.isSome = true) := by
  have hsymbol : (run (.ofText "" none) impostor).symbolName ⟨21, 0⟩ = .ok (some "point") := by
    decide +kernel
  have hcell : (run (.ofText "" none) impostor).obarray.get? "point" =
      some ⟨⟨3, 0⟩, none, some ⟨2, 0⟩⟩ := by decide +kernel
  refine ⟨by decide +kernel, ⟨⟨23, 0⟩, by decide +kernel⟩, ?_⟩
  rintro (⟨p, hp⟩ | ⟨name, cell, hname, hget, hself, -⟩)
  · exact not_primitive_of_symbolName hsymbol p hp
  · rw [hsymbol] at hname
    cases hname
    rw [hcell] at hget
    cases hget
    cases hself

end EditorScripting.Host.Editor
