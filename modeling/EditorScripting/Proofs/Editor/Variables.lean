import EditorScripting.Proofs.Editor.References

/-!
Global variables over whole runs. A variable has the value that it was given last, or none if its
name has been removed since. The value stays through every collection, wherever its object lies and
whatever becomes of other names.
-/
namespace EditorScripting.Host.Editor

variable {e e' : Editor} {name : String}

/-- The handle in the value cell of a name. -/
def valueCell (e : Editor) (name : String) : Option Handle :=
  (e.obarray.get? name).bind (·.value)

theorem symbolValue_eq (e : Editor) (name : String) :
    e.symbolValue name = (e.valueCell name).bind e.heap.get? := by
  rw [valueCell, Option.bind_assoc]
  rfl

/-- What a value cell refers to is there. -/
theorem Referring.value (hr : e.Referring) {h : Handle} (hc : e.valueCell name = some h) :
    ∃ v, e.heap.get? h = some v := by
  obtain ⟨cell, hcell, hvalue⟩ := Option.bind_eq_some_iff.mp hc
  have hentry := (Obarray.mem_toList_iff hr.index).mpr hcell
  exact (hr.entries _ hentry).value h hvalue

/-- A variable has the same value as long as its cell does and the object in the cell is kept. -/
theorem symbolValue_of_valueCell (hr : e.Referring) (hcell : e'.valueCell name = e.valueCell name)
    (hkeep : ∀ h, e.valueCell name = some h → ∀ v, e.heap.get? h = some v →
      e'.heap.get? h = some v) : e'.symbolValue name = e.symbolValue name := by
  rw [symbolValue_eq, symbolValue_eq, hcell]
  cases hc : e.valueCell name with
  | none => rfl
  | some h =>
    obtain ⟨v, hv⟩ := hr.value hc
    have hv' := hkeep h hc v hv
    rw [Option.bind_some, Option.bind_some, hv, hv']

theorem Keeps.symbolValue (hk : e.Keeps e') (hf : e'.heap.Fits) (hr : e.Referring)
    (hcell : e'.valueCell name = e.valueCell name) : e'.symbolValue name = e.symbolValue name :=
  symbolValue_of_valueCell hr hcell fun h _ v hv => hk.object hf hr h v hv

theorem symbolValue_collect (hr : e.Referring) (name : String) :
    e.collect.2.symbolValue name = e.symbolValue name := by
  refine symbolValue_of_valueCell hr rfl fun h hc v hv => ?_
  obtain ⟨cell, hcell, hvalue⟩ := Option.bind_eq_some_iff.mp hc
  have hentry := (Obarray.mem_toList_iff hr.index).mpr hcell
  exact Heap.get?_collect hv (mem_roots.mpr (.inr ⟨_, hentry, .inr (.inl hvalue)⟩))

/-! What becomes of value cells. -/

@[simp] theorem obarray_make (e : Editor) (v : Object) : (e.make v).2.obarray = e.obarray := by
  cases v <;> rfl

@[simp] theorem valueCell_make (e : Editor) (v : Object) (name : String) :
    (e.make v).2.valueCell name = e.valueCell name := by
  rw [valueCell, obarray_make]
  rfl

/-- The cells of a new name are empty, so interning changes no cell of any name. -/
theorem bind_get?_intern (hi : e.obarray.Indexed) (other name : String)
    {cell : Cell → Option Handle} (hempty : ∀ s, cell ⟨s, none, none⟩ = none) :
    ((e.intern other).2.obarray.get? name).bind cell = (e.obarray.get? name).bind cell := by
  unfold intern
  cases hn : e.obarray.get? other with
  | some c => rfl
  | none =>
    dsimp only
    rw [Obarray.get?_insert hi]
    split
    · rename_i hname
      rw [← hname, hn]
      exact hempty _
    · rfl

theorem valueCell_intern (hi : e.obarray.Indexed) (other name : String) :
    (e.intern other).2.valueCell name = e.valueCell name :=
  bind_get?_intern hi other name fun _ => rfl

/-- A cell of another name stays as it is. -/
theorem valueCell_modify (hi : e.obarray.Indexed) (other : String) (f : Cell → Cell)
    (name : String) (hsame : other = name → ∀ c, (f c).value = c.value) :
    valueCell { e with obarray := e.obarray.modify other f } name = e.valueCell name := by
  unfold valueCell
  dsimp only
  rw [Obarray.get?_modify hi]
  split
  · rename_i hname
    rw [hname, Option.bind_map]
    refine Option.bind_congr fun c _ => ?_
    exact hsame hname c
  · rfl

theorem valueCell_unintern (hi : e.obarray.Indexed) (other name : String) :
    (e.unintern other).2.valueCell name = if other = name then none else e.valueCell name := by
  unfold valueCell unintern
  dsimp only
  rw [Obarray.get?_remove hi]
  split <;> rfl

/-! What becomes of values. -/

theorem symbolValue_make (hr : e.Referring) {v : Object} (hf : (e.make v).2.heap.Fits)
    (name : String) : (e.make v).2.symbolValue name = e.symbolValue name :=
  (keeps_make e v).symbolValue hf hr (valueCell_make e v name)

theorem symbolValue_intern (hr : e.Referring) {other : String}
    (hf : (e.intern other).2.heap.Fits) (name : String) :
    (e.intern other).2.symbolValue name = e.symbolValue name :=
  (keeps_intern e other).symbolValue hf hr (valueCell_intern hr.index other name)

theorem symbolValue_unintern (hr : e.Referring) {other : String}
    (hf : (e.unintern other).2.heap.Fits) (name : String) :
    (e.unintern other).2.symbolValue name = if other = name then none else e.symbolValue name := by
  have hcell := valueCell_unintern hr.index other name
  split
  · rename_i hname
    rw [if_pos hname] at hcell
    rw [symbolValue_eq, hcell]
    rfl
  · rename_i hname
    rw [if_neg hname] at hcell
    exact (keeps_unintern e other).symbolValue hf hr hcell

theorem symbolValue_funcall (hr : e.Referring) {f : Handle} (hf : (e.funcall f).2.heap.Fits)
    (name : String) : (e.funcall f).2.symbolValue name = e.symbolValue name := by
  unfold funcall at hf ⊢
  cases hresolve : e.resolve f with
  | ok p =>
    rw [hresolve] at hf
    exact symbolValue_make hr hf name
  | error err => rfl

/-- The variable has the value that it is given, and no other variable changes. -/
theorem symbolValue_setVariable (hr : e.Referring) {other : String} {v : Object}
    (hf : (e.setVariable other v).2.heap.Fits) (name : String) :
    (e.setVariable other v).2.symbolValue name =
      if other = name then some v else e.symbolValue name := by
  have hmake := keeps_make e v
  have hintern := keeps_intern (e.make v).2 other
  have hf' : ((e.make v).2.intern other).2.heap.Fits := hf
  have hr' := (hmake.trans hintern).referring hf' hr
  split
  · rename_i hname
    subst hname
    obtain ⟨cell, hcell, -⟩ := get?_intern (hmake.referring (hintern.fits hf') hr).index other
    have hvalue : (e.setVariable other v).2.valueCell other = some (e.make v).1 := by
      unfold setVariable valueCell
      dsimp only
      rw [Obarray.get?_modify hr'.index, if_pos rfl, hcell]
      rfl
    have hnew := hintern.object hf' (hmake.referring (hintern.fits hf') hr) _ _
      (get?_make (hintern.fits hf') hr)
    rw [symbolValue_eq, hvalue]
    exact hnew
  · rename_i hname
    refine (keeps_setVariable e other v).symbolValue hf hr ?_
    calc (e.setVariable other v).2.valueCell name
        = ((e.make v).2.intern other).2.valueCell name :=
          valueCell_modify hr'.index other _ name fun h => absurd h hname
      _ = (e.make v).2.valueCell name :=
          valueCell_intern (hmake.referring (hintern.fits hf') hr).index other name
      _ = e.valueCell name := valueCell_make e v name

theorem symbolValue_definePrimitive (hr : e.Referring) {p : Primitive}
    (hf : (e.definePrimitive p).heap.Fits) (name : String) :
    (e.definePrimitive p).symbolValue name = e.symbolValue name := by
  have halloc := keeps_alloc e (.primitive p)
  have hintern := keeps_intern { e with heap := (e.heap.alloc (.primitive p)).2 } p.name
  have hr' := (halloc.trans hintern).referring hf hr
  have hindex := (halloc.referring (hintern.fits hf) hr).index
  have hfunction := valueCell_modify hr'.index p.name
    (fun cell => { cell with function := some (e.heap.alloc (.primitive p)).1 }) name
    fun _ _ => rfl
  refine (keeps_definePrimitive e p).symbolValue hf hr ?_
  exact hfunction.trans (valueCell_intern hindex p.name name)

/-! Runs. -/

/-- What an operation does to a variable: it may give it a value or take its value away. -/
def Op.write (name : String) : Op → Option (Option Object)
  | setVariable other v => if other = name then some (some v) else none
  | unintern other => if other = name then some none else none
  | _ => none

/-- One operation. -/
theorem Op.symbolValue (hr : e.Referring) {op : Op} (hf : (op.apply e).heap.Fits) (name : String) :
    (op.apply e).symbolValue name = (op.write name).getD (e.symbolValue name) := by
  cases op with
  | intern other => exact symbolValue_intern hr hf name
  | setVariable other v =>
    have hset := symbolValue_setVariable hr hf name
    rw [Op.apply, hset, Op.write]
    split <;> rfl
  | makeString text => exact symbolValue_make hr hf name
  | unintern other =>
    have hgone := symbolValue_unintern hr hf name
    rw [Op.apply, hgone, Op.write]
    split <;> rfl
  | funcall f => exact symbolValue_funcall hr hf name
  | pin h =>
    have hop : Op.pin h ≠ .collect := by
      intro hsame
      cases hsame
    have hkeeps := Op.keeps hop e
    exact hkeeps.symbolValue hf hr rfl
  | unpin h =>
    have hop : Op.unpin h ≠ .collect := by
      intro hsame
      cases hsame
    have hkeeps := Op.keeps hop e
    exact hkeeps.symbolValue hf hr rfl
  | gotoChar position => rfl
  | setMark position => rfl
  | collect => exact symbolValue_collect hr name

/-- The last write to a variable, if there is one. -/
def lastWrite (name : String) (ops : List Op) : Option (Option Object) :=
  ops.reverse.findSome? (Op.write name)

theorem lastWrite_append (name : String) (ops more : List Op) :
    lastWrite name (ops ++ more) = (lastWrite name more).or (lastWrite name ops) := by
  simp [lastWrite, List.findSome?_append]

theorem lastWrite_concat (name : String) (ops : List Op) (op : Op) :
    lastWrite name (ops ++ [op]) = (op.write name).or (lastWrite name ops) := by
  rw [lastWrite_append]
  simp [lastWrite]

theorem size_foldl (e : Editor) (ops : List Op) :
    e.heap.slots.size ≤ (ops.foldl Op.apply e).heap.slots.size := by
  induction ops generalizing e with
  | nil => exact Nat.le_refl _
  | cons op ops ih => exact Nat.le_trans (op.size_le e) (ih _)

/-- Several operations, from any editor on in which nothing is missing. -/
theorem symbolValue_foldl (hr : e.Referring) {ops : List Op}
    (hf : (ops.foldl Op.apply e).heap.Fits) (name : String) :
    (ops.foldl Op.apply e).Referring ∧
      (ops.foldl Op.apply e).symbolValue name = (lastWrite name ops).getD (e.symbolValue name) := by
  induction ops using List.reverseRecOn with
  | nil => exact ⟨hr, rfl⟩
  | append_singleton ops op ih =>
    rw [List.foldl_concat] at hf ⊢
    obtain ⟨hr', hvalue⟩ := ih (Nat.le_trans (op.size_le _) hf)
    refine ⟨Op.referring hf hr', ?_⟩
    rw [Op.symbolValue hr' hf, hvalue, lastWrite_concat, Option.getD_or]

/-- The variables of a new editor, as writes. -/
def presets (buffer : Buffer) : List Op :=
  [.setVariable "nil" .nil, .setVariable "t" .t, .setVariable "fill-column" (.integer 70),
    .setVariable "tab-width" (.integer 8),
    .setVariable "buffer-file-name" ((buffer.path.map Object.string).getD .nil)]

theorem symbolValue_bare (buffer : Buffer) (name : String) :
    (bare buffer).symbolValue name = (lastWrite name ((presets buffer).take 2)).getD none := by
  have hfind (cell : Cell) :
      (name, cell) ∈ (bare buffer).obarray.toList ↔ (bare buffer).obarray.get? name = some cell :=
    Obarray.mem_toList_iff (referring_bare buffer).index
  rw [toList_obarray_bare] at hfind
  unfold symbolValue
  by_cases hnil : "nil" = name
  · subst hnil
    rw [(hfind ⟨⟨0, 0⟩, some ⟨0, 0⟩, none⟩).mp (by simp)]
    rfl
  by_cases ht : "t" = name
  · subst ht
    rw [(hfind ⟨⟨1, 0⟩, some ⟨1, 0⟩, none⟩).mp (by simp)]
    rfl
  have hnone : lastWrite name ((presets buffer).take 2) = none := by
    simp [lastWrite, presets, Op.write, hnil, ht]
  rw [hnone]
  cases hc : (bare buffer).obarray.get? name with
  | none => rfl
  | some cell =>
    have hmem := (hfind cell).mpr hc
    simp [Ne.symm hnil, Ne.symm ht] at hmem

theorem symbolValue_definePrimitives (hr : e.Referring) (ps : List Primitive)
    (hf : (ps.foldl definePrimitive e).heap.Fits) (name : String) :
    (ps.foldl definePrimitive e).symbolValue name = e.symbolValue name := by
  induction ps generalizing e with
  | nil => rfl
  | cons p ps ih =>
    have hrest := keeps_definePrimitives (e.definePrimitive p) ps
    have hr' := (keeps_definePrimitive e p).referring (hrest.fits hf) hr
    rw [List.foldl_cons, ih hr' hf, symbolValue_definePrimitive hr (hrest.fits hf)]

theorem ofBuffer_eq (buffer : Buffer) :
    ofBuffer buffer = ((presets buffer).drop 2).foldl Op.apply
      (Primitive.all.foldl definePrimitive (bare buffer)) := by
  unfold ofBuffer presets
  generalize Primitive.all.foldl definePrimitive (bare buffer) = e
  simp only [List.drop_succ_cons, List.drop_zero, List.foldl_cons, List.foldl_nil, Op.apply]

/-- A run from the editor that knows nil, t and the primitives. -/
theorem run_eq (buffer : Buffer) (ops : List Op) :
    run buffer ops = ((presets buffer).drop 2 ++ ops).foldl Op.apply
      (Primitive.all.foldl definePrimitive (bare buffer)) := by
  rw [List.foldl_append, ← ofBuffer_eq]
  rfl

/-- Variables survive collection and everything else. After any run, a variable has the value that
was written last, where the presets of the new editor are the first writes: it is the value that the
variable was last given since its name was last removed, and there is none if it was given none
since then, as for a name that is not in the table. Operations that write to no variable, or to
other ones, change nothing. As in `references_run`, slots need indices of their own. -/
theorem symbolValue_run {buffer : Buffer} {ops : List Op} (hf : (run buffer ops).heap.Fits)
    (name : String) :
    (run buffer ops).symbolValue name = (lastWrite name (presets buffer ++ ops)).getD none ∧
    ((run buffer ops).obarray.get? name = none → (run buffer ops).symbolValue name = none) := by
  refine ⟨?_, fun hnone => by rw [symbolValue, hnone]; rfl⟩
  rw [run_eq] at hf ⊢
  have hsize := Nat.le_trans (size_foldl _ _) hf
  have hr := (keeps_definePrimitives (bare buffer) Primitive.all).referring hsize
    (referring_bare buffer)
  obtain ⟨-, hvalue⟩ := symbolValue_foldl hr hf name
  rw [hvalue, symbolValue_definePrimitives (referring_bare buffer) _ hsize, symbolValue_bare,
    ← Option.getD_or, ← lastWrite_append, ← List.append_assoc, List.take_append_drop]

/-- Two variables are given values, the first one twice; a collection takes the old value, its slot
goes to a new string, and a name in front of both leaves the table. -/
def overwritten : List Op :=
  [.setVariable "x" (.string "old"), .setVariable "y" (.integer 2), .setVariable "x" (.integer 1),
    .collect, .makeString "new", .unintern "tab-width", .intern "tab-width"]

theorem symbolValue_run_overwritten :
    (run (.ofText "" none) overwritten).heap.Fits ∧
    (run (.ofText "" none) overwritten).heap.isLive ⟨21, 1⟩ = true ∧
    (run (.ofText "" none) overwritten).symbolValue "x" = some (.integer 1) ∧
    (run (.ofText "" none) overwritten).symbolValue "y" = some (.integer 2) ∧
    (run (.ofText "" none) overwritten).symbolValue "tab-width" = none ∧
    (run (.ofText "" none) overwritten).symbolValue "fill-column" = some (.integer 70) := by
  have hsize : (run (.ofText "" none) overwritten).heap.slots.size ≤ UInt32.size := by
    decide +kernel
  have hvalue := fun name => (symbolValue_run hsize name).1
  refine ⟨hsize, by decide +kernel, (hvalue _).trans ?_, (hvalue _).trans ?_, (hvalue _).trans ?_,
    (hvalue _).trans ?_⟩
  all_goals rfl

end EditorScripting.Host.Editor
