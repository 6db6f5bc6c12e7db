import EditorScripting.Proofs.Editor.Variables

/-!
The sentinel nil and the symbol of that name. They are the same object in a new editor, and they
stay so exactly as long as the name is not removed from the table. Interned anew, the name has
another symbol, which prints as nil but is not the sentinel.
-/
namespace EditorScripting.Host.Editor

variable {e e' : Editor} {name : String}

/-- The symbol of an interned name. -/
def symbolOf (e : Editor) (name : String) : Option Handle := (e.obarray.get? name).map (·.symbol)

/-- A name keeps its symbol, or gets a new one if it had none. -/
def KeepsSymbol (name : String) (e e' : Editor) : Prop :=
  e'.symbolOf name = e.symbolOf name ∨
    e.symbolOf name = none ∧
      ∃ s, e'.symbolOf name = some s ∧ e'.heap.get? s = some (.symbol name)

theorem keepsSymbol_of_obarray (h : e'.obarray = e.obarray) : KeepsSymbol name e e' :=
  .inl (by rw [symbolOf, h]; rfl)

theorem keepsSymbol_intern (hr : e.Referring) {other : String} (hf : (e.intern other).2.heap.Fits) :
    KeepsSymbol name e (e.intern other).2 := by
  unfold intern at hf ⊢
  cases hn : e.obarray.get? other with
  | some cell => exact .inl rfl
  | none =>
    rw [hn] at hf
    by_cases hname : other = name
    · subst hname
      refine .inr ⟨by rw [symbolOf, hn]; rfl, (e.heap.alloc (.symbol other)).1, ?_, ?_⟩
      · simp [symbolOf, Obarray.get?_insert hr.index]
      · exact Heap.get?_alloc_new hr.heap hf
    · left
      simp [symbolOf, Obarray.get?_insert hr.index, hname]

/-- Changing the cells of any name, but not their symbols, keeps all symbols. -/
theorem symbolOf_modify (hi : e.obarray.Indexed) (other : String) {f : Cell → Cell}
    (hsame : ∀ c, (f c).symbol = c.symbol) (name : String) :
    symbolOf { e with obarray := e.obarray.modify other f } name = e.symbolOf name := by
  unfold symbolOf
  dsimp only
  rw [Obarray.get?_modify hi]
  split
  · rename_i hname
    rw [hname, Option.map_map]
    exact congrArg (Option.map · _) (funext hsame)
  · rfl

/-- A name is interned in a later state with the same table, and its other cells are changed. -/
theorem keepsSymbol_define (hr : e'.Referring) (hsame : e'.obarray = e.obarray) {other : String}
    (hf : (e'.intern other).2.heap.Fits) {f : Cell → Cell}
    (hsymbol : ∀ c, (f c).symbol = c.symbol) :
    KeepsSymbol name e { (e'.intern other).2 with
      obarray := (e'.intern other).2.obarray.modify other f } := by
  have hbefore : e'.symbolOf name = e.symbolOf name := by
    rw [symbolOf, hsame]
    rfl
  have hindex := ((keeps_intern e' other).referring hf hr).index
  have hnew : KeepsSymbol name e' (e'.intern other).2 := keepsSymbol_intern hr hf
  unfold KeepsSymbol at hnew ⊢
  rw [symbolOf_modify hindex other hsymbol, ← hbefore]
  exact hnew

theorem keepsSymbol_setVariable (hr : e.Referring) {other : String} {v : Object}
    (hf : (e.setVariable other v).2.heap.Fits) :
    KeepsSymbol name e (e.setVariable other v).2 := by
  have hf' : ((e.make v).2.intern other).2.heap.Fits := hf
  have hr' := (keeps_make e v).referring ((keeps_intern _ other).fits hf') hr
  exact keepsSymbol_define hr' (obarray_make e v) hf'
    (f := fun cell => { cell with value := some (e.make v).1 }) fun _ => rfl

theorem keepsSymbol_definePrimitive (hr : e.Referring) {p : Primitive}
    (hf : (e.definePrimitive p).heap.Fits) : KeepsSymbol name e (e.definePrimitive p) := by
  have hr' := (keeps_alloc e (.primitive p)).referring ((keeps_intern _ p.name).fits hf) hr
  exact keepsSymbol_define hr' rfl hf
    (f := fun cell => { cell with function := some (e.heap.alloc (.primitive p)).1 }) fun _ => rfl

/-- A symbol that is there stays the one of its name. -/
theorem KeepsSymbol.of_some {s : Handle} (hk : KeepsSymbol name e e')
    (hs : e.symbolOf name = some s) : e'.symbolOf name = some s := by
  rcases hk with hsame | ⟨hnone, -⟩
  · exact hsame.trans hs
  · rw [hs] at hnone
    cases hnone

theorem symbolOf_unintern (hi : e.obarray.Indexed) (other name : String) :
    (e.unintern other).2.symbolOf name = if other = name then none else e.symbolOf name := by
  unfold symbolOf unintern
  dsimp only
  rw [Obarray.get?_remove hi]
  split <;> rfl

theorem obarray_funcall (e : Editor) (f : Handle) : (e.funcall f).2.obarray = e.obarray := by
  unfold funcall
  split
  · exact obarray_make e _
  · rfl

/-- One operation other than removing the name. -/
theorem Op.keepsSymbol (hr : e.Referring) {op : Op} (hf : (op.apply e).heap.Fits)
    (hop : op ≠ .unintern name) : KeepsSymbol name e (op.apply e) := by
  cases op with
  | intern other => exact keepsSymbol_intern hr hf
  | setVariable other v => exact keepsSymbol_setVariable hr hf
  | makeString text => exact keepsSymbol_of_obarray rfl
  | unintern other =>
    left
    have hne : other ≠ name := fun h => hop (h ▸ rfl)
    rw [Op.apply, symbolOf_unintern hr.index, if_neg hne]
  | funcall f => exact keepsSymbol_of_obarray (obarray_funcall e f)
  | pin h => exact keepsSymbol_of_obarray rfl
  | unpin h => exact keepsSymbol_of_obarray rfl
  | gotoChar position => exact keepsSymbol_of_obarray rfl
  | setMark position => exact keepsSymbol_of_obarray rfl
  | collect => exact keepsSymbol_of_obarray rfl

theorem nil_intern (e : Editor) (name : String) : (e.intern name).2.nil = e.nil := by
  unfold intern
  split <;> rfl

theorem nil_make (e : Editor) (v : Object) : (e.make v).2.nil = e.nil := by
  cases v <;> rfl

theorem nil_funcall (e : Editor) (f : Handle) : (e.funcall f).2.nil = e.nil := by
  unfold funcall
  split
  · exact nil_make e _
  · rfl

/-- The sentinel is the same object for ever. -/
theorem Op.nil (op : Op) (e : Editor) : (op.apply e).nil = e.nil := by
  cases op with
  | intern name => exact nil_intern e name
  | setVariable name v => exact (nil_intern _ name).trans (nil_make e v)
  | funcall f => exact nil_funcall e f
  | _ => rfl

/-- The sentinel is the symbol of its name after an operation exactly if it was before and the name
is not removed: a new symbol of the name is another object. -/
theorem Op.symbolOf_nil_iff (hr : e.Referring) {op : Op} (hf : (op.apply e).heap.Fits) :
    (op.apply e).symbolOf "nil" = some (op.apply e).nil ↔
      e.symbolOf "nil" = some e.nil ∧ op ≠ .unintern "nil" := by
  rw [Op.nil]
  by_cases hop : op = .unintern "nil"
  · subst hop
    have hgone := symbolOf_unintern hr.index "nil" "nil"
    simp [Op.apply, hgone]
  · have hkeeps : KeepsSymbol "nil" e (op.apply e) := Op.keepsSymbol hr hf hop
    rcases hkeeps with hsame | ⟨hnone, s, hs, hobject⟩
    · simp [hsame, hop]
    · have hne : s ≠ e.nil := by
        rintro rfl
        have hnil := (Op.referring hf hr).nil
        rw [Op.nil, hobject] at hnil
        cases hnil
      simp [hnone, hs, hne]

theorem symbolOf_nil_foldl (hr : e.Referring) {ops : List Op}
    (hf : (ops.foldl Op.apply e).heap.Fits) :
    (ops.foldl Op.apply e).symbolOf "nil" = some (ops.foldl Op.apply e).nil ↔
      e.symbolOf "nil" = some e.nil ∧ Op.unintern "nil" ∉ ops := by
  induction ops using List.reverseRecOn with
  | nil => simp
  | append_singleton ops op ih =>
    rw [List.foldl_concat] at hf ⊢
    have hf' := Nat.le_trans (op.size_le _) hf
    have hr' := (symbolValue_foldl hr hf' "nil").1
    rw [Op.symbolOf_nil_iff hr' hf, ih hf', List.mem_append, List.mem_singleton, not_or, and_assoc,
      ne_comm]

/-- In a new editor the sentinel is the symbol of its name. -/
theorem symbolOf_nil_bare (buffer : Buffer) :
    (bare buffer).symbolOf "nil" = some (bare buffer).nil := by
  have hmem : ("nil", (⟨⟨0, 0⟩, some ⟨0, 0⟩, none⟩ : Cell)) ∈ (bare buffer).obarray.toList := by
    rw [toList_obarray_bare]
    exact List.mem_cons_self
  rw [symbolOf, (Obarray.mem_toList_iff (referring_bare buffer).index).mp hmem]
  rfl

theorem symbolOf_nil_definePrimitives (hr : e.Referring) (ps : List Primitive)
    (hf : (ps.foldl definePrimitive e).heap.Fits) (hnil : e.symbolOf "nil" = some e.nil) :
    (ps.foldl definePrimitive e).symbolOf "nil" = some (ps.foldl definePrimitive e).nil := by
  induction ps generalizing e with
  | nil => exact hnil
  | cons p ps ih =>
    have hf' := (keeps_definePrimitives (e.definePrimitive p) ps).fits hf
    refine ih ((keeps_definePrimitive e p).referring hf' hr) hf ?_
    rw [show (e.definePrimitive p).nil = e.nil from nil_intern _ p.name]
    exact (keepsSymbol_definePrimitive hr hf').of_some hnil

theorem symbolOf_nil_run {buffer : Buffer} {ops : List Op} (hf : (run buffer ops).heap.Fits) :
    (run buffer ops).symbolOf "nil" = some (run buffer ops).nil ↔ Op.unintern "nil" ∉ ops := by
  rw [run_eq] at hf ⊢
  have hsize := Nat.le_trans (size_foldl _ _) hf
  have hr := (keeps_definePrimitives (bare buffer) Primitive.all).referring hsize
    (referring_bare buffer)
  have hstart := symbolOf_nil_definePrimitives (referring_bare buffer) Primitive.all hsize
    (symbolOf_nil_bare buffer)
  rw [symbolOf_nil_foldl hr hf]
  simp [hstart, presets]

/-- The symbol that interning `nil` yields is the sentinel exactly as long as the name has not been
removed from the table. Afterwards it never is again. -/
theorem intern_nil_eq_iff {buffer : Buffer} {ops : List Op}
    (hf : ((run buffer ops).intern "nil").2.heap.Fits) :
    ((run buffer ops).intern "nil").1 = (run buffer ops).nil ↔ Op.unintern "nil" ∉ ops := by
  have hconcat := run_concat buffer ops (.intern "nil")
  have hfits : (run buffer (ops ++ [.intern "nil"])).heap.Fits := by
    rw [hconcat]
    exact hf
  have hrun := symbolOf_nil_run hfits
  have hr := referring_run ((keeps_intern _ "nil").fits hf)
  obtain ⟨cell, hcell, hsymbol⟩ := get?_intern hr.index "nil"
  have hfound : ((run buffer ops).intern "nil").2.symbolOf "nil" =
      some ((run buffer ops).intern "nil").1 := by
    rw [symbolOf, hcell, ← hsymbol]
    rfl
  rw [hconcat, Op.nil, Op.apply, hfound, Option.some.injEq] at hrun
  rw [hrun]
  simp

/-- The name is removed and interned again. -/
def reinterned : List Op := [.unintern "nil", .intern "nil", .collect]

/-- Its symbol is another object than the sentinel, although it prints as nil too. -/
theorem intern_nil_eq_iff_reinterned :
    ((run (.ofText "" none) reinterned).intern "nil").2.heap.Fits ∧
    ((run (.ofText "" none) reinterned).intern "nil").1 ≠ (run (.ofText "" none) reinterned).nil ∧
    (run (.ofText "" none) reinterned).printed ((run (.ofText "" none) reinterned).intern "nil").1 =
      (run (.ofText "" none) reinterned).printed (run (.ofText "" none) reinterned).nil := by
  have hsize : ((run (.ofText "" none) reinterned).intern "nil").2.heap.slots.size ≤
      UInt32.size := by decide +kernel
  refine ⟨hsize, ?_, by decide +kernel⟩
  rw [Ne, intern_nil_eq_iff hsize]
  simp [reinterned]

end EditorScripting.Host.Editor
