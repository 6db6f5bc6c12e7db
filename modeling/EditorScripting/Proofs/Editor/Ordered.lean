import Mathlib.Data.List.Dedup
import Mathlib.Data.List.Induction
import EditorScripting.Proofs.Editor.Index

/-!
The table of symbols as a list of names and cells. An insertion puts a pair behind all others, a
change concerns the cells of one pair, and a removal takes one pair out, while the index follows. So
after any run the table answers like the list, which holds the names in the order of their latest
insertion.
-/
namespace EditorScripting.Host.Obarray

variable {table : Obarray} {name : String}

/-! What a change does to the list of entries. -/

theorem toList_insert (table : Obarray) (name : String) (symbol : Handle) :
    (table.insert name symbol).toList = table.toList ++ [(name, ⟨symbol, none, none⟩)] := by
  simp [insert, toList]

/-- The cells of one name change, where they stand. -/
theorem toList_modify (hi : table.Indexed) (name : String) (f : Cell → Cell) :
    (table.modify name f).toList =
      table.toList.map fun e => if e.1 = name then (e.1, f e.2) else e := by
  refine List.ext_getElem? fun i => ?_
  have hplace := hi name i
  unfold modify toList
  simp only [List.getElem?_map, Array.getElem?_toList]
  cases hk : table.index[name]? with
  | none =>
    cases he : table.entries[i]? with
    | none => simp
    | some e =>
      have hname : e.1 ≠ name := by
        intro hname
        simp [hk, he, hname] at hplace
      simp [hname]
  | some k =>
    simp only [Array.getElem?_modify]
    cases he : table.entries[i]? with
    | none => simp
    | some e =>
      have hname : k = i ↔ e.1 = name := by simpa [hk, he] using hplace
      by_cases hki : k = i
      · simp [hki, hname.mp hki]
      · simp [hki, mt hname.mpr hki]

theorem ne_of_not_interned (hi : table.Indexed) (hn : table.get? name = none)
    {e : String × Cell} (he : e ∈ table.toList) : e.1 ≠ name := by
  rintro rfl
  rw [(mem_toList_iff hi).mp he] at hn
  cases hn

/-- Where no name stands twice, taking out the entry of a name leaves the other names. -/
theorem eraseIdx_eq_filter {entries : List (String × Cell)} (hn : (entries.map (·.1)).Nodup)
    {k : Nat} {cell : Cell} (hk : entries[k]? = some (name, cell)) :
    entries.eraseIdx k = entries.filter (·.1 ≠ name) := by
  obtain ⟨hlt, he⟩ := List.getElem?_eq_some_iff.mp hk
  have hsplit : entries = entries.take k ++ (name, cell) :: entries.drop (k + 1) := by
    rw [← he, ← List.drop_eq_getElem_cons hlt, List.take_append_drop]
  have hother : ∀ e ∈ entries.take k ++ entries.drop (k + 1), e.1 ≠ name := by
    rw [hsplit, List.map_append, List.map_cons, List.nodup_middle, List.nodup_cons,
      ← List.map_append] at hn
    rintro e hmem rfl
    exact hn.1 (List.mem_map.mpr ⟨e, hmem, rfl⟩)
  have hkeep := List.filter_eq_self.mpr fun e hmem => decide_eq_true (hother e hmem)
  rw [List.eraseIdx_eq_take_drop_succ, ← hkeep]
  conv_rhs => rw [hsplit]
  simp

/-- The entry of one name goes; the others keep their order and their cells. -/
theorem toList_remove (hi : table.Indexed) (name : String) :
    (table.remove name).2.toList = table.toList.filter (·.1 ≠ name) := by
  unfold remove
  cases hk : table.index[name]? with
  | none =>
    have hn := (get?_eq_none_iff hi).mpr hk
    refine (List.filter_eq_self.mpr fun e he => decide_eq_true ?_).symm
    exact ne_of_not_interned hi hn he
  | some k =>
    obtain ⟨cell, hcell⟩ := index_place hi hk
    have hentry : table.toList[k]? = some (name, cell) := by
      rw [toList, Array.getElem?_toList, hcell]
    rw [← eraseIdx_eq_filter (nodup_names hi) hentry]
    exact Array.toList_eraseIdxIfInBounds ..

/-- A removal returns the cells that were there. -/
theorem remove_fst (table : Obarray) (name : String) :
    (table.remove name).1 = table.get? name := by
  unfold remove get?
  cases table.index[name]? <;> rfl

theorem remove_of_not_interned (hi : table.Indexed) (hn : table.get? name = none) :
    table.remove name = (none, table) := by
  rw [remove, (get?_eq_none_iff hi).mp hn]

theorem modify_of_not_interned (hi : table.Indexed) (hn : table.get? name = none)
    (f : Cell → Cell) : table.modify name f = table := by
  rw [modify, (get?_eq_none_iff hi).mp hn]

/-- The table is looked up like its list. -/
theorem get?_eq_lookup (hi : table.Indexed) (name : String) :
    table.get? name = table.toList.lookup name := by
  cases hl : table.toList.lookup name with
  | none =>
    rw [List.lookup_eq_none_iff] at hl
    rw [Option.eq_none_iff_forall_ne_some]
    intro cell hcell
    have hne := hl _ ((mem_toList_iff hi).mpr hcell)
    simp at hne
  | some cell =>
    obtain ⟨before, after, hsplit, -⟩ := List.lookup_eq_some_iff.mp hl
    have hmem : (name, cell) ∈ table.toList := by simp [hsplit]
    exact (mem_toList_iff hi).mp hmem

/-- A table and a list of names and cells hold the same: the index maps each name of the list to the
place of its one entry and nothing else, and the table answers like the list. -/
structure Represents (table : Obarray) (entries : List (String × Cell)) : Prop where
  toList_eq : table.toList = entries
  index_iff : ∀ (name : String) (i : Nat),
    table.index[name]? = some i ↔ ∃ cell, entries[i]? = some (name, cell)
  nodup : (entries.map (·.1)).Nodup
  get?_eq : ∀ name, table.get? name = entries.lookup name
  size_eq : table.size = entries.length

theorem Indexed.represents (hi : table.Indexed) : table.Represents table.toList where
  toList_eq := rfl
  index_iff name i := by
    rw [hi name i, toList, Array.getElem?_toList]
    simp [Option.map_eq_some_iff]
  nodup := nodup_names hi
  get?_eq := get?_eq_lookup hi
  size_eq := Array.length_toList.symm

/-! Runs. -/

/-- A change of the table. -/
inductive Op where
  | insert (name : String) (symbol : Handle)
  | modify (name : String) (f : Cell → Cell)
  | remove (name : String)

namespace Op

def apply : Op → Obarray → Obarray
  | insert name symbol, table => table.insert name symbol
  | modify name f, table => table.modify name f
  | remove name, table => (table.remove name).2

/-- The same change of a list of names and cells. -/
def applyList : Op → List (String × Cell) → List (String × Cell)
  | insert name symbol, entries => entries ++ [(name, ⟨symbol, none, none⟩)]
  | modify name f, entries => entries.map fun e => if e.1 = name then (e.1, f e.2) else e
  | remove name, entries => entries.filter (·.1 ≠ name)

/-- Only a name that is not in the list is inserted. -/
def IsFresh (entries : List (String × Cell)) : Op → Prop
  | insert name _ => name ∉ entries.map (·.1)
  | _ => True

instance (entries : List (String × Cell)) : (op : Op) → Decidable (op.IsFresh entries)
  | insert name _ => inferInstanceAs (Decidable (name ∉ entries.map (·.1)))
  | modify _ _ | remove _ => isTrue trivial

/-- The name that an operation inserts. -/
def inserted? : Op → Option String
  | insert name _ => some name
  | _ => none

/-- Whether an operation puts a name into the table or takes it out. -/
def presence? (name : String) : Op → Option Bool
  | insert other _ => if other = name then some true else none
  | remove other => if other = name then some false else none
  | modify _ _ => none

end Op

/-- The table after a run of changes that starts with an empty table. -/
def run (ops : List Op) : Obarray := ops.foldl (fun table op => op.apply table) empty

/-- The list after the same run. -/
def runList (ops : List Op) : List (String × Cell) :=
  ops.foldl (fun entries op => op.applyList entries) []

/-- What those who insert take care of: the name is not in the table. -/
def InsertsFresh (ops : List Op) : Prop :=
  ∀ (i : Nat) (hi : i < ops.length), (ops[i]).IsFresh (runList (ops.take i))

/-- The names of a run in the order of their latest insertions: of equal names the last stays. -/
def latestInsertions (ops : List Op) : List String := (ops.filterMap Op.inserted?).dedup

/-- A name has been inserted and not been removed since. -/
def isPresent (ops : List Op) (name : String) : Bool :=
  (ops.reverse.findSome? (Op.presence? name)).getD false

theorem run_concat (ops : List Op) (op : Op) : run (ops ++ [op]) = op.apply (run ops) := by
  simp [run]

theorem runList_concat (ops : List Op) (op : Op) :
    runList (ops ++ [op]) = op.applyList (runList ops) := by
  simp [runList]

theorem InsertsFresh.of_concat {ops : List Op} {op : Op} (h : InsertsFresh (ops ++ [op])) :
    InsertsFresh ops ∧ op.IsFresh (runList ops) := by
  constructor
  · intro i hi
    have hop := h i (by simp; omega)
    rwa [List.getElem_append_left hi, List.take_append_of_le_length (Nat.le_of_lt hi)] at hop
  · have hop := h ops.length (by simp)
    simpa using hop

/-- One change keeps the table and the list together. -/
theorem toList_apply (hi : table.Indexed) {op : Op} (hf : op.IsFresh table.toList) :
    (op.apply table).Indexed ∧ (op.apply table).toList = op.applyList table.toList := by
  cases op with
  | insert name symbol =>
    have hn : table.get? name = none := by
      rw [Option.eq_none_iff_forall_ne_some]
      intro cell hcell
      exact hf (List.mem_map_of_mem ((mem_toList_iff hi).mpr hcell))
    exact ⟨hi.insert hn symbol, toList_insert table name symbol⟩
  | modify name f => exact ⟨hi.modify name f, toList_modify hi name f⟩
  | remove name => exact ⟨hi.remove name, toList_remove hi name⟩

theorem toList_run {ops : List Op} (hf : InsertsFresh ops) :
    (run ops).Indexed ∧ (run ops).toList = runList ops := by
  induction ops using List.reverseRecOn with
  | nil => exact ⟨indexed_empty, rfl⟩
  | append_singleton ops op ih =>
    obtain ⟨hfirst, hlast⟩ := hf.of_concat
    obtain ⟨hi, hlist⟩ := ih hfirst
    rw [run_concat, runList_concat, ← hlist]
    exact toList_apply hi (hlist ▸ hlast)

/-! The order of the names. -/

/-- A later occurrence takes the place of all earlier ones. -/
theorem dedup_concat (names : List String) (name : String) :
    (names ++ [name]).dedup = names.dedup.filter (· ≠ name) ++ [name] := by
  induction names with
  | nil => simp
  | cons other names ih =>
    by_cases hlater : other ∈ names
    · rw [List.cons_append, List.dedup_cons_of_mem (List.mem_append_left _ hlater), ih,
        List.dedup_cons_of_mem hlater]
    · by_cases hname : other = name
      · rw [List.cons_append, List.dedup_cons_of_mem (by simp [hname]), ih,
          List.dedup_cons_of_notMem hlater]
        simp [hname]
      · rw [List.cons_append, List.dedup_cons_of_notMem (by simp [hlater, hname]), ih,
          List.dedup_cons_of_notMem hlater]
        simp [hname]

theorem latestInsertions_concat (ops : List Op) (op : Op) :
    latestInsertions (ops ++ [op]) = match op.inserted? with
      | some name => (latestInsertions ops).filter (· ≠ name) ++ [name]
      | none => latestInsertions ops := by
  unfold latestInsertions
  rw [List.filterMap_append, List.filterMap_cons, List.filterMap_nil]
  cases op.inserted? with
  | none => simp
  | some name => exact dedup_concat _ name

theorem isPresent_concat (ops : List Op) (op : Op) (name : String) :
    isPresent (ops ++ [op]) name = (op.presence? name).getD (isPresent ops name) := by
  simp only [isPresent, List.reverse_append, List.reverse_singleton, List.singleton_append,
    List.findSome?_cons]
  cases op.presence? name <;> rfl

theorem isPresent_insert (ops : List Op) (name : String) (symbol : Handle) (other : String) :
    isPresent (ops ++ [.insert name symbol]) other =
      (decide (other = name) || isPresent ops other) := by
  rw [isPresent_concat]
  by_cases hname : name = other
  · simp [Op.presence?, hname]
  · simp [Op.presence?, hname, Ne.symm hname]

theorem isPresent_modify (ops : List Op) (name : String) (f : Cell → Cell) :
    isPresent (ops ++ [.modify name f]) = isPresent ops := by
  funext other
  rw [isPresent_concat]
  rfl

theorem isPresent_remove (ops : List Op) (name other : String) :
    isPresent (ops ++ [.remove name]) other =
      (isPresent ops other && decide (other ≠ name)) := by
  rw [isPresent_concat]
  by_cases hname : name = other
  · simp [Op.presence?, hname]
  · simp [Op.presence?, hname, Ne.symm hname]

/-- Changing cells renames nothing. -/
theorem names_modify (entries : List (String × Cell)) (name : String) (f : Cell → Cell) :
    (entries.map fun e => if e.1 = name then (e.1, f e.2) else e).map (·.1) =
      entries.map (·.1) := by
  rw [List.map_map]
  refine List.map_congr_left fun e _ => ?_
  simp only [Function.comp_apply]
  split <;> rfl

theorem names_remove (entries : List (String × Cell)) (name : String) :
    (entries.filter (·.1 ≠ name)).map (·.1) = (entries.map (·.1)).filter (· ≠ name) := by
  rw [List.filter_map]
  rfl

/-- The list holds the names that are present in the order of their latest insertions. -/
theorem names_runList {ops : List Op} (hf : InsertsFresh ops) :
    (runList ops).map (·.1) = (latestInsertions ops).filter (isPresent ops) := by
  induction ops using List.reverseRecOn with
  | nil => rfl
  | append_singleton ops op ih =>
    obtain ⟨hfirst, hlast⟩ := hf.of_concat
    have hnames := ih hfirst
    rw [runList_concat, latestInsertions_concat]
    cases op with
    | insert name symbol =>
      have hnew : name ∉ (latestInsertions ops).filter (isPresent ops) := hnames ▸ hlast
      -- a fresh name may have been inserted before, but then it was removed
      have hothers : ((latestInsertions ops).filter (· ≠ name)).filter
          (isPresent (ops ++ [.insert name symbol])) =
          (latestInsertions ops).filter (isPresent ops) := by
        rw [List.filter_filter]
        refine List.filter_congr fun other hmem => ?_
        rw [isPresent_insert]
        by_cases hname : other = name
        · subst hname
          have habsent : isPresent ops other = false := by
            by_contra hp
            exact hnew (List.mem_filter.mpr ⟨hmem, by simpa using hp⟩)
          simp [habsent]
        · simp [hname]
      simp only [Op.applyList, Op.inserted?, List.map_append, List.filter_append, hothers, hnames]
      simp [isPresent_insert]
    | modify name f =>
      rw [Op.applyList, names_modify, isPresent_modify]
      exact hnames
    | remove name =>
      rw [Op.applyList, names_remove, hnames, List.filter_filter]
      refine List.filter_congr fun other _ => ?_
      rw [isPresent_remove, Bool.and_comm]

/-- The table refines an ordered association list. After any run of insertions of names that are not
in the table, changes of cells and removals, the table holds what the list holds, and the names
stand in the order of their latest insertions. What comes next does to the table what it does to the
list: a change concerns the cells of its name only; a removal returns the cells of its name and
takes out its entry, while all others keep their order and cells. Neither does anything to a table
that does not have the name. -/
theorem run_refines_list {ops : List Op} (hf : InsertsFresh ops) :
    (run ops).Represents (runList ops) ∧
    (runList ops).map (·.1) = (latestInsertions ops).filter (isPresent ops) ∧
    (∀ name f, ((run ops).modify name f).Represents
      ((runList ops).map fun e => if e.1 = name then (e.1, f e.2) else e)) ∧
    (∀ name, ((run ops).remove name).1 = (runList ops).lookup name ∧
      ((run ops).remove name).2.Represents ((runList ops).filter (·.1 ≠ name))) ∧
    ∀ name, (run ops).get? name = none →
      (∀ f, (run ops).modify name f = run ops) ∧ (run ops).remove name = (none, run ops) := by
  obtain ⟨hi, hlist⟩ := toList_run hf
  have hrun := hi.represents
  rw [hlist] at hrun
  refine ⟨hrun, names_runList hf, fun name f => ?_, fun name => ⟨?_, ?_⟩, fun name hn => ?_⟩
  · have hnext := (hi.modify name f).represents
    rwa [toList_modify hi, hlist] at hnext
  · rw [remove_fst, hrun.get?_eq]
  · have hnext := (hi.remove name).represents
    rwa [toList_remove hi, hlist] at hnext
  · exact ⟨modify_of_not_interned hi hn, remove_of_not_interned hi hn⟩

/-- A name in front of others is removed and comes back behind them, and one of the names that moved
up is given a value. -/
def reinterned : List Op :=
  [.insert "x" ⟨0, 0⟩, .insert "y" ⟨1, 0⟩, .insert "z" ⟨2, 0⟩, .remove "x",
    .modify "z" fun cell => { cell with value := some ⟨3, 0⟩ }, .insert "x" ⟨4, 0⟩]

theorem run_refines_list_reinterned :
    InsertsFresh reinterned ∧
    (run reinterned).toList = [("y", ⟨⟨1, 0⟩, none, none⟩), ("z", ⟨⟨2, 0⟩, some ⟨3, 0⟩, none⟩),
      ("x", ⟨⟨4, 0⟩, none, none⟩)] ∧
    (run reinterned).get? "z" = some ⟨⟨2, 0⟩, some ⟨3, 0⟩, none⟩ ∧
    ((run reinterned).remove "y").2.toList = [("z", ⟨⟨2, 0⟩, some ⟨3, 0⟩, none⟩),
      ("x", ⟨⟨4, 0⟩, none, none⟩)] := by
  have hf : InsertsFresh reinterned := by
    unfold InsertsFresh
    decide +kernel
  obtain ⟨hrun, -, -, hremove, -⟩ := run_refines_list hf
  exact ⟨hf, hrun.toList_eq.trans rfl, (hrun.get?_eq "z").trans rfl,
    (hremove "y").2.toList_eq.trans rfl⟩

end EditorScripting.Host.Obarray
