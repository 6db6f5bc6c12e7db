import Mathlib.Data.List.Nodup
import EditorScripting.Host.Obarray

/-!
The index of the table of symbols. It maps exactly the interned names, each to the place of its one
entry, and it keeps doing so when entries come, change and go. So each change concerns what is found
under one name only.
-/
namespace EditorScripting.Host.Obarray

/-- The index maps a name to the place where the entry of that name stands, and to no other. -/
def Indexed (table : Obarray) : Prop :=
  ∀ (name : String) (i : Nat), table.index[name]? = some i ↔
    table.entries[i]?.map (·.1) = some name

variable {table : Obarray} {name : String}

theorem indexed_empty : empty.Indexed := by
  intro name i
  simp [empty]

theorem get?_eq_none_iff (hi : table.Indexed) :
    table.get? name = none ↔ table.index[name]? = none := by
  unfold get?
  cases hn : table.index[name]? with
  | none => simp
  | some i =>
    have he := (hi name i).mp hn
    cases hc : table.entries[i]? with
    | none => simp [hc] at he
    | some e => simp [hc]

/-- A name is found exactly if there is an entry of it, and then with the cells of that entry. -/
theorem mem_toList_iff (hi : table.Indexed) {cell : Cell} :
    (name, cell) ∈ table.toList ↔ table.get? name = some cell := by
  rw [toList, List.mem_iff_getElem?]
  simp only [Array.getElem?_toList, get?, Option.bind_eq_some_iff, Option.map_eq_some_iff]
  constructor
  · rintro ⟨i, he⟩
    exact ⟨i, (hi name i).mpr (by rw [he]; rfl), _, he, rfl⟩
  · rintro ⟨i, hn, e, he, rfl⟩
    have hname := (hi name i).mp hn
    rw [he] at hname
    obtain rfl : e.1 = name := Option.some.inj hname
    exact ⟨i, he⟩

/-- No name has two entries. -/
theorem nodup_names (hi : table.Indexed) : (table.toList.map (·.1)).Nodup := by
  rw [List.nodup_iff_getElem?_ne_getElem?]
  intro i j hlt hj he
  simp only [toList, List.length_map, Array.length_toList] at hj
  simp only [toList, List.getElem?_map, Array.getElem?_toList] at he
  obtain ⟨e, hentry⟩ : ∃ e, table.entries[j]? = some e :=
    ⟨_, Array.getElem?_eq_getElem hj⟩
  have hsecond := (hi e.1 j).mpr (by rw [hentry]; rfl)
  have hfirst := (hi e.1 i).mpr (by rw [he, hentry]; rfl)
  rw [hfirst] at hsecond
  exact absurd (Option.some.inj hsecond) (by omega)

theorem index_place (hi : table.Indexed) {i : Nat} (hn : table.index[name]? = some i) :
    ∃ cell, table.entries[i]? = some (name, cell) := by
  have he := (hi name i).mp hn
  cases hc : table.entries[i]? with
  | none => simp [hc] at he
  | some e =>
    obtain ⟨other, cell⟩ := e
    rw [hc] at he
    obtain rfl : other = name := Option.some.inj he
    exact ⟨cell, rfl⟩

/-- Two names never share a place. -/
theorem Indexed.place_ne (hi : table.Indexed) {other : String} {i j : Nat}
    (hn : table.index[name]? = some i) (ho : table.index[other]? = some j) (hne : name ≠ other) :
    i ≠ j := by
  rintro rfl
  have hentry := (hi name i).mp hn
  rw [(hi other i).mp ho] at hentry
  exact hne (Option.some.inj hentry).symm

/-- A new entry stands behind all others. -/
theorem Indexed.insert (hi : table.Indexed) (hn : table.get? name = none) (symbol : Handle) :
    (table.insert name symbol).Indexed := by
  have hnew : ∀ i : Nat, table.entries[i]?.map (·.1) ≠ some name := by
    intro i he
    have hindex := (hi name i).mpr he
    rw [(get?_eq_none_iff hi).mp hn] at hindex
    cases hindex
  intro other i
  have hother := hi other i
  have hold := hnew i
  simp only [Obarray.insert, Std.TreeMap.getElem?_insert, Array.getElem?_push]
  by_cases hname : name = other
  · subst hname
    simp only [Std.ReflCmp.compare_self, if_true, Option.some.injEq]
    by_cases hlast : i = table.entries.size
    · simp [hlast]
    · simp [hlast, hold, Ne.symm hlast]
  · have hcompare : ¬ compare name other = .eq := fun he =>
      hname (Std.LawfulEqCmp.eq_of_compare he)
    rw [if_neg hcompare, hother]
    by_cases hlast : i = table.entries.size
    · simp [hlast, hname]
    · simp [hlast]

theorem getElem?_modify_name (table : Obarray) (name : String) (f : Cell → Cell) (i : Nat) :
    (table.modify name f).entries[i]?.map (·.1) = table.entries[i]?.map (·.1) := by
  unfold modify
  split
  · simp only [Array.getElem?_modify]
    split
    · cases table.entries[i]? <;> rfl
    · rfl
  · rfl

/-- Changing cells moves no entry. -/
theorem Indexed.modify (hi : table.Indexed) (name : String) (f : Cell → Cell) :
    (table.modify name f).Indexed := by
  intro other i
  rw [getElem?_modify_name, ← hi other i]
  unfold Obarray.modify
  split <;> rfl

/-- The place that an entry had before the one at `k` was removed. -/
def formerPlace (k i : Nat) : Nat := if i < k then i else i + 1

theorem formerPlace_ne (k i : Nat) : formerPlace k i ≠ k := by
  unfold formerPlace
  split <;> omega

/-- Moving up undoes the step to the former place. -/
theorem movedUp_eq_iff {k j : Nat} (hne : j ≠ k) (i : Nat) :
    (if k < j then j - 1 else j) = i ↔ j = formerPlace k i := by
  unfold formerPlace
  split <;> split <;> omega

theorem getElem?_eraseIdxIfInBounds (entries : Array (String × Cell)) (k i : Nat) :
    (entries.eraseIdxIfInBounds k)[i]? = entries[formerPlace k i]? := by
  rw [← Array.getElem?_toList, Array.toList_eraseIdxIfInBounds, List.getElem?_eraseIdx]
  unfold formerPlace
  simp only [Array.getElem?_toList]
  split <;> rfl

/-- The entries behind a removed one move up by one place. -/
theorem Indexed.remove (hi : table.Indexed) (name : String) : (table.remove name).2.Indexed := by
  unfold Obarray.remove
  split
  · rename_i k hk
    intro other i
    rw [Std.TreeMap.getElem?_map, Std.TreeMap.getElem?_erase, getElem?_eraseIdxIfInBounds,
      ← hi other (formerPlace k i)]
    by_cases hname : name = other
    · subst hname
      have hne := formerPlace_ne k i
      simp [hk, hne.symm]
    · have hcompare : ¬ compare name other = .eq := fun he =>
        hname (Std.LawfulEqCmp.eq_of_compare he)
      rw [if_neg hcompare]
      cases hother : table.index[other]? with
      | none => simp
      | some j =>
        have hne := (hi.place_ne hk hother hname).symm
        simp only [Option.map_some, Option.some.injEq]
        exact movedUp_eq_iff hne i
  · exact hi

/-! What is found under each name afterwards. -/

theorem get?_insert (hi : table.Indexed) (symbol : Handle) (other : String) : (table.insert name symbol).get? other =
      if name = other then some ⟨symbol, none, none⟩ else table.get? other := by
  unfold get?
  by_cases hname : name = other
  · subst hname
    simp [insert]
  · have hcompare : ¬ compare name other = .eq := fun he =>
      hname (Std.LawfulEqCmp.eq_of_compare he)
    rw [if_neg hname]
    simp only [insert, Std.TreeMap.getElem?_insert, if_neg hcompare]
    cases ho : table.index[other]? with
    | none => rfl
    | some j =>
      obtain ⟨cell, hentry⟩ := index_place hi ho
      have hlt : j < table.entries.size := (Array.getElem?_eq_some_iff.mp hentry).1
      simp [Array.getElem?_push, Nat.ne_of_lt hlt]

theorem get?_modify (hi : table.Indexed) (f : Cell → Cell) (other : String) :
    (table.modify name f).get? other =
      if name = other then (table.get? name).map f else table.get? other := by
  unfold modify
  cases hn : table.index[name]? with
  | none =>
    dsimp only
    split
    · rename_i hname
      subst hname
      simp [get?, hn]
    · rfl
  | some i =>
    dsimp only
    unfold get?
    dsimp only
    by_cases hname : name = other
    · subst hname
      rw [if_pos rfl, hn]
      simp [Array.getElem?_modify, Function.comp_def]
    · rw [if_neg hname]
      cases ho : table.index[other]? with
      | none => rfl
      | some j =>
        have hne := hi.place_ne hn ho hname
        simp [Array.getElem?_modify, hne]

theorem get?_remove (hi : table.Indexed) (other : String) :
    (table.remove name).2.get? other = if name = other then none else table.get? other := by
  unfold remove
  cases hn : table.index[name]? with
  | none =>
    dsimp only
    split
    · rename_i hname
      subst hname
      simp [get?, hn]
    · rfl
  | some k =>
    dsimp only
    unfold get?
    dsimp only
    rw [Std.TreeMap.getElem?_map, Std.TreeMap.getElem?_erase]
    by_cases hname : name = other
    · subst hname
      simp
    · have hcompare : ¬ compare name other = .eq := fun he =>
        hname (Std.LawfulEqCmp.eq_of_compare he)
      rw [if_neg hcompare, if_neg hname]
      cases ho : table.index[other]? with
      | none => rfl
      | some j =>
        have hne := (hi.place_ne hn ho hname).symm
        have hplace := (movedUp_eq_iff hne _).mp rfl
        simp [getElem?_eraseIdxIfInBounds, ← hplace]

end EditorScripting.Host.Obarray
