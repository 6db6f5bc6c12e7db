import Mathlib.Algebra.Order.Group.Multiset
import Std.Data.TreeMap

/-!
The entries of a table by name, up to their order.
-/
namespace EditorScripting.Table

variable {β : Type}

theorem nodup_toList (t : Std.TreeMap String β) : t.toList.Nodup :=
  Std.TreeMap.distinct_keys_toList.imp fun hne he => hne (by simp [he])

/-- An entry of a table comes on top of those that are left without it. -/
theorem toList_perm_erase {t : Std.TreeMap String β} {k : String} {v : β} (h : t[k]? = some v) :
    t.toList.Perm ((k, v) :: (t.erase k).toList) := by
  refine (List.perm_ext_iff_of_nodup (nodup_toList t) ?_).mpr fun e => ?_
  · refine List.nodup_cons.mpr ⟨?_, nodup_toList _⟩
    simp
  · obtain ⟨k', v'⟩ := e
    by_cases hk : k = k'
    · subst hk
      simp [h, eq_comm]
    · simp [Std.TreeMap.getElem?_erase, hk, Ne.symm hk]

/-- A new entry comes on top of those that are left without its name. -/
theorem toList_insert_perm_erase (t : Std.TreeMap String β) (k : String) (v : β) :
    (t.insert k v).toList.Perm ((k, v) :: (t.erase k).toList) := by
  refine (List.perm_ext_iff_of_nodup (nodup_toList _) ?_).mpr fun e => ?_
  · refine List.nodup_cons.mpr ⟨?_, nodup_toList _⟩
    simp
  · obtain ⟨k', v'⟩ := e
    by_cases hk : k = k'
    · subst hk
      simp [eq_comm]
    · simp [Std.TreeMap.getElem?_erase, Std.TreeMap.getElem?_insert, hk, Ne.symm hk]

theorem toList_erase_of_none {t : Std.TreeMap String β} {k : String} (h : t[k]? = none) :
    (t.erase k).toList.Perm t.toList := by
  refine (List.perm_ext_iff_of_nodup (nodup_toList _) (nodup_toList t)).mpr fun e => ?_
  obtain ⟨k', v'⟩ := e
  by_cases hk : k = k'
  · subst hk
    simp [h]
  · simp [Std.TreeMap.getElem?_erase, hk]

/-! What the values of a table have in them, all together. -/

section

variable {γ : Type} (f : β → List γ)

/-- What is in the values of a table. -/
def contents (t : Std.TreeMap String β) : List γ := t.toList.flatMap fun e => f e.2

theorem contents_of_getElem? {t : Std.TreeMap String β} {k : String} {v : β} (h : t[k]? = some v) :
    (contents f t : Multiset γ) = f v + contents f (t.erase k) := by
  rw [Multiset.coe_add]
  exact Multiset.coe_eq_coe.mpr ((toList_perm_erase h).flatMap_right _)

theorem contents_insert (t : Std.TreeMap String β) (k : String) (v : β) :
    (contents f (t.insert k v) : Multiset γ) = f v + contents f (t.erase k) := by
  rw [Multiset.coe_add]
  exact Multiset.coe_eq_coe.mpr ((toList_insert_perm_erase t k v).flatMap_right _)

theorem contents_erase_of_none {t : Std.TreeMap String β} {k : String} (h : t[k]? = none) :
    (contents f (t.erase k) : Multiset γ) = contents f t :=
  Multiset.coe_eq_coe.mpr ((toList_erase_of_none h).flatMap_right _)

/-- What a new entry replaces, if anything, leaves the table. -/
theorem contents_insert_add (t : Std.TreeMap String β) (k : String) (v : β) :
    (contents f (t.insert k v) + (t[k]?.map f).getD [] : Multiset γ) = f v + contents f t := by
  rw [contents_insert, add_assoc]
  cases h : t[k]? with
  | none => rw [contents_erase_of_none f h, Option.map_none, Option.getD_none, Multiset.coe_nil,
      add_zero]
  | some old => rw [contents_of_getElem? f h, Option.map_some, Option.getD_some,
      add_comm (f old : Multiset γ)]

end

end EditorScripting.Table
