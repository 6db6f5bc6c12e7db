import EditorScripting.Proofs.Identifier.RoundTrip

/-!
The names that are documented to come back from their identifiers have no underscore and no escape
written between dashes. Two kinds of them are lost: a name that starts with a dash and a digit, and
a name whose escape is closed by another character that is written with an underscore first.
-/
namespace EditorScripting.Identifier

open Text

/-- Somewhere in a name stands `-u<hex>`, with the digits of an escape, in front of `c`. -/
def HasEscapeBefore (c : Char) (cs : List Char) : Prop :=
  ∃ before digits after, cs = before ++ '-' :: 'u' :: digits ++ c :: after ∧ IsEscapeCode digits

/-- An escape in a name that no dash closes. -/
def HasOpenEscape (cs : List Char) : Prop :=
  ∃ c, isAlphanumeric c = false ∧ c ≠ '-' ∧ HasEscapeBefore c cs

theorem hasFalseEscape_iff_escapeBefore (cs : List Char) :
    HasFalseEscape cs ↔ ∃ c, isAlphanumeric c = false ∧ HasEscapeBefore c cs := by
  constructor
  · rintro ⟨before, -, rfl, digits, c, after, rfl, hcode, hc⟩
    exact ⟨c, hc, before, digits, after, by simp, hcode⟩
  · rintro ⟨c, hc, before, digits, after, rfl, hcode⟩
    exact ⟨before, 'u' :: digits ++ c :: after, by simp, digits, c, after, rfl, hcode, hc⟩

/-- Without an escape between dashes, a false escape is an open one. -/
theorem hasFalseEscape_iff_open {cs : List Char} (h : ¬ HasEscapeBefore '-' cs) :
    HasFalseEscape cs ↔ HasOpenEscape cs := by
  rw [hasFalseEscape_iff_escapeBefore]
  constructor
  · rintro ⟨c, hc, he⟩
    have hd : c ≠ '-' := by
      rintro rfl
      exact h he
    exact ⟨c, hc, hd, he⟩
  · rintro ⟨c, hc, -, he⟩
    exact ⟨c, hc, he⟩

theorem two_dashes_of_hasEscapeBefore {cs : List Char} (h : HasEscapeBefore '-' cs) :
    2 ≤ cs.count '-' := by
  obtain ⟨before, digits, after, rfl, -⟩ := h
  simp only [List.count_append, List.count_cons_self]
  omega

/-- A documented name comes back exactly if it neither starts with a dash and a digit nor has an
escape that no dash closes. One that starts with a dash and a digit has the identifier of the name
without the dash. -/
theorem documented_name_comes_back_iff (name : String) (hu : '_' ∉ name.toList)
    (he : ¬ HasEscapeBefore '-' name.toList) :
    (hostName (guestName name) = name ↔
        ¬ StartsWithDashDigit name.toList ∧ ¬ HasOpenEscape name.toList) ∧
      (StartsWithDashDigit name.toList →
        guestName name = guestName (String.ofList name.toList.tail)) := by
  constructor
  · rw [hostName_guestName_eq_iff_toList, toHostName_ofHostName_eq_iff hu,
      hasFalseEscape_iff_open he]
  · rintro ⟨d, r, hs, hd⟩
    rw [guestName, guestName, String.toList_ofList, hs, List.tail_cons, ofHostName_dashDigit hd]

/-- Both kinds are met: `-1` is read back as `1`, and `-u2a*` as `*u2a-`. -/
theorem documented_name_comes_back_iff_lost :
    ('_' ∉ "-1".toList ∧ ¬ HasEscapeBefore '-' "-1".toList ∧ guestName "-1" = guestName "1" ∧
        hostName (guestName "-1") ≠ "-1") ∧
      '_' ∉ "-u2a*".toList ∧ ¬ HasEscapeBefore '-' "-u2a*".toList ∧
        hostName (guestName "-u2a*") ≠ "-u2a*" := by
  have hu : '_' ∉ "-1".toList := by decide
  have he : ¬ HasEscapeBefore '-' "-1".toList := fun h =>
    absurd (two_dashes_of_hasEscapeBefore h) (by decide)
  have hd : StartsWithDashDigit "-1".toList := ⟨'1', [], by decide, by decide⟩
  have hu' : '_' ∉ "-u2a*".toList := by decide
  have he' : ¬ HasEscapeBefore '-' "-u2a*".toList := fun h =>
    absurd (two_dashes_of_hasEscapeBefore h) (by decide)
  have hcode : IsEscapeCode ['2', 'a'] :=
    isEscapeCode_iff.mpr ⟨List.all_eq_true.mp (by decide), '*', by decide +kernel⟩
  have ho : HasOpenEscape "-u2a*".toList :=
    ⟨'*', by decide, by decide, [], ['2', 'a'], [], by decide, hcode⟩
  obtain ⟨hb, hg⟩ := documented_name_comes_back_iff "-1" hu he
  obtain ⟨hb', -⟩ := documented_name_comes_back_iff "-u2a*" hu' he'
  exact ⟨⟨hu, he, hg hd, fun h => (hb.mp h).1 hd⟩, hu', he', fun h => (hb'.mp h).2 ho⟩

end EditorScripting.Identifier
