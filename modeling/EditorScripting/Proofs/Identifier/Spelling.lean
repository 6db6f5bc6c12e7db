import EditorScripting.Proofs.Identifier.Canonical

/-!
The identifiers that names are written as. Whatever characters a name holds, its written form is an
identifier, and identifiers are written as they stand: they are just the names that writing leaves
alone, and a written name is not changed by writing it again.
-/
namespace EditorScripting.Identifier

open Text

theorem isWordChar_of_mem_encodeChar {c d : Char} (h : d ∈ encodeChar c) : isWordChar d = true := by
  unfold encodeChar at h
  split_ifs at h with hword hdash
  · rw [List.mem_singleton.mp h]
    exact hword
  · rw [List.mem_singleton.mp h]
    decide
  · have hparts : d = '_' ∨ d = 'u' ∨ d ∈ hexDigits c.toNat := by
      simp only [List.cons_append, List.mem_cons, List.mem_append, List.not_mem_nil, or_false] at h
      tauto
    rcases hparts with rfl | rfl | hdigit
    · decide
    · decide
    · have hhex := isHexDigit_of_mem_hexDigits hdigit
      exact isWordChar_of_isAlphanumeric (isAlphanumeric_of_isHexDigit hhex)

theorem isWordChar_of_mem_ofHostName {cs : List Char} {d : Char} (h : d ∈ ofHostName cs) :
    isWordChar d = true := by
  cases cs with
  | nil => simp [ofHostName] at h
  | cons c r =>
    rcases List.mem_append.mp h with h | h
    · have hd : d = '_' := by
        split at h
        · exact List.mem_singleton.mp h
        · cases h
      rw [hd]
      decide
    · obtain ⟨e, -, he⟩ := List.mem_flatMap.mp h
      exact isWordChar_of_mem_encodeChar he

/-- A leading digit is protected, and no other character is written with a digit in front. -/
theorem ofHostName_head (c : Char) (r : List Char) :
    ∃ d t, ofHostName (c :: r) = d :: t ∧ isDigit d = false := by
  cases hc : isDigit c with
  | true => exact ⟨'_', _, by rw [ofHostName, if_pos hc]; rfl, by decide⟩
  | false =>
    have hwritten : ofHostName (c :: r) = encodeChar c ++ r.flatMap encodeChar := by
      simp [ofHostName, hc]
    cases ha : isAlphanumeric c with
    | true => exact ⟨c, _, by rw [hwritten, encodeChar_alphanumeric ha]; rfl, hc⟩
    | false =>
      obtain ⟨t, ht⟩ := encodeChar_underscore ha
      exact ⟨'_', _, by rw [hwritten, ht]; rfl, by decide⟩

theorem isIdentifier_ofHostName {cs : List Char} (h : cs ≠ []) : IsIdentifier (ofHostName cs) := by
  obtain ⟨c, r, rfl⟩ := List.exists_cons_of_ne_nil h
  obtain ⟨d, t, hwritten, hd⟩ := ofHostName_head c r
  exact isIdentifier_iff.mpr ⟨d, t, hwritten, hd, fun e he => isWordChar_of_mem_ofHostName he⟩

theorem ofHostName_of_isIdentifier {cs : List Char} (h : IsIdentifier cs) : ofHostName cs = cs := by
  obtain ⟨c, r, rfl, hfirst, hword⟩ := isIdentifier_iff.mp h
  simp only [ofHostName, hfirst, Bool.false_eq_true, if_false, List.nil_append]
  exact flatMap_encodeChar_words hword

theorem guestName_of_isIdentifier {name : String} (h : IsIdentifier name.toList) :
    guestName name = name := by
  rw [guestName, ofHostName_of_isIdentifier h, String.ofList_toList]

/-- The written form of a name is an identifier and is written as it stands. A name is its own
written form just if it is an identifier already. -/
theorem guestName_isIdentifier (name : String) (h : name ≠ "") :
    IsIdentifier (guestName name).toList ∧ guestName (guestName name) = guestName name ∧
      (guestName name = name ↔ IsIdentifier name.toList) := by
  have hne : name.toList ≠ [] := by simpa using h
  have hid : IsIdentifier (guestName name).toList := by
    rw [guestName, String.toList_ofList]
    exact isIdentifier_ofHostName hne
  refine ⟨hid, guestName_of_isIdentifier hid, ?_, guestName_of_isIdentifier⟩
  intro hsame
  rwa [hsame] at hid

/-- A leading digit, a character beyond ASCII, a dash and an underscore. -/
theorem guestName_isIdentifier_mixed :
    "1λ-_" ≠ "" ∧ guestName "1λ-_" = "_1_u3bb___" ∧ IsIdentifier "_1_u3bb___".toList ∧
      guestName "_1_u3bb___" = "_1_u3bb___" := by
  have hne : "1λ-_" ≠ "" := by decide
  have hwritten : guestName "1λ-_" = "_1_u3bb___" := by decide +kernel
  obtain ⟨hid, hsame, -⟩ := guestName_isIdentifier "1λ-_" hne
  rw [hwritten] at hid hsame
  exact ⟨hne, hwritten, hid, hsame⟩

end EditorScripting.Identifier
