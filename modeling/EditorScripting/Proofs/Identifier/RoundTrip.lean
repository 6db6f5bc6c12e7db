import EditorScripting.Proofs.Identifier.Escape

/-!
Which host names come back from their guest identifiers. A name is lost if it has an underscore, if
it starts with a dash in front of a digit, or if a dash in it and what follows read like an escape;
every other name is read back as it was.
-/
namespace EditorScripting.Identifier

open Text

/-- A run of hexadecimal digits that an escape may be made of: it fits 32 bits and is the code of a
character that is no ASCII letter or digit, no underscore and no dash. -/
def IsEscapeCode (digits : List Char) : Prop :=
  digits ≠ [] ∧ (∀ d ∈ digits, isHexDigit d = true) ∧ hexValue digits < 2 ^ 32 ∧
    ∃ c : Char, c.toNat = hexValue digits ∧ isAlphanumeric c = false ∧ c ≠ '_' ∧ c ≠ '-'

/-- The text behind a dash reads like an escape: `u`, the digits of an escape, and then a character
that is no ASCII letter or digit, which is written with an underscore first. -/
def ReadsAsEscape (cs : List Char) : Prop :=
  ∃ digits c after, cs = 'u' :: digits ++ c :: after ∧ IsEscapeCode digits ∧
    isAlphanumeric c = false

/-- Somewhere in a name a dash is followed by what reads like an escape. -/
def HasFalseEscape (cs : List Char) : Prop :=
  ∃ before after, cs = before ++ '-' :: after ∧ ReadsAsEscape after

/-- A name starts with a dash and a digit, like a name with a protecting underscore. -/
def StartsWithDashDigit (cs : List Char) : Prop :=
  ∃ d r, cs = '-' :: d :: r ∧ isDigit d = true

theorem isEscapeCode_iff {digits : List Char} :
    IsEscapeCode digits ↔
      (∀ d ∈ digits, isHexDigit d = true) ∧ ∃ c, decodeDigits? digits = some c := by
  simp only [IsEscapeCode, decodeDigits?_eq_some_iff, isEscaped_iff]
  constructor
  · rintro ⟨hne, hx, -, c, hc, hk⟩
    exact ⟨hx, c, hne, hc, hk⟩
  · rintro ⟨hx, c, hne, hc, hk⟩
    have hb : c.toNat < 2 ^ 32 := c.val.toNat_lt
    exact ⟨hne, hx, hc ▸ hb, c, hc, hk⟩

/-- The digits at the start of a written name, up to an underscore, stand in the name itself, in
front of a character that is no ASCII letter or digit. -/
theorem digits_of_flatMap_encodeChar {digits rest : List Char} {r : List Char}
    (hx : ∀ d ∈ digits, isHexDigit d = true)
    (h : r.flatMap encodeChar = digits ++ '_' :: rest) :
    ∃ c after, r = digits ++ c :: after ∧ isAlphanumeric c = false := by
  induction digits generalizing r with
  | nil =>
    cases r with
    | nil => simp at h
    | cons c after =>
      refine ⟨c, after, rfl, ?_⟩
      by_contra ha
      rw [List.flatMap_cons, encodeChar_alphanumeric (by simpa using ha)] at h
      have hc : c = '_' := (List.cons.inj h).1
      exact ne_underscore_of_alphanumeric (by simpa using ha) hc
  | cons d ds ih =>
    have hd : isAlphanumeric d = true := isAlphanumeric_of_isHexDigit (hx d (by simp))
    obtain ⟨r', rfl, hr⟩ := eq_cons_of_flatMap_encodeChar hd h
    obtain ⟨c, after, rfl, hc⟩ := ih (fun e he => hx e (by simp [he])) hr
    exact ⟨c, after, rfl, hc⟩

/-- The written text behind an underscore is read as an escape just if the name reads like one. -/
theorem escape?_flatMap_encodeChar (r : List Char) :
    (∃ p, escape? (r.flatMap encodeChar) = some p) ↔ ReadsAsEscape r := by
  constructor
  · rintro ⟨⟨c, rest⟩, h⟩
    obtain ⟨digits, he, hx, hdec⟩ := escape?_eq_some_iff.mp h
    obtain ⟨r', rfl, hr⟩ := eq_cons_of_flatMap_encodeChar (by decide) he
    obtain ⟨c', after, rfl, hc'⟩ := digits_of_flatMap_encodeChar hx hr
    exact ⟨digits, c', after, rfl, isEscapeCode_iff.mpr ⟨hx, c, hdec⟩, hc'⟩
  · rintro ⟨digits, c, after, rfl, hcode, hc⟩
    obtain ⟨hx, d, hdec⟩ := isEscapeCode_iff.mp hcode
    obtain ⟨t, ht⟩ := encodeChar_underscore hc
    have hkeep : digits.flatMap encodeChar = digits :=
      flatMap_encodeChar_words fun e he =>
        isWordChar_of_isAlphanumeric (isAlphanumeric_of_isHexDigit (hx e he))
    refine ⟨(d, t ++ after.flatMap encodeChar), escape?_eq_some_iff.mpr ⟨digits, ?_, hx, hdec⟩⟩
    have hu : encodeChar 'u' = ['u'] := by decide
    simp [hu, hkeep, ht]

theorem hasFalseEscape_cons (c : Char) (r : List Char) :
    HasFalseEscape (c :: r) ↔ (c = '-' ∧ ReadsAsEscape r) ∨ HasFalseEscape r := by
  constructor
  · rintro ⟨before, after, h, hr⟩
    cases before with
    | nil =>
      obtain ⟨rfl, rfl⟩ := List.cons.inj h
      exact .inl ⟨rfl, hr⟩
    | cons b bs => exact .inr ⟨bs, after, (List.cons.inj h).2, hr⟩
  · rintro (⟨rfl, hr⟩ | ⟨before, after, rfl, hr⟩)
    · exact ⟨[], r, rfl, hr⟩
    · exact ⟨c :: before, after, rfl, hr⟩

/-- The decoder stays in step with the written characters of a name without underscores up to the
first dash that starts a false escape, and differs from the name there. -/
theorem decode_flatMap_encodeChar_iff {cs : List Char} (hu : '_' ∉ cs) :
    decode (cs.flatMap encodeChar) = cs ↔ ¬ HasFalseEscape cs := by
  induction cs with
  | nil => simp [decode_nil, HasFalseEscape]
  | cons c r ih =>
    obtain ⟨hc, hr⟩ := not_or.mp (mt List.mem_cons.mpr hu)
    rw [hasFalseEscape_cons, List.flatMap_cons]
    cases ha : isAlphanumeric c with
    | true =>
      have hd : c ≠ '-' := by rintro rfl; revert ha; decide
      rw [encodeChar_alphanumeric ha, List.singleton_append, decode_word (Ne.symm hc)]
      simp [hd, ih hr]
    | false =>
      by_cases hd : c = '-'
      · subst hd
        rw [encodeChar_dash, List.singleton_append, ← escape?_flatMap_encodeChar]
        cases he : escape? (r.flatMap encodeChar) with
        | none => simp [decode_dash he, ih hr]
        | some p =>
          obtain ⟨d, rest⟩ := p
          have hne := (isEscaped_iff.mp (isEscaped_of_escape? he)).2.2
          simp [decode_escape he, hne]
      · have hx : isEscaped c = true := isEscaped_iff.mpr ⟨ha, Ne.symm hc, hd⟩
        rw [decode_encodeChar_escaped hx]
        simp [hd, ih hr]

/-- Outside of names that start with a dash and a digit, the protecting underscore is dropped just
if there is one. -/
theorem toHostName_ofHostName {cs : List Char} (hu : '_' ∉ cs) (hd : ¬ StartsWithDashDigit cs) :
    toHostName (ofHostName cs) = decode (cs.flatMap encodeChar) := by
  cases cs with
  | nil => simp [ofHostName, toHostName]
  | cons c r =>
    have hc : c ≠ '_' := fun h => hu (h ▸ List.mem_cons_self)
    cases ha : isAlphanumeric c with
    | true =>
      have he : (c :: r).flatMap encodeChar = c :: r.flatMap encodeChar := by
        rw [List.flatMap_cons, encodeChar_alphanumeric ha, List.singleton_append]
      cases hg : isDigit c with
      | true => simp only [ofHostName, hg, he, if_true, List.singleton_append, toHostName]
      | false =>
        simp only [ofHostName, hg, he, Bool.false_eq_true, if_false, List.nil_append]
        exact toHostName_cons hc _
    | false =>
      have hg : isDigit c = false := by
        by_contra hdig
        rw [isAlphanumeric_of_isDigit (by simpa using hdig)] at ha
        cases ha
      simp only [ofHostName, hg, Bool.false_eq_true, if_false, List.nil_append]
      by_cases hm : c = '-'
      · subst hm
        rw [List.flatMap_cons, encodeChar_dash, List.singleton_append]
        cases hr : r.flatMap encodeChar with
        | nil => simp [toHostName]
        | cons e t =>
          have hnot : isDigit e = false := by
            by_contra hdig
            have hdig : isDigit e = true := by simpa using hdig
            obtain ⟨r', rfl, -⟩ :=
              eq_cons_of_flatMap_encodeChar (isAlphanumeric_of_isDigit hdig) hr
            exact hd ⟨e, r', rfl, hdig⟩
          simp [toHostName, hnot]
      · have hx : isEscaped c = true := isEscaped_iff.mpr ⟨ha, hc, hm⟩
        have hnot : isDigit 'u' = false := by decide
        rw [List.flatMap_cons, encodeChar_escaped hx]
        simp [toHostName, hnot]

/-- The dash of a leading dash and digit looks like the underscore that protects a leading digit. -/
theorem ofHostName_dashDigit {d : Char} (h : isDigit d = true) (r : List Char) :
    ofHostName ('-' :: d :: r) = ofHostName (d :: r) := by
  have hm : isDigit '-' = false := by decide
  simp [ofHostName, hm, h, encodeChar_dash]

/-- A name that starts with a dash and a digit loses the dash. -/
theorem toHostName_ofHostName_dashDigit {d : Char} (h : isDigit d = true) (r : List Char) :
    ∃ t, toHostName (ofHostName ('-' :: d :: r)) = d :: t := by
  have ha : isAlphanumeric d = true := isAlphanumeric_of_isDigit h
  refine ⟨decode (r.flatMap encodeChar), ?_⟩
  rw [ofHostName_dashDigit h]
  simp only [ofHostName, List.flatMap_cons, encodeChar_alphanumeric ha, List.singleton_append,
    toHostName, h, if_true]
  exact decode_word (ne_underscore_of_alphanumeric ha) _

theorem hostName_guestName_eq_iff_toList (name : String) :
    hostName (guestName name) = name ↔ toHostName (ofHostName name.toList) = name.toList := by
  rw [hostName, guestName, String.toList_ofList, ← String.toList_inj, String.toList_ofList]

/-- A name without underscores comes back exactly if it is none of the two kinds that are lost. -/
theorem toHostName_ofHostName_eq_iff {cs : List Char} (hu : '_' ∉ cs) :
    toHostName (ofHostName cs) = cs ↔ ¬ StartsWithDashDigit cs ∧ ¬ HasFalseEscape cs := by
  constructor
  · intro h
    have hd : ¬ StartsWithDashDigit cs := by
      rintro ⟨d, r, rfl, hdig⟩
      obtain ⟨t, ht⟩ := toHostName_ofHostName_dashDigit hdig r
      rw [ht] at h
      rw [(List.cons.inj h).1] at hdig
      revert hdig
      decide
    refine ⟨hd, (decode_flatMap_encodeChar_iff hu).mp ?_⟩
    rwa [toHostName_ofHostName hu hd] at h
  · rintro ⟨hd, hf⟩
    rw [toHostName_ofHostName hu hd]
    exact (decode_flatMap_encodeChar_iff hu).mpr hf

/-- A host name comes back from its guest identifier exactly if it has no underscore, does not start
with a dash and a digit, and has no false escape. -/
theorem hostName_guestName_eq_iff (name : String) :
    hostName (guestName name) = name ↔
      '_' ∉ name.toList ∧ ¬ StartsWithDashDigit name.toList ∧ ¬ HasFalseEscape name.toList := by
  rw [hostName_guestName_eq_iff_toList]
  constructor
  · intro h
    have hu : '_' ∉ name.toList := h ▸ underscore_not_mem_toHostName _
    exact ⟨hu, (toHostName_ofHostName_eq_iff hu).mp h⟩
  · rintro ⟨hu, hd, hf⟩
    exact (toHostName_ofHostName_eq_iff hu).mpr ⟨hd, hf⟩

end EditorScripting.Identifier
