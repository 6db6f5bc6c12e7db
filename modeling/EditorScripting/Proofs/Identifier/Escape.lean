import Mathlib.Tactic.IntervalCases
import EditorScripting.Identifier

/-!
Hexadecimal numbers and escapes: which texts are read as an escape, and how the decoder moves over
the text of one character.
-/
namespace EditorScripting

namespace Text

theorem digitChar_hex {d : Nat} (h : d < 16) :
    isHexDigit (Nat.digitChar d) = true ∧ hexDigitValue (Nat.digitChar d) = d := by
  interval_cases d <;> decide

/-- Writing a number produces hexadecimal digits only. -/
theorem isHexDigit_of_mem_hexDigits {n : Nat} {c : Char} (h : c ∈ hexDigits n) :
    isHexDigit c = true := by
  induction n using Nat.strongRecOn with
  | ind n ih =>
    rw [hexDigits, Nat.toDigits_eq_if (by decide)] at h
    split at h
    · rename_i hn
      rw [List.mem_singleton.mp h]
      exact (digitChar_hex hn).1
    · rename_i hn
      rcases List.mem_append.mp h with h | h
      · exact ih (n / 16) (by omega) h
      · rw [List.mem_singleton.mp h]
        exact (digitChar_hex (Nat.mod_lt n (by decide))).1

theorem hexValue_append_singleton (digits : List Char) (c : Char) :
    hexValue (digits ++ [c]) = 16 * hexValue digits + hexDigitValue c := by
  simp [hexValue, List.foldl_append]

/-- Reading undoes writing. -/
theorem hexValue_hexDigits (n : Nat) : hexValue (hexDigits n) = n := by
  induction n using Nat.strongRecOn with
  | ind n ih =>
    rw [hexDigits, Nat.toDigits_eq_if (by decide)]
    split
    · rename_i hn
      simp [hexValue, (digitChar_hex hn).2]
    · rename_i hn
      have hq : hexValue (Nat.toDigits 16 (n / 16)) = n / 16 := ih (n / 16) (by omega)
      rw [hexValue_append_singleton, hq, (digitChar_hex (Nat.mod_lt n (by decide))).2]
      omega

theorem charOfCode?_eq_some_iff {n : Nat} {c : Char} : charOfCode? n = some c ↔ c.toNat = n := by
  unfold charOfCode?
  constructor
  · intro h
    by_cases hv : n.isValidChar
    · rw [dif_pos hv] at h
      rw [← Option.some.inj h]
      rfl
    · rw [dif_neg hv] at h
      cases h
  · rintro rfl
    have hv : c.toNat.isValidChar := c.valid
    rw [dif_pos hv]
    rfl

theorem isAlphanumeric_of_isDigit {c : Char} (h : isDigit c = true) : isAlphanumeric c = true := by
  simp [isAlphanumeric, h]

theorem isAlphanumeric_of_isHexDigit {c : Char} (h : isHexDigit c = true) :
    isAlphanumeric c = true := by
  simp only [isHexDigit, isAlphanumeric, isLetter, isDigit, Bool.or_eq_true, Bool.and_eq_true,
    decide_eq_true_eq, Char.le_def, UInt32.le_iff_toNat_le] at h ⊢
  have ha : ('f' : Char).val.toNat ≤ ('z' : Char).val.toNat := by decide
  have hb : ('F' : Char).val.toNat ≤ ('Z' : Char).val.toNat := by decide
  omega

end Text

namespace Identifier

open Text

theorem isWordChar_iff {c : Char} :
    isWordChar c = true ↔ isLetter c = true ∨ isDigit c = true ∨ c = '_' := by
  simp [isWordChar, isAlphanumeric, or_assoc]

theorem isWordChar_of_isAlphanumeric {c : Char} (h : isAlphanumeric c = true) :
    isWordChar c = true := by
  simp [isWordChar, h]

theorem isEscaped_iff {c : Char} :
    isEscaped c = true ↔ isAlphanumeric c = false ∧ c ≠ '_' ∧ c ≠ '-' := by
  simp [isEscaped, isWordChar, and_assoc]

/-- A run of digits escapes a character if it is not empty, is the character's code, and the
character is one that is written as an escape. -/
theorem decodeDigits?_eq_some_iff {digits : List Char} {c : Char} :
    decodeDigits? digits = some c ↔
      digits ≠ [] ∧ c.toNat = hexValue digits ∧ isEscaped c = true := by
  unfold decodeDigits?
  cases digits with
  | nil => simp
  | cons d ds => simp [Option.filter_eq_some_iff, charOfCode?_eq_some_iff]

theorem decodeDigits?_hexDigits {c : Char} (h : isEscaped c = true) :
    decodeDigits? (hexDigits c.toNat) = some c :=
  decodeDigits?_eq_some_iff.mpr ⟨Nat.toDigits_ne_nil, (hexValue_hexDigits _).symm, h⟩

/-- The texts that are read as an escape behind its opening underscore. -/
theorem escape?_eq_some_iff {cs rest : List Char} {c : Char} :
    escape? cs = some (c, rest) ↔
      ∃ digits, cs = 'u' :: digits ++ '_' :: rest ∧ (∀ d ∈ digits, isHexDigit d = true) ∧
        decodeDigits? digits = some c := by
  constructor
  · intro h
    unfold escape? at h
    split at h
    · rename_i r
      split at h
      · rename_i tail hd
        obtain ⟨d, hdec, hp⟩ := Option.map_eq_some_iff.mp h
        obtain ⟨rfl, rfl⟩ := Prod.mk.inj hp
        refine ⟨r.takeWhile isHexDigit, ?_,
          fun d hd => List.all_eq_true.mp List.all_takeWhile d hd, hdec⟩
        rw [List.cons_append, ← hd, List.takeWhile_append_dropWhile]
      · simp at h
    · simp at h
  · rintro ⟨digits, rfl, hx, hdec⟩
    have hstop : isHexDigit '_' = false := by decide
    have ht : (digits ++ '_' :: rest).takeWhile isHexDigit = digits := by
      rw [List.takeWhile_append_of_pos hx, List.takeWhile_cons, if_neg (by simp [hstop]),
        List.append_nil]
    have hd : (digits ++ '_' :: rest).dropWhile isHexDigit = '_' :: rest := by
      rw [List.dropWhile_append_of_pos hx, List.dropWhile_cons, if_neg (by simp [hstop])]
    simp [escape?, ht, hd, hdec]

theorem isEscaped_of_escape? {cs rest : List Char} {c : Char} (h : escape? cs = some (c, rest)) :
    isEscaped c = true := by
  obtain ⟨digits, -, -, hdec⟩ := escape?_eq_some_iff.mp h
  exact (decodeDigits?_eq_some_iff.mp hdec).2.2

/-! How the decoder reads the next character. -/

theorem decode_nil : decode [] = [] := by rw [decode]

theorem decode_word {c : Char} (h : c ≠ '_') (r : List Char) : decode (c :: r) = c :: decode r := by
  rw [decode, if_neg h]

theorem decode_escape {r rest : List Char} {d : Char} (h : escape? r = some (d, rest)) :
    decode ('_' :: r) = d :: decode rest := by
  rw [decode, if_pos rfl]
  split
  · rename_i h'
    rw [h] at h'
    obtain ⟨rfl, rfl⟩ := Prod.mk.inj (Option.some.inj h')
    rfl
  · rename_i h'
    simp [h] at h'

theorem decode_dash {r : List Char} (h : escape? r = none) :
    decode ('_' :: r) = '-' :: decode r := by
  rw [decode, if_pos rfl]
  split
  · rename_i h'
    simp [h] at h'
  · rfl

/-- The decoder never produces an underscore. -/
theorem underscore_not_mem_decode (cs : List Char) : '_' ∉ decode cs := by
  induction cs using decode.induct with
  | case1 => simp [decode_nil]
  | case2 r d rest h _ ih =>
    obtain ⟨-, hd, -⟩ := isEscaped_iff.mp (isEscaped_of_escape? h)
    rw [decode_escape h, List.mem_cons, not_or]
    exact ⟨Ne.symm hd, ih⟩
  | case3 r h ih =>
    rw [decode_dash h, List.mem_cons, not_or]
    exact ⟨by decide, ih⟩
  | case4 c r hc ih =>
    rw [decode_word hc, List.mem_cons, not_or]
    exact ⟨Ne.symm hc, ih⟩

/-- An underscore is dropped in front of a digit only. -/
theorem toHostName_cases (cs : List Char) :
    toHostName cs = decode cs ∨
      ∃ d t, cs = '_' :: d :: t ∧ isDigit d = true ∧ toHostName cs = decode (d :: t) := by
  unfold toHostName
  split
  · rename_i d t
    split
    · rename_i hd
      exact .inr ⟨d, t, rfl, hd, rfl⟩
    · exact .inl rfl
  · exact .inl rfl

theorem underscore_not_mem_toHostName (cs : List Char) : '_' ∉ toHostName cs := by
  rcases toHostName_cases cs with hall | ⟨d, t, -, -, hdrop⟩
  · rw [hall]
    exact underscore_not_mem_decode cs
  · rw [hdrop]
    exact underscore_not_mem_decode (d :: t)

theorem toHostName_cons {c : Char} (h : c ≠ '_') (r : List Char) :
    toHostName (c :: r) = decode (c :: r) := by
  rcases toHostName_cases (c :: r) with hall | ⟨d, t, hcs, -, -⟩
  · exact hall
  · exact absurd (List.cons.inj hcs).1 h

/-! The three ways in which a character is written. -/

theorem encodeChar_word {c : Char} (h : isWordChar c = true) : encodeChar c = [c] := by
  simp [encodeChar, h]

theorem encodeChar_dash : encodeChar '-' = ['_'] := by decide

theorem encodeChar_alphanumeric {c : Char} (h : isAlphanumeric c = true) : encodeChar c = [c] :=
  encodeChar_word (isWordChar_of_isAlphanumeric h)

theorem flatMap_encodeChar_words {cs : List Char} (h : ∀ c ∈ cs, isWordChar c = true) :
    cs.flatMap encodeChar = cs := by
  induction cs with
  | nil => rfl
  | cons c r ih =>
    rw [List.flatMap_cons, encodeChar_word (h c (by simp)), ih fun d hd => h d (by simp [hd])]
    rfl

theorem encodeChar_escaped {c : Char} (h : isEscaped c = true) :
    encodeChar c = '_' :: 'u' :: hexDigits c.toNat ++ ['_'] := by
  obtain ⟨ha, hu, hd⟩ := isEscaped_iff.mp h
  simp [encodeChar, isWordChar, ha, hu, hd]

/-- All that is no ASCII letter or digit is written with an underscore first. -/
theorem encodeChar_underscore {c : Char} (h : isAlphanumeric c = false) :
    ∃ r, encodeChar c = '_' :: r := by
  by_cases hu : c = '_'
  · exact ⟨[], by simp [encodeChar, isWordChar, hu]⟩
  by_cases hd : c = '-'
  · exact ⟨[], by rw [hd, encodeChar_dash]⟩
  · exact ⟨_, encodeChar_escaped (isEscaped_iff.mpr ⟨h, hu, hd⟩)⟩

theorem ne_underscore_of_alphanumeric {c : Char} (h : isAlphanumeric c = true) : c ≠ '_' := by
  rintro rfl
  revert h
  decide

/-- A letter or digit at the start of a written name is the first character of the name. -/
theorem eq_cons_of_flatMap_encodeChar {d : Char} {r t : List Char} (hd : isAlphanumeric d = true)
    (h : r.flatMap encodeChar = d :: t) : ∃ r', r = d :: r' ∧ r'.flatMap encodeChar = t := by
  cases r with
  | nil => simp at h
  | cons c r' =>
    rw [List.flatMap_cons] at h
    cases ha : isAlphanumeric c with
    | false =>
      obtain ⟨u, hu⟩ := encodeChar_underscore ha
      rw [hu] at h
      exact absurd (List.cons.inj h).1.symm (ne_underscore_of_alphanumeric hd)
    | true =>
      rw [encodeChar_alphanumeric ha] at h
      obtain ⟨rfl, ht⟩ := List.cons.inj h
      exact ⟨r', rfl, ht⟩

/-- The text of an escape is read as the character that it was written for. -/
theorem decode_encodeChar_escaped {c : Char} (h : isEscaped c = true) (r : List Char) :
    decode (encodeChar c ++ r) = c :: decode r := by
  rw [encodeChar_escaped h]
  have he : escape? ('u' :: hexDigits c.toNat ++ '_' :: r) = some (c, r) :=
    escape?_eq_some_iff.mpr
      ⟨_, rfl, fun _ hd => isHexDigit_of_mem_hexDigits hd, decodeDigits?_hexDigits h⟩
  simpa using decode_escape he

end Identifier

end EditorScripting
