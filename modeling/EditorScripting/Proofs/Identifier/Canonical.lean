import Mathlib.Data.List.Induction
import Mathlib.Tactic.IntervalCases
import EditorScripting.Proofs.Identifier.Escape

/-!
Which guest identifiers come back from their host names. A number is written in one way only, with
lower-case digits and without zeros in front, so an escape that is written in another way is lost;
an identifier without such an escape is written again as it was, whichever of its underscores the
decoder has taken for dashes, for parts of escapes or for the protection of a digit.
-/
namespace EditorScripting

namespace Text

/-- A hexadecimal digit that is an upper-case letter. -/
def isUpperHexDigit (c : Char) : Bool := 'A' ≤ c && c ≤ 'F'

/-- Digits as a number is written: in lower case, and with a zero in front only if it is the one
digit. -/
def WrittenPlainly (digits : List Char) : Prop :=
  (∀ d ∈ digits, isUpperHexDigit d = false) ∧ ∀ r, digits = '0' :: r → r = []

theorem isDigit_of_isLetter {c : Char} (h : isLetter c = true) : isDigit c = false := by
  simp only [isLetter, isDigit, Bool.or_eq_true, Bool.and_eq_true, Bool.and_eq_false_iff,
    decide_eq_true_eq, decide_eq_false_iff_not, Char.le_def, UInt32.le_iff_toNat_le] at h ⊢
  have hdigit : ('9' : Char).val.toNat < ('A' : Char).val.toNat := by decide
  have hupper : ('A' : Char).val.toNat ≤ ('a' : Char).val.toNat := by decide
  omega

/-- Each lower-case digit is the one that is written for its value. -/
theorem digitChar_hexDigitValue {c : Char} (hx : isHexDigit c = true)
    (hu : isUpperHexDigit c = false) :
    hexDigitValue c < 16 ∧ Nat.digitChar (hexDigitValue c) = c := by
  have hcode : (48 ≤ c.toNat ∧ c.toNat ≤ 57) ∨ (97 ≤ c.toNat ∧ c.toNat ≤ 102) := by
    simp only [isHexDigit, isUpperHexDigit, isDigit, Bool.or_eq_true, Bool.and_eq_true,
      Bool.and_eq_false_iff, decide_eq_true_eq, decide_eq_false_iff_not, Char.le_def,
      UInt32.le_iff_toNat_le] at hx hu
    exact hx.elim (·.elim .inl .inr) fun h => absurd h (by omega)
  rw [← Char.ofNat_toNat c]
  generalize c.toNat = n at hcode
  rcases hcode with ⟨hl, hr⟩ | ⟨hl, hr⟩ <;> interval_cases n <;> decide

theorem hexDigitValue_pos {c : Char} (hx : isHexDigit c = true) (hu : isUpperHexDigit c = false)
    (h0 : c ≠ '0') : 0 < hexDigitValue c := by
  rw [Nat.pos_iff_ne_zero]
  intro hv
  have hc := (digitChar_hexDigitValue hx hu).2
  rw [hv] at hc
  exact h0 hc.symm

theorem hexValue_pos {d : Char} (hd : 0 < hexDigitValue d) (r : List Char) :
    0 < hexValue (d :: r) := by
  induction r using List.reverseRecOn with
  | nil => simpa [hexValue] using hd
  | append_singleton r c ih =>
    rw [← List.cons_append, hexValue_append_singleton]
    omega

/-- Writing undoes reading where digits are written plainly. -/
theorem hexDigits_hexValue {digits : List Char} (hne : digits ≠ [])
    (hx : ∀ d ∈ digits, isHexDigit d = true) (hp : WrittenPlainly digits) :
    hexDigits (hexValue digits) = digits := by
  obtain ⟨hu, hz⟩ := hp
  induction digits using List.reverseRecOn with
  | nil => exact absurd rfl hne
  | append_singleton digits c ih =>
    obtain ⟨hlt, hc⟩ := digitChar_hexDigitValue (hx c (by simp)) (hu c (by simp))
    rw [hexValue_append_singleton, hexDigits, Nat.toDigits_eq_if (by decide)]
    cases digits with
    | nil =>
      have hv : 16 * hexValue [] + hexDigitValue c = hexDigitValue c := by simp [hexValue]
      rw [hv, if_pos hlt, hc, List.nil_append]
    | cons d r =>
      have hd : d ≠ '0' := by
        rintro rfl
        simpa using hz (r ++ [c]) rfl
      have hpos := hexValue_pos (hexDigitValue_pos (hx d (by simp)) (hu d (by simp)) hd) r
      have hq : (16 * hexValue (d :: r) + hexDigitValue c) / 16 = hexValue (d :: r) := by omega
      have hm : (16 * hexValue (d :: r) + hexDigitValue c) % 16 = hexDigitValue c := by omega
      have hfirst : Nat.toDigits 16 (hexValue (d :: r)) = d :: r := by
        refine ih (by simp) (fun e he => hx e (List.mem_append_left _ he))
          (fun e he => hu e (List.mem_append_left _ he)) fun t ht => ?_
        exact absurd (List.cons.inj ht).1 hd
      rw [if_neg (by omega), hq, hm, hc, hfirst]

end Text

namespace Identifier

open Text

/-- A letter or underscore, and then letters, digits and underscores. -/
def IsIdentifier (cs : List Char) : Prop :=
  ∃ c r, cs = c :: r ∧ (isLetter c = true ∨ c = '_') ∧
    ∀ d ∈ r, isLetter d = true ∨ isDigit d = true ∨ d = '_'

theorem isIdentifier_iff {cs : List Char} :
    IsIdentifier cs ↔
      ∃ c r, cs = c :: r ∧ isDigit c = false ∧ ∀ d ∈ cs, isWordChar d = true := by
  constructor
  · rintro ⟨c, r, rfl, hc, hr⟩
    refine ⟨c, r, rfl, ?_, ?_⟩
    · rcases hc with hletter | rfl
      · exact isDigit_of_isLetter hletter
      · decide
    · intro d hd
      rw [isWordChar_iff]
      rcases List.mem_cons.mp hd with rfl | hd
      · exact hc.imp_right .inr
      · exact hr d hd
  · rintro ⟨c, r, rfl, hfirst, hword⟩
    refine ⟨c, r, rfl, ?_, fun d hd => isWordChar_iff.mp (hword d (List.mem_cons_of_mem c hd))⟩
    rcases isWordChar_iff.mp (hword c List.mem_cons_self) with hletter | hdigit | hu
    · exact .inl hletter
    · rw [hfirst] at hdigit
      cases hdigit
    · exact .inr hu

/-- No run `_u<hex>_` of a text is written with an upper-case digit or a superfluous zero. -/
def RunsPlain (cs : List Char) : Prop :=
  ∀ before digits after, cs = before ++ '_' :: 'u' :: digits ++ '_' :: after → digits ≠ [] →
    (∀ d ∈ digits, isHexDigit d = true) → WrittenPlainly digits

theorem RunsPlain.of_append (front : List Char) {cs : List Char} (h : RunsPlain (front ++ cs)) :
    RunsPlain cs := by
  rintro before digits after rfl hne hx
  exact h (front ++ before) digits after (by simp) hne hx

theorem RunsPlain.of_cons {c : Char} {cs : List Char} (h : RunsPlain (c :: cs)) : RunsPlain cs :=
  h.of_append [c]

/-- What the decoder reads is written again as it stood there. -/
theorem flatMap_encodeChar_decode {cs : List Char} (hw : ∀ c ∈ cs, isWordChar c = true)
    (hp : RunsPlain cs) : (decode cs).flatMap encodeChar = cs := by
  induction cs using decode.induct with
  | case1 => simp [decode_nil]
  | case2 r d rest h _ ih =>
    obtain ⟨digits, rfl, hx, hdec⟩ := escape?_eq_some_iff.mp h
    obtain ⟨hne, hvalue, hd⟩ := decodeDigits?_eq_some_iff.mp hdec
    have hplain : WrittenPlainly digits := hp [] digits rest rfl hne hx
    have hsplit : '_' :: ('u' :: digits ++ '_' :: rest) =
        ('_' :: 'u' :: digits ++ ['_']) ++ rest := by simp
    have hrest : (decode rest).flatMap encodeChar = rest :=
      ih (fun c hc => hw c (by simp [hc])) ((hsplit ▸ hp).of_append _)
    rw [decode_escape h, List.flatMap_cons, encodeChar_escaped hd, hvalue,
      hexDigits_hexValue hne hx hplain, hrest]
    simp
  | case3 r h ih =>
    rw [decode_dash h, List.flatMap_cons, encodeChar_dash,
      ih (fun c hc => hw c (by simp [hc])) hp.of_cons]
    rfl
  | case4 c r hc ih =>
    rw [decode_word hc, List.flatMap_cons, encodeChar_word (hw c (by simp)),
      ih (fun d hd => hw d (by simp [hd])) hp.of_cons]
    rfl

/-- The decoder makes no digit of an underscore. -/
theorem decode_head_not_digit {c : Char} (hc : isDigit c = false) (r : List Char) :
    ∃ d t, decode (c :: r) = d :: t ∧ isDigit d = false := by
  by_cases hu : c = '_'
  · subst hu
    cases he : escape? r with
    | none => exact ⟨'-', _, decode_dash he, by decide⟩
    | some p =>
      obtain ⟨d, rest⟩ := p
      have ha := (isEscaped_iff.mp (isEscaped_of_escape? he)).1
      refine ⟨d, _, decode_escape he, ?_⟩
      by_contra hd
      rw [isAlphanumeric_of_isDigit (by simpa using hd)] at ha
      cases ha
  · exact ⟨c, _, decode_word hu r, hc⟩

/-- An identifier is written again as it was: an underscore that was dropped in front of a digit is
put there again, and no other one is. -/
theorem ofHostName_toHostName {cs : List Char} (hi : IsIdentifier cs) (hp : RunsPlain cs) :
    ofHostName (toHostName cs) = cs := by
  obtain ⟨c, r, rfl, hfirst, hword⟩ := isIdentifier_iff.mp hi
  rcases toHostName_cases (c :: r) with hall | ⟨d, t, hcs, hd, hdrop⟩
  · obtain ⟨d, t, hdecode, hd⟩ := decode_head_not_digit hfirst r
    have hback := flatMap_encodeChar_decode hword hp
    rw [hdecode] at hback
    rw [hall, hdecode, ofHostName, if_neg (by simp [hd]), List.nil_append, hback]
  · have hne : d ≠ '_' := ne_underscore_of_alphanumeric (isAlphanumeric_of_isDigit hd)
    rw [hcs] at hword hp
    have hrest := flatMap_encodeChar_decode (fun e he => hword e (by simp [he])) hp.of_cons
    rw [decode_word hne] at hrest hdrop
    rw [hdrop, ofHostName, if_pos hd, hrest, hcs]
    rfl

/-- Guest identifiers come back from their host names, if no run `_u<hex>_` in them is written with
an upper-case digit or a superfluous zero in front. -/
theorem guestName_hostName {name : String} (hi : IsIdentifier name.toList)
    (hp : RunsPlain name.toList) : guestName (hostName name) = name := by
  rw [guestName, hostName, String.toList_ofList, ofHostName_toHostName hi hp, String.ofList_toList]

/-- A protected digit, two escapes that share an underscore, of which the first one is read, an
escape of a letter and one without digits. -/
theorem guestName_hostName_overlapping :
    IsIdentifier "_1_u2a_u2b__u61_x_u_".toList ∧ RunsPlain "_1_u2a_u2b__u61_x_u_".toList ∧
    hostName "_1_u2a_u2b__u61_x_u_" = "1*u2b--u61-x-u-" ∧
    guestName (hostName "_1_u2a_u2b__u61_x_u_") = "_1_u2a_u2b__u61_x_u_" := by
  have hi : IsIdentifier "_1_u2a_u2b__u61_x_u_".toList :=
    ⟨'_', _, rfl, .inr rfl, fun d hd =>
      isWordChar_iff.mp (List.all_eq_true.mp (by decide +kernel) d hd)⟩
  have hchars : ∀ c ∈ "_1_u2a_u2b__u61_x_u_".toList, (!isUpperHexDigit c && c != '0') = true :=
    List.all_eq_true.mp (by decide +kernel)
  have hp : RunsPlain "_1_u2a_u2b__u61_x_u_".toList := by
    intro before digits after h _ _
    simp only [h, Bool.and_eq_true, Bool.not_eq_true', bne_iff_ne] at hchars
    refine ⟨fun d hd => (hchars d (by simp [hd])).1, ?_⟩
    rintro r rfl
    exact absurd rfl (hchars '0' (by simp)).2
  exact ⟨hi, hp, by decide +kernel, guestName_hostName hi hp⟩

end Identifier

end EditorScripting
