import EditorScripting.Proofs.Json.Tokens
import EditorScripting.Proofs.Json.Writing

/-!
Numbers are read or skipped up to their ends, which is where no part of a number can follow.
-/
namespace EditorScripting.Json.Reader

open Text

variable {β : Type} {s s' t : List Char} {n : Nat}

/-- No digit comes next. -/
def NoDigit (s : List Char) : Prop := ∀ c, s.head? = some c → isDigit c = false

/-- No number goes on like this. -/
def Stops (s : List Char) : Prop :=
  ∀ c, s.head? = some c → isDigit c = false ∧ c ∉ ['.', 'e', 'E']

theorem takeWhile_digits (ht : ∀ c ∈ t, isDigit c = true) (hs : NoDigit s) :
    (t ++ s).takeWhile isDigit = t ∧ (t ++ s).dropWhile isDigit = s := by
  rw [List.takeWhile_append_of_pos ht, List.dropWhile_append_of_pos ht]
  cases s with
  | nil => exact ⟨List.append_nil t, rfl⟩
  | cons c s =>
    have hc : ¬isDigit c = true := by simp [hs c rfl]
    rw [List.takeWhile_cons_of_neg hc, List.dropWhile_cons_of_neg hc]
    exact ⟨List.append_nil t, rfl⟩

theorem run_digits (ht : ∀ c ∈ t, isDigit c = true) (hs : NoDigit s) :
    digits.run (t ++ s) = .ok (t, s) := by
  obtain ⟨htake, hdrop⟩ := takeWhile_digits ht hs
  calc digits.run (t ++ s)
    _ = .ok ((t ++ s).takeWhile isDigit, (t ++ s).dropWhile isDigit) := rfl
    _ = .ok (t, s) := by rw [htake, hdrop]

theorem noDigit_of_stops (h : Stops s) : NoDigit s := fun c hc => (h c hc).1

theorem noDigit_exponent (he : IsExponent t) (hs : Stops s) : NoDigit (t ++ s) := by
  rcases he with rfl | ⟨e, sign, ds, he, -, -, rfl⟩
  · exact noDigit_of_stops hs
  · intro c hc
    cases hc
    simp only [List.mem_cons, List.not_mem_nil, or_false] at he
    rcases he with rfl | rfl <;> rfl

theorem noDigit_fraction (hf : IsFraction t) (hs : NoDigit s) : NoDigit (t ++ s) := by
  rcases hf with rfl | ⟨ds, -, rfl⟩
  · exact hs
  · intro c hc
    cases hc
    rfl

theorem head_ne_dot (he : IsExponent t) (hs : Stops s) : (t ++ s).head? ≠ some '.' := by
  intro hdot
  rcases he with rfl | ⟨e, sign, ds, he, -, -, rfl⟩
  · exact (hs '.' hdot).2 (by decide)
  · cases hdot
    revert he
    decide

/-- A digit is no other character that plays a part in texts. -/
theorem ne_of_isDigit {d : Char} (hc : isDigit c = true) (hd : isDigit d = false) : c ≠ d := by
  rintro rfl
  rw [hc] at hd
  cases hd

/-- A sign in front of digits is taken off. -/
theorem exists_run_sign {sign : List Char} (hsign : sign ∈ [[], ['+'], ['-']]) (ht : IsDigits t)
    (f : Option Char → Reader β) (s : List Char) :
    ∃ o, (do
      let sign ← peek
      if sign = some '+' ∨ sign = some '-' then advance
      f sign : Reader β).run (sign ++ (t ++ s)) = (f o).run (t ++ s) := by
  simp only [List.mem_cons, List.not_mem_nil, or_false] at hsign
  rcases hsign with rfl | rfl | rfl
  · obtain ⟨c, r, rfl, hc⟩ := exists_of_isDigits ht
    have hplain : ¬(some c = some '+' ∨ some c = some '-') := by
      simp [ne_of_isDigit hc (d := '+') rfl, ne_of_isDigit hc (d := '-') rfl]
    refine ⟨some c, ?_⟩
    rw [List.nil_append, List.cons_append, run_bind_of_ok (run_peek_cons _ _),
      if_neg hplain]
  · exact ⟨some '+', rfl⟩
  · exact ⟨some '-', rfl⟩

theorem run_skipDigits (ht : IsDigits t) (hs : NoDigit s) :
    skipDigits.run (t ++ s) = .ok ((), s) := by
  rw [skipDigits, run_bind_of_ok (run_digits ht.2 hs), isEmpty_of_isDigits ht]
  rfl

theorem run_atExponent_of_stops (hs : Stops s) : atExponent.run s = .ok (false, s) := by
  cases s with
  | nil => rfl
  | cons c s =>
    have hc := (hs c rfl).2
    simp only [List.mem_cons, List.not_mem_nil, or_false, not_or] at hc
    have hno : (some c == some 'e' || some c == some 'E') = false := by simp [hc.2.1, hc.2.2]
    calc atExponent.run (c :: s)
      _ = .ok (some c == some 'e' || some c == some 'E', c :: s) := rfl
      _ = .ok (false, c :: s) := by rw [hno]

theorem run_atExponent_of_mem {e : Char} (he : e ∈ ['e', 'E']) (s : List Char) :
    atExponent.run (e :: s) = .ok (true, e :: s) := by
  simp only [List.mem_cons, List.not_mem_nil, or_false] at he
  rcases he with rfl | rfl <;> rfl

theorem run_skipExponent (ht : IsExponent t) (hs : Stops s) :
    skipExponent.run (t ++ s) = .ok ((), s) := by
  rw [skipExponent]
  rcases ht with rfl | ⟨e, sign, ds, he, hsign, hds, rfl⟩
  · rw [List.nil_append, run_bind_of_ok (run_atExponent_of_stops hs)]
    rfl
  · obtain ⟨o, ho⟩ := exists_run_sign hsign hds (fun _ => skipDigits) s
    rw [List.cons_append, run_bind_of_ok (run_atExponent_of_mem he _), if_pos rfl,
      run_bind_of_ok (run_advance e _), List.append_assoc]
    exact ho.trans (run_skipDigits hds (noDigit_of_stops hs))

/-- A whole number has digits, and no zero in front of others. -/
theorem not_spoilt_of_isWhole (h : IsWhole t) :
    ¬(t.isEmpty = true ∨ 1 < t.length ∧ t.head? = some '0') := by
  rintro (hempty | ⟨hlength, hzero⟩)
  · rw [isEmpty_of_isDigits h.1] at hempty
    cases hempty
  · rw [h.2 hzero] at hlength
    exact absurd hlength (by decide)

theorem run_skipNumber (ht : IsMagnitude t) (hs : Stops s) :
    skipNumber.run (t ++ s) = .ok ((), s) := by
  obtain ⟨whole, fraction, exponent, hw, hf, he, rfl⟩ := ht
  have hexponent := noDigit_exponent he hs
  have hfraction := noDigit_fraction hf hexponent
  rw [List.append_assoc, List.append_assoc, skipNumber,
    run_bind_of_ok (run_digits hw.1.2 hfraction), if_neg (not_spoilt_of_isWhole hw)]
  rcases hf with rfl | ⟨ds, hds, rfl⟩
  · rw [List.nil_append, run_bind_of_ok (run_peek _), if_neg (head_ne_dot he hs)]
    exact run_skipExponent he hs
  · rw [List.cons_append, run_bind_of_ok (run_peek_cons _ _), if_pos rfl,
      run_bind_of_ok (run_advance '.' _), run_bind_of_ok (run_skipDigits hds hexponent)]
    exact run_skipExponent he hs

/-- The digits of an exponent with the sign that was in front of them. -/
def exponentDigits (sign : Option Char) : Reader Int := do
  let ds ← digits
  if ds.isEmpty then
    match ← peek with
    | none => fail .truncated
    | some _ => fail .malformed
  else
    let n : Int := (ds.foldl (fun n c => n * 10 + (c.toNat - 48)) 0 : Nat)
    return if sign = some '-' then -n else n

theorem exists_run_exponent {sign : List Char} (hsign : sign ∈ [[], ['+'], ['-']])
    (ht : IsDigits t) (hs : NoDigit s) :
    ∃ e, exponent.run (sign ++ (t ++ s)) = .ok (e, s) := by
  obtain ⟨o, ho⟩ := exists_run_sign hsign ht exponentDigits s
  have hdigits : ∃ e, (exponentDigits o).run (t ++ s) = .ok (e, s) := by
    rw [exponentDigits, run_bind_of_ok (run_digits ht.2 hs), isEmpty_of_isDigits ht]
    exact ⟨_, rfl⟩
  obtain ⟨e, he⟩ := hdigits
  exact ⟨e, ho.trans he⟩

theorem eq_of_float {whole fraction : List Char} {e : Int} {k : Number}
    (h : (float whole fraction e).run s = .ok (k, s')) : s' = s := by
  unfold float at h
  dsimp only at h
  split at h
  · cases h
  · cases h
    rfl

/-- The end of a number is either its exponent or what another reader takes nothing for. -/
theorem eq_of_exponent {whole fraction : List Char} {k : Number} {q : Reader Number}
    (hq : ∀ k s', q.run s = .ok (k, s') → s' = s) (ht : IsExponent t) (hs : Stops s)
    (h : (do
      if ← atExponent then
        advance
        float whole fraction (← exponent)
      else q : Reader Number).run (t ++ s) = .ok (k, s')) : s' = s := by
  rcases ht with rfl | ⟨e, sign, ds, he, hsign, hds, rfl⟩
  · rw [List.nil_append, run_bind_of_ok (run_atExponent_of_stops hs)] at h
    exact hq k s' h
  · obtain ⟨n, hn⟩ := exists_run_exponent hsign hds (noDigit_of_stops hs)
    rw [List.cons_append, run_bind_of_ok (run_atExponent_of_mem he _), if_pos rfl,
      run_bind_of_ok (run_advance e _), List.append_assoc, run_bind_of_ok hn] at h
    exact eq_of_float h

/-- If a number is read at all, it is read up to its end. -/
theorem eq_of_number {negative : Bool} {k : Number} (ht : IsMagnitude t) (hs : Stops s)
    (h : (number negative).run (t ++ s) = .ok (k, s')) : s' = s := by
  obtain ⟨whole, fraction, exponent, hw, hf, he, rfl⟩ := ht
  have hexponent := noDigit_exponent he hs
  have hfraction := noDigit_fraction hf hexponent
  obtain ⟨hempty, hzero⟩ := not_or.mp (not_spoilt_of_isWhole hw)
  rw [List.append_assoc, List.append_assoc, number, run_bind_of_ok (run_digits hw.1.2 hfraction),
    if_neg hempty, if_neg hzero] at h
  rcases hf with rfl | ⟨ds, hds, rfl⟩
  · rw [List.nil_append, run_bind_of_ok (run_peek _)] at h
    split at h
    · exact absurd ‹_› (head_ne_dot he hs)
    · refine eq_of_exponent (fun k s' hq => ?_) he hs h
      split at hq
      · split at hq
        · cases hq
          rfl
        · split at hq <;> cases hq <;> rfl
      · exact eq_of_float hq
  · rw [List.cons_append, run_bind_of_ok (run_peek_cons _ _)] at h
    split at h
    · rw [run_bind_of_ok (run_advance '.' _), run_bind_of_ok (run_digits hds.2 hexponent),
        isEmpty_of_isDigits hds] at h
      exact eq_of_exponent (fun k s' => eq_of_float) he hs h
    · rename_i hdot
      exact absurd rfl hdot

theorem le_ofDigitChars (t : List Char) (n : Nat) : n ≤ Nat.ofDigitChars 10 t n := by
  induction t generalizing n with
  | nil => exact Nat.le_refl n
  | cons c t ih =>
    rw [Nat.ofDigitChars_cons]
    exact Nat.le_trans (by omega) (ih _)

/-- Digits are read as their number as long as 64 bits hold it. -/
theorem leading_eq (h : Nat.ofDigitChars 10 t n < Nat.pow 2 64) :
    leading t n = (Nat.ofDigitChars 10 t n, 0) := by
  induction t generalizing n with
  | nil => rfl
  | cons c t ih =>
    rw [Nat.ofDigitChars_cons] at h ⊢
    have hstep : n * 10 + (c.toNat - 48) = 10 * n + (c.toNat - '0'.toNat) := by
      rw [Nat.mul_comm]
      rfl
    have hsmall := Nat.lt_of_le_of_lt (le_ofDigitChars t _) h
    rw [leading, hstep, if_pos hsmall, ih h]

theorem run_number_natural (hn : n < 2 ^ 64) (hs : Stops s) :
    (number false).run (natural n ++ s) = .ok (.natural n, s) := by
  have hw := isWhole_natural n
  have hvalue : Nat.ofDigitChars 10 (natural n) 0 = n := Nat.ofDigitChars_ten_toDigits
  have hleading := leading_eq (t := natural n) (n := 0) (hvalue.symm ▸ hn)
  obtain ⟨hempty, hzero⟩ := not_or.mp (not_spoilt_of_isWhole hw)
  rw [number, run_bind_of_ok (run_digits hw.1.2 (noDigit_of_stops hs)), if_neg hempty, if_neg hzero,
    run_bind_of_ok (run_peek _)]
  split
  · rename_i hdot
    exact absurd hdot (head_ne_dot (.inl rfl) hs)
  · rw [run_bind_of_ok (run_atExponent_of_stops hs), hleading, hvalue]
    rfl

end EditorScripting.Json.Reader
