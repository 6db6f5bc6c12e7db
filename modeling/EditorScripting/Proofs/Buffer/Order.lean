import EditorScripting.Proofs.Buffer.Lines

/-!
The order of line numbers. A position is read as a signed number before it is brought into the text:
up to the sign bit the line grows with the position and ends at the last line, and from the sign bit
on every position is brought to the first one.
-/
namespace EditorScripting.Host.Buffer

/-- The line behind the last character: one more than all line breaks of the text. -/
def lastLine (b : Buffer) : Nat := 1 + Nat.count (BreakEndsBehind b.text.toList) b.size

theorem toInt_neg_of_le {position : UInt64} (h : 2 ^ 63 ≤ position.toNat) :
    position.toInt64.toInt < 0 := by
  have hvalue := BitVec.toInt_eq_toNat_cond position.toBitVec
  have hword : position.toBitVec.toNat = position.toNat := rfl
  have hlt : position.toNat < 2 ^ 64 := position.toNat_lt
  rw [hword, if_neg (by omega)] at hvalue
  change position.toBitVec.toInt < 0
  omega

/-- From the sign bit on a position is a negative number, and the nearest position is the first. -/
theorem lineNumberAt_of_le {b : Buffer} {position : UInt64} (h : 2 ^ 63 ≤ position.toNat) :
    b.lineNumberAt position = 1 := by
  have hneg := toInt_neg_of_le h
  have hfirst : b.clamp position.toInt64.toInt - 1 = 0 := by
    unfold clamp pointMin pointMax
    omega
  rw [lineNumberAt, hfirst, lineEnds_eq_count, Nat.count_zero]

theorem one_le_lineNumberAt (b : Buffer) (position : UInt64) : 1 ≤ b.lineNumberAt position := by
  rw [lineNumberAt]
  omega

/-- Below the sign bit a later position is on no earlier line. -/
theorem lineNumberAt_mono {b : Buffer} {p q : UInt64} (hpq : p ≤ q) (hq : q.toNat < 2 ^ 63) :
    b.lineNumberAt p ≤ b.lineNumberAt q := by
  have hle : p.toNat ≤ q.toNat := UInt64.le_iff_toNat_le.1 hpq
  have hoffset : max 1 (min p.toNat (b.size + 1)) - 1 ≤ max 1 (min q.toNat (b.size + 1)) - 1 := by
    omega
  rw [lineNumberAt_eq (by omega), lineNumberAt_eq hq]
  exact Nat.add_le_add_left (Nat.count_monotone _ hoffset) 1

theorem lineNumberAt_of_pointMax_le {b : Buffer} {position : UInt64}
    (hmax : b.pointMax ≤ position.toNat) (h : position.toNat < 2 ^ 63) :
    b.lineNumberAt position = b.lastLine := by
  have hoffset : max 1 (min position.toNat (b.size + 1)) - 1 = b.size := by
    unfold pointMax at hmax
    omega
  rw [lineNumberAt_eq h, hoffset, lastLine]

theorem lineNumberAt_le_lastLine (b : Buffer) (position : UInt64) :
    b.lineNumberAt position ≤ b.lastLine := by
  by_cases h : position.toNat < 2 ^ 63
  · have hoffset : max 1 (min position.toNat (b.size + 1)) - 1 ≤ b.size := by omega
    rw [lineNumberAt_eq h]
    exact Nat.add_le_add_left (Nat.count_monotone _ hoffset) 1
  · rw [lineNumberAt_of_le (by omega), lastLine]
    omega

/-- Of two positions the later one is on no earlier line just if the sign bit does not stand between
them or the earlier one is on the first line. No position is behind the last line, and one behind
the text is on it just if it is below the sign bit or the text has one line: from the sign bit on
every position is on the first line. -/
theorem lineNumberAt_le_iff (b : Buffer) {p q : UInt64} (hpq : p ≤ q) :
    (b.lineNumberAt p ≤ b.lineNumberAt q ↔
      q.toNat < 2 ^ 63 ∨ 2 ^ 63 ≤ p.toNat ∨ b.lineNumberAt p = 1) ∧
    b.lineNumberAt q ≤ b.lastLine ∧
    (b.pointMax ≤ q.toNat →
      (b.lineNumberAt q = b.lastLine ↔ q.toNat < 2 ^ 63 ∨ b.lastLine = 1)) ∧
    (2 ^ 63 ≤ q.toNat → b.lineNumberAt q = 1) := by
  refine ⟨?_, lineNumberAt_le_lastLine b q, ?_, lineNumberAt_of_le⟩
  · by_cases hq : q.toNat < 2 ^ 63
    · exact iff_of_true (lineNumberAt_mono hpq hq) (Or.inl hq)
    · have hfirst : b.lineNumberAt q = 1 := lineNumberAt_of_le (by omega)
      have hpos := one_le_lineNumberAt b p
      have hp : 2 ^ 63 ≤ p.toNat → b.lineNumberAt p = 1 := lineNumberAt_of_le
      omega
  · intro hmax
    by_cases hq : q.toNat < 2 ^ 63
    · exact iff_of_true (lineNumberAt_of_pointMax_le hmax hq) (Or.inl hq)
    · have hfirst : b.lineNumberAt q = 1 := lineNumberAt_of_le (by omega)
      omega

/-- Two lines, of which the second is the last. -/
def twoLetters : Buffer := ofText "a\nb" none

/-- The last position below the sign bit is on the second line, and the next one on the first. -/
theorem lineNumberAt_le_iff_twoLetters :
    (9223372036854775807 : UInt64) ≤ 9223372036854775808 ∧
    twoLetters.pointMax ≤ (9223372036854775807 : UInt64).toNat ∧
    twoLetters.lineNumberAt 9223372036854775807 = 2 ∧
    twoLetters.lineNumberAt 9223372036854775808 = 1 ∧
    ¬ twoLetters.lineNumberAt 9223372036854775807 ≤
      twoLetters.lineNumberAt 9223372036854775808 := by
  have hle : (9223372036854775807 : UInt64) ≤ 9223372036854775808 := by decide
  have hmax : twoLetters.pointMax ≤ (9223372036854775807 : UInt64).toNat := by decide +kernel
  have hlast : twoLetters.lastLine = 2 := by decide +kernel
  obtain ⟨horder, -, -, hbehind⟩ := lineNumberAt_le_iff twoLetters hle
  obtain ⟨-, -, hend, -⟩ := lineNumberAt_le_iff twoLetters (UInt64.le_refl 9223372036854775807)
  have htwo : twoLetters.lineNumberAt 9223372036854775807 = 2 :=
    ((hend hmax).2 (Or.inl (by decide))).trans hlast
  have hone : twoLetters.lineNumberAt 9223372036854775808 = 1 := hbehind (by decide)
  refine ⟨hle, hmax, htwo, hone, fun hlines => ?_⟩
  obtain hq | hp | hfirst := horder.1 hlines
  · exact absurd hq (by decide)
  · exact absurd hp (by decide)
  · exact absurd (htwo.symm.trans hfirst) (by decide)

end EditorScripting.Host.Buffer
