import Mathlib.Data.Nat.Count
import EditorScripting.Host.Buffer

/-!
Line numbers are counts of line breaks. Whether a break ends after a character is said of the text
and an offset alone, and the line of a position is one more than the number of breaks that end up to
it, so from one position to the next it grows by one just behind a break.
-/
namespace EditorScripting.Host.Buffer

/-- The characters behind each of which a line ends, whatever follows: line feed, vertical tab, form
feed, next line, line separator and paragraph separator. -/
def breakChars : List Char := ['\n', '\x0b', '\x0c', '\u0085', '\u2028', '\u2029']

/-- A break ends behind the character at an offset. A carriage return in front of a line feed ends
none: the two are one break, which ends behind the line feed. -/
def BreakEndsBehind (text : List Char) (i : Nat) : Prop :=
  text[i]? ∈ breakChars.map some ∨ (text[i]? = some '\r' ∧ text[i + 1]? ≠ some '\n')

instance (text : List Char) : DecidablePred (BreakEndsBehind text) := fun i =>
  inferInstanceAs (Decidable (text[i]? ∈ breakChars.map some ∨
    (text[i]? = some '\r' ∧ text[i + 1]? ≠ some '\n')))

theorem endsLine_iff (c : Char) (next : Option Char) :
    endsLine c next = true ↔ c ∈ breakChars ∨ (c = '\r' ∧ next ≠ some '\n') := by
  simp [endsLine, breakChars, or_assoc]

theorem breakEndsBehind_zero (c : Char) (r : List Char) :
    BreakEndsBehind (c :: r) 0 ↔ endsLine c r.head? = true := by
  rw [endsLine_iff, List.head?_eq_getElem?]
  simp [BreakEndsBehind]

theorem breakEndsBehind_succ (c : Char) (r : List Char) (i : Nat) :
    BreakEndsBehind (c :: r) (i + 1) ↔ BreakEndsBehind r i := by
  simp [BreakEndsBehind]

theorem not_breakEndsBehind_nil (i : Nat) : ¬ BreakEndsBehind [] i := by
  simp [BreakEndsBehind]

/-- Counting along the text counts the offsets behind which a break ends. -/
theorem lineEnds_eq_count (n : Nat) (text : List Char) :
    lineEnds n text = Nat.count (BreakEndsBehind text) n := by
  induction text generalizing n with
  | nil =>
    have hnone : Nat.count (BreakEndsBehind []) n = 0 := by
      rw [Nat.count_eq_card_filter_range]
      simp [not_breakEndsBehind_nil]
    rw [hnone]
    cases n <;> rfl
  | cons c r ih =>
    cases n with
    | zero => rfl
    | succ n =>
      rw [lineEnds, ih, Nat.count_succ', Nat.add_comm]
      simp only [breakEndsBehind_zero, breakEndsBehind_succ]

/-- A position below the sign bit is read as the number that it is. -/
theorem toInt_of_lt {position : UInt64} (h : position.toNat < 2 ^ 63) :
    position.toInt64.toInt = position.toNat :=
  BitVec.toInt_eq_toNat_of_lt (by change 2 * position.toNat < 2 ^ 64; omega)

theorem clamp_natCast (b : Buffer) (position : Nat) :
    b.clamp position = max 1 (min position (b.size + 1)) := by
  unfold clamp pointMin pointMax
  omega

theorem lineNumberAt_eq {b : Buffer} {position : UInt64} (h : position.toNat < 2 ^ 63) :
    b.lineNumberAt position =
      1 + Nat.count (BreakEndsBehind b.text.toList)
        (max 1 (min position.toNat (b.size + 1)) - 1) := by
  rw [lineNumberAt, toInt_of_lt h, clamp_natCast, lineEnds_eq_count, Nat.add_comm]

theorem size_eq (b : Buffer) : b.size = b.text.toList.length := String.length_toList.symm

/-- A break behind the character at `i` ends at offset `i + 1`. -/
theorem count_eq_card (b : Buffer) {n : Nat} (hn : n ≤ b.size) :
    Nat.count (BreakEndsBehind b.text.toList) n =
      ((Finset.range b.size).filter
        fun i => BreakEndsBehind b.text.toList i ∧ i + 1 ≤ n).card := by
  rw [Nat.count_eq_card_filter_range]
  refine congrArg Finset.card (Finset.ext fun i => ?_)
  simp only [Finset.mem_filter, Finset.mem_range]
  constructor
  · rintro ⟨hi, hbreak⟩
    exact ⟨by omega, hbreak, hi⟩
  · rintro ⟨-, hbreak, hi⟩
    exact ⟨hi, hbreak⟩

/-- From one position to the next the line grows by one just behind a break. -/
theorem lineNumberAt_succ {b : Buffer} {position : UInt64} (hp : 1 ≤ position.toNat)
    (hs : position.toNat ≤ b.size) (hnext : position.toNat + 1 < 2 ^ 63) :
    b.lineNumberAt (position + 1) = b.lineNumberAt position +
      if BreakEndsBehind b.text.toList (position.toNat - 1) then 1 else 0 := by
  have hadd : (position + 1).toNat = position.toNat + 1 := by
    rw [UInt64.toNat_add]
    exact Nat.mod_eq_of_lt (by change position.toNat + 1 < 2 ^ 64; omega)
  have hhere : max 1 (min position.toNat (b.size + 1)) - 1 = position.toNat - 1 := by omega
  have hthere : max 1 (min (position.toNat + 1) (b.size + 1)) - 1 = position.toNat - 1 + 1 := by
    omega
  rw [lineNumberAt_eq (by omega), lineNumberAt_eq (by omega), hadd, hhere, hthere, Nat.count_succ,
    Nat.add_assoc]

/-- The line of a position is one more than the number of breaks that end at or before the offset of
the position, which is brought into the text first. So the first position is on line one, and from a
position in the text to the next one the line grows by one just if a break ends behind the character
at the position. Positions are those below the sign bit. -/
theorem lineNumberAt_counts_breaks (b : Buffer) {position : UInt64}
    (h : position.toNat < 2 ^ 63) :
    b.lineNumberAt position = 1 + ((Finset.range b.size).filter fun i =>
      BreakEndsBehind b.text.toList i ∧
        i + 1 ≤ max 1 (min position.toNat (b.size + 1)) - 1).card ∧
    b.lineNumberAt 1 = 1 ∧
    (1 ≤ position.toNat → position.toNat ≤ b.size → position.toNat + 1 < 2 ^ 63 →
      b.lineNumberAt (position + 1) = b.lineNumberAt position +
        if BreakEndsBehind b.text.toList (position.toNat - 1) then 1 else 0) := by
  refine ⟨?_, ?_, lineNumberAt_succ⟩
  · rw [lineNumberAt_eq h, count_eq_card b (by omega)]
  · have hone : max 1 (min 1 (b.size + 1)) - 1 = 0 := by omega
    have hnat : (1 : UInt64).toNat = 1 := rfl
    rw [lineNumberAt_eq (by decide), hnat, hone, Nat.count_zero]

/-- Two lines, ended by a carriage return with a line feed and by a line separator. -/
def twoLines : Buffer := ofText "one\r\ntwo\u2028" none

/-- The line feed still belongs to the first line, and behind the last break a third one starts. -/
theorem lineNumberAt_counts_breaks_twoLines :
    (5 : UInt64).toNat < 2 ^ 63 ∧ (100 : UInt64).toNat < 2 ^ 63 ∧
    twoLines.lineNumberAt 5 = 1 ∧ twoLines.lineNumberAt (5 + 1) = 2 ∧
    twoLines.lineNumberAt 100 = 3 := by
  have hfeed : (5 : UInt64).toNat < 2 ^ 63 := by decide
  have hlast : (100 : UInt64).toNat < 2 ^ 63 := by decide
  obtain ⟨hcount, -, hnext⟩ := lineNumberAt_counts_breaks twoLines hfeed
  have hone : twoLines.lineNumberAt 5 = 1 := hcount.trans (by decide +kernel)
  have htwo : twoLines.lineNumberAt (5 + 1) = 2 := by
    rw [hnext (by decide) (by decide +kernel) (by decide), hone]
    decide +kernel
  exact ⟨hfeed, hlast, hone, htwo,
    (lineNumberAt_counts_breaks twoLines hlast).1.trans (by decide +kernel)⟩

end EditorScripting.Host.Buffer
