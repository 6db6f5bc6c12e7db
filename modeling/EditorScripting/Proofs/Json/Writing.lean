import EditorScripting.Proofs.Identifier.Escape
import EditorScripting.Proofs.Json.Grammar

/-!
What is written is of the grammar: numbers without needless zeros, strings that spell their texts,
and objects with the members that they are made of.
-/
namespace EditorScripting.Json

open Text

/-! ### Numbers -/

theorem isDigit_of_mem_natural {n : Nat} {c : Char} (h : c ∈ natural n) : isDigit c = true :=
  Nat.isDigit_of_mem_toDigits (by decide) (by decide) h

theorem eq_zero_of_head_natural {n : Nat} (h : (natural n).head? = some '0') : n = 0 := by
  induction n using Nat.strongRecOn with
  | ind n ih =>
    rw [natural, decimalDigits, Nat.toDigits_eq_if (by decide)] at h
    split at h
    · rename_i hn
      interval_cases n <;> first | rfl | cases h
    · rename_i hn
      rw [List.head?_append_of_ne_nil _ Nat.toDigits_ne_nil] at h
      have hzero : n / 10 = 0 := ih (n / 10) (by omega) h
      omega

theorem isWhole_natural (n : Nat) : IsWhole (natural n) := by
  refine ⟨⟨Nat.toDigits_ne_nil, fun c hc => isDigit_of_mem_natural hc⟩, fun h => ?_⟩
  rw [eq_zero_of_head_natural h]
  rfl

theorem isMagnitude_natural (n : Nat) : IsMagnitude (natural n) :=
  ⟨natural n, [], [], isWhole_natural n, .inl rfl, .inl rfl, (List.append_nil _).symm⟩

/-! ### Strings -/

theorem isHexDigit_digitChar {n : Nat} (h : n < 16) : IsHexDigit (Nat.digitChar n) n := by
  interval_cases n <;> exact .inl rfl

theorem hexPair_eq {n : Nat} (h : n < 256) :
    hexPair n = [Nat.digitChar (n / 16), Nat.digitChar (n % 16)] := by
  rw [hexPair, hexDigits, Nat.toDigits_eq_if (by decide)]
  split
  · rename_i hn
    rw [Nat.div_eq_of_lt hn, Nat.mod_eq_of_lt hn]
    rfl
  · rw [Nat.toDigits_of_lt_base (by omega : n / 16 < 16)]
    rfl

theorem isUnit_hexPair {n : Nat} (h : n < 256) :
    IsUnit n (['\x5c', 'u', '0', '0'] ++ hexPair n) := by
  have hzero : IsHexDigit '0' 0 := isHexDigit_digitChar (by decide)
  have hunit := IsUnit.mk hzero hzero (isHexDigit_digitChar (by omega : n / 16 < 16))
    (isHexDigit_digitChar (by omega : n % 16 < 16))
  have hvalue : ((0 * 16 + 0) * 16 + n / 16) * 16 + n % 16 = n := by omega
  rw [hvalue] at hunit
  rw [hexPair_eq h]
  exact hunit

/-- What is written for a character spells it. -/
theorem spells_escaped (c : Char) : Spells c (escaped c) := by
  unfold escaped
  split
  · rename_i hquote
    subst hquote
    exact .short (by decide)
  rename_i hquote
  split
  · rename_i hslash
    subst hslash
    exact .short (by decide)
  rename_i hslash
  -- the five control characters that have a short form
  iterate 5
    split
    · rename_i h
      subst h
      exact .short (by decide)
  split
  · rename_i hcontrol
    have hcode : c.toNat < 32 := hcontrol
    exact .unit (isUnit_hexPair (by omega))
  · rename_i hcontrol
    exact .plain ⟨Char.not_lt.mp hcontrol, hquote, hslash⟩

theorem isStringOf_quoted (s : String) : IsStringOf s (quoted s) := by
  refine ⟨s.toList.map escaped, ?_, ?_⟩
  · rw [List.forall₂_map_right_iff, List.forall₂_same]
    exact fun c _ => spells_escaped c
  · rw [quoted, List.flatMap_def]
    rfl

/-! ### Objects -/

theorem isMember_member {m : String × List Char} (hm : IsPart .value m.2) {b b' : List Char}
    (hb : Blank b) (hb' : Blank b') : IsMember m (b ++ (member [':', ' '] m ++ b')) := by
  have hspace : Blank [' '] := by simp [Blank]
  have h := IsMember.mk hb (isStringOf_quoted m.1) .nil hspace hm hb'
  simpa [member] using h

theorem isMembers_lines {m : String × List Char} {ms : List (String × List Char)}
    (hm : ∀ m' ∈ m :: ms, IsPart .value m'.2) :
    IsMembers (m :: ms) (['\n', ' ', ' '] ++
      ([',', '\n', ' ', ' '].intercalate ((m :: ms).map (member [':', ' '])) ++ ['\n'])) := by
  have hfront : Blank ['\n', ' ', ' '] := by simp [Blank]
  have hend : Blank ['\n'] := by simp [Blank]
  induction ms generalizing m with
  | nil =>
    rw [List.map_singleton, List.intercalate_singleton]
    exact .last (isMember_member (hm m List.mem_cons_self) hfront hend)
  | cons m' ms ih =>
    have hfirst := isMember_member (hm m List.mem_cons_self) hfront .nil
    have hrest := ih (m := m') fun m'' hm'' => hm m'' (List.mem_cons_of_mem m hm'')
    rw [List.map_cons, List.map_cons, List.intercalate_cons_cons, ← List.map_cons]
    simpa using IsMembers.cons hfirst hrest

/-- An object that is written on lines is one in the grammar, also with blanks behind it. -/
theorem isObject_prettyObject {ms : List (String × List Char)} (hne : ms ≠ [])
    (hm : ∀ m ∈ ms, IsPart .value m.2) {b : List Char} (hb : Blank b) :
    IsObject ms (prettyObject ms ++ b) := by
  obtain ⟨m, ms, rfl⟩ := List.exists_cons_of_ne_nil hne
  have h := IsObject.members .nil (isMembers_lines hm) hb
  simpa [prettyObject] using h

end EditorScripting.Json
