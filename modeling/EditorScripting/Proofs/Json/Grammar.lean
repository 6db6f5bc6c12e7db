import Mathlib.Data.List.Forall2
import EditorScripting.Json.Text

/-!
Which texts are JSON: a grammar that knows nothing of any reader. A string of it may be no text,
since half of a surrogate pair can stand alone.
-/
namespace EditorScripting.Json

/-- Blanks between the tokens of a text. -/
def Blank (t : List Char) : Prop := ∀ c ∈ t, c ∈ [' ', '\n', '\t', '\r']

/-- A hexadecimal digit of either case and its value. -/
def IsHexDigit (c : Char) (n : Nat) : Prop :=
  "0123456789abcdef".toList[n]? = some c ∨ "0123456789ABCDEF".toList[n]? = some c

/-- A code unit as an escape. -/
inductive IsUnit : Nat → List Char → Prop
  | mk {a b c d : Char} {k l m n : Nat} (ha : IsHexDigit a k) (hb : IsHexDigit b l)
      (hc : IsHexDigit c m) (hd : IsHexDigit d n) :
      IsUnit (((k * 16 + l) * 16 + m) * 16 + n) ['\x5c', 'u', a, b, c, d]

/-- Characters that may stand behind a backslash, with those that they stand for. -/
def shortEscapes : List (Char × Char) :=
  [('\x22', '\x22'), ('\x5c', '\x5c'), ('/', '/'), ('b', '\x08'), ('f', '\x0c'), ('n', '\n'),
    ('r', '\r'), ('t', '\t')]

/-- A character that stands for itself between quotes. -/
def Plain (c : Char) : Prop := ' ' ≤ c ∧ c ≠ '\x22' ∧ c ≠ '\x5c'

/-- What a string consists of. -/
inductive IsPiece : List Char → Prop
  | plain {c : Char} (hc : Plain c) : IsPiece [c]
  | short {e c : Char} (h : (e, c) ∈ shortEscapes) : IsPiece ['\x5c', e]
  | unit {u : Nat} {t : List Char} (h : IsUnit u t) : IsPiece t

/-- The ways to write a character in a string. Only characters above `0xffff` have surrogates. -/
inductive Spells : Char → List Char → Prop
  | plain {c : Char} (hc : Plain c) : Spells c [c]
  | short {e c : Char} (h : (e, c) ∈ shortEscapes) : Spells c ['\x5c', e]
  | unit {c : Char} {t : List Char} (h : IsUnit c.toNat t) : Spells c t
  | pair {c : Char} {high low : Nat} {t t' : List Char} (h : IsUnit (0xd800 + high) t)
      (h' : IsUnit (0xdc00 + low) t') (hhigh : high < 0x400) (hlow : low < 0x400)
      (hc : c.toNat = 0x10000 + (high * 0x400 + low)) : Spells c (t ++ t')

def IsString (t : List Char) : Prop :=
  ∃ pieces : List (List Char), (∀ p ∈ pieces, IsPiece p) ∧
    t = '\x22' :: (pieces.flatten ++ ['\x22'])

/-- The ways to write a text as a string. -/
def IsStringOf (s : String) (t : List Char) : Prop :=
  ∃ pieces : List (List Char), List.Forall₂ Spells s.toList pieces ∧
    t = '\x22' :: (pieces.flatten ++ ['\x22'])

def IsDigits (t : List Char) : Prop := t ≠ [] ∧ ∀ c ∈ t, Text.isDigit c = true

/-- Digits without a needless zero in front. -/
def IsWhole (t : List Char) : Prop := IsDigits t ∧ (t.head? = some '0' → t = ['0'])

def IsFraction (t : List Char) : Prop := t = [] ∨ ∃ ds, IsDigits ds ∧ t = '.' :: ds

def IsExponent (t : List Char) : Prop :=
  t = [] ∨ ∃ e sign ds, e ∈ ['e', 'E'] ∧ sign ∈ [[], ['+'], ['-']] ∧ IsDigits ds ∧
    t = e :: (sign ++ ds)

/-- A number without its sign. -/
def IsMagnitude (t : List Char) : Prop :=
  ∃ whole fraction exponent, IsWhole whole ∧ IsFraction fraction ∧ IsExponent exponent ∧
    t = whole ++ (fraction ++ exponent)

def words : List (List Char) :=
  [['n', 'u', 'l', 'l'], ['t', 'r', 'u', 'e'], ['f', 'a', 'l', 's', 'e']]

/-- The parts of a text that contain each other. An element is a value with blanks around it. -/
inductive Part where
  | value
  | element
  | elements
  | member
  | members

inductive IsPart : Part → List Char → Prop
  | word {t : List Char} (h : t ∈ words) : IsPart .value t
  | number {t : List Char} (h : IsMagnitude t) : IsPart .value t
  | negative {t : List Char} (h : IsMagnitude t) : IsPart .value ('-' :: t)
  | string {t : List Char} (h : IsString t) : IsPart .value t
  | emptyArray {b : List Char} (hb : Blank b) : IsPart .value ('[' :: (b ++ [']']))
  | array {t : List Char} (h : IsPart .elements t) : IsPart .value ('[' :: (t ++ [']']))
  | emptyObject {b : List Char} (hb : Blank b) : IsPart .value ('\x7b' :: (b ++ ['\x7d']))
  | object {t : List Char} (h : IsPart .members t) : IsPart .value ('\x7b' :: (t ++ ['\x7d']))
  | element {b v b' : List Char} (hb : Blank b) (h : IsPart .value v) (hb' : Blank b') :
      IsPart .element (b ++ (v ++ b'))
  | lastElement {t : List Char} (h : IsPart .element t) : IsPart .elements t
  | elements {t r : List Char} (h : IsPart .element t) (hr : IsPart .elements r) :
      IsPart .elements (t ++ ',' :: r)
  | member {b name b' t : List Char} (hb : Blank b) (hn : IsString name) (hb' : Blank b')
      (h : IsPart .element t) : IsPart .member (b ++ (name ++ (b' ++ ':' :: t)))
  | lastMember {t : List Char} (h : IsPart .member t) : IsPart .members t
  | members {t r : List Char} (h : IsPart .member t) (hr : IsPart .members r) :
      IsPart .members (t ++ ',' :: r)

/-- The ways to write a member with a given name and the text of its value. -/
inductive IsMember : String × List Char → List Char → Prop
  | mk {b name b' b₁ v b₂ : List Char} {s : String} (hb : Blank b) (hn : IsStringOf s name)
      (hb' : Blank b') (hb₁ : Blank b₁) (hv : IsPart .value v) (hb₂ : Blank b₂) :
      IsMember (s, v) (b ++ (name ++ (b' ++ ':' :: (b₁ ++ (v ++ b₂)))))

inductive IsMembers : List (String × List Char) → List Char → Prop
  | last {m : String × List Char} {t : List Char} (h : IsMember m t) : IsMembers [m] t
  | cons {m : String × List Char} {ms : List (String × List Char)} {t r : List Char}
      (h : IsMember m t) (hr : IsMembers ms r) : IsMembers (m :: ms) (t ++ ',' :: r)

/-- The ways to write a whole text that is an object with given members, in their order. -/
inductive IsObject : List (String × List Char) → List Char → Prop
  | empty {b b' b'' : List Char} (hb : Blank b) (hb' : Blank b') (hb'' : Blank b'') :
      IsObject [] (b ++ '\x7b' :: (b' ++ '\x7d' :: b''))
  | members {ms : List (String × List Char)} {b t b' : List Char} (hb : Blank b)
      (h : IsMembers ms t) (hb' : Blank b') : IsObject ms (b ++ '\x7b' :: (t ++ '\x7d' :: b'))

/-! ### Texts of the grammar -/

theorem Blank.nil : Blank [] := nofun

theorem Blank.append {b b' : List Char} (hb : Blank b) (hb' : Blank b') : Blank (b ++ b') :=
  fun c hc => (List.mem_append.mp hc).elim (hb c) (hb' c)

theorem Spells.pieces {c : Char} {t : List Char} (h : Spells c t) :
    ∃ ps : List (List Char), (∀ p ∈ ps, IsPiece p) ∧ t = ps.flatten := by
  cases h with
  | plain hc => exact ⟨[_], by simpa using IsPiece.plain hc, rfl⟩
  | short h => exact ⟨[_], by simpa using IsPiece.short h, rfl⟩
  | unit h => exact ⟨[t], by simpa using IsPiece.unit h, (List.append_nil t).symm⟩
  | @pair _ _ _ t t' h h' =>
    exact ⟨[t, t'], by simp [IsPiece.unit h, IsPiece.unit h'], by simp⟩

theorem exists_pieces {cs : List Char} {ts : List (List Char)} (h : List.Forall₂ Spells cs ts) :
    ∃ ps : List (List Char), (∀ p ∈ ps, IsPiece p) ∧ ts.flatten = ps.flatten := by
  induction h with
  | nil => exact ⟨[], nofun, rfl⟩
  | cons hc _ ih =>
    obtain ⟨front, hfront, rfl⟩ := hc.pieces
    obtain ⟨ps, hps, heq⟩ := ih
    refine ⟨front ++ ps, fun p hp => (List.mem_append.mp hp).elim (hfront p) (hps p), ?_⟩
    rw [List.flatten_cons, heq, List.flatten_append]

/-- A text that is written as a string is a string of the grammar. -/
theorem IsStringOf.isString {s : String} {t : List Char} (h : IsStringOf s t) : IsString t := by
  obtain ⟨ts, hs, rfl⟩ := h
  obtain ⟨ps, hps, heq⟩ := exists_pieces hs
  exact ⟨ps, hps, by rw [heq]⟩

theorem IsMember.isPart {m : String × List Char} {t : List Char} (h : IsMember m t) :
    IsPart .member t := by
  cases h with
  | mk hb hn hb' hb₁ hv hb₂ => exact .member hb hn.isString hb' (.element hb₁ hv hb₂)

theorem IsMember.value {m : String × List Char} {t : List Char} (h : IsMember m t) :
    IsPart .value m.2 := by
  cases h
  assumption

theorem IsMembers.isPart {ms : List (String × List Char)} {t : List Char} (h : IsMembers ms t) :
    IsPart .members t := by
  induction h with
  | last h => exact .lastMember h.isPart
  | cons h _ ih => exact .members h.isPart ih

/-- The members of an object have values of the grammar. -/
theorem IsObject.value {ms : List (String × List Char)} {t : List Char} (h : IsObject ms t) :
    ∀ m ∈ ms, IsPart .value m.2 := by
  have hmembers {ms : List (String × List Char)} {t : List Char} (h : IsMembers ms t) :
      ∀ m ∈ ms, IsPart .value m.2 := by
    induction h with
    | last h => exact List.forall_mem_singleton.mpr h.value
    | cons h _ ih => exact List.forall_mem_cons.mpr ⟨h.value, ih⟩
  cases h with
  | empty => exact nofun
  | members _ h _ => exact hmembers h

/-- An object is a text of the grammar whatever its members are named. -/
theorem IsObject.isPart {ms : List (String × List Char)} {t : List Char} (h : IsObject ms t) :
    IsPart .element t := by
  cases h with
  | @empty b b' b'' hb hb' hb'' =>
    have he := IsPart.element hb (.emptyObject hb') hb''
    simpa using he
  | members hb h hb' =>
    have he := IsPart.element hb (.object h.isPart) hb'
    simpa using he

/-! ### How texts of the grammar begin -/

/-- A unit begins with its backslash. -/
theorem exists_of_isUnit {n : Nat} {t : List Char} (h : IsUnit n t) :
    ∃ r, t = '\x5c' :: 'u' :: r := by
  cases h
  exact ⟨_, rfl⟩

/-- What stands behind a backslash in the short form is no unit. -/
theorem mem_shortEscapes {e c : Char} (h : (e, c) ∈ shortEscapes) :
    e ≠ 'u' ∧ e ∈ ['\x22', '\x5c', '/', 'b', 'f', 'n', 'r', 't'] :=
  (by decide : ∀ m ∈ shortEscapes, m.1 ≠ 'u' ∧ m.1 ∈ ['\x22', '\x5c', '/', 'b', 'f', 'n', 'r', 't'])
    _ h

/-- A piece that is not plain is an escape. -/
theorem isPiece_cases {q : List Char} (h : IsPiece q) :
    (∃ c, Plain c ∧ q = [c]) ∨ ∃ t, q = '\x5c' :: t := by
  cases h with
  | plain hc => exact .inl ⟨_, hc, rfl⟩
  | short h => exact .inr ⟨_, rfl⟩
  | unit h =>
    obtain ⟨r, rfl⟩ := exists_of_isUnit h
    exact .inr ⟨_, rfl⟩

theorem spells_cases {c : Char} {t : List Char} (h : Spells c t) :
    (Plain c ∧ t = [c]) ∨ ∃ r, t = '\x5c' :: r := by
  cases h with
  | plain hc => exact .inl ⟨hc, rfl⟩
  | short h => exact .inr ⟨_, rfl⟩
  | unit h =>
    obtain ⟨r, rfl⟩ := exists_of_isUnit h
    exact .inr ⟨_, rfl⟩
  | pair h =>
    obtain ⟨r, rfl⟩ := exists_of_isUnit h
    exact .inr ⟨_, rfl⟩

theorem ne_nil_of_spelled {cs : List Char} {ts : List (List Char)}
    (h : List.Forall₂ Spells cs ts) : ∀ q ∈ ts, q ≠ [] := by
  induction h with
  | nil => exact nofun
  | cons hc _ ih =>
    refine List.forall_mem_cons.mpr ⟨?_, ih⟩
    rcases spells_cases hc with ⟨-, rfl⟩ | ⟨r, rfl⟩ <;> exact List.cons_ne_nil _ _

theorem ne_nil_of_isPiece {q : List Char} (h : IsPiece q) : q ≠ [] := by
  rcases isPiece_cases h with ⟨c, -, rfl⟩ | ⟨t, rfl⟩ <;> exact List.cons_ne_nil _ _

theorem isEmpty_of_isDigits {t : List Char} (h : IsDigits t) : t.isEmpty = false := by
  rw [List.isEmpty_eq_false_iff]
  exact h.1

theorem exists_of_isDigits {t : List Char} (h : IsDigits t) :
    ∃ c r, t = c :: r ∧ Text.isDigit c = true := by
  obtain ⟨hne, hall⟩ := h
  obtain ⟨c, r, rfl⟩ := List.exists_cons_of_ne_nil hne
  exact ⟨c, r, rfl, hall c List.mem_cons_self⟩

theorem exists_of_isMagnitude {t : List Char} (h : IsMagnitude t) :
    ∃ c r, t = c :: r ∧ Text.isDigit c = true := by
  obtain ⟨whole, fraction, exponent, hw, -, -, rfl⟩ := h
  obtain ⟨c, r, rfl, hc⟩ := exists_of_isDigits hw.1
  exact ⟨c, r ++ (fraction ++ exponent), rfl, hc⟩

theorem exists_of_isString {t : List Char} (h : IsString t) : ∃ r, t = '\x22' :: r := by
  obtain ⟨ps, -, rfl⟩ := h
  exact ⟨_, rfl⟩

end EditorScripting.Json
