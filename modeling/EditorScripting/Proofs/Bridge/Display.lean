import Std.Data.String.ToInt
import EditorScripting.Bridge.Wrapper
import EditorScripting.Proofs.Editor.References

/-!
How wrappers are displayed. The readable form of a string ends at its first quote that is not
escaped, and the string can be read back from it. No two values that are neither symbols nor floats
have the same printed form, so the display tells apart whatever is no float, but for symbols of one
name.
-/
namespace EditorScripting

namespace Text

/-- What is left of a text without the backslash before each escaped character. -/
def unescaped : List Char → List Char
  | [] => []
  | '\x5c' :: c :: r => c :: unescaped r
  | c :: r => c :: unescaped r

/-- How many characters stand before the first quote that is not escaped. -/
def beforeQuote? : List Char → Option Nat
  | [] => none
  | '\x22' :: _ => some 0
  | '\x5c' :: _ :: r => (beforeQuote? r).map (· + 2)
  | _ :: r => (beforeQuote? r).map (· + 1)

theorem unescaped_readableChar (c : Char) (r : List Char) :
    unescaped (readableChar c ++ r) = c :: unescaped r := by
  unfold readableChar
  split
  · rfl
  · rename_i hc
    simp only [Bool.or_eq_true, decide_eq_true_eq, not_or] at hc
    simp [unescaped, hc.2]

theorem unescaped_readable (cs : List Char) : unescaped (cs.flatMap readableChar) = cs := by
  induction cs with
  | nil => rfl
  | cons c cs ih => rw [List.flatMap_cons, unescaped_readableChar, ih]

theorem beforeQuote?_readableChar (c : Char) (r : List Char) :
    beforeQuote? (readableChar c ++ r) =
      (beforeQuote? r).map (· + (readableChar c).length) := by
  unfold readableChar
  split
  · rfl
  · rename_i hc
    simp only [Bool.or_eq_true, decide_eq_true_eq, not_or] at hc
    simp [beforeQuote?, hc.1, hc.2]

/-- All quotes inside the readable form are escaped. -/
theorem beforeQuote?_readable (cs r : List Char) :
    beforeQuote? (cs.flatMap readableChar ++ '\x22' :: r) =
      some (cs.flatMap readableChar).length := by
  induction cs with
  | nil => rfl
  | cons c cs ih =>
    rw [List.flatMap_cons, List.append_assoc, beforeQuote?_readableChar, ih, Option.map_some,
      List.length_append, Nat.add_comm]

theorem readable_injective {cs ds : List Char} (h : readable cs = readable ds) : cs = ds := by
  have hinner : cs.flatMap readableChar = ds.flatMap readableChar :=
    List.append_cancel_right (List.cons.inj h).2
  rw [← unescaped_readable cs, hinner, unescaped_readable]

end Text

namespace Host

theorem Primitive.name_injective {p q : Primitive} (h : p.name = q.name) : p = q := by
  cases p <;> cases q <;> first | rfl | exact absurd h (by decide)

namespace Object

variable {v w : Object}

/-- The value is a float. -/
def IsFloat (v : Object) : Prop := ∃ x, v = float x

/-- The type of value that a printed form shows, unless it is of a symbol or a float. -/
def typeOfPrinted : List Char → String
  | '\x22' :: _ => "string"
  | '#' :: '<' :: 'm' :: _ => "marker"
  | '#' :: _ => "subr"
  | _ => "integer"

theorem head_integer (n : Int) : ∃ c r, (toString n).toList = c :: r ∧ c ≠ '\x22' ∧ c ≠ '#' := by
  have hdigits (m : Nat) : ∃ c r, m.repr.toList = c :: r ∧ c ≠ '\x22' ∧ c ≠ '#' := by
    rw [Nat.toList_repr]
    obtain ⟨c, r, hr⟩ := List.exists_cons_of_ne_nil (Nat.toDigits_ne_nil (n := m) (b := 10))
    have hc : c.isDigit = true :=
      Nat.isDigit_of_mem_toDigits (b := 10) (n := m) (by decide) (by decide) (by simp [hr])
    refine ⟨c, r, hr, ?_, ?_⟩ <;> rintro rfl <;> exact absurd hc (by decide)
  cases n with
  | ofNat m => exact hdigits m
  | negSucc m => exact ⟨'-', (m + 1).repr.toList, String.toList_append, by decide, by decide⟩

/-- Strings start with a quote, integers with a digit or a minus sign, all else with a hash. -/
theorem typeOfPrinted_printed (hn : v.symbolName? = none) (hf : ¬ v.IsFloat) :
    typeOfPrinted v.printed.toList = v.typeName := by
  cases v with
  | nil | t | symbol => cases hn
  | float x => exact absurd ⟨x, rfl⟩ hf
  | integer n =>
    obtain ⟨c, r, hr, hquote, hhash⟩ := head_integer n
    rw [printed, hr]
    unfold typeOfPrinted
    split
    · rename_i he
      exact absurd (List.cons.inj he).1 hquote
    · rename_i he
      exact absurd (List.cons.inj he).1 hhash
    · rename_i he
      exact absurd (List.cons.inj he).1 hhash
    · rfl
  | string text => simp [printed, Text.readable, typeOfPrinted, typeName]
  | marker position => cases position <;> simp [printed, typeOfPrinted, typeName]
  | primitive p => simp [printed, typeOfPrinted, typeName]

theorem printed_marker_injective {m n : Option Nat}
    (h : (marker m).printed = (marker n).printed) : m = n := by
  have hlists := congrArg String.toList h
  match m, n with
  | none, none => rfl
  | some m, some n =>
    have hdigits : m.repr.toList = n.repr.toList := by simpa [printed] using hlists
    rw [Nat.repr_injective (String.toList_inj.mp hdigits)]
  | none, some n | some m, none => simp [printed] at hlists

/-- Of the values that are neither symbols nor floats, no two are printed alike. -/
theorem printed_injective (hn : v.symbolName? = none) (hf : ¬ v.IsFloat)
    (hn' : w.symbolName? = none) (hf' : ¬ w.IsFloat) (h : v.printed = w.printed) : v = w := by
  have htype : v.typeName = w.typeName := by
    rw [← typeOfPrinted_printed hn hf, h, typeOfPrinted_printed hn' hf']
  cases v with
  | nil | t | symbol => cases hn
  | float x => exact absurd ⟨x, rfl⟩ hf
  | integer m =>
    cases w with
    | integer n => rw [Int.repr_injective h]
    | _ => simp [typeName] at htype
  | string s =>
    cases w with
    | string u =>
      rw [String.toList_inj.mp (Text.readable_injective (String.ofList_injective h))]
    | _ => simp [typeName] at htype
  | marker m =>
    cases w with
    | marker n => rw [printed_marker_injective h]
    | _ => simp [typeName] at htype
  | primitive p =>
    cases w with
    | primitive q =>
      have hname : p.name.toList = q.name.toList := by
        simpa [printed] using congrArg String.toList h
      rw [Primitive.name_injective (String.toList_inj.mp hname)]
    | _ => simp [typeName] at htype

end Object

end Host

namespace Wrapper

open Host

variable {e e' : Editor} {h h' : Handle} {v v' : Object}

/-- How a wrapper of a value is displayed. -/
def shown (v : Object) : String :=
  match v.symbolName? with
  | some name => typeName ++ " symbol: " ++ name
  | none => typeName ++ ": '" ++ v.printed ++ "'"

theorem display_of_get (hv : e.heap.get h = .ok v) :
    display Editor.interface e h = .ok (shown v) := by
  have hname : Wrapper.name Editor.interface e h = .ok v.symbolName? := by
    change (e.heap.get h).map Object.symbolName? = _
    rw [hv]
    rfl
  have hprinted : Editor.interface.printed e h = .ok v.printed := by
    change (e.heap.get h).map Object.printed = _
    rw [hv]
    rfl
  unfold display shown
  rw [hname]
  cases v.symbolName? with
  | some name => rfl
  | none =>
    change (do return typeName ++ ": '" ++ (← Editor.interface.printed e h) ++ "'") = _
    rw [hprinted]
    rfl

/-- The two ways to display a value differ behind the name of the type. -/
theorem symbol_ne_value (name text : String) :
    typeName ++ " symbol: " ++ name ≠ typeName ++ ": '" ++ text ++ "'" := by
  intro h
  have hlists := congrArg String.toList h
  simp [typeName] at hlists

theorem shown_eq_iff (hf : ¬ v.IsFloat) (hf' : ¬ v'.IsFloat) :
    shown v = shown v' ↔
      (∃ name, v.symbolName? = some name ∧ v'.symbolName? = some name) ∨ v = v' := by
  constructor
  · intro hshown
    unfold shown at hshown
    cases hn : v.symbolName? <;> cases hn' : v'.symbolName? <;> rw [hn, hn'] at hshown
    · exact .inr (Object.printed_injective hn hf hn' hf' (by simpa using hshown))
    · exact absurd hshown.symm (symbol_ne_value _ _)
    · exact absurd hshown (symbol_ne_value _ _)
    · exact .inl ⟨_, rfl, congrArg some (by simpa using hshown.symm)⟩
  · rintro (⟨name, hn, hn'⟩ | rfl)
    · rw [shown, shown, hn, hn']
    · rfl

/-- The printed form of a string stands in quotes. The first quote behind the opening one that is
not escaped is the last character, and without the outer quotes and the backslashes of the escapes
the form is the string. -/
theorem printed_string {s : String} (hv : e.heap.get h = .ok (.string s)) :
    ∃ inner, e.printed h = .ok (String.ofList ('\x22' :: inner ++ ['\x22'])) ∧
      String.ofList (Text.unescaped inner) = s ∧
      Text.beforeQuote? (inner ++ ['\x22']) = some inner.length := by
  refine ⟨s.toList.flatMap Text.readableChar, ?_, ?_, Text.beforeQuote?_readable _ _⟩
  · rw [Editor.printed, hv]
    rfl
  · rw [Text.unescaped_readable, String.ofList_toList]

/-- Two values that are no floats are displayed alike just if they are symbols of the same name, nil
and t included, or are equal. The quoted form of a string loses nothing: it ends at the first quote
that is not escaped, and the string is what is left without the quotes around it and the backslashes
of the escapes. -/
theorem display_determines (hv : e.heap.get h = .ok v) (hv' : e'.heap.get h' = .ok v')
    (hf : ¬ v.IsFloat) (hf' : ¬ v'.IsFloat) :
    (∃ text text', display Editor.interface e h = .ok text ∧
      display Editor.interface e' h' = .ok text' ∧
      (text = text' ↔
        (∃ name, v.symbolName? = some name ∧ v'.symbolName? = some name) ∨ v = v')) ∧
    ∀ s, v = .string s → ∃ inner,
      e.printed h = .ok (String.ofList ('\x22' :: inner ++ ['\x22'])) ∧
      String.ofList (Text.unescaped inner) = s ∧
      Text.beforeQuote? (inner ++ ['\x22']) = some inner.length :=
  ⟨⟨_, _, display_of_get hv, display_of_get hv', shown_eq_iff hf hf'⟩,
    fun _ hs => printed_string (hs ▸ hv)⟩

/-- A string with a quote, a string that looks like a printed form, and a second symbol named
nil. -/
def lookalikes : Editor :=
  Editor.run (.ofText "" none)
    [.makeString "say \"\\", .makeString "#<marker in no buffer>", .unintern "nil", .intern "nil"]

/-- The second symbol is displayed like nil, and the strings differ. -/
theorem display_determines_lookalikes :
    lookalikes.heap.get ⟨0, 0⟩ = .ok .nil ∧ lookalikes.heap.get ⟨23, 0⟩ = .ok (.symbol "nil") ∧
    lookalikes.heap.get ⟨21, 0⟩ = .ok (.string "say \"\\") ∧
    lookalikes.heap.get ⟨22, 0⟩ = .ok (.string "#<marker in no buffer>") ∧
    display Editor.interface lookalikes ⟨0, 0⟩ = display Editor.interface lookalikes ⟨23, 0⟩ ∧
    display Editor.interface lookalikes ⟨21, 0⟩ ≠ display Editor.interface lookalikes ⟨22, 0⟩ ∧
    ∃ inner, lookalikes.printed ⟨21, 0⟩ = .ok (String.ofList ('\x22' :: inner ++ ['\x22'])) ∧
      String.ofList (Text.unescaped inner) = "say \"\\" := by
  have hnil : lookalikes.heap.get ⟨0, 0⟩ = .ok .nil := rfl
  have hsymbol : lookalikes.heap.get ⟨23, 0⟩ = .ok (.symbol "nil") := rfl
  have hquote : lookalikes.heap.get ⟨21, 0⟩ = .ok (.string "say \"\\") := rfl
  have hmarker : lookalikes.heap.get ⟨22, 0⟩ = .ok (.string "#<marker in no buffer>") := rfl
  obtain ⟨⟨text, text', ht, ht', hsame⟩, -⟩ :=
    display_determines hnil hsymbol (by rintro ⟨x, hx⟩; cases hx) (by rintro ⟨x, hx⟩; cases hx)
  obtain ⟨⟨text₂, text₂', ht₂, ht₂', hdiffer⟩, hread⟩ :=
    display_determines hquote hmarker (by rintro ⟨x, hx⟩; cases hx) (by rintro ⟨x, hx⟩; cases hx)
  refine ⟨hnil, hsymbol, hquote, hmarker, ?_, ?_, ?_⟩
  · rw [ht, ht', hsame.mpr (.inl ⟨"nil", rfl, rfl⟩)]
  · rw [ht₂, ht₂']
    intro h
    rcases hdiffer.mp (Except.ok.inj h) with ⟨name, hname, -⟩ | hsame
    · cases hname
    · exact absurd (Object.string.inj hsame) (by decide)
  · obtain ⟨inner, hprinted, htext, -⟩ := hread _ rfl
    exact ⟨inner, hprinted, htext⟩

end Wrapper

end EditorScripting
