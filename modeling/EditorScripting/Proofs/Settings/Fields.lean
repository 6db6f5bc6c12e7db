import EditorScripting.Proofs.Configuration.Changes
import EditorScripting.Proofs.Json.Values

/-!
Fields of settings in JSON: which texts are valid for a field, and what reading one does to the
settings.
-/
namespace EditorScripting

open Json

variable {f : Field} {x : Datum} {b v r r' : List Char} {s s' : Settings}

/-- The texts of what a field can hold. A text can be written as a string in many ways, and a number
in one. -/
inductive Denotes : List Char → Datum → Prop
  | text {text : String} {t : List Char} (h : IsStringOf text t) : Denotes t (.text text)
  | number (n : UInt64) : Denotes (natural n.toNat) (.number n.toNat)
  | null : Denotes ['n', 'u', 'l', 'l'] .nothing

namespace Field

/-- What a field takes: a name, or a number, or for the timeout also nothing. -/
def Takes (f : Field) : Datum → Prop
  | .text _ => f = moduleName ∨ f = reservedName
  | .number _ => f ≠ moduleName ∧ f ≠ reservedName
  | .nothing => f = timeoutMs

/-- A value with a text that is valid for a field. -/
structure Admits (f : Field) (v : List Char) (x : Datum) : Prop where
  takes : f.Takes x
  denotes : Denotes v x

theorem key_injective : Function.Injective key := by
  intro f g h
  revert h
  cases f <;> cases g <;> decide

theorem ofKey?_key (f : Field) : ofKey? f.key = some f := by
  cases f <;> decide

theorem ofKey?_eq_some_iff {name : String} : ofKey? name = some f ↔ f.key = name := by
  constructor
  · intro h
    have hkey := List.find?_some h
    exact eq_of_beq hkey
  · rintro rfl
    exact ofKey?_key f

end Field

theorem isPart_of_denotes (h : Denotes v x) : IsPart .value v := by
  cases h with
  | text h => exact .string h.isString
  | number n => exact .number (isMagnitude_natural _)
  | null => exact .word List.mem_cons_self

/-- The text that is written for a field is a valid one of what it holds. -/
theorem Settings.admits_text (s : Settings) (f : Field) : f.Admits (f.text s) (s.held f) := by
  cases f with
  | moduleName => exact ⟨.inl rfl, .text (isStringOf_quoted _)⟩
  | reservedName => exact ⟨.inr rfl, .text (isStringOf_quoted _)⟩
  | timeoutMs =>
    unfold Field.text held
    cases s.timeoutMs with
    | none => exact ⟨rfl, .null⟩
    | some n => exact ⟨⟨nofun, nofun⟩, .number n⟩
  | _ => exact ⟨⟨nofun, nofun⟩, .number _⟩

/-! ### Reading one field -/

theorem run_return {α β : Type} {p : Reader α} {a : α} {t : List Char} (h : p.run t = .ok (a, r))
    (g : α → β) : (do return g (← p) : Reader β).run t = .ok (g a, r) := by
  rw [Reader.run_bind_of_ok h]
  rfl

/-- A valid value is read into its field, and the others stay as they are. -/
theorem Field.exists_read (h : f.Admits v x) (hb : Blank b) (hr : Reader.Stops r) (s : Settings) :
    ∃ s', (f.read s).run (b ++ (v ++ r)) = .ok (s', r) ∧
      s'.held = Function.update s.held f x := by
  obtain ⟨htakes, hdenotes⟩ := h
  cases hdenotes with
  | text htext =>
    have hrun := Reader.run_string htext hb r
    rcases htakes with rfl | rfl <;>
      exact ⟨_, run_return hrun _, by funext g; cases g <;> rfl⟩
  | null =>
    obtain rfl := htakes
    exact ⟨_, run_return (Reader.run_nullable_null Reader.unsigned hb r) _,
      by funext g; cases g <;> rfl⟩
  | number n =>
    have hrun := Reader.run_unsigned n hb hr
    cases f with
    | moduleName => exact absurd rfl htakes.1
    | reservedName => exact absurd rfl htakes.2
    | timeoutMs =>
      exact ⟨_, run_return (Reader.run_nullable_unsigned n hb hr) _,
        by funext g; cases g <;> rfl⟩
    | _ => exact ⟨_, run_return hrun _, by funext g; cases g <;> rfl⟩

/-- A value that is read at all is read up to its end. -/
theorem Field.eq_of_read (hv : IsPart .value v) (hb : Blank b) (hr : Reader.Stops r)
    (h : (f.read s).run (b ++ (v ++ r)) = .ok (s', r')) : r' = r := by
  cases f with
  | moduleName | reservedName =>
    obtain ⟨a, t, ha, hret⟩ := Reader.exists_of_run_bind h
    cases hret
    exact Reader.eq_of_string hv hb ha
  | timeoutMs =>
    obtain ⟨a, t, ha, hret⟩ := Reader.exists_of_run_bind h
    cases hret
    exact Reader.eq_of_nullable hv hb hr ha
  | _ =>
    obtain ⟨a, t, ha, hret⟩ := Reader.exists_of_run_bind h
    cases hret
    exact Reader.eq_of_unsigned hv hb hr ha

end EditorScripting
