import EditorScripting.Bridge.Wrapper
import EditorScripting.Proofs.Editor.Anchored

/-!
What the guest receives for a host value. Nil is recognised by its handle and all other kinds by the
object. So the object alone decides, since no operation makes a second nil.
-/
namespace EditorScripting

open Host

namespace Host.Object

variable {h g : Handle} {v : Object}

/-- The form of an object in the guest: of its own, or a wrapper of the handle. -/
def marshalled (h : Handle) : Object → Marshalled
  | .nil => .unit
  | .integer n => .integer n
  | .string text => .string text
  | _ => .object h

theorem marshalled_eq_unit_iff : v.marshalled h = .unit ↔ v = .nil := by
  cases v <;> simp [marshalled]

theorem marshalled_eq_integer_iff {n : Int} :
    v.marshalled h = .integer n ↔ v = .integer n := by
  cases v <;> simp [marshalled]

theorem marshalled_eq_string_iff {text : String} :
    v.marshalled h = .string text ↔ v = .string text := by
  cases v <;> simp [marshalled]

theorem marshalled_eq_object_iff : v.marshalled h = .object g ↔
    g = h ∧ v ≠ .nil ∧ (∀ n, v ≠ .integer n) ∧ ∀ text, v ≠ .string text := by
  cases v <;> simp [marshalled, eq_comm]

end Host.Object

namespace Wrapper

variable {e : Editor} {h : Handle} {v : Object}

theorem marshal_of_live (hs : e.Steady) (hv : e.heap.get? h = some v) :
    marshal Editor.interface h e =
      (.ok (v.marshalled h), if v.marshalled h = .object h then (e.pin h).2 else e) := by
  have hget := Heap.get_of_get? hv
  have hpin : (e.pin h).1 = .ok () := Editor.pin_of_live (Heap.isLive_of_get? hv)
  have hinteger : Editor.interface.integerValue e h = e.integerValue h := rfl
  have hstring : Editor.interface.stringValue e h = e.stringValue h := rfl
  have hnew : new Editor.interface h e = e.pin h := rfl
  unfold marshal
  by_cases hnil : h = e.nil
  · have hobject : v = .nil := by
      have hnilv := hs.get?_eq_nil_iff.mpr hnil
      exact Option.some.inj (hv.symm.trans hnilv)
    rw [if_pos (show h = Editor.interface.nil e from hnil), hobject]
    rfl
  · have hobject : v ≠ .nil := by
      rintro rfl
      exact hnil (hs.get?_eq_nil_iff.mp hv)
    rw [if_neg (show h ≠ Editor.interface.nil e from hnil), hinteger, hstring, hnew,
      Editor.integerValue, Editor.stringValue, hget]
    cases v with
    | nil => exact absurd rfl hobject
    | integer n => rfl
    | string text => rfl
    | _ =>
      generalize e.pin h = r at hpin
      obtain ⟨r, e'⟩ := r
      subst hpin
      simp [Except.map, Object.marshalled]

/-- A stale handle is not taken for nil, which is never stale. -/
theorem marshal_of_not_live (hs : e.Steady) (hl : e.heap.isLive h = false) :
    marshal Editor.interface h e = (.error (.reclaimed h), e) := by
  have hnil : h ≠ e.nil := by
    rintro rfl
    rw [Heap.isLive_of_get? hs.nil.object] at hl
    cases hl
  have hget := Heap.get_of_not_live (Heap.isLive_eq_false_iff.mp hl)
  have hinteger : Editor.interface.integerValue e h = .error (.reclaimed h) := by
    change e.integerValue h = _
    rw [Editor.integerValue, hget]
    rfl
  unfold marshal
  rw [if_neg (show h ≠ Editor.interface.nil e from hnil), hinteger]

/-- What is handed over depends on the object alone. -/
theorem marshal_ok_iff (hs : e.Steady) {m : Marshalled} :
    (marshal Editor.interface h e).1 = .ok m ↔
      ∃ v, e.heap.get h = .ok v ∧ v.marshalled h = m := by
  cases hl : e.heap.isLive h with
  | false =>
    have hget := Heap.get_of_not_live (Heap.isLive_eq_false_iff.mp hl)
    simp [marshal_of_not_live hs hl, hget]
  | true =>
    obtain ⟨v, hget⟩ := Heap.get_of_live hl
    simp [marshal_of_live hs (Heap.get_eq_ok_iff.mp hget), hget]

theorem marshal_error_iff (hs : e.Steady) {err : HostError} :
    (marshal Editor.interface h e).1 = .error err ↔
      err = .reclaimed h ∧ e.heap.isLive h = false := by
  cases hl : e.heap.isLive h with
  | false => simp [marshal_of_not_live hs hl, eq_comm]
  | true =>
    obtain ⟨v, hget⟩ := Heap.get_of_live hl
    simp [marshal_of_live hs (Heap.get_eq_ok_iff.mp hget)]

/-- Only a wrapper leaves a trace, which is its pin. -/
theorem marshal_snd (hs : e.Steady) : (marshal Editor.interface h e).2 =
    if (marshal Editor.interface h e).1 = .ok (.object h) then (e.pin h).2 else e := by
  cases hl : e.heap.isLive h with
  | false => simp [marshal_of_not_live hs hl]
  | true =>
    obtain ⟨v, hget⟩ := Heap.get_of_live hl
    simp [marshal_of_live hs (Heap.get_eq_ok_iff.mp hget)]

theorem pinCount_pin (hl : e.heap.isLive h = true) (g : Handle) :
    (e.pin h).2.heap.pinCount g = e.heap.pinCount g + if g = h then 1 else 0 := by
  rw [Editor.pin_snd, Heap.pinCount_modifyPins hl]
  split
  · rename_i hg
    rw [hg]
  · rfl

/-- After any run, nil has one handle only, and what the guest receives for a handle is exact: unit
for nil, the number for an integer, the text for a string and a wrapper of the handle for all else,
which adds one pin to it. For a stale handle there is an error. Other than by that pin, the editor
does not change. -/
theorem marshal_run (buffer : Buffer) (ops : List Editor.Op) :
    let e := Editor.run buffer ops
    (∀ h, e.heap.get h = .ok .nil ↔ h = e.nil) ∧
    ∀ h, let r := marshal Editor.interface h e
      (r.1 = .ok .unit ↔ e.heap.get h = .ok .nil) ∧
      (∀ n, r.1 = .ok (.integer n) ↔ e.heap.get h = .ok (.integer n)) ∧
      (∀ text, r.1 = .ok (.string text) ↔ e.heap.get h = .ok (.string text)) ∧
      (∀ g, r.1 = .ok (.object g) ↔ g = h ∧ ∃ v, e.heap.get h = .ok v ∧
        v ≠ .nil ∧ (∀ n, v ≠ .integer n) ∧ ∀ text, v ≠ .string text) ∧
      (∀ err, r.1 = .error err ↔ err = .reclaimed h ∧ e.heap.isLive h = false) ∧
      (r.1 = .ok (.object h) → r.2 = (e.pin h).2 ∧
        ∀ g, r.2.heap.pinCount g = e.heap.pinCount g + if g = h then 1 else 0) ∧
      (r.1 ≠ .ok (.object h) → r.2 = e) := by
  intro e
  have hs : e.Steady := Editor.steady_run buffer ops
  refine ⟨fun h => Heap.get_eq_ok_iff.trans hs.get?_eq_nil_iff, fun h => ?_⟩
  intro r
  have hok {m : Marshalled} : r.1 = .ok m ↔ ∃ v, e.heap.get h = .ok v ∧ v.marshalled h = m :=
    marshal_ok_iff hs
  have htrace : r.2 = if r.1 = .ok (.object h) then (e.pin h).2 else e := marshal_snd hs
  refine ⟨?_, fun n => ?_, fun text => ?_, fun g => ?_, fun err => marshal_error_iff hs,
    fun hwrapped => ?_, fun hnot => ?_⟩
  · simp [hok, Object.marshalled_eq_unit_iff]
  · simp [hok, Object.marshalled_eq_integer_iff]
  · simp [hok, Object.marshalled_eq_string_iff]
  · rw [hok]
    simp only [Object.marshalled_eq_object_iff]
    constructor
    · rintro ⟨v, hv, hg, hkind⟩
      exact ⟨hg, v, hv, hkind⟩
    · rintro ⟨hg, v, hv, hkind⟩
      exact ⟨v, hv, hg, hkind⟩
  · obtain ⟨v, hv, -⟩ := hok.mp hwrapped
    have hl := Heap.isLive_of_get? (Heap.get_eq_ok_iff.mp hv)
    rw [if_pos hwrapped] at htrace
    exact ⟨htrace, fun g => htrace ▸ pinCount_pin hl g⟩
  · rw [htrace, if_neg hnot]

/-- A variable is nil, and another one is given a string, an integer and, in the slot of the string,
another object `t`. -/
def reused : List Editor.Op :=
  [.setVariable "x" .nil, .setVariable "y" (.string "old"), .setVariable "y" (.integer 1),
    .collect, .setVariable "z" .t]

theorem marshal_run_reused :
    let e := Editor.run (.ofText "" none) reused
    (marshal Editor.interface ⟨22, 0⟩ e).1 = .error (.reclaimed ⟨22, 0⟩) ∧
    marshal Editor.interface ⟨24, 0⟩ e = (.ok (.integer 1), e) ∧
    (marshal Editor.interface ⟨22, 1⟩ e).1 = .ok (.object ⟨22, 1⟩) ∧
    (marshal Editor.interface ⟨22, 1⟩ e).2.heap.pinCount ⟨22, 1⟩ = 1 := by
  intro e
  obtain ⟨-, hrun⟩ := marshal_run (.ofText "" none) reused
  obtain ⟨-, -, -, -, hstale, -, -⟩ := hrun ⟨22, 0⟩
  obtain ⟨-, hinteger, -, -, -, -, hsame⟩ := hrun ⟨24, 0⟩
  obtain ⟨-, -, -, hobject, -, hpins, -⟩ := hrun ⟨22, 1⟩
  have hone : e.heap.get ⟨24, 0⟩ = .ok (.integer 1) := by rw [Heap.get_eq_ok_iff]; rfl
  have hother : e.heap.get ⟨22, 1⟩ = .ok .t := by rw [Heap.get_eq_ok_iff]; rfl
  have hnative := (hinteger 1).mpr hone
  have hwrapped := (hobject ⟨22, 1⟩).mpr ⟨rfl, _, hother, by simp⟩
  refine ⟨(hstale _).mpr ⟨rfl, by decide +kernel⟩, Prod.ext hnative (hsame ?_), hwrapped, ?_⟩
  · rw [hnative]
    simp
  · rw [(hpins hwrapped).2]
    decide +kernel

end Wrapper

end EditorScripting
