import EditorScripting.Configuration
import EditorScripting.Settings.Json
import Mathlib.Data.List.Basic
import Mathlib.Logic.Function.Basic

/-!
Settings field by field. A change writes one field, with the number nearest to its argument that the
field can hold, so settings after changes hold in each field what was written to it last.
-/
namespace EditorScripting

open Script

/-- What a field can hold. -/
inductive Datum where
  | text (s : String)
  | number (n : Int)
  | nothing
deriving DecidableEq, Repr

namespace Settings

/-- What each field holds. -/
def held (s : Settings) : Field → Datum
  | .moduleName => .text s.moduleName
  | .reservedName => .text s.reservedName
  | .maxOperations => .number s.maxOperations.toNat
  | .maxExprDepth => .number s.maxExprDepth.toNat
  | .maxFnDepth => .number s.maxFnDepth.toNat
  | .timeoutMs => (s.timeoutMs.map fun n => Datum.number n.toNat).getD .nothing
  | .maxStringSize => .number s.maxStringSize.toNat
  | .maxArraySize => .number s.maxArraySize.toNat
  | .maxMapSize => .number s.maxMapSize.toNat
  | .diagnosticsCapacity => .number s.diagnosticsCapacity.toNat

theorem number_inj {m n : UInt64} (h : Datum.number m.toNat = .number n.toNat) : m = n := by
  injection h with h
  exact UInt64.toNat.inj (Int.ofNat.inj h)

/-- Nothing is in the settings but their fields. -/
theorem held_injective : Function.Injective held := by
  intro s s' h
  have hheld (f : Field) : s.held f = s'.held f := congrFun h f
  have htimeout : s.timeoutMs = s'.timeoutMs := by
    have h := hheld .timeoutMs
    simp only [held] at h
    generalize s.timeoutMs = t at h ⊢
    generalize s'.timeoutMs = t' at h ⊢
    match t, t', h with
    | none, none, _ => rfl
    | some _, some _, h => exact congrArg some (number_inj h)
  obtain ⟨_, _, _, _, _, _, _, _, _, _⟩ := s
  obtain ⟨_, _, _, _, _, _, _, _, _, _⟩ := s'
  cases Datum.text.inj (hheld .moduleName)
  cases Datum.text.inj (hheld .reservedName)
  cases number_inj (hheld .maxOperations)
  cases number_inj (hheld .maxExprDepth)
  cases number_inj (hheld .maxFnDepth)
  cases htimeout
  cases number_inj (hheld .maxStringSize)
  cases number_inj (hheld .maxArraySize)
  cases number_inj (hheld .maxMapSize)
  cases number_inj (hheld .diagnosticsCapacity)
  rfl

end Settings

namespace Change

/-- The field that a change writes. -/
def field : Change → Field
  | moduleName _ => .moduleName
  | reservedName _ => .reservedName
  | maxOperations _ => .maxOperations
  | maxExprDepth _ => .maxExprDepth
  | maxFnDepth _ => .maxFnDepth
  | timeoutMs _ | noTimeout => .timeoutMs
  | maxStringSize _ => .maxStringSize
  | maxArraySize _ => .maxArraySize
  | maxMapSize _ => .maxMapSize
  | diagnosticsCapacity _ => .diagnosticsCapacity

/-- What a change writes. -/
def written : Change → Datum
  | moduleName name | reservedName name => .text name
  | maxExprDepth n | maxFnDepth n => .number (max 1 (min n 1024))
  | noTimeout => .nothing
  | diagnosticsCapacity n => .number (max 1 n)
  | maxOperations n | timeoutMs n | maxStringSize n | maxArraySize n | maxMapSize n =>
    .number (max 0 n)

/-- The number that a change is asked to write, if it is one. -/
def number? : Change → Option Int
  | moduleName _ | reservedName _ | noTimeout => none
  | maxOperations n | maxExprDepth n | maxFnDepth n | timeoutMs n | maxStringSize n
  | maxArraySize n | maxMapSize n | diagnosticsCapacity n => some n

/-- The number is an integer of 64 bits. -/
def Fits (c : Change) : Prop := ∀ n ∈ c.number?, minInt ≤ n ∧ n ≤ maxInt

theorem toNat_atLeast {low n : Int} (hlow : 0 ≤ low ∧ low ≤ maxInt) (hn : n ≤ maxInt) :
    ((atLeast low n).toNat : Int) = max low n := by
  have hsmall : (max low n).toNat < 2 ^ 64 := by
    have hmax : maxInt = 9223372036854775807 := rfl
    omega
  rw [atLeast, UInt64.toNat_ofNat_of_lt' hsmall]
  omega

theorem toNat_depth (n : Int) : ((depth n).toNat : Int) = max 1 (min n 1024) := by
  have hsmall : (max 1 (min n 1024)).toNat < 2 ^ 64 := by omega
  rw [depth, UInt64.toNat_ofNat_of_lt' hsmall]
  omega

theorem held_apply_of_ne {c : Change} {f : Field} (h : f ≠ c.field) (s : Settings) :
    (c.apply s).held f = s.held f := by
  cases c <;> cases f <;> first | rfl | exact absurd rfl h

theorem held_apply_field {c : Change} (hc : c.Fits) (s : Settings) :
    (c.apply s).held c.field = c.written := by
  have hzero : (0 : Int) ≤ 0 ∧ (0 : Int) ≤ maxInt := by decide
  have hone : (0 : Int) ≤ 1 ∧ (1 : Int) ≤ maxInt := by decide
  cases c with
  | moduleName name | reservedName name | noTimeout => rfl
  | maxExprDepth n | maxFnDepth n => exact congrArg Datum.number (toNat_depth n)
  | diagnosticsCapacity n => exact congrArg Datum.number (toNat_atLeast hone (hc n rfl).2)
  | maxOperations n | timeoutMs n | maxStringSize n | maxArraySize n | maxMapSize n =>
    exact congrArg Datum.number (toNat_atLeast hzero (hc n rfl).2)

theorem held_apply {c : Change} (hc : c.Fits) (s : Settings) :
    (c.apply s).held = Function.update s.held c.field c.written := by
  funext f
  by_cases h : f = c.field
  · subst h
    rw [Function.update_self, held_apply_field hc]
  · rw [Function.update_of_ne h, held_apply_of_ne h]

theorem held_foldl {changes : List Change} (h : ∀ c ∈ changes, c.Fits) (s : Settings) :
    (changes.foldl apply s).held =
      changes.foldl (fun held c => Function.update held c.field c.written) s.held := by
  induction changes generalizing s with
  | nil => rfl
  | cons c r ih =>
    obtain ⟨hc, hr⟩ := List.forall_mem_cons.mp h
    rw [List.foldl_cons, List.foldl_cons, ih hr, held_apply hc]

end Change

namespace Settings

/-- Depths of nesting are at least 1 and at most 1024. -/
structure DepthsBounded (s : Settings) : Prop where
  expr : 1 ≤ s.maxExprDepth.toNat ∧ s.maxExprDepth.toNat ≤ 1024
  fn : 1 ≤ s.maxFnDepth.toNat ∧ s.maxFnDepth.toNat ≤ 1024

theorem depthsBounded_default : default.DepthsBounded := ⟨by decide, by decide⟩

theorem DepthsBounded.apply {s : Settings} (hs : s.DepthsBounded) (c : Change) :
    (c.apply s).DepthsBounded := by
  have hdepth (n : Int) : 1 ≤ (Change.depth n).toNat ∧ (Change.depth n).toNat ≤ 1024 := by
    have hn := Change.toNat_depth n
    omega
  obtain ⟨hexpr, hfn⟩ := hs
  cases c with
  | maxExprDepth n => exact ⟨hdepth n, hfn⟩
  | maxFnDepth n => exact ⟨hexpr, hdepth n⟩
  | _ => exact ⟨hexpr, hfn⟩

theorem DepthsBounded.foldl {s : Settings} (hs : s.DepthsBounded) (changes : List Change) :
    (changes.foldl Change.apply s).DepthsBounded :=
  List.foldlRecOn changes Change.apply hs fun _ hs c _ => hs.apply c

theorem one_le_capacity_apply {s : Settings} (hs : 1 ≤ s.diagnosticsCapacity.toNat) {c : Change}
    (hc : c.Fits) : 1 ≤ (c.apply s).diagnosticsCapacity.toNat := by
  have hwritten := Change.held_apply_field hc s
  cases c with
  | diagnosticsCapacity n =>
    have hn := Datum.number.inj hwritten
    omega
  | _ => exact hs

theorem one_le_capacity_foldl {s : Settings} (hs : 1 ≤ s.diagnosticsCapacity.toNat)
    {changes : List Change} (h : ∀ c ∈ changes, c.Fits) :
    1 ≤ (changes.foldl Change.apply s).diagnosticsCapacity.toNat :=
  List.foldlRecOn (motive := fun s => 1 ≤ s.diagnosticsCapacity.toNat) changes Change.apply hs
    fun _ hs c hc => one_le_capacity_apply hs (h c hc)

end Settings

end EditorScripting
