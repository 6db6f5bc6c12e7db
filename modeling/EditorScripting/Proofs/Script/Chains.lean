import EditorScripting.Proofs.Script.Trading
import Mathlib.Algebra.BigOperators.Group.List.Basic

/-!
Calls that apply a function to values, and the steps of chains. They take the wrappers of a target
and give those of the target as it is then.
-/
namespace EditorScripting.Script

open Host

attribute [local grind =] Multiset.le_iff_count Multiset.count_add

variable {κ : Type} {uses : κ → List Handle}

theorem Environment.definition?_eq_none {env : Environment κ} (hd : env.definitions = [])
    (receiver : Option Value) (name : String) (arity : Nat) :
    env.definition? receiver name arity = none := by
  unfold definition?
  dsimp only
  rw [hd]
  cases receiver <;> rfl

theorem le_of_exchange {a v w rest : Multiset Handle} (h : a + v ≤ w + (v + rest)) :
    a ≤ w + rest := by
  rw [add_left_comm, add_comm a] at h
  exact le_of_add_le_add_left h

namespace Eval

open Value (wrappersOf)

/-- The wrappers of the arguments of a link. -/
@[simp] def Step.wrappers : Step → Multiset Handle
  | property _ _ _ => 0
  | method _ args _ _ => wrappersOf args
  | index key _ _ => key.wrappers

/-- The wrappers of the arguments of links. -/
def stepsWrappers (steps : List Step) : Multiset Handle := (steps.map Step.wrappers).sum

@[simp] theorem stepsWrappers_nil : stepsWrappers [] = 0 := rfl

@[simp] theorem stepsWrappers_cons (s : Step) (r : List Step) :
    stepsWrappers (s :: r) = s.wrappers + stepsWrappers r := by
  simp [stepsWrappers]

@[simp] theorem stepsWrappers_reverse (steps : List Step) :
    stepsWrappers steps.reverse = stepsWrappers steps := by
  unfold stepsWrappers
  exact ((List.reverse_perm steps).map _).sum_eq

/-- The wrappers of the value that an assignment brings, if there is one. -/
def updateWrappers (u : Option Update) : Multiset Handle := (u.map (·.value.wrappers)).getD 0

@[simp] theorem updateWrappers_none : updateWrappers none = 0 := rfl

@[simp] theorem updateWrappers_some (u : Update) : updateWrappers (some u) = u.value.wrappers := rfl

namespace Target

variable {t : Target} {key v : Value}

@[simp] theorem value_ofValue (v : Value) : (ofValue v).value = v := rfl

@[simp] theorem value_ofBinding (b : Binding) : (ofBinding b).value = b.value := rfl

theorem value_part (t : Target) (key v : Value) : (t.part key v).value = v := by
  unfold part
  split <;> rfl

/-- What a container does not hold as a part has no wrappers. -/
theorem wrappers_of_not_isPart (hv : Library.Reached t.value key v)
    (h : (t.part key v).isPart = false) : v.wrappers = 0 := by
  unfold part at h
  cases hv' : t.value with
  | array items => simp [hv'] at h
  | map entries =>
    rw [hv'] at hv h
    cases hv
    cases h
  | string s =>
    rw [hv'] at hv
    cases hv
    assumption
  | int n =>
    rw [hv'] at hv
    cases hv
    assumption
  | _ =>
    rw [hv'] at hv
    cases hv

/-- A container with another part, or the container as it was if it cannot be changed. -/
theorem wrappers_withPart (hv : Library.Reached t.value key v) (w : Value) :
    ((t.withPart key w).getD t.value).wrappers + v.wrappers ≤ w.wrappers + t.value.wrappers := by
  have hnone (h0 : t.value.wrappers = 0) :
      (none.getD t.value).wrappers + v.wrappers ≤ w.wrappers + t.value.wrappers := by
    have hle := hv.wrappers_le
    rw [h0] at hle
    rw [Option.getD_none, h0, Multiset.le_zero.mp hle]
    exact Multiset.zero_le _
  have hupdated : (((Library.update t.value key w).toOption).getD t.value).wrappers + v.wrappers ≤
      w.wrappers + t.value.wrappers := by
    cases hu : Library.update t.value key w with
    | ok c => exact hv.wrappers_update hu
    | error f => exact hnone (hv.wrappers_of_update_error hu)
  unfold withPart
  split
  · exact hupdated
  · exact hupdated
  · rename_i harray hmap
    refine hnone ?_
    clear hupdated hnone
    generalize t.value = c at hv harray hmap ⊢
    cases hv with
    | item => exact absurd rfl (harray _)
    | entry => exact absurd rfl (hmap _)
    | letter => rfl
    | bit => rfl

end Target

/-- With `n` levels of fuel, what a function does to a target and how chains go on. -/
structure AllTrade (uses : κ → List Handle) (env : Environment κ) (n : Nat) : Prop where
  apply : ∀ isMethod t name others p,
    Trades uses (t.value.wrappers + wrappersOf others) (apply env n isMethod t name others p)
      (fun r => r.1.wrappers + (t.value.wrappers + (r.2.map Value.wrappers).getD 0))
      t.value.wrappers
  follow : ∀ t steps u, (t.isPart = false → steps = [] → t.value.wrappers = 0) →
    Trades uses (t.value.wrappers + (stepsWrappers steps + updateWrappers u))
      (follow env n t steps u) (fun r => r.1.wrappers + (r.2.getD t.value).wrappers)
      t.value.wrappers
  followOwn : ∀ v steps u, Trades uses (v.wrappers + (stepsWrappers steps + updateWrappers u))
    (followOwn env n v steps u) (fun r => r.1.wrappers) 0
  followPart : ∀ t key p j r u,
    Trades uses (t.value.wrappers + (key.wrappers + (stepsWrappers r + updateWrappers u)))
      (followPart env n t key p j r u) (fun r => r.1.wrappers + (r.2.getD t.value).wrappers)
      t.value.wrappers

theorem allTrade_zero (env : Environment κ) : AllTrade uses env 0 := by
  constructor <;> intros <;> refine .fail rfl ?_ <;>
    first | exact Multiset.le_add_right _ _ | exact Multiset.zero_le _

namespace AllTrade

variable {env : Environment κ} {n : Nat} (hl : env.Lends uses) (h : AllTrade uses env n)

include hl in
theorem apply_succ (isMethod : Bool) (t : Target) (name : String) (others : List Value)
    (p : Position) :
    Trades uses (t.value.wrappers + wrappersOf others)
      (Eval.apply env (n + 1) isMethod t name others p)
      (fun r => r.1.wrappers + (t.value.wrappers + (r.2.map Value.wrappers).getD 0))
      t.value.wrappers := by
  have hback : t.value.wrappers ≤ t.value.wrappers + wrappersOf others := Multiset.le_add_right _ _
  unfold Eval.apply
  dsimp only
  split
  · rename_i d hd
    rw [Environment.definition?_eq_none hl.definitions,
      Environment.definition?_eq_none hl.definitions, ite_self] at hd
    cases hd
  · rename_i r _ hr
    refine .before .tick hback fun _ => .check rfl hback ?_
    cases r with
    | error f => exact .bind (.fail (plain_change? hr f rfl) hback) fun _ => .pure le_rfl
    | ok r =>
      obtain ⟨hv, hchanged⟩ := Library.wrappers_change? hr
      rw [show (ofExcept p (.ok r) : Eval κ _) = pure r from rfl, pure_bind]
      exact .pure (by simp [hv, hchanged])
  · refine ((trades_callNative hl name (t.value :: others) p).mono le_rfl (fun _ => le_rfl)
      hback).bind fun v => ?_
    refine (Trades.releases others).andThen (v.wrappers + t.value.wrappers) ?_
      (Multiset.le_add_right _ _) fun _ => .pure ?_
    · rw [Value.wrappersOf_cons]
      exact (by ac_rfl : _ = _).le
    · simp

include hl h in
theorem follow_succ (t : Target) (steps : List Step) (u : Option Update)
    (hown : t.isPart = false → steps = [] → t.value.wrappers = 0) :
    Trades uses (t.value.wrappers + (stepsWrappers steps + updateWrappers u))
      (Eval.follow env (n + 1) t steps u) (fun r => r.1.wrappers + (r.2.getD t.value).wrappers)
      t.value.wrappers := by
  cases steps with
  | nil =>
    rw [Eval.follow]
    refine (trades_take t).andThen (updateWrappers u) (by simp) (Multiset.le_add_right _ _)
      fun v => .pure ?_
    cases hp : t.isPart with
    | true => simp only [if_true, Option.getD_none]; grind
    | false => simp [hown hp rfl]
  | cons s r =>
    have hback : t.value.wrappers ≤
        t.value.wrappers + (stepsWrappers (s :: r) + updateWrappers u) := Multiset.le_add_right _ _
    unfold Eval.follow
    dsimp only
    split
    · exact .pure (by simp)
    split
    · rename_i name args p j _
      refine (h.apply true t name args p).andThen (stepsWrappers r + updateWrappers u) ?_
        (Multiset.le_add_right _ _) fun a => ?_
      · rw [stepsWrappers_cons, Step.wrappers, add_assoc, add_assoc]
      refine (h.followOwn a.1 r u).andThen
        (t.value.wrappers + (a.2.map Value.wrappers).getD 0) (by grind) (by grind) fun w => .pure ?_
      cases a.2 with
      | none => simp only [Option.getD_none, Option.map_none]; grind
      | some c => simp only [Option.getD_some, Option.map_some]; grind
    · exact (h.followPart t (.string _) _ _ r u).mono (by simp) (fun _ => le_rfl) le_rfl
    · refine (h.followPart t _ _ _ r u).mono ?_ (fun _ => le_rfl) le_rfl
      rw [stepsWrappers_cons, Step.wrappers, add_assoc]
    split
    · exact ((trades_setProperty hl _ _ _ _ _).mono (by simp) (fun _ => le_rfl) le_rfl).bind
        fun _ => .pure le_rfl
    refine (trades_getProperty hl _ _ _ _).andThen (stepsWrappers r + updateWrappers u) (by simp)
      (Multiset.le_add_right _ _) fun w => ?_
    refine (h.followOwn w r u).andThen t.value.wrappers (by grind) (by grind) fun a => ?_
    have hleft : t.value.wrappers ≤ a.1.wrappers + t.value.wrappers := Multiset.le_add_left _ _
    split
    · exact .before .tick hleft fun _ => .before .tick hleft fun _ => .pure le_rfl
    · exact .pure le_rfl

/-- Without links a value is handed on. -/
theorem follow_nil (n : Nat) (v : Value) (u : Option Update) {need : Multiset Handle}
    (hv : v.wrappers ≤ need) :
    Trades uses need (Eval.follow env n (.ofValue v) [] u) (fun r => r.1.wrappers) 0 := by
  cases n with
  | zero => exact .fail rfl (Multiset.zero_le _)
  | succ n =>
    rw [Eval.follow]
    exact .pure hv

include h in
theorem followOwn_succ (v : Value) (steps : List Step) (u : Option Update) :
    Trades uses (v.wrappers + (stepsWrappers steps + updateWrappers u))
      (Eval.followOwn env (n + 1) v steps u) (fun r => r.1.wrappers) 0 := by
  unfold Eval.followOwn
  cases steps with
  | nil => exact (follow_nil n v u (Multiset.le_add_right _ _)).bind fun r => .pure le_rfl
  | cons s r =>
    refine ((h.follow (.ofValue v) (s :: r) u nofun).mono le_rfl (fun _ => le_rfl)
      (Multiset.zero_le _)).bind fun a => ?_
    refine Trades.release.andThen a.1.wrappers (add_comm _ _).le (Multiset.le_add_right _ _)
      fun _ => .pure ?_
    exact Multiset.le_add_left _ _

include hl h in
theorem followPart_succ (t : Target) (key : Value) (p : Position) (j : Joint) (r : List Step)
    (u : Option Update) :
    Trades uses (t.value.wrappers + (key.wrappers + (stepsWrappers r + updateWrappers u)))
      (Eval.followPart env (n + 1) t key p j r u)
      (fun r => r.1.wrappers + (r.2.getD t.value).wrappers) t.value.wrappers := by
  unfold Eval.followPart
  dsimp only
  rw [add_left_comm]
  split
  · rename_i u
    refine trades_getPart (Multiset.le_add_right _ _) fun v hv => ?_
    obtain ⟨rest, hrest⟩ := Multiset.le_iff_exists_add.mp hv.wrappers_le
    have hnew := trades_apply hl u (t.part key v)
    rw [Target.value_part] at hnew
    refine hnew.andThen rest (by simp only [hrest, updateWrappers_some]; grind) hrest.le
      fun new => ?_
    cases hu : Library.update t.value key new with
    | ok c =>
      have hc := hv.wrappers_update hu
      rw [hrest] at hc
      rw [show (ofExcept u.position (.ok c) : Eval κ Value) = pure c from rfl, pure_bind]
      exact .pure (by simpa using le_of_exchange hc)
    | error f =>
      have hnone : t.value.wrappers ≤ new.wrappers + rest := by
        rw [hv.wrappers_of_update_error hu]
        exact Multiset.zero_le _
      exact .bind (.fail (plain_update _ _ _ f hu) hnone) fun _ => .pure le_rfl
  · refine trades_getPart (Multiset.le_add_right _ _) fun v hv => ?_
    obtain ⟨rest, hrest⟩ := Multiset.le_iff_exists_add.mp hv.wrappers_le
    have hfollow := h.follow (t.part key v) r u fun hp _ => by
      rw [Target.value_part]
      exact Target.wrappers_of_not_isPart hv hp
    rw [Target.value_part] at hfollow
    refine hfollow.andThen rest (by grind) hrest.le fun a => .pure ?_
    cases a.2 with
    | none =>
      simp only [Option.getD_none, Option.bind_none, hrest]
      grind
    | some c =>
      have hc := Target.wrappers_withPart hv c
      rw [hrest] at hc
      simp only [Option.getD_some, Option.bind_some]
      rw [add_assoc]
      exact add_le_add_right (le_of_exchange hc) _

end AllTrade

theorem allTrade {env : Environment κ} (hl : env.Lends uses) (n : Nat) : AllTrade uses env n := by
  induction n with
  | zero => exact allTrade_zero env
  | succ n h =>
    exact {
      apply := AllTrade.apply_succ hl
      follow := h.follow_succ hl
      followOwn := h.followOwn_succ
      followPart := h.followPart_succ hl }

end Eval

end EditorScripting.Script
