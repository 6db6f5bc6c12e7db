import EditorScripting.Script.Library

/-!
Functions on plain values may fail, but only the world stops a script, and only a script throws
values.
-/
namespace EditorScripting.Script

variable {α β : Type}

/-- A fault that functions on plain values raise. -/
@[simp] def Fault.isPlain : Fault → Bool
  | stopped _ | thrown _ | inFunction _ _ _ => false
  | _ => true

/-- The result is a value or a plain fault. -/
def Plain (r : Except Fault α) : Prop := ∀ f, r = .error f → f.isPlain = true

@[simp] theorem plain_ok (a : α) : Plain (.ok a) := fun _ h => by cases h

@[simp] theorem plain_error {f : Fault} :
    Plain (.error f : Except Fault α) ↔ f.isPlain = true := by
  simp [Plain]

@[simp] theorem plain_map {f : α → β} {r : Except Fault α} : Plain (r.map f) ↔ Plain r := by
  cases r <;> simp [Except.map]

theorem Plain.bind {r : Except Fault α} {f : α → Except Fault β} (hr : Plain r)
    (hf : ∀ a, Plain (f a)) : Plain (r >>= f) := by
  cases r with
  | ok a => exact hf a
  | error e => simpa [Bind.bind, Except.bind] using hr

theorem plain_violation? {l : Limits} {d : DataSize} {f : Fault} (h : l.violation? d = some f) :
    Plain (.error f : Except Fault α) := by
  unfold Limits.violation? at h
  repeat' split at h
  all_goals cases h
  all_goals simp

theorem plain_check (l : Limits) (v : Value) : Plain (l.check v) := by
  unfold Limits.check
  split
  · exact plain_violation? ‹_›
  · exact plain_ok v

theorem plain_checked {n : Int} {overflow : Fault}
    (h : Plain (.error overflow : Except Fault Int)) : Plain (Arithmetic.checked n overflow) := by
  unfold Arithmetic.checked
  split
  · exact plain_ok _
  · exact h

theorem plain_neg (x : Int) : Plain (Arithmetic.neg x) := plain_checked (by simp)

theorem plain_onInts (op : Operator) (x y : Int) : Plain (op.onInts x y) := by
  cases op <;> simp only [Operator.onInts, plain_ok, plain_map]
  case plus => exact plain_checked (by simp [Arithmetic.operands])
  case minus => exact plain_checked (by simp [Arithmetic.operands])
  case times => exact plain_checked (by simp [Arithmetic.operands])
  case divide =>
    unfold Arithmetic.div
    split
    · simp [Arithmetic.operands]
    · exact plain_checked (by simp [Arithmetic.operands])
  case modulo =>
    unfold Arithmetic.rem
    split <;> simp [Arithmetic.operands]
  case power =>
    unfold Arithmetic.pow
    have hc : Plain (.error (Arithmetic.operands "Exponential overflow" x "**" y) :
        Except Fault Int) := by
      simp [Arithmetic.operands]
    repeat' split
    all_goals first | exact plain_checked hc | simp [Arithmetic.operands]

theorem plain_onSimple? {op : Operator} {a b : Value} {r : Except Fault Value}
    (h : op.onSimple? a b = some r) : Plain r := by
  unfold Operator.onSimple? at h
  split at h
  case h_1 => exact Option.some.inj h ▸ plain_onInts op _ _
  all_goals
    repeat' split at h
    all_goals first
      | exact Option.some.inj h ▸ plain_ok _
      | obtain ⟨v, -, rfl⟩ := Option.map_eq_some_iff.mp h
        exact plain_ok v
      | cases h

theorem plain_call? {name : String} {args : List Value} {r : Except Fault Value}
    (h : Library.call? name args = some r) : Plain r := by
  unfold Library.call? at h
  split at h
  · rename_i r' hr
    obtain rfl := Option.some.inj h
    unfold Library.fallible? at hr
    split at hr <;> cases hr
    · unfold Arithmetic.abs
      split <;> simp [plain_neg]
    · unfold Library.parseInt
      split
      · simp
      · split <;> simp
    · unfold Library.parseInt
      split
      · simp
      · split <;> simp
    · unfold Arithmetic.truncate
      dsimp only
      repeat' split
      all_goals simp
  · obtain ⟨v, -, rfl⟩ := Option.map_eq_some_iff.mp h
    exact plain_ok v

theorem plain_change? {l : Limits} {name : String} {args : List Value}
    {r : Except Fault (Value × Value)} (h : Library.change? l name args = some r) : Plain r := by
  have hpad : ∀ s n padding, Plain (Library.pad l s n padding) := by
    intro s n padding
    unfold Library.pad
    dsimp only
    repeat' split
    all_goals simp
  unfold Library.change? at h
  split at h <;> cases h <;> simp [hpad]

theorem plain_bitRange (a b : Int) (closed : Bool) : Plain (Library.bitRange a b closed) := by
  unfold Library.bitRange
  dsimp only
  refine Plain.bind ?_ fun _ => Plain.bind ?_ fun _ => plain_ok _
  all_goals repeat' split
  all_goals simp

theorem plain_index (container key : Value) : Plain (Library.index container key) := by
  unfold Library.index
  split
  case h_6 => exact (plain_bitRange _ _ _).bind fun _ => plain_ok _
  all_goals
    try split
    all_goals simp

theorem plain_update (container key value : Value) :
    Plain (Library.update container key value) := by
  unfold Library.update
  split
  case h_6 =>
    refine (plain_bitRange _ _ _).bind fun _ => ?_
    dsimp only
    split
    all_goals simp [Pure.pure, Except.pure]
  all_goals
    try split
    all_goals simp

end EditorScripting.Script
