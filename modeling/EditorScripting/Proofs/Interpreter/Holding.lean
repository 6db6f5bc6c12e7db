import EditorScripting.Proofs.Guest.Held
import EditorScripting.Proofs.Interpreter.Globals
import EditorScripting.Proofs.Script.Parsed
import EditorScripting.Proofs.Script.Simplified

/-!
What the guest holds covers what its code works with. In every evaluation, in whatever state of the
interpreter it begins, the wrappers that are copied, dropped or named in a command are among those
that the guest holds at that time, and those in the result are held at the end.
-/
namespace EditorScripting.Interpreter

open Host Script Guest

/-- No constant holds a wrapper. -/
def ConstantsBare (globals : List Binding) : Prop :=
  ∀ b ∈ globals, b.constant = true → b.value.wrappers = 0

variable {σ : Type} {around : Surroundings σ} {i : Interpreter} {source : String} {s : σ}

theorem bare_known {globals : List Binding} (hg : ConstantsBare globals) :
    Fold.Known.Bare (known globals) := by
  intro name v hv
  obtain ⟨b, hb, he⟩ := List.mem_map.mp hv
  split at he
  · cases he
    exact hg b hb ‹_›
  · cases he

theorem bare_of_compile {settings : Settings} {globals : List Binding} {body : List Stmt}
    (hg : ConstantsBare globals) (hc : compile settings globals source = .ok body) :
    Stmt.AllBare body := by
  unfold compile at hc
  split at hc <;> cases hc
  rename_i he
  exact Listing.bare_simplifiedBody (bare_known hg) false ⟨bare_of_parseExpression he, trivial⟩

theorem bare_of_conversion {settings : Settings} {body : List Stmt}
    (hc : conversion settings = .ok body) : Stmt.AllBare body := by
  have hknown : Fold.Known.Bare [("value", none)] := fun _ _ hv => by simp at hv
  unfold conversion at hc
  split at hc <;> cases hc
  rename_i he
  exact Listing.bare_simplifiedBody hknown false ⟨bare_of_parseExpression he, trivial⟩

theorem lends_environment (settings : Settings) :
    (environment settings).Lends Command.wrappers := Command.lends_environment _ _

section

variable (hg : ConstantsBare i.globals) {p : Program Command (Except Failed Value)} {r : Running σ}
include hg

theorem owns_expression (hp : expressionStart around i source s = some (p, r)) :
    p.Owns Command.wrappers (fun v m => endWrappers v ≤ m) r.held := by
  obtain ⟨body, hc, he⟩ := expressionStart_eq_some_iff.mp hp
  cases he
  refine owns_runStatements (lends_environment _) (bare_of_compile hg hc) ?_
  unfold equipped
  rw [Running.held_gives around]
  exact Multiset.le_add_right _ _

/-- The conversion starts with a value that the expression has left to the guest. -/
theorem owns_conversion (hp : conversionStart around i source s = some (p, r)) :
    p.Owns Command.wrappers (fun v m => endWrappers v ≤ m) r.held := by
  obtain ⟨v, r', body, hr, hc, he⟩ := conversionStart_eq_some_iff.mp hp
  obtain ⟨⟨q, r₀⟩, hq, hrun⟩ := Option.map_eq_some_iff.mp hr
  have hend : endWrappers (q.run (world around i) r₀).1 ≤ (q.run (world around i) r₀).2.held :=
    Running.of_owns (owns_expression hg hq)
  rw [show q.run (world around i) r₀ = (.ok v, r') from hrun] at hend
  cases he
  refine owns_runStatements (lends_environment _) (bare_of_conversion hc) ?_
  simpa [endWrappers] using hend

theorem owns_phase {phase : Phase} (hp : phase.start around i source s = some (p, r)) :
    p.Owns Command.wrappers (fun v m => endWrappers v ≤ m) r.held := by
  cases phase with
  | expression => exact owns_expression hg hp
  | conversion => exact owns_conversion hg hp

end

/-- The constants among the globals are what the interpreter started with. -/
theorem constantsBare_run {settings : Settings} {i₀ : Interpreter} {answers : σ → List Bool}
    (hi : start settings = .ok i₀) (s : σ) (events : List (Event around answers)) :
    ConstantsBare (Event.run i₀ s events).1.globals := by
  rw [globals_run (globals_start hi)]
  intro b hb hc
  rcases List.mem_append.mp hb with hdefined | hversion
  · obtain ⟨v, -, he⟩ := mem_defined.mp hdefined
    rw [he] at hc
    cases hc
  · rw [List.mem_singleton.mp hversion]
    rfl

/-- While an expression is evaluated, its bindings are held, and so is its value. -/
theorem held_of_expr (settings : Settings) {e : Expr} (he : e.Bare) (n limit : Nat) {frame : Frame}
    (hc : frame.constants = []) {r : Running σ} (hm : scopeWrappers frame.scope ≤ r.held) :
    let last := (Eval.expr (environment settings) n e frame).run (Running.world around limit) r
    scopeWrappers last.1.2.scope + Eval.Left Value.wrappers 0 last.1.1 ≤ last.2.held :=
  Running.held_of_spends ((Eval.allSpend (lends_environment settings) n).expr he) hc
    (by rwa [add_zero])

/-- At every moment of every evaluation, the rest of the code owns what the guest holds: it copies,
drops and names in commands only wrappers that are held then, and the wrappers in its result, or in
the fault that it ends with, are held at the end. -/
theorem held_of_history {settings : Settings} {i₀ : Interpreter} {answers : σ → List Bool}
    (hi : start settings = .ok i₀) (s₀ : σ) (events : List (Event around answers)) :
    let i := (Event.run i₀ s₀ events).1
    ∀ {source s} {phase : Phase} {p q r r'}, phase.start around i source s = some (p, r) →
      p.Reaches (world around i) r q r' →
        q.Owns Command.wrappers (fun v m => endWrappers v ≤ m) r'.held := by
  intro i source s phase p q r r' hp hr
  exact Running.owns_of_reaches hr (owns_phase (constantsBare_run hi s₀ events) hp)

end EditorScripting.Interpreter
