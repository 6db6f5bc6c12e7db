import EditorScripting.Interpreter
import EditorScripting.Proofs.Script.Visits

/-!
The course of an evaluation. The guest is given copies of the wrappers in the globals; then the
expression runs, and after it the conversion of its value; at last the guest lets go of what it
holds.
-/
namespace EditorScripting.Interpreter

open Host Script Guest

variable {σ : Type} (around : Surroundings σ) (i : Interpreter) (source : String) (s : σ)

/-- The two programs of an evaluation. -/
inductive Phase where
  | expression
  | conversion
deriving DecidableEq

/-- The guest before it has been given anything, with the watchdog armed. -/
def fresh : Running σ :=
  ⟨around.setWatchdog (Watchdog.arm i.settings.timeout (around.now s)) s, i.bridge, 0, []⟩

/-- The guest with copies of the wrappers in the globals. -/
def equipped : Running σ :=
  (bindingHandles i.globals).foldl (fun r h => r.give around h) (fresh around i s)

/-- The world that both programs run in. -/
def world : World Command (Running σ) := Running.world around i.settings.maxOperations.toNat

/-- A program and the guest as the program finds it. -/
abbrev Start (σ : Type) := Program Command (Except Failed Value) × Running σ

/-- The expression, if the text can be compiled. -/
def expressionStart : Option (Start σ) :=
  (compile i.settings i.globals source).toOption.map fun body =>
    (runStatements (environment i.settings) i.globals body, equipped around i s)

/-- The conversion, if the expression has a value. -/
def conversionStart : Option (Start σ) := do
  let (p, r) ← expressionStart around i source s
  match p.run (world around i) r with
  | (.ok v, r) =>
    let body ← (conversion i.settings).toOption
    return (runStatements (environment i.settings) [⟨"value", v, false⟩] body,
      { r with operations := 0 })
  | (.error _, _) => none

/-- How a phase starts, if it takes place. -/
def Phase.start : Phase → Option (Start σ)
  | expression => expressionStart around i source s
  | conversion => conversionStart around i source s

/-- How a phase ends, if it takes place. -/
def Phase.run (phase : Phase) : Option (Except Failed Value × Running σ) :=
  (phase.start around i source s).map fun (p, r) => p.run (world around i) r

/-- The result and the guest as the programs leave it. -/
def outcome : Except Failure String × Running σ :=
  match compile i.settings i.globals source with
  | .error f => (.error f, equipped around i s)
  | .ok body => runExpression around i.settings i.globals body (equipped around i s)

/-- What becomes of the end of a conversion. -/
def converted : Except Failed Value → Except Failure String
  | .ok (.string text) => .ok text
  | .ok v => .error (.conversion ("Output type incorrect: " ++ v.typeName))
  | .error f => .error (.conversion f.message)

variable {around i source s}

/-- The expression runs if the text can be compiled. -/
theorem expressionStart_eq_some_iff {p : Start σ} :
    expressionStart around i source s = some p ↔ ∃ body,
      compile i.settings i.globals source = .ok body ∧
        p = (runStatements (environment i.settings) i.globals body, equipped around i s) := by
  unfold expressionStart
  cases compile i.settings i.globals source <;> simp [Except.toOption, eq_comm]

/-- The conversion runs if the expression has a value. -/
theorem conversionStart_eq_some_iff {p : Start σ} :
    conversionStart around i source s = some p ↔ ∃ v r body,
      Phase.run around i source s .expression = some (.ok v, r) ∧
        conversion i.settings = .ok body ∧
          p = (runStatements (environment i.settings) [⟨"value", v, false⟩] body,
            { r with operations := 0 }) := by
  unfold conversionStart Phase.run Phase.start
  dsimp only
  cases expressionStart around i source s with
  | none => simp
  | some q =>
    obtain ⟨q, r⟩ := q
    simp only [Option.bind_eq_bind, Option.bind_some, Option.map_some, Option.some.injEq]
    generalize q.run (world around i) r = e
    obtain ⟨f | v, r⟩ := e
    · simp
    · cases conversion i.settings with
      | error f => simp [Except.toOption]
      | ok body =>
        constructor
        · intro h
          exact ⟨v, r, body, rfl, rfl, (Option.some.inj h).symm⟩
        · rintro ⟨v', r', body', hv, hb, rfl⟩
          cases hv
          cases hb
          rfl

theorem outcome_of_expression {f : Failed} {r : Running σ}
    (hr : Phase.run around i source s .expression = some (.error f, r)) :
    outcome around i source s = (.error (classify (around.watchdog r.shared) f), r) := by
  obtain ⟨p, hp, he⟩ := Option.map_eq_some_iff.mp hr
  obtain ⟨body, hc, rfl⟩ := expressionStart_eq_some_iff.mp hp
  unfold outcome runExpression
  rw [hc]
  dsimp only at he ⊢
  rw [show Running.world around i.settings.maxOperations.toNat = world around i from rfl, he]

theorem outcome_of_conversion {v : Except Failed Value} {r : Running σ}
    (hr : Phase.run around i source s .conversion = some (v, r)) :
    outcome around i source s = (converted v, r) := by
  obtain ⟨p, hp, he⟩ := Option.map_eq_some_iff.mp hr
  obtain ⟨w, r', body', hr', hb, rfl⟩ := conversionStart_eq_some_iff.mp hp
  obtain ⟨p, hp, he'⟩ := Option.map_eq_some_iff.mp hr'
  obtain ⟨body, hc, rfl⟩ := expressionStart_eq_some_iff.mp hp
  unfold outcome runExpression
  rw [hc]
  dsimp only at he he' ⊢
  rw [show Running.world around i.settings.maxOperations.toNat = world around i from rfl, he']
  dsimp only
  rw [hb]
  dsimp only
  rw [he]
  cases v with
  | error f => rfl
  | ok v => cases v <;> rfl

variable (around i source s)

/-- The four ways in which the programs can come to an end. -/
theorem outcome_cases :
    (∃ f, compile i.settings i.globals source = .error f ∧
      outcome around i source s = (.error f, equipped around i s)) ∨
    (∃ f r, Phase.run around i source s .expression = some (.error f, r) ∧
      outcome around i source s = (.error (classify (around.watchdog r.shared) f), r)) ∨
    (∃ v r f, Phase.run around i source s .expression = some (.ok v, r) ∧
      conversion i.settings = .error f ∧ outcome around i source s = (.error f, r)) ∨
    (∃ v r, Phase.run around i source s .conversion = some (v, r) ∧
      outcome around i source s = (converted v, r)) := by
  cases hc : compile i.settings i.globals source with
  | error f =>
    refine .inl ⟨f, rfl, ?_⟩
    unfold outcome
    rw [hc]
  | ok body =>
    refine .inr ?_
    have hp : expressionStart around i source s = some _ :=
      expressionStart_eq_some_iff.mpr ⟨body, hc, rfl⟩
    have hr : Phase.run around i source s .expression = some _ := congrArg (Option.map _) hp
    dsimp only at hr
    generalize he : Program.run _ _ _ = e at hr
    obtain ⟨f | v, r⟩ := e
    · exact .inl ⟨f, r, hr, outcome_of_expression hr⟩
    refine .inr ?_
    cases hb : conversion i.settings with
    | error f =>
      refine .inl ⟨v, r, f, hr, rfl, ?_⟩
      unfold outcome runExpression
      rw [hc]
      dsimp only
      rw [show Running.world around i.settings.maxOperations.toNat = world around i from rfl, he]
      dsimp only
      rw [hb]
    | ok body' =>
      have hp' := conversionStart_eq_some_iff.mpr ⟨v, r, body', hr, hb, rfl⟩
      have hr' : Phase.run around i source s .conversion = some _ := congrArg (Option.map _) hp'
      exact .inr ⟨_, _, hr', outcome_of_conversion hr'⟩

/-- A state of the guest in the course of an evaluation. -/
inductive During : Running σ → Prop
  | equipping {hs rest} : bindingHandles i.globals = hs ++ rest →
      During (hs.foldl (fun r h => r.give around h) (fresh around i s))
  | running {phase : Phase} {p r r'} : phase.start around i source s = some (p, r) →
      p.Visits (world around i) r r' → During r'
  | releasing {hs rest} : (outcome around i source s).2.held = hs ++ rest →
      During { (outcome around i source s).2 with
        shared := hs.foldl (fun s h => Wrapper.drop around.host h s)
          (outcome around i source s).2.shared
        held := rest }

/-- What the programs keep, and what does not depend on the count of operations, holds of the guest
whenever it runs and when the programs have come to an end. -/
theorem keeps_phases {I : Running σ → Prop} (hw : (world around i).Keeps I)
    (hcount : ∀ r, I r → I { r with operations := 0 }) (hstart : I (equipped around i s)) :
    (∀ (phase : Phase) p r, phase.start around i source s = some (p, r) → I r) ∧
      I (outcome around i source s).2 := by
  have hexpression : ∀ p r, expressionStart around i source s = some (p, r) → I r := by
    intro p r he
    obtain ⟨body, -, hb⟩ := expressionStart_eq_some_iff.mp he
    cases hb
    exact hstart
  have hconversion : ∀ p r, conversionStart around i source s = some (p, r) → I r := by
    intro p r hc
    obtain ⟨v, r', body, hr, -, hb⟩ := conversionStart_eq_some_iff.mp hc
    obtain ⟨⟨p', r''⟩, hp, he⟩ := Option.map_eq_some_iff.mp hr
    have hend := Program.run_keeps hw p' (hexpression p' r'' hp)
    rw [show p'.run (world around i) r'' = (.ok v, r') from he] at hend
    cases hb
    exact hcount _ hend
  have hphase : ∀ (phase : Phase) p r, phase.start around i source s = some (p, r) → I r := by
    intro phase p r hp
    cases phase with
    | expression => exact hexpression p r hp
    | conversion => exact hconversion p r hp
  have hrun : ∀ (phase : Phase) v r, phase.run around i source s = some (v, r) → I r := by
    intro phase v r hr
    obtain ⟨⟨p, r'⟩, hp, he⟩ := Option.map_eq_some_iff.mp hr
    have hend := Program.run_keeps hw p (hphase phase p r' hp)
    rw [show p.run (world around i) r' = (v, r) from he] at hend
    exact hend
  refine ⟨hphase, ?_⟩
  rcases outcome_cases around i source s with
    ⟨f, -, ho⟩ | ⟨f, r, hr, ho⟩ | ⟨v, r, f, hr, -, ho⟩ | ⟨v, r, hr, ho⟩ <;> rw [ho]
  · exact hstart
  · exact hrun _ _ _ hr
  · exact hrun _ _ _ hr
  · exact hrun _ _ _ hr

theorem evaluate_eq :
    i.evaluate around source s =
      let (result, r) := outcome around i source s
      let r' := r.releaseAll around
      let j := (filing result { i with bridge := r'.bridge }).2
      (result, j, around.setWatchdog .idle r'.shared) := by
  unfold evaluate evaluateArmed outcome
  rfl

/-- What filing a failure, an evaluation and making a string keep is kept by a call. -/
theorem evaluateExpression_keeps (h : Handle) {Q : Interpreter → σ → Prop}
    (hfile : ∀ f : Failure, Q (filing (.error f : Except Failure Unit) i).2 s)
    (hevaluate : ∀ source, Q (i.evaluate around source s).2.1 (i.evaluate around source s).2.2)
    (hmake : ∀ text j t, Q j t → Q j (around.host.makeString text t).2) :
    Q (i.evaluateExpression around h s).2.1 (i.evaluateExpression around h s).2.2 := by
  unfold evaluateExpression
  split
  · exact hfile _
  · rename_i source _
    have hdone := hevaluate source
    split <;> rename_i hresult <;> rw [hresult] at hdone
    · exact hmake _ _ _ hdone
    · exact hdone

end EditorScripting.Interpreter
