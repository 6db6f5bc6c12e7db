import EditorScripting.Interpreter
import EditorScripting.Proofs.Configuration.Histories
import EditorScripting.Proofs.Script.Reading

/-!
Which settings an interpreter starts with. A new interpreter reads its conversion expression under
the bounds of its settings, and this expression is a call with one argument, so it is three levels
deep. A script of configuration can set the bound below that.
-/
namespace EditorScripting.Interpreter

open Script EditorScripting.Configuration

/-- The tokens of the conversion expression. -/
def conversionTokens : List Lexeme :=
  [⟨.identifier "to_string", ⟨1, 1⟩⟩, ⟨.symbol "(", ⟨1, 10⟩⟩, ⟨.identifier "value", ⟨1, 11⟩⟩,
    ⟨.symbol ")", ⟨1, 16⟩⟩, ⟨.finish, ⟨1, 17⟩⟩]

/-- The conversion expression: a call, its only argument being a variable. -/
def conversionCall : Expr := .call "to_string" [.ref "value" ⟨1, 11⟩] ⟨1, 1⟩

theorem tokenize_conversionSource (limit : Nat) :
    tokenize limit conversionSource = conversionTokens := rfl

theorem parse_conversionSource (l : Limits) :
    parseExpression l [] conversionSource =
      if Limits.exceeds l.exprDepth 2 then .error (.tooDeep, ⟨1, 1⟩)
      else if Limits.exceeds l.exprDepth 3 then .error (.tooDeep, ⟨1, 11⟩)
      else .ok conversionCall := by
  -- No bound is below one level, since zero means that there is none.
  have hone : Limits.exceeds l.exprDepth 1 = false := by
    simp only [Limits.exceeds, Bool.and_eq_false_iff, bne_eq_false_iff_eq, decide_eq_false_iff_not]
    omega
  have hread : (Parser.expression (Parser.fuelFor conversionTokens) ⟨l, true, true, false, false⟩
        0).run ⟨conversionTokens, [], []⟩ =
      if Limits.exceeds l.exprDepth 1 then .error (.tooDeep, ⟨1, 1⟩)
      else if Limits.exceeds l.exprDepth 2 then .error (.tooDeep, ⟨1, 1⟩)
      else if Limits.exceeds l.exprDepth 3 then .error (.tooDeep, ⟨1, 11⟩)
      else .ok (conversionCall, ⟨[⟨.finish, ⟨1, 17⟩⟩], [], []⟩) :=
    Parser.expression_of_call (n := 180) rfl rfl rfl rfl .finish
  rw [parseExpression, tokenize_conversionSource]
  dsimp only
  rw [List.map_nil, hread, hone]
  cases Limits.exceeds l.exprDepth 2 with
  | true => rfl
  | false => cases Limits.exceeds l.exprDepth 3 <;> rfl

/-- The failure to read an expression that is too deep at a place. -/
def tooDeep (p : Position) : Failure := malformed (.tooDeep, p)

theorem conversion_eq (s : Settings) :
    conversion s =
      if Limits.exceeds s.maxExprDepth.toNat 2 then .error (tooDeep ⟨1, 1⟩)
      else if Limits.exceeds s.maxExprDepth.toNat 3 then .error (tooDeep ⟨1, 11⟩)
      else
        .ok (Listing.simplifiedBody (limits s) [("value", none)] false [.expr conversionCall]) := by
  rw [conversion, parse_conversionSource, show (limits s).exprDepth = s.maxExprDepth.toNat from rfl]
  cases Limits.exceeds s.maxExprDepth.toNat 2 with
  | true => rfl
  | false => cases Limits.exceeds s.maxExprDepth.toNat 3 <;> rfl

theorem start_eq (s : Settings) :
    ∃ i : Interpreter, i.settings = s ∧ start s =
      if Limits.exceeds s.maxExprDepth.toNat 2 then .error (tooDeep ⟨1, 1⟩)
      else if Limits.exceeds s.maxExprDepth.toNat 3 then .error (tooDeep ⟨1, 11⟩)
      else .ok i := by
  refine ⟨{
    settings := s
    bridge := {
      reservedName := s.reservedName
      dictionary := ∅
      diagnostics := Diagnostics.empty s.diagnosticsCapacity.toNat }
    globals := [⟨"version", .string version, true⟩] }, rfl, ?_⟩
  rw [start, conversion_eq]
  cases Limits.exceeds s.maxExprDepth.toNat 2 with
  | true => rfl
  | false => cases Limits.exceeds s.maxExprDepth.toNat 3 <;> rfl

/-- After a history of configuration an interpreter starts exactly if the bound on the depth of
expressions is at least 3. A smaller one, which scripts can set, is reported where the conversion
expression exceeds it. -/
theorem start_after_history (inputs : List Input) :
    ((∃ i, start (initial.history inputs).2.settings = .ok i) ↔
      3 ≤ (initial.history inputs).2.settings.maxExprDepth.toNat) ∧
    ((initial.history inputs).2.settings.maxExprDepth.toNat = 1 →
      start (initial.history inputs).2.settings = .error (tooDeep ⟨1, 1⟩)) ∧
    ((initial.history inputs).2.settings.maxExprDepth.toNat = 2 →
      start (initial.history inputs).2.settings = .error (tooDeep ⟨1, 11⟩)) := by
  obtain ⟨hone, -⟩ := (depthsBounded_history inputs).expr
  generalize (initial.history inputs).2.settings = s at hone ⊢
  obtain ⟨i, -, hstart⟩ := start_eq s
  rw [hstart]
  generalize s.maxExprDepth.toNat = depth at hone ⊢
  match depth, hone with
  | 1, _ => exact ⟨⟨nofun, nofun⟩, fun _ => rfl, nofun⟩
  | 2, _ => exact ⟨⟨nofun, nofun⟩, nofun, fun _ => rfl⟩
  | n + 3, _ =>
    have hwide : Limits.exceeds (n + 3) 2 = false ∧ Limits.exceeds (n + 3) 3 = false := by
      simp only [Limits.exceeds, Bool.and_eq_false_iff, decide_eq_false_iff_not]
      omega
    simp only [hwide.1, hwide.2, Bool.false_eq_true, if_false]
    exact ⟨⟨fun _ => by omega, fun _ => ⟨i, rfl⟩⟩, by omega, by omega⟩

/-- A single call is enough to make settings that no interpreter starts with. -/
theorem start_refused :
    start (initial.history [.script "set_max_expr_depth(2);"]).2.settings =
      .error (.compile "Expression exceeds maximum complexity (line 1, position 11)") := by
  have hdepth : (initial.history [.script "set_max_expr_depth(2);"]).2.settings.maxExprDepth.toNat =
      2 := by decide +kernel
  obtain ⟨-, -, hstart⟩ := start_after_history [.script "set_max_expr_depth(2);"]
  exact hstart hdepth

end EditorScripting.Interpreter
