import EditorScripting.Script.Parser

/-!
What the parser reads from the tokens ahead: an operand that is one token, and a call with such an
argument. Each is as many levels deep as the parser goes down for it.
-/
namespace EditorScripting.Script.Parser

variable {α β : Type} {c : Context} {n level : Nat} {l m : Lexeme} {r : List Lexeme}
  {names : List (String × Bool)} {definitions : List Definition}

theorem run_bind (p : Parse α) (f : α → Parse β) (s : State) :
    (p >>= f).run s = match p.run s with
      | .ok (a, s) => (f a).run s
      | .error e => .error e := by
  rw [StateT.run_bind]
  cases p.run s <;> rfl

theorem run_peek : peek.run ⟨l :: r, names, definitions⟩ = .ok (l, ⟨l :: r, names, definitions⟩) :=
  rfl

theorem run_discard_advance : (discard advance).run ⟨l :: m :: r, names, definitions⟩ =
    .ok (⟨⟩, ⟨m :: r, names, definitions⟩) := rfl

theorem run_deeper (p : Position) (s : State) : (deeper c level p).run s =
    if Limits.exceeds c.limits.exprDepth (level + 1) then .error (.tooDeep, p)
    else .ok (level + 1, s) := by
  rw [deeper]
  split <;> rfl

/-- The token ends an expression. -/
inductive Closes : Token → Prop
  | finish : Closes .finish
  | bracket : Closes (.symbol ")")
  | comma : Closes (.symbol ",")
  | semicolon : Closes (.symbol ";")

theorem links_of_closes {root : Option Expr} {done : List Link} (hl : Closes l.token) :
    (links (n + 1) c level root done).run ⟨l :: r, names, definitions⟩ =
      .ok (done, ⟨l :: r, names, definitions⟩) := by
  rw [links, run_bind, run_peek]
  obtain ⟨t, p⟩ := l
  cases hl <;> rfl

theorem binary_of_closes {last : Position} {strength : Nat} {left : Expr} (hl : Closes l.token)
    (hs : 0 < strength) :
    (binary (n + 1) c level last strength left).run ⟨l :: r, names, definitions⟩ =
      .ok (left, ⟨l :: r, names, definitions⟩) := by
  have h0 : (operatorStrength l).run ⟨l :: r, names, definitions⟩ =
      .ok (0, ⟨l :: r, names, definitions⟩) := by
    obtain ⟨t, p⟩ := l
    cases hl <;> rfl
  rw [binary, run_bind, run_peek]
  dsimp only
  rw [run_bind, h0]
  simp only [hs, decide_true, Bool.true_or, if_true]
  rfl

/-- The expression that a token is by itself. -/
def atom? (l : Lexeme) : Option Expr :=
  match l.token with
  | .int x => some (.const (.int x) l.position)
  | .string s => some (.const (.string s) l.position)
  | .identifier name => some (.ref name l.position)
  | _ => none

theorem named_of_closes {name : String} {start p : Position} (hm : Closes m.token) :
    (named (n + 1) c level [] name start p).run ⟨m :: r, names, definitions⟩ =
      .ok (.ref name p, ⟨m :: r, names, definitions⟩) := by
  rw [named, run_bind, run_peek]
  obtain ⟨t, q⟩ := m
  cases hm <;> rfl

theorem operand_of_atom {e : Expr} (hl : atom? l = some e) (hm : Closes m.token) :
    (operand (n + 2) c level).run ⟨l :: m :: r, names, definitions⟩ =
      .ok (e, ⟨m :: r, names, definitions⟩) := by
  obtain ⟨t, p⟩ := l
  rw [operand, run_bind, run_peek]
  cases t with
  | int x => cases hl; rfl
  | string s => cases hl; rfl
  | identifier name =>
    cases hl
    dsimp only
    rw [run_bind, run_discard_advance]
    exact named_of_closes hm
  | _ => cases hl

/-- The token is no sign in front of an operand. -/
def begins (t : Token) : Bool := ["-", "+", "!", "..", "..="].all fun s => !t.isSymbol s

theorem unary_of_begins (hl : begins l.token) :
    (unary (n + 1) c level).run ⟨l :: r, names, definitions⟩ =
      (primary n c level).run ⟨l :: r, names, definitions⟩ := by
  rw [unary, run_bind, run_peek]
  simp only [begins, List.all_cons, List.all_nil, Bool.and_true, Bool.and_eq_true,
    Bool.not_eq_true'] at hl
  obtain ⟨h1, h2, h3, h4, h5⟩ := hl
  simp [h1, h2, h3, h4, h5]

/-- The next token closes the expression in front of it. -/
def State.Closed (s : State) : Prop := ∃ l r, s.ahead = l :: r ∧ Closes l.token

theorem primary_of_operand {s : State} {x : Except (Complaint × Position) (Expr × State)}
    (ho : (operand (n + 1) c level).run s = x) (hx : ∀ e s, x = .ok (e, s) → s.Closed) :
    (primary (n + 2) c level).run s = x := by
  rw [primary, run_bind, ho]
  cases x with
  | error f => rfl
  | ok read =>
    obtain ⟨e, _, names, definitions⟩ := read
    obtain ⟨l, r, rfl, hl⟩ := hx e _ rfl
    dsimp only
    rw [run_bind, links_of_closes hl]
    cases e <;> rfl

/-- An expression that is one operand: it is one level further down. -/
theorem expression_of_operand {x : Except (Complaint × Position) (Expr × State)}
    (hl : begins l.token)
    (ho : (operand (n + 2) c (level + 1)).run ⟨l :: r, names, definitions⟩ = x)
    (hx : ∀ e s, x = .ok (e, s) → s.Closed) :
    (expression (n + 5) c level).run ⟨l :: r, names, definitions⟩ =
      if Limits.exceeds c.limits.exprDepth (level + 1) then .error (.tooDeep, l.position)
      else x := by
  rw [expression, run_bind, run_peek]
  dsimp only
  rw [run_bind, run_deeper]
  cases hd : Limits.exceeds c.limits.exprDepth (level + 1) with
  | true => rfl
  | false =>
    have hu := (unary_of_begins hl).trans (primary_of_operand ho hx)
    simp only [Bool.false_eq_true, if_false]
    rw [run_bind, hu]
    cases x with
    | error f => rfl
    | ok read =>
      obtain ⟨e, _, names, definitions⟩ := read
      obtain ⟨m, r, rfl, hm⟩ := hx e _ rfl
      exact binary_of_closes hm Nat.one_pos

theorem begins_of_atom {e : Expr} (hl : atom? l = some e) : begins l.token := by
  obtain ⟨t, p⟩ := l
  cases t <;> first | rfl | cases hl

theorem expression_of_atom {e : Expr} (hl : atom? l = some e) (hm : Closes m.token) :
    (expression (n + 5) c level).run ⟨l :: m :: r, names, definitions⟩ =
      if Limits.exceeds c.limits.exprDepth (level + 1) then .error (.tooDeep, l.position)
      else .ok (e, ⟨m :: r, names, definitions⟩) := by
  refine expression_of_operand (begins_of_atom hl) (operand_of_atom hl hm) fun _ _ h => ?_
  cases h
  exact ⟨m, r, rfl, hm⟩

variable {o k f a : Lexeme} {name : String} {e : Expr}

theorem moreArguments_of_atom (ha : atom? a = some e) (hk : k.token = .symbol ")") :
    (moreArguments (n + 6) c level name []).run ⟨a :: k :: m :: r, names, definitions⟩ =
      if Limits.exceeds c.limits.exprDepth (level + 1) then .error (.tooDeep, a.position)
      else .ok ([e], ⟨m :: r, names, definitions⟩) := by
  have hs : a.token.isSymbol ")" = false := by
    obtain ⟨t, p⟩ := a
    cases t <;> first | rfl | cases ha
  rw [moreArguments, run_bind, run_peek]
  simp only [hs, Bool.false_eq_true, if_false]
  rw [run_bind, expression_of_atom ha (hk ▸ .bracket)]
  cases Limits.exceeds c.limits.exprDepth (level + 1) with
  | true => rfl
  | false =>
    obtain ⟨t, p⟩ := k
    cases hk
    rfl

theorem arguments_of_atom {p : Position} (ho : o.token = .symbol "(") (ha : atom? a = some e)
    (hk : k.token = .symbol ")") :
    (arguments (n + 7) c level name p).run ⟨o :: a :: k :: m :: r, names, definitions⟩ =
      if Limits.exceeds c.limits.exprDepth (level + 1) then .error (.tooDeep, p)
      else if Limits.exceeds c.limits.exprDepth (level + 2) then .error (.tooDeep, a.position)
      else .ok ([e], ⟨m :: r, names, definitions⟩) := by
  have hnext : (arguments (n + 7) c level name p).run ⟨o :: a :: k :: m :: r, names, definitions⟩ =
      (do moreArguments (n + 6) c (← deeper c level p) name []).run
        ⟨a :: k :: m :: r, names, definitions⟩ := by
    obtain ⟨_, _⟩ := o
    cases ho
    obtain ⟨t, q⟩ := a
    rw [arguments]
    cases t <;> first | rfl | cases ha
  rw [hnext, run_bind, run_deeper]
  cases Limits.exceeds c.limits.exprDepth (level + 1) with
  | true => rfl
  | false => exact moreArguments_of_atom ha hk

theorem operand_of_call (hf : f.token = .identifier name) (ho : o.token = .symbol "(")
    (ha : atom? a = some e) (hk : k.token = .symbol ")") :
    (operand (n + 9) c level).run ⟨f :: o :: a :: k :: m :: r, names, definitions⟩ =
      if Limits.exceeds c.limits.exprDepth (level + 1) then .error (.tooDeep, f.position)
      else if Limits.exceeds c.limits.exprDepth (level + 2) then .error (.tooDeep, a.position)
      else .ok (.call name [e] f.position, ⟨m :: r, names, definitions⟩) := by
  obtain ⟨_, p⟩ := f
  obtain ⟨_, q⟩ := o
  cases hf
  cases ho
  rw [operand, run_bind, run_peek]
  dsimp only
  rw [run_bind, run_discard_advance]
  dsimp only
  rw [named, run_bind, run_peek]
  change (do return .call name (← arguments (n + 7) c level name p) p : Parse Expr).run _ = _
  rw [run_bind, arguments_of_atom rfl ha hk]
  cases Limits.exceeds c.limits.exprDepth (level + 1) with
  | true => rfl
  | false => cases Limits.exceeds c.limits.exprDepth (level + 2) <;> rfl

/-- A call of a function with one operand is nested three levels deep: the call, its arguments and
the operand. -/
theorem expression_of_call (hf : f.token = .identifier name) (ho : o.token = .symbol "(")
    (ha : atom? a = some e) (hk : k.token = .symbol ")") (hm : Closes m.token) :
    (expression (n + 12) c level).run ⟨f :: o :: a :: k :: m :: r, names, definitions⟩ =
      if Limits.exceeds c.limits.exprDepth (level + 1) then .error (.tooDeep, f.position)
      else if Limits.exceeds c.limits.exprDepth (level + 2) then .error (.tooDeep, f.position)
      else if Limits.exceeds c.limits.exprDepth (level + 3) then .error (.tooDeep, a.position)
      else .ok (.call name [e] f.position, ⟨m :: r, names, definitions⟩) := by
  refine expression_of_operand (by rw [hf]; rfl) (operand_of_call hf ho ha hk) fun _ _ h => ?_
  split at h
  · cases h
  split at h <;> cases h
  exact ⟨m, r, rfl, hm⟩

end EditorScripting.Script.Parser
