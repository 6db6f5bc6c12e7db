import EditorScripting.Proofs.Script.Answers

/-!
No script invents a stop: whatever a script does, it is stopped for the reasons that the world stops
it for, and for no others. And no script acts without permission: just before each command the world
has allowed it to go on, but for the functions of the module that are given arguments. Their calls
are allowed to begin, and then the arguments are evaluated.
-/
namespace EditorScripting.Script

open Host

namespace Eval

variable {κ α : Type} {P : Terms κ} {leave : Leave} {V : α → Prop} (env : Environment κ)

/-! Printing. -/

theorem stops_checkReceiver (v : Value) (p : Position) : Stops P (checkReceiver env v p) := by
  unfold checkReceiver
  split
  · exact .discard (.ofExcept (plain_check _ _))
  · exact .discard (.ofExcept (plain_check _ _))
  · exact .pure trivial

theorem stops_textOr {substitute : String} {text : Eval κ String}
    (h : Returns leave P (fun _ => True) text) :
    Returns leave P (fun _ => True) (textOr env substitute text) := by
  refine (Returns.outcome h).bind fun r _ => ?_
  cases r with
  | error i => exact .pure trivial
  | ok s =>
    dsimp only
    split <;> exact .pure trivial

theorem stops_object (h : Handle) : StopsReady P ((printer env).object h) := by
  unfold printer
  dsimp only
  split
  · exact .pure trivial
  · refine .andThen (.ask nofun) fun v => ?_
    split <;> exact .pure trivial

theorem stops_element {depth : Nat} {v : Value} {text : Eval κ String} (h : StopsReady P text) :
    Stops P ((printer env).element depth v text) :=
  stops_textOr env (.afterProbe (.andThen h fun _ =>
    .andThen (stops_checkReceiver env v .nowhere) fun _ => .pure trivial))

mutual

theorem stops_inside (depth : Nat) : (v : Value) → StopsReady P ((printer env).inside depth v)
  | .array items => by
    rw [Printer.inside]
    exact .mono (.andThen (stops_itemTexts (depth + 1) items []) fun _ => .pure trivial)
  | .map entries => by
    rw [Printer.inside]
    exact .mono (.andThen (stops_entryTexts (depth + 1) entries []) fun _ => .pure trivial)
  | .object h => by
    rw [Printer.inside]
    exact stops_object env h
  | .unit | .bool _ | .int _ | .float _ | .char _ | .string _ | .range _ _ _ | .letters _ => by
    rw [Printer.inside]
    · exact .pure trivial
    all_goals simp

theorem stops_itemTexts (depth : Nat) : (vs : List Value) → (done : List String) →
    Stops P ((printer env).itemTexts depth vs done)
  | [], done => by
    rw [Printer.itemTexts]
    exact .pure trivial
  | v :: r, done => by
    rw [Printer.itemTexts]
    exact .andThen (stops_element env (stops_inside depth v)) fun text =>
      stops_itemTexts depth r (text :: done)

theorem stops_entryTexts (depth : Nat) : (es : List (String × Value)) → (done : List String) →
    Stops P ((printer env).entryTexts depth es done)
  | [], done => by
    rw [Printer.entryTexts]
    exact .pure trivial
  | (key, v) :: r, done => by
    rw [Printer.entryTexts]
    exact .andThen (stops_element env (stops_inside depth v)) fun text =>
      stops_entryTexts depth r _

end

theorem stops_display (depth : Nat) (v : Value) :
    StopsReady P ((printer env).display depth v) := by
  unfold Printer.display
  split
  · exact stops_inside env depth _
  · exact stops_inside env depth _
  · exact stops_inside env depth _
  · exact .pure trivial

/-- A text inside another one begins with an operation of its own. -/
theorem stops_textInside {depth : Nat} {begin : Eval κ Unit}
    (hbegin : ∀ {text : Eval κ String}, StopsReady P text → Stops P (do begin; text)) (v : Value) :
    Stops P (textInside env depth begin v) := by
  have hown : ∀ v : Value, Stops P (do
      begin
      let s ← (printer env).display depth v
      checkReceiver env v .nowhere
      Pure.pure s) := fun v => hbegin (.andThen (stops_display env depth v) fun _ =>
    .andThen (stops_checkReceiver env v .nowhere) fun _ => .pure trivial)
  unfold textInside
  split
  · exact .pure trivial
  · exact stops_textOr env (hown _)

theorem stops_operandText (v : Value) : Stops P (operandText env v) := by
  refine stops_textInside env ?_ v
  intro text htext frame
  refine .probe fun r hr => ?_
  cases r with
  | none => exact htext frame
  | some r => exact .done (permitted_refused hr)

theorem stops_pieceText (v : Value) : Stops P (pieceText env v) := by
  refine stops_textInside env ?_ v
  intro text htext
  exact .afterTick htext

/-! Operators and calls. -/

mutual

theorem stops_equal (p : Position) (depth : Nat) : (a b : Value) →
    Stops P (equal p depth a b : Eval κ Bool)
  | .array a, b => by
    cases b with
    | array b =>
      rw [equal]
      split
      · exact stops_equalItems p (depth + 1) a b
      · exact .pure trivial
    | _ =>
      unfold equal
      split <;> exact .pure trivial
  | .map a, b => by
    cases b with
    | map b =>
      rw [equal]
      split
      · exact stops_equalEntries p (depth + 1) a b
      · exact .pure trivial
    | _ =>
      unfold equal
      split <;> exact .pure trivial
  | .object g, b => by
    cases b with
    | object h =>
      rw [equal]
      exact .pure trivial
    | _ =>
      unfold equal
      split <;> exact .pure trivial
  | .unit, _ | .bool _, _ | .int _, _ | .float _, _ | .char _, _ | .string _, _ | .range _ _ _, _
  | .letters _, _ => by
    unfold equal
    split <;> exact .pure trivial

theorem stops_equalItems (p : Position) (depth : Nat) : (as bs : List Value) →
    Stops P (equalItems p depth as bs : Eval κ Bool)
  | a :: as, b :: bs => by
    rw [equalItems]
    refine .afterProbe (.mono (.andThen (stops_equal p depth a b) fun r => ?_))
    split
    · exact stops_equalItems p depth as bs
    · exact .pure trivial
  | [], _ => by
    unfold equalItems
    exact .pure trivial
  | _ :: _, [] => by
    unfold equalItems
    exact .pure trivial

theorem stops_equalEntries (p : Position) (depth : Nat) : (as bs : List (String × Value)) →
    Stops P (equalEntries p depth as bs : Eval κ Bool)
  | (k, a) :: as, bs => by
    rw [equalEntries]
    split
    · exact .pure trivial
    · refine .afterProbe (.mono (.andThen (stops_equal p depth a _) fun r => ?_))
      split
      · exact stops_equalEntries p depth as bs
      · exact .pure trivial
  | [], _ => by
    unfold equalEntries
    exact .pure trivial

end

theorem stops_holds (p : Position) (item : Value) (vs : List Value) :
    Stops P (holds p item vs : Eval κ Bool) := by
  induction vs with
  | nil => exact .pure trivial
  | cons v r ih =>
    refine .afterProbe (.mono ?_)
    refine .andThen .retain fun _ => .andThen (stops_equal p 1 v item) fun _ =>
      .andThen .release fun _ => ?_
    split
    · exact .pure trivial
    · exact ih

theorem stops_operate (op : Operator) (a b : Value) (p : Position) :
    Stops P (operate env op a b p) := by
  unfold operate
  split
  · exact .andThen (stops_operandText env _) fun _ => .pure trivial
  · exact .andThen (stops_operandText env _) fun _ => .pure trivial
  · exact .pure trivial
  · exact .pure trivial
  · exact .andThen (stops_equal p 0 _ _) fun _ => .pure trivial
  · exact .andThen (stops_equal p 0 _ _) fun _ => .pure trivial
  · exact .andThen (stops_equal p 0 _ _) fun _ => .pure trivial
  · exact .andThen (stops_equal p 0 _ _) fun _ => .pure trivial
  · exact .andThen (stops_equal p 0 _ _) fun _ => .pure trivial
  · exact .andThen (stops_equal p 0 _ _) fun _ => .pure trivial
  · exact .fail trivial

theorem stops_combined {a b : Value} {p : Position} {x : Eval κ Value} (hx : Stops P x) :
    Stops P (combined env a b p x) :=
  .andThen hx fun v => .andThen (.ofExcept (plain_check env.limits v)) fun _ =>
    .andThen .releaseHandles fun _ => .pure trivial

theorem stops_binary (op : Operator) (a b : Value) (p : Position) :
    Stops P (binary env op a b p) := by
  refine stops_combined env ?_
  split
  · exact .ofExcept (plain_onSimple? ‹_›)
  · exact .andThen .tick fun _ => stops_operate env op a b p

theorem stops_reassign (op : Operator) (a b : Value) (p : Position) :
    Stops P (reassign env op a b p) := by
  refine stops_combined env ?_
  split
  · exact .andThen .tick fun _ => .andThen .tick fun _ => .ofExcept (plain_onSimple? ‹_›)
  · exact .ofExcept (plain_onSimple? ‹_›)
  · exact .andThen .tick fun _ => .pure trivial
  · exact .andThen .tick fun _ => .pure trivial
  · refine .andThen .tick fun _ => ?_
    have hop : ∀ op a b, Stops P (operate env op a b p) := fun op a b => stops_operate env op a b p
    dsimp only
    split
    · exact hop _ _ _
    · exact hop _ _ _
    · exact .andThen .tick fun _ => hop _ _ _

theorem stops_callNative (name : String) (args : List Value) (p : Position) :
    Stops P (callNative env name args p) := by
  unfold callNative
  split
  · exact .pure trivial
  have hend : ∀ v : Value, Stops P (do
      let v ← ofExcept p (env.limits.check v)
      args.head?.forM (checkReceiver env · p)
      pure v) := by
    refine fun v => .andThen (.ofExcept (plain_check env.limits v)) fun v => .andThen ?_ fun _ =>
      .pure trivial
    cases args with
    | nil => exact .pure trivial
    | cons v r => exact stops_checkReceiver env v p
  refine .afterTick ?_
  dsimp only
  split
  · exact .andThen (.ask nofun) hend
  split
  · exact .andThen (stops_display env 0 _) fun _ => .andThen (.pure trivial) hend
  · exact .andThen (stops_inside env 0 _) fun _ => .andThen (.pure trivial) hend
  · exact .andThen (.pure trivial) hend
  · exact .andThen (.pure trivial) hend
  · exact .andThen (.discard (.outcome (stops_display env 0 _))) fun _ =>
      .andThen (.pure trivial) hend
  · exact .andThen (.discard (.outcome (stops_inside env 0 _))) fun _ =>
      .andThen (.pure trivial) hend
  · exact .andThen (.throw trivial) hend
  · exact .mono (.andThen .retain fun _ => .andThen (.throw trivial) hend)
  · exact .andThen (stops_holds p _ _).mono fun _ => .andThen (.pure trivial) hend
  · split
    · exact .andThen (.ofExcept (plain_call? ‹_›)) fun _ => .andThen .retain fun _ =>
        .andThen (.pure trivial) hend
    · exact .andThen (.fail trivial) hend

/-! Variables, scopes and parts of containers. -/

theorem stops_look (e : Expr) : Stops P (look env e) := by
  cases e with
  | ref name p =>
    refine .andThen .get fun frame => ?_
    split
    · exact .pure trivial
    · refine .fail ?_
      split <;> trivial
  | moduleRef path name p q =>
    have hlost : Stops P (do
        if path.head? == env.modulePath.head? || path == ["global"] then
          fail (.variableNotFound ("::".intercalate (path ++ [name]))) (some p)
        else fail (.moduleNotFound ("::".intercalate path)) (some p) : Eval κ Binding) := by
      split <;> exact .fail trivial
    unfold look
    dsimp only
    split
    · refine .andThen .get fun frame => ?_
      split
      · exact .pure trivial
      · exact hlost
    · exact hlost
  | _ => exact .fail trivial

theorem stops_assign (v : Value) (e : Expr) : Stops P (assign v e : Eval κ Unit) := by
  unfold assign
  split
  · exact .modify
  · exact .pure trivial

theorem stops_define (name : String) (v : Value) (constant : Bool) :
    Stops P (define env name v constant) := .modify

theorem stops_shrink (size : Nat) : Stops P (shrink size : Eval κ Unit) :=
  .andThen .get fun _ => .andThen .modify fun _ => .forM (fun _ => .release) _

/-- A scope does not change how the computation in it ends. -/
theorem Returns.enclosed {x : Eval κ α} (hx : Returns .nothing P V x) :
    Returns .nothing P V (enclosed x) := by
  refine .andThen .get fun outer => .andThen .set fun _ => (Returns.outcome hx).bind fun r hr =>
    .andThen (stops_shrink _) fun _ => .andThen .modify fun _ => ?_
  cases r with
  | ok a => exact .pure hr
  | error i => exact .throw hr

theorem stops_truth (v : Value) (p : Position) : Stops P (truth v p : Eval κ Bool) := by
  unfold truth
  split
  · exact .pure trivial
  · exact .fail trivial

/-- A function of a module is called without further ado. -/
theorem returns_callModule (path : List String) (name : String) (args : List Value)
    (start p : Position) (hl : leave ≠ .nothing) :
    Returns leave P (fun _ => True) (callModule env path name args start p) := by
  unfold callModule
  split
  · exact .fail trivial
  dsimp only
  split
  · exact .andThen (.ask hl) fun _ => .ofExcept (plain_check _ _)
  · exact .fail trivial

/-- A call of a function of a module whose arguments are there. They are dropped afterwards. -/
def calling (path : List String) (name : String) (start p : Position) (args : List Value) :
    Eval κ Value := do
  let v ← callModule env path name args start p
  args.forM release
  return v

theorem returns_calling (path : List String) (name : String) (args : List Value)
    (start p : Position) (hl : leave ≠ .nothing) :
    Returns leave P (fun _ => True) (calling env path name start p args) :=
  .andThen (returns_callModule env _ _ _ _ _ hl) fun _ =>
    .andThen (.forM (fun _ => .release) _) fun _ => .pure trivial

theorem stops_take (t : Target) : Stops P (take t : Eval κ Value) := by
  unfold take
  dsimp only
  split
  · exact .andThen .retain fun _ => .pure trivial
  · exact .pure trivial

theorem stops_apply (u : Update) (t : Target) : Stops P (u.apply env t) := by
  refine .check trivial ?_
  split
  · exact .andThen .release fun _ => .pure trivial
  · exact stops_reassign env _ _ _ _

theorem stops_getProperty (v : Value) (name : String) (p : Position) (j : Joint) :
    Stops P (getProperty env v name p j) := by
  refine .afterTick ?_
  dsimp only
  split
  · exact .andThen (.ask nofun) fun _ => .ofExcept (plain_check _ _)
  · exact .andThen (stops_checkReceiver env v p).mono fun _ => .pure trivial
  · exact .mono (.andThen .tick fun _ => .fail trivial)

theorem stops_setProperty (v : Value) (name : String) (p : Position) (j : Joint) (u : Update) :
    Stops P (setProperty env v name p j u) := by
  have hend : ∀ new : Value, Stops P (do
      tick p
      tick j.position
      fail (.readOnlyProperty name v.typeName new.typeName) (some p) : Eval κ Value) := fun new =>
    .andThen .tick fun _ => .andThen .tick fun _ => .fail trivial
  unfold setProperty
  dsimp only
  split
  · exact .andThen (.pure trivial) hend
  · exact .andThen (stops_getProperty env v name p j) fun _ => .andThen (stops_apply env u _) hend

theorem stops_getPart (t : Target) (key : Value) (p : Position) (j : Joint) (u : Option Update) :
    Stops P (getPart t key p j u : Eval κ Target) := by
  refine .andThen .tick fun _ => ?_
  split
  · exact .andThen .release fun _ => .pure trivial
  · exact .andThen .tick fun _ => .fail trivial
  · rename_i h
    exact .fail (Fault.permitted_of_plain (h ▸ plain_index t.value key))

theorem stops_ofCall (name : String) (p : Position) {V : Value → Prop}
    {r : Except Interrupt Value} (hr : EndsWith P.stop V r) :
    Stops P (ofCall name p r : Eval κ Value) := by
  unfold ofCall
  split
  · exact .pure trivial
  · exact .pure trivial
  · split
    · exact .fail hr
    · exact .fail trivial
  · exact .throw hr

theorem permitted_rethrown {f : Fault} {i : Interrupt} (hf : f.Permitted P.stop)
    (hi : i.Permitted P.stop) : (rethrown f i).Permitted P.stop := by
  unfold rethrown
  split
  · exact hf
  · exact hi

/-! The functions that call each other. -/

/-- With `n` levels of fuel, every function of the evaluator keeps to the terms. -/
structure AllStop (P : Terms κ) (n : Nat) : Prop where
  expr : ∀ e, Stops P (expr env n e)
  node : ∀ e, StopsReady P (node env n e)
  operand : ∀ e, Stops P (operand env n e)
  anyIs : ∀ wanted es, Stops P (anyIs env n wanted es)
  firstValue : ∀ es, Stops P (firstValue env n es)
  pieces : ∀ es done, Stops P (pieces env n es done)
  values : ∀ es done,
    Returns .nothing P (fun vs => vs.length = done.length + es.length) (values env n es done)
  arrayItems : ∀ es done size, Stops P (arrayItems env n es done size)
  mapEntries : ∀ es done size, Stops P (mapEntries env n es done size)
  call : ∀ name args p, Stops P (call env n name args p)
  apply : ∀ isMethod t name others p, Stops P (apply env n isMethod t name others p)
  run : ∀ d receiver args p, Stops P (run env n d receiver args p)
  chain : ∀ root links, Stops P (chain env n root links)
  steps : ∀ links, Stops P (steps env n links)
  prepare : ∀ links done, Stops P (prepare env n links done)
  follow : ∀ t steps u, Stops P (follow env n t steps u)
  followOwn : ∀ v steps u, Stops P (followOwn env n v steps u)
  followPart : ∀ t key p j r u, Stops P (followPart env n t key p j r u)
  statements : ∀ body v, Stops P (statements env n body v)
  statement : ∀ s, Stops P (statement env n s)
  round : ∀ body, Stops P (round env n body)
  repeatLoop : ∀ c body q, Stops P (repeatLoop env n c body q)
  roundFor : ∀ name counter body v k, Stops P (roundFor env n name counter body v k)
  eachInt : ∀ name counter body i last k, Stops P (eachInt env n name counter body i last k)
  eachItem : ∀ name counter body vs k, Stops P (eachItem env n name counter body vs k)
  assignment : ∀ target op e p, Stops P (assignment env n target op e p)

theorem allStop_zero : AllStop env P 0 := by
  constructor <;> intros <;> exact .fail trivial

/-- The calls of functions of the module that evaluate arguments just before. A first argument that
is a variable comes last, as an operation of its own. -/
inductive ModuleCall : {α β : Type} → Program κ α → (α → Program κ β) → Prop
  | intro {n : Nat} {path : List String} {name : String} {args : List Expr} {start p : Position}
      {frame : Frame} (some_args : args ≠ []) (no_variable : ∀ x q rest, args ≠ .ref x q :: rest) :
      ModuleCall (values env n args [] frame) (followedBy (calling env path name start p))

theorem node_moduleCall (n : Nat) (path : List String) (name : String) {args : List Expr}
    (start p : Position) (ha : ∀ x q rest, args ≠ .ref x q :: rest) :
    node env (n + 1) (.moduleCall path name args start p) =
      values env n args [] >>= calling env path name start p := by
  unfold node
  dsimp only
  split
  · exact absurd rfl (ha _ _ _)
  · rfl

/-- The terms count these calls as calls. -/
def Excuses (P : Terms κ) : Prop :=
  ∀ {α β : Type} {x : Program κ α} {f : α → Program κ β}, ModuleCall env x f → P.call x f

/-- No time passes while no arguments are evaluated. -/
theorem returns_noValues {n : Nat} {f : List Value → Eval κ α} (hf : Returns leave P V (f [])) :
    Returns leave P V (Eval.values env n [] [] >>= f) := by
  cases n with
  | zero =>
    rw [Eval.values]
    exact .bind (.fail (V := fun _ => False) trivial) fun _ hv => hv.elim
  | succ n =>
    rw [Eval.values]
    exact hf

namespace AllStop

variable {env} {n : Nat} (h : AllStop env P n)
include h

theorem expr_succ (e : Expr) : Stops P (Eval.expr env (n + 1) e) := by
  rw [Eval.expr]
  exact .afterTick (h.node e)

theorem enclosed_statements (body : List Stmt) :
    Stops P (enclosed (Eval.statements env n body .unit)) := .enclosed (h.statements body .unit)

/-- A call whose first argument is a variable asks for permission of its own. -/
theorem variableCall_succ (path : List String) (name x : String) (q : Position) (rest : List Expr)
    (start p : Position) :
    Stops P (Eval.node env (n + 1) (.moduleCall path name (.ref x q :: rest) start p)) := by
  unfold Eval.node
  exact .andThen (h.values _ _).any fun _ => .andThen (stops_look env _) fun _ =>
    .afterTick (returns_callModule env _ _ _ _ _ nofun)

theorem moduleCall_succ (hP : Excuses env P) (path : List String) (name : String)
    (args : List Expr) (start p : Position) :
    StopsReady P (Eval.node env (n + 1) (.moduleCall path name args start p)) := by
  by_cases hvariable : ∃ x q rest, args = .ref x q :: rest
  · obtain ⟨x, q, rest, rfl⟩ := hvariable
    exact (h.variableCall_succ _ _ _ _ _ _ _).mono
  have hfirst : ∀ x q rest, args ≠ .ref x q :: rest := fun x q rest he =>
    hvariable ⟨x, q, rest, he⟩
  rw [node_moduleCall env n path name start p hfirst]
  by_cases hnone : args = []
  · subst hnone
    exact returns_noValues env (returns_calling env _ _ _ _ _ nofun)
  · -- Evaluating the arguments uses up the permission, so this has to count as a call.
    exact .call (fun frame => hP (.intro hnone hfirst)) (h.values _ _).any fun vs _ =>
      returns_calling env _ _ _ _ _ nofun

/-- No other expression relies on the permission of its own operation. -/
theorem otherNode_succ (e : Expr)
    (he : ∀ path name args start p, e ≠ .moduleCall path name args start p) :
    Stops P (Eval.node env (n + 1) e) := by
  unfold Eval.node
  cases e with
  | const v p => exact .pure trivial
  | template parts p => exact .andThen (h.pieces _ _) fun _ => .ofExcept (plain_check _ _)
  | array items p => exact .andThen (h.arrayItems _ _ _) fun _ => .pure trivial
  | map entries p => exact .andThen (h.mapEntries _ _ _) fun _ => .pure trivial
  | ref name p => exact .andThen (stops_look env _) fun _ => stops_take _
  | moduleRef path name p q => exact .andThen (stops_look env _) fun _ => stops_take _
  | call name args p => exact h.call name args p
  | moduleCall path name args start p => exact absurd rfl (he path name args start p)
  | negate e p =>
    refine .andThen (h.expr e) fun v => ?_
    split
    · exact .andThen (.ofExcept (plain_neg _)) fun _ => .pure trivial
    · exact .pure trivial
    · exact .andThen .tick fun _ => .fail trivial
  | affirm e p =>
    refine .andThen (h.operand e) fun v => .andThen .tick fun _ => ?_
    split
    · exact .pure trivial
    · exact .pure trivial
    · exact .fail trivial
  | invert e p =>
    refine .andThen (h.expr e) fun v => ?_
    split
    · exact .pure trivial
    · exact .andThen .tick fun _ => .fail trivial
  | binary op l r p =>
    exact .andThen (h.expr l) fun a => .andThen (h.expr r) fun b => stops_binary env op a b p
  | allOf es p => exact .andThen (h.anyIs _ _) fun _ => .pure trivial
  | anyOf es p => exact .andThen (h.anyIs _ _) fun _ => .pure trivial
  | firstOf es p => exact h.firstValue es
  | member container item p => exact h.call _ _ p
  | chain root links => exact h.chain root links
  | block body p => exact h.enclosed_statements body

theorem node_succ (hP : Excuses env P) (e : Expr) : StopsReady P (Eval.node env (n + 1) e) := by
  by_cases hcall : ∃ path name args start p, e = .moduleCall path name args start p
  · obtain ⟨path, name, args, start, p, rfl⟩ := hcall
    exact h.moduleCall_succ hP path name args start p
  · exact (h.otherNode_succ e fun path name args start p he =>
      hcall ⟨path, name, args, start, p, he⟩).mono

theorem operand_succ (e : Expr) : Stops P (Eval.operand env (n + 1) e) := by
  rw [Eval.operand]
  split
  · exact .andThen .tick fun _ => .andThen (stops_look env e) fun _ => .pure trivial
  · exact h.expr e

theorem anyIs_succ (wanted : Bool) (es : List Expr) :
    Stops P (Eval.anyIs env (n + 1) wanted es) := by
  cases es with
  | nil =>
    rw [Eval.anyIs]
    exact .pure trivial
  | cons e r =>
    rw [Eval.anyIs]
    refine .andThen (h.expr e) fun v => .andThen (stops_truth v e.position) fun b => ?_
    split
    · exact .pure trivial
    · exact h.anyIs wanted r

theorem firstValue_succ (es : List Expr) : Stops P (Eval.firstValue env (n + 1) es) := by
  cases es with
  | nil =>
    rw [Eval.firstValue]
    exact .pure trivial
  | cons e r =>
    rw [Eval.firstValue]
    refine .andThen (h.expr e) fun v => ?_
    split
    · exact h.firstValue r
    · exact .pure trivial

theorem pieces_succ (es : List Expr) (done : String) :
    Stops P (Eval.pieces env (n + 1) es done) := by
  cases es with
  | nil =>
    rw [Eval.pieces]
    exact .pure trivial
  | cons e r =>
    rw [Eval.pieces]
    exact .andThen (h.expr e) fun v => .andThen (stops_pieceText env v) fun _ =>
      .andThen .release fun _ => h.pieces r _

/-- There are as many values as expressions. -/
theorem values_succ (es : List Expr) (done : List Value) :
    Returns .nothing P (fun vs => vs.length = done.length + es.length)
      (Eval.values env (n + 1) es done) := by
  cases es with
  | nil =>
    rw [Eval.values]
    exact .pure (by simp)
  | cons e r =>
    rw [Eval.values]
    exact .andThen (h.expr e) fun v => (h.values r _).imp fun vs hvs => by
      rw [hvs, List.length_cons, List.length_cons]
      omega

theorem arrayItems_succ (es : List Expr) (done : List Value) (size : DataSize) :
    Stops P (Eval.arrayItems env (n + 1) es done size) := by
  cases es with
  | nil =>
    rw [Eval.arrayItems]
    exact .pure trivial
  | cons e r =>
    rw [Eval.arrayItems]
    refine .andThen (h.expr e) fun v => ?_
    dsimp only
    split
    · exact .fail (Fault.permitted_of_plain (plain_violation? (α := Value) ‹_›))
    · exact h.arrayItems r _ _

theorem mapEntries_succ (es : List (String × Expr)) (done : List (String × Value))
    (size : DataSize) : Stops P (Eval.mapEntries env (n + 1) es done size) := by
  cases es with
  | nil =>
    rw [Eval.mapEntries]
    exact .pure trivial
  | cons entry r =>
    obtain ⟨k, e⟩ := entry
    rw [Eval.mapEntries]
    refine .andThen (h.expr e) fun v => ?_
    dsimp only
    split
    · exact .fail (Fault.permitted_of_plain (plain_violation? (α := Value) ‹_›))
    · exact h.mapEntries r _ _

theorem call_succ (name : String) (args : List Expr) (p : Position) :
    Stops P (Eval.call env (n + 1) name args p) := by
  unfold Eval.call
  cases args with
  | nil =>
    dsimp only
    split
    · exact .andThen (h.run _ _ _ _) fun _ => .pure trivial
    · exact stops_callNative env _ _ _
  | cons e rest =>
    dsimp only
    split
    · refine .andThen .tick fun _ => .andThen (h.values _ _).any fun others =>
        .andThen (stops_look env e) fun b => .andThen (h.apply _ _ _ _ _) fun r => ?_
      split
      · exact .pure trivial
      · refine .andThen ?_ fun _ => .pure trivial
        cases r.2 with
        | none => exact .pure trivial
        | some v => exact stops_assign v e
    · exact .andThen (h.expr e) fun first => .andThen (h.values _ _).any fun others =>
        .andThen (h.apply _ _ _ _ _) fun _ => .andThen .release fun _ => .pure trivial

theorem apply_succ (isMethod : Bool) (t : Target) (name : String) (others : List Value)
    (p : Position) : Stops P (Eval.apply env (n + 1) isMethod t name others p) := by
  unfold Eval.apply
  dsimp only
  split
  · split
    · exact h.run _ _ _ _
    · exact h.run _ _ _ _
  · rename_i hr
    exact .andThen .tick fun _ => .check trivial (.andThen (.ofExcept (plain_change? hr)) fun _ =>
      .pure trivial)
  · exact .andThen (stops_callNative env _ _ _) fun _ => .andThen (.forM (fun _ => .release) _)
      fun _ => .pure trivial

theorem run_succ (d : Definition) (receiver : Option Value) (args : List Value) (p : Position) :
    Stops P (Eval.run env (n + 1) d receiver args p) := by
  unfold Eval.run
  refine .andThen .tick fun _ => .andThen .get fun frame => .check trivial ?_
  dsimp only
  exact .andThen .set fun _ => (Returns.outcome (h.statements _ _)).bind fun r hr =>
    .andThen .get fun _ => .andThen .set fun _ => .andThen (stops_ofCall _ _ hr) fun _ =>
      .pure trivial

theorem chain_succ (root : Expr) (links : List Link) :
    Stops P (Eval.chain env (n + 1) root links) := by
  unfold Eval.chain
  refine .andThen (h.steps links) fun steps => ?_
  split
  · refine .andThen .tick fun _ => .andThen (stops_look env root) fun b =>
      .andThen (h.follow _ _ _) fun r => .andThen ?_ fun _ => .pure trivial
    cases r.2 with
    | none => exact .pure trivial
    | some v => exact stops_assign v root
  · exact .andThen (h.expr root) fun v => .andThen (h.followOwn v steps none) fun _ =>
      .pure trivial

theorem steps_succ (links : List Link) : Stops P (Eval.steps env (n + 1) links) := by
  unfold Eval.steps
  split
  · exact .pure trivial
  · exact .pure trivial
  · exact .pure trivial
  · exact h.prepare _ _

theorem prepare_succ (links : List Link) (done : List Step) :
    Stops P (Eval.prepare env (n + 1) links done) := by
  cases links with
  | nil =>
    rw [Eval.prepare]
    exact .pure trivial
  | cons l r =>
    rw [Eval.prepare]
    refine .andThen .tick fun _ => ?_
    have hend : ∀ s : Step, Stops P (Eval.prepare env n r (s :: done)) := fun s => h.prepare r _
    dsimp only
    split
    · exact .andThen (.pure trivial) hend
    · exact .andThen (h.values _ _).any fun _ => .andThen (.pure trivial) hend
    · exact .andThen (h.expr _) fun _ => .andThen (.pure trivial) hend

theorem follow_succ (t : Target) (steps : List Step) (u : Option Update) :
    Stops P (Eval.follow env (n + 1) t steps u) := by
  cases steps with
  | nil =>
    rw [Eval.follow]
    exact .andThen (stops_take t) fun _ => .pure trivial
  | cons s r =>
    unfold Eval.follow
    dsimp only
    split
    · exact .pure trivial
    split
    · exact .andThen (h.apply _ _ _ _ _) fun _ => .andThen (h.followOwn _ _ _) fun _ =>
        .pure trivial
    · exact h.followPart _ _ _ _ _ _
    · exact h.followPart _ _ _ _ _ _
    split
    · exact .andThen (stops_setProperty env _ _ _ _ _) fun _ => .pure trivial
    refine .andThen (stops_getProperty env _ _ _ _) fun _ =>
      .andThen (h.followOwn _ _ _) fun w => ?_
    split
    · exact .andThen .tick fun _ => .andThen .tick fun _ => .pure trivial
    · exact .pure trivial

theorem followOwn_succ (v : Value) (steps : List Step) (u : Option Update) :
    Stops P (Eval.followOwn env (n + 1) v steps u) := by
  unfold Eval.followOwn
  refine .andThen (h.follow _ _ _) fun r => ?_
  dsimp only
  split
  · exact .pure trivial
  · exact .andThen .release fun _ => .pure trivial

theorem followPart_succ (t : Target) (key : Value) (p : Position) (j : Joint) (r : List Step)
    (u : Option Update) : Stops P (Eval.followPart env (n + 1) t key p j r u) := by
  unfold Eval.followPart
  dsimp only
  split
  · exact .andThen (stops_getPart _ _ _ _ _) fun _ => .andThen (stops_apply env _ _) fun new =>
      .andThen (.ofExcept (plain_update t.value key new)) fun _ => .pure trivial
  · exact .andThen (stops_getPart _ _ _ _ _) fun _ => .andThen (h.follow _ _ _) fun _ =>
      .pure trivial

theorem statements_succ (body : List Stmt) (v : Value) :
    Stops P (Eval.statements env (n + 1) body v) := by
  cases body with
  | nil =>
    rw [Eval.statements]
    exact .pure trivial
  | cons s r =>
    rw [Eval.statements]
    exact .andThen .release fun _ => .andThen (h.statement s) fun _ => h.statements r _

theorem round_succ (body : List Stmt) : Stops P (Eval.round env (n + 1) body) := by
  unfold Eval.round
  refine (Returns.outcome (h.enclosed_statements body)).bind fun r hr => ?_
  split
  · exact .andThen .release fun _ => .pure trivial
  · exact .pure trivial
  · exact .pure trivial
  · exact .throw hr

/-- The rest of a loop, once it is known whether there is another round. -/
theorem repeatLoop_rest (c : Option Expr) (body : List Stmt) (q : Position) (goesOn : Bool) :
    Stops P (do
      if goesOn then
        match ← Eval.round env n body with
        | some v => pure v
        | none => Eval.repeatLoop env n c body q
      else pure .unit) := by
  split
  · refine .andThen (h.round body) fun r => ?_
    split
    · exact .pure trivial
    · exact h.repeatLoop c body q
  · exact .pure trivial

theorem repeatLoop_succ (c : Option Expr) (body : List Stmt) (q : Position) :
    Stops P (Eval.repeatLoop env (n + 1) c body q) := by
  unfold Eval.repeatLoop
  dsimp only
  split
  · exact .andThen (h.expr _) fun v => .andThen (stops_truth v _) (h.repeatLoop_rest _ body q)
  · split
    · exact .andThen .tick fun _ => .andThen (.pure trivial) (h.repeatLoop_rest _ body q)
    · exact .andThen (.pure trivial) (h.repeatLoop_rest _ body q)

theorem roundFor_succ (name : String) (counter : Option String) (body : List Stmt) (v : Value)
    (k : Nat) : Stops P (Eval.roundFor env (n + 1) name counter body v k) := by
  have hend : Stops P (do
      define env name v false
      Eval.round env n body) := .andThen (stops_define env name v false) fun _ => h.round body
  unfold Eval.roundFor
  refine .enclosed ?_
  dsimp only
  split
  · exact .andThen (stops_define env _ _ _) fun _ => hend
  · exact hend

theorem eachInt_succ (name : String) (counter : Option String) (body : List Stmt)
    (i last : Int) (k : Nat) : Stops P (Eval.eachInt env (n + 1) name counter body i last k) := by
  unfold Eval.eachInt
  split
  · refine .andThen (h.roundFor _ _ _ _ _) fun r => ?_
    split
    · exact .pure trivial
    · exact h.eachInt _ _ _ _ _ _
  · exact .pure trivial

theorem eachItem_succ (name : String) (counter : Option String) (body : List Stmt)
    (vs : List Value) (k : Nat) : Stops P (Eval.eachItem env (n + 1) name counter body vs k) := by
  cases vs with
  | nil =>
    rw [Eval.eachItem]
    exact .pure trivial
  | cons v r =>
    rw [Eval.eachItem]
    refine .andThen (h.roundFor _ _ _ _ _) fun r => ?_
    split
    · exact .pure trivial
    · exact h.eachItem _ _ _ _ _

theorem assignment_succ (target : Expr) (op : Option Operator) (e : Expr) (p : Position) :
    Stops P (Eval.assignment env (n + 1) target op e p) := by
  unfold Eval.assignment
  refine .andThen (h.expr e) fun v => ?_
  dsimp only
  split
  · refine .andThen (h.steps _) fun _ => .andThen .tick fun _ =>
      .andThen (stops_look env _) fun b => .andThen (h.follow _ _ _) fun r => ?_
    cases r.2 with
    | none => exact .pure trivial
    | some v => exact stops_assign v _
  · exact .andThen .tick fun _ => .andThen (stops_look env _) fun b =>
      .andThen (stops_apply env _ _) fun v => stops_assign v _

/-- The handler of a caught fault. -/
theorem statement_handler (handler : List Stmt) {f : Fault} (hf : f.Permitted P.stop) :
    Stops P (do
      match ← outcome (enclosed (Eval.statements env n handler .unit)) with
      | .ok _ => pure Value.unit
      | .error i => throw (rethrown f i)) := by
  refine (Returns.outcome (h.enclosed_statements handler)).bind fun r hr => ?_
  cases r with
  | ok v => exact .pure trivial
  | error i => exact .throw (permitted_rethrown hf hr)

theorem statement_succ (s : Stmt) : Stops P (Eval.statement env (n + 1) s) := by
  unfold Eval.statement
  refine .afterTick ?_
  cases s with
  | expr e =>
    dsimp only
    split
    · exact h.node e
    · exact (h.expr e).mono
  | define name e constant p =>
    exact .mono (.andThen (h.expr e) fun v => .andThen (stops_define env name v constant) fun _ =>
      .pure trivial)
  | assign target op e p =>
    exact .mono (.andThen (h.assignment target op e p) fun _ => .pure trivial)
  | branch c yes no p =>
    refine .mono (.andThen (h.expr c) fun v => .andThen (stops_truth v _) fun b => ?_)
    split
    · exact h.enclosed_statements yes
    · exact h.enclosed_statements no
  | loop c body p q => exact (h.repeatLoop c body q).mono
  | each name counter source body p =>
    refine .mono (.andThen (h.expr source) fun v => ?_)
    split
    · exact .enclosed (h.eachInt _ _ _ _ _ _)
    · exact .enclosed (h.eachItem _ _ _ _ _)
    · exact .enclosed (h.eachItem _ _ _ _ _)
    · exact .enclosed (h.eachItem _ _ _ _ _)
    · exact .fail trivial
  | leave e p =>
    cases e with
    | none => exact .throw trivial
    | some e => exact .mono (.andThen (h.expr e) fun _ => .throw trivial)
  | skip p => exact .throw trivial
  | give e p =>
    cases e with
    | none => exact .throw trivial
    | some e => exact .mono (.andThen (h.expr e) fun _ => .throw trivial)
  | throw e p =>
    cases e with
    | none => exact .fail trivial
    | some e => exact .mono (.andThen (h.expr e) fun _ => .fail trivial)
  | attempt body name handler p =>
    refine .mono ((Returns.outcome (h.enclosed_statements body)).bind fun r hr => ?_)
    dsimp only
    split
    · exact .pure trivial
    · split
      · exact .throw hr
      · refine .enclosed ?_
        split
        · exact .andThen .retain fun _ => .andThen (stops_define env _ _ _) fun _ =>
            h.statement_handler handler hr
        · exact h.statement_handler handler hr
    · exact .throw hr
  | block body p => exact (h.enclosed_statements body).mono

theorem succ (hP : Excuses env P) : AllStop env P (n + 1) where
  expr := h.expr_succ
  node := h.node_succ hP
  operand := h.operand_succ
  anyIs := h.anyIs_succ
  firstValue := h.firstValue_succ
  pieces := h.pieces_succ
  values := h.values_succ
  arrayItems := h.arrayItems_succ
  mapEntries := h.mapEntries_succ
  call := h.call_succ
  apply := h.apply_succ
  run := h.run_succ
  chain := h.chain_succ
  steps := h.steps_succ
  prepare := h.prepare_succ
  follow := h.follow_succ
  followOwn := h.followOwn_succ
  followPart := h.followPart_succ
  statements := h.statements_succ
  statement := h.statement_succ
  round := h.round_succ
  repeatLoop := h.repeatLoop_succ
  roundFor := h.roundFor_succ
  eachInt := h.eachInt_succ
  eachItem := h.eachItem_succ
  assignment := h.assignment_succ

end AllStop

theorem allStop (hP : Excuses env P) (n : Nat) : AllStop env P n := by
  induction n with
  | zero => exact allStop_zero env
  | succ n ih => exact ih.succ hP

end Eval

/-- A script keeps to the terms: one that fails because it is stopped is stopped for a permitted
reason. -/
theorem answers_runStatements {κ : Type} {P : Terms κ} {env : Environment κ}
    (hP : Eval.Excuses env P) (scope : List Binding) (body : List Stmt) :
    (runStatements env scope body).Answers P
      (fun
        | .ok _ => True
        | .error f => f.fault.Permitted P.stop) .nothing := by
  refine ((Eval.allStop env hP Eval.fuel).statements body .unit (.initial scope)).bind
    fun r hr => ?_
  split
  · exact .done trivial
  · exact .done trivial
  · exact .done trivial
  · exact .done hr
  · exact .done trivial

end EditorScripting.Script
