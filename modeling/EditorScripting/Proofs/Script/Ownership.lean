import EditorScripting.Proofs.Script.Bare
import EditorScripting.Proofs.Script.Chains

/-!
What the evaluator owns. In every run of code whose literals hold no wrappers, the wrappers in its
values, in its bindings and in what waits to be done are wrappers that it was given or has copied
and has not dropped since.
-/
namespace EditorScripting.Script

open Host

attribute [local grind =] Multiset.le_iff_count Multiset.count_add

variable {κ : Type} {uses : κ → List Handle}

namespace Eval

open Value (wrappersOf wrappersOfEntries)

theorem spends_truth (v : Value) (p : Position) :
    Spends uses 0 (truth v p : Eval κ Bool) (fun _ => 0) := by
  unfold truth
  split
  · exact .pure le_rfl
  · exact .fail rfl

/-- A variable is copied where it is read. -/
theorem spends_variable (env : Environment κ) (e : Expr) :
    Spends uses 0 (do take (.ofBinding (← look env e)) : Eval κ Value) Value.wrappers :=
  .look fun _ _ b _ => .mono (.ends (trades_take (.ofBinding b)) fun v => by
    simp [Target.ofBinding, add_comm]) (add_zero _).ge

/-- The wrappers of the value that ends a loop, if there is one. -/
def resultWrappers (r : Option Value) : Multiset Handle := (r.map Value.wrappers).getD 0

/-- A handler passes on the wrappers of the caught fault or of its own end. -/
theorem wrappers_rethrown_le (f : Fault) (i : Interrupt) :
    (rethrown f i).wrappers ≤ f.wrappers + i.wrappers := by
  unfold rethrown
  split
  · exact Multiset.le_add_right _ _
  · exact Multiset.le_add_left _ _

/-- With `n` levels of fuel, every function of the evaluator works with wrappers that it owns. -/
structure AllSpend (uses : κ → List Handle) (env : Environment κ) (n : Nat) : Prop where
  expr : ∀ {e}, e.Bare → Spends uses 0 (expr env n e) Value.wrappers
  node : ∀ {e}, e.Bare → Spends uses 0 (node env n e) Value.wrappers
  operand : ∀ {e}, e.Bare → Spends uses 0 (operand env n e) (fun _ => 0)
  anyIs : ∀ wanted {es}, Expr.AllBare es → Spends uses 0 (anyIs env n wanted es) (fun _ => 0)
  firstValue : ∀ {es}, Expr.AllBare es → Spends uses 0 (firstValue env n es) Value.wrappers
  pieces : ∀ {es} done, Expr.AllBare es → Spends uses 0 (pieces env n es done) (fun _ => 0)
  values : ∀ {es} done, Expr.AllBare es →
    Spends uses (wrappersOf done) (values env n es done) wrappersOf
  arrayItems : ∀ {es} done size, Expr.AllBare es →
    Spends uses (wrappersOf done) (arrayItems env n es done size) wrappersOf
  mapEntries : ∀ {es} done size, Expr.EntriesBare es →
    Spends uses (wrappersOfEntries done) (mapEntries env n es done size) wrappersOfEntries
  call : ∀ name {args} p, Expr.AllBare args → Spends uses 0 (call env n name args p) Value.wrappers
  chain : ∀ {root links}, root.Bare → Link.AllBare links →
    Spends uses 0 (chain env n root links) Value.wrappers
  steps : ∀ {links}, Link.AllBare links → Spends uses 0 (steps env n links) stepsWrappers
  prepare : ∀ {links} done, Link.AllBare links →
    Spends uses (stepsWrappers done) (prepare env n links done) stepsWrappers
  statements : ∀ {body} v, Stmt.AllBare body →
    Spends uses v.wrappers (statements env n body v) Value.wrappers
  statement : ∀ {s}, s.Bare → Spends uses 0 (statement env n s) Value.wrappers
  round : ∀ {body}, Stmt.AllBare body → Spends uses 0 (round env n body) resultWrappers
  repeatLoop : ∀ {c body} q, (∀ e, c = some e → e.Bare) → Stmt.AllBare body →
    Spends uses 0 (repeatLoop env n c body q) Value.wrappers
  roundFor : ∀ name counter {body} v k, Stmt.AllBare body →
    Spends uses v.wrappers (roundFor env n name counter body v k) resultWrappers
  eachInt : ∀ name counter {body} i last k, Stmt.AllBare body →
    Spends uses 0 (eachInt env n name counter body i last k) Value.wrappers
  eachItem : ∀ name counter {body} vs k, Stmt.AllBare body →
    Spends uses (wrappersOf vs) (eachItem env n name counter body vs k) Value.wrappers
  assignment : ∀ {target} op {e} p, target.Bare → e.Bare →
    Spends uses 0 (assignment env n target op e p) (fun _ => 0)

theorem allSpend_zero (env : Environment κ) : AllSpend uses env 0 := by
  constructor <;> intros <;> exact .fail rfl

namespace AllSpend

variable {env : Environment κ} (hl : env.Lends uses) {n : Nat} (h : AllSpend uses env n)
include h

theorem expr_succ {e : Expr} (he : e.Bare) :
    Spends uses 0 (Eval.expr env (n + 1) e) Value.wrappers := by
  rw [Eval.expr]
  exact .before .tick fun _ => h.node he

theorem enclosed_statements {body : List Stmt} (hb : Stmt.AllBare body) :
    Spends uses 0 (enclosed (Eval.statements env n body .unit)) Value.wrappers :=
  .enclosed (h.statements .unit hb)

theorem operand_succ {e : Expr} (he : e.Bare) :
    Spends uses 0 (Eval.operand env (n + 1) e) (fun _ => 0) := by
  rw [Eval.operand]
  split
  · exact .before .tick fun _ => .look fun _ _ b _ => .close (.pure (Multiset.zero_le _))
  · exact (h.expr he).mono le_rfl fun _ => Multiset.zero_le _

theorem anyIs_succ (wanted : Bool) {es : List Expr} (he : Expr.AllBare es) :
    Spends uses 0 (Eval.anyIs env (n + 1) wanted es) (fun _ => 0) := by
  cases es with
  | nil =>
    rw [Eval.anyIs]
    exact .pure le_rfl
  | cons e r =>
    rw [Eval.anyIs]
    refine (h.expr he.1).forgetting fun v => (spends_truth v e.position).bind fun b => ?_
    split
    · exact .pure le_rfl
    · exact h.anyIs wanted he.2

theorem firstValue_succ {es : List Expr} (he : Expr.AllBare es) :
    Spends uses 0 (Eval.firstValue env (n + 1) es) Value.wrappers := by
  cases es with
  | nil =>
    rw [Eval.firstValue]
    exact .pure le_rfl
  | cons e r =>
    rw [Eval.firstValue]
    refine (h.expr he.1).bind fun v => ?_
    split
    · exact h.firstValue he.2
    · exact .pure le_rfl

theorem values_succ {es : List Expr} (done : List Value) (he : Expr.AllBare es) :
    Spends uses (wrappersOf done) (Eval.values env (n + 1) es done) wrappersOf := by
  cases es with
  | nil =>
    rw [Eval.values]
    exact .pure (Value.wrappersOf_reverse done).le
  | cons e r =>
    rw [Eval.values]
    exact (h.expr he.1).first fun v => h.values (v :: done) he.2

theorem arrayItems_succ {es : List Expr} (done : List Value) (size : DataSize)
    (he : Expr.AllBare es) :
    Spends uses (wrappersOf done) (Eval.arrayItems env (n + 1) es done size) wrappersOf := by
  cases es with
  | nil =>
    rw [Eval.arrayItems]
    exact .pure (Value.wrappersOf_reverse done).le
  | cons e r =>
    rw [Eval.arrayItems]
    refine (h.expr he.1).first fun v => ?_
    dsimp only
    split
    · exact .fail (plain_error.mp (plain_violation? (α := Value) ‹_›))
    · exact h.arrayItems (v :: done) _ he.2

theorem mapEntries_succ {es : List (String × Expr)} (done : List (String × Value))
    (size : DataSize) (he : Expr.EntriesBare es) :
    Spends uses (wrappersOfEntries done) (Eval.mapEntries env (n + 1) es done size)
      wrappersOfEntries := by
  cases es with
  | nil =>
    rw [Eval.mapEntries]
    exact .pure le_rfl
  | cons entry r =>
    obtain ⟨k, e⟩ := entry
    rw [Eval.mapEntries]
    refine (h.expr he.1).first fun v => ?_
    dsimp only
    split
    · exact .fail (plain_error.mp (plain_violation? (α := Value) ‹_›))
    · exact (h.mapEntries (Value.insertEntry k v done) _ he.2).mono
        (Value.wrappersOfEntries_insertEntry_le k v done) fun _ => le_rfl

theorem prepare_succ {links : List Link} (done : List Step) (hk : Link.AllBare links) :
    Spends uses (stepsWrappers done) (Eval.prepare env (n + 1) links done) stepsWrappers := by
  cases links with
  | nil =>
    rw [Eval.prepare]
    exact .pure (stepsWrappers_reverse done).le
  | cons l r =>
    rw [Eval.prepare]
    refine .before .tick fun _ => ?_
    have hend : ∀ s : Step, Spends uses (s.wrappers + stepsWrappers done)
        (Eval.prepare env n r (s :: done)) stepsWrappers := fun s => h.prepare (s :: done) hk.2
    dsimp only
    split
    · exact .bind (.pure (zero_add _).le) hend
    · exact (h.values [] hk.1).first fun vs => .bind (.pure le_rfl) hend
    · exact (h.expr hk.1).first fun key => .bind (.pure le_rfl) hend

theorem steps_succ {links : List Link} (hk : Link.AllBare links) :
    Spends uses 0 (Eval.steps env (n + 1) links) stepsWrappers := by
  unfold Eval.steps
  split
  · exact .pure le_rfl
  · exact .pure le_rfl
  · rename_i key p j
    have hkey : key.wrappers = 0 := hk.1
    exact .pure (by simp [hkey])
  · exact h.prepare [] hk

include hl

theorem pieces_succ {es : List Expr} (done : String) (he : Expr.AllBare es) :
    Spends uses 0 (Eval.pieces env (n + 1) es done) (fun _ => 0) := by
  cases es with
  | nil =>
    rw [Eval.pieces]
    exact .pure le_rfl
  | cons e r =>
    rw [Eval.pieces]
    exact (h.expr he.1).bind fun v => (Spends.ofTrades (borrows_pieceText hl v)).bind fun _ =>
      Spends.release.bind fun _ => h.pieces _ he.2

theorem moduleCall_succ (path : List String) (name : String) {args : List Expr}
    (start p : Position) (ha : Expr.AllBare args) :
    Spends uses 0 (Eval.node env (n + 1) (.moduleCall path name args start p)) Value.wrappers := by
  unfold Eval.node
  dsimp only
  split
  · rename_i x q rest
    refine (h.values [] ha.2).bind fun others => .look fun name' p' b _ => ?_
    refine .trade (.mono (.within .tick (Multiset.zero_le _)) le_rfl (fun _ => le_rfl)
      (Multiset.le_add_right _ _)) fun _ => ?_
    have hcall := trades_callModule hl path name (b.value :: others) start p
    simp only [Value.wrappersOf_cons] at hcall
    exact .ends (.mono hcall le_rfl (fun _ => le_rfl) (Multiset.le_add_right _ _)) fun v => by grind
  · refine (h.values [] ha).bind fun vs => ?_
    refine (Spends.ofTrades (trades_callModule hl path name vs start p)).bind fun v => ?_
    exact (Spends.releases vs).andThen v.wrappers (add_comm _ _).le fun _ => .pure (zero_add _).ge

theorem call_succ (name : String) {args : List Expr} (p : Position) (ha : Expr.AllBare args) :
    Spends uses 0 (Eval.call env (n + 1) name args p) Value.wrappers := by
  unfold Eval.call
  cases args with
  | nil =>
    dsimp only
    split
    · rename_i d hd
      rw [Environment.definition?_eq_none hl.definitions] at hd
      cases hd
    · exact (Spends.ofTrades (trades_callNative hl name [] p)).mono le_rfl fun _ =>
        Multiset.le_add_right _ _
  | cons e rest =>
    dsimp only
    split
    · refine .before .tick fun _ => (h.values [] ha.2).bind fun others => .look fun x q b he => ?_
      have happly := (allTrade hl n).apply false ⟨b.value, true, false⟩ name others p
      refine .trade happly fun r => ?_
      split
      · exact .mono (.close (.pure le_rfl)) (by grind)
      · rw [he]
        cases r.2 with
        | none => exact .mono (.close (.bind (.pure le_rfl) fun _ => .pure le_rfl)) (by grind)
        | some c => exact .mono (.assign (p := q) fun _ => .pure le_rfl) (by grind)
    · refine (h.expr ha.1).bind fun first => (h.values [] ha.2).first fun others => ?_
      have happly := (allTrade hl n).apply false (.ofValue first) name others p
      refine (Spends.ofTrades happly).mono (add_comm _ _).le (fun _ => le_rfl) |>.bind fun r => ?_
      refine Spends.release.andThen r.1.wrappers ?_ fun _ => .pure (zero_add _).ge
      rw [Target.value_ofValue]
      grind

theorem chain_succ {root : Expr} {links : List Link} (hr : root.Bare) (hk : Link.AllBare links) :
    Spends uses 0 (Eval.chain env (n + 1) root links) Value.wrappers := by
  unfold Eval.chain
  refine (h.steps hk).bind fun steps => ?_
  split
  · refine .before .tick fun _ => .look fun x q b he => ?_
    have hfollow := (allTrade hl n).follow (.ofBinding b) steps none nofun
    refine .trade (.mono hfollow (by simp) (fun _ => le_rfl) le_rfl) fun r => ?_
    obtain ⟨w, changed⟩ := r
    rw [he]
    cases changed with
    | none => exact .mono (.close (.bind (.pure le_rfl) fun _ => .pure le_rfl)) (add_comm _ _).le
    | some c => exact .mono (.assign (p := q) fun _ => .pure le_rfl) (add_comm _ _).le
  · refine (h.expr hr).first fun v => ?_
    have hfollow := (allTrade hl n).followOwn v steps none
    exact (Spends.ofTrades hfollow).mono (by simp) (fun _ => le_rfl) |>.bind fun r => .pure le_rfl

theorem node_succ {e : Expr} (he : e.Bare) :
    Spends uses 0 (Eval.node env (n + 1) e) Value.wrappers := by
  cases e with
  | moduleCall path name args start p => exact h.moduleCall_succ hl path name start p he
  | const v p =>
    have hv : v.wrappers = 0 := he
    exact .pure hv.le
  | template parts p =>
    exact (h.pieces "" he).bind fun s => .ofTrades (.ofExcept (plain_check _ _)
      (fun v hv => by rw [Limits.eq_of_check hv]; exact le_rfl) (Multiset.zero_le _))
  | array items p => exact (h.arrayItems [] .zero he).bind fun vs => .pure le_rfl
  | map entries p => exact (h.mapEntries [] .zero he).bind fun es => .pure le_rfl
  | ref name p => exact spends_variable env _
  | moduleRef path name p q => exact spends_variable env _
  | call name args p => exact h.call name p he
  | negate e p =>
    have ha : e.Bare := he
    refine (h.expr ha).forgetting fun v => ?_
    split
    · exact .before (.ofExcept (plain_neg _) (fun _ _ => le_rfl) le_rfl) fun _ => .pure le_rfl
    · exact .pure le_rfl
    · exact .before .tick fun _ => .fail rfl
  | affirm e p =>
    have ha : e.Bare := he
    refine (h.operand ha).bind fun v => .before .tick fun _ => ?_
    split
    · exact .pure le_rfl
    · exact .pure le_rfl
    · exact .fail rfl
  | invert e p =>
    have ha : e.Bare := he
    refine (h.expr ha).forgetting fun v => ?_
    split
    · exact .pure le_rfl
    · exact .before .tick fun _ => .fail rfl
  | binary op l r p =>
    refine (h.expr he.1).bind fun a => (h.expr he.2).first fun b => ?_
    exact (Spends.ofTrades (trades_binary hl op a b p)).mono (add_comm _ _).le fun _ => le_rfl
  | allOf es p => exact (h.anyIs false he).bind fun _ => .pure le_rfl
  | anyOf es p => exact (h.anyIs true he).bind fun _ => .pure le_rfl
  | firstOf es p => exact h.firstValue he
  | member container item p => exact h.call "contains" p ⟨he.1, he.2, trivial⟩
  | chain root links => exact h.chain he.1 he.2
  | block body p => exact h.enclosed_statements he

omit hl in
theorem statements_succ {body : List Stmt} (v : Value) (hb : Stmt.AllBare body) :
    Spends uses v.wrappers (Eval.statements env (n + 1) body v) Value.wrappers := by
  cases body with
  | nil =>
    rw [Eval.statements]
    exact .pure le_rfl
  | cons s r =>
    rw [Eval.statements]
    exact Spends.release.bind fun _ => (h.statement hb.1).bind fun w => h.statements w hb.2

omit hl in
theorem round_succ {body : List Stmt} (hb : Stmt.AllBare body) :
    Spends uses 0 (Eval.round env (n + 1) body) resultWrappers := by
  unfold Eval.round
  refine (h.enclosed_statements hb).outcome.bind fun r => ?_
  split
  · exact Spends.release.bind fun _ => .pure le_rfl
  · exact .pure (Multiset.zero_le _)
  · exact .pure (Multiset.le_add_right _ _)
  · exact .throw (Multiset.le_add_right _ _)

omit hl in
/-- The rest of a loop, once it is known whether there is another round. -/
theorem repeatLoop_rest {c : Option Expr} {body : List Stmt} (q : Position)
    (hc : ∀ e, c = some e → e.Bare) (hb : Stmt.AllBare body) (goesOn : Bool) :
    Spends uses 0 (do
      if goesOn then
        match ← Eval.round env n body with
        | some v => pure v
        | none => Eval.repeatLoop env n c body q
      else pure .unit) Value.wrappers := by
  split
  · refine (h.round hb).bind fun r => ?_
    split
    · exact .pure le_rfl
    · exact h.repeatLoop q hc hb
  · exact .pure le_rfl

omit hl in
theorem repeatLoop_succ {c : Option Expr} {body : List Stmt} (q : Position)
    (hc : ∀ e, c = some e → e.Bare) (hb : Stmt.AllBare body) :
    Spends uses 0 (Eval.repeatLoop env (n + 1) c body q) Value.wrappers := by
  have hrest := h.repeatLoop_rest q hc hb
  unfold Eval.repeatLoop
  dsimp only
  split
  · rename_i e
    exact (h.expr (hc e rfl)).forgetting fun v => (spends_truth v _).bind hrest
  · split
    · exact .before .tick fun _ => .bind (.pure le_rfl) hrest
    · exact .bind (.pure le_rfl) hrest

theorem roundFor_succ (name : String) (counter : Option String) {body : List Stmt} (v : Value)
    (k : Nat) (hb : Stmt.AllBare body) :
    Spends uses v.wrappers (Eval.roundFor env (n + 1) name counter body v k) resultWrappers := by
  have hend : Spends uses v.wrappers (do
      define env name v false
      Eval.round env n body) resultWrappers :=
    (Spends.define hl.definitions name v false).bind fun _ => h.round hb
  unfold Eval.roundFor
  refine .enclosed ?_
  dsimp only
  split
  · rename_i x
    exact (Spends.define hl.definitions x (.int k) false).first fun _ => by rwa [zero_add]
  · exact hend

omit hl in
theorem eachInt_succ (name : String) (counter : Option String) {body : List Stmt} (i last : Int)
    (k : Nat) (hb : Stmt.AllBare body) :
    Spends uses 0 (Eval.eachInt env (n + 1) name counter body i last k) Value.wrappers := by
  unfold Eval.eachInt
  split
  · refine (h.roundFor name counter (.int i) k hb).bind fun r => ?_
    split
    · exact .pure le_rfl
    · exact h.eachInt name counter _ last _ hb
  · exact .pure le_rfl

omit hl in
theorem eachItem_succ (name : String) (counter : Option String) {body : List Stmt}
    (vs : List Value) (k : Nat) (hb : Stmt.AllBare body) :
    Spends uses (wrappersOf vs) (Eval.eachItem env (n + 1) name counter body vs k)
      Value.wrappers := by
  cases vs with
  | nil =>
    rw [Eval.eachItem]
    exact .pure le_rfl
  | cons v r =>
    rw [Eval.eachItem]
    refine (h.roundFor name counter v k hb).andThen (wrappersOf r) le_rfl fun w => ?_
    split
    · exact .pure (Multiset.le_add_right _ _)
    · exact (h.eachItem name counter r _ hb).mono (Multiset.le_add_left _ _) fun _ => le_rfl

theorem assignment_succ {target : Expr} (op : Option Operator) {e : Expr} (p : Position)
    (ht : target.Bare) (he : e.Bare) :
    Spends uses 0 (Eval.assignment env (n + 1) target op e p) (fun _ => 0) := by
  have hstore : ∀ {x q b} {root : Expr} (c : Value), root = .ref x q →
      Opens uses x b c.wrappers (assign c root : Eval κ Unit) (fun _ => 0) := by
    rintro x q b root c rfl
    rw [← add_zero c.wrappers, ← bind_pure (assign c _)]
    exact .assign fun _ => .pure le_rfl
  unfold Eval.assignment
  refine (h.expr he).bind fun v => ?_
  dsimp only
  split
  · rename_i root links
    refine (h.steps ht.2).first fun steps => .before .tick fun _ => .look fun x q b hx => ?_
    have hfollow := (allTrade hl n).follow (.ofBinding b) steps
      (some ⟨op, v, p, b.name, root.position⟩) nofun
    refine .trade hfollow fun r => ?_
    obtain ⟨w, changed⟩ := r
    cases changed with
    | none => exact .mono (.close (.pure le_rfl)) (by simp)
    | some c => exact .mono (hstore c hx) (Multiset.le_add_left _ _)
  · refine .before .tick fun _ => .look fun x q b hx => ?_
    exact .trade (trades_apply hl ⟨op, v, p, b.name, target.position⟩ (.ofBinding b))
      fun new => hstore new hx

omit hl in
/-- The handler of a caught fault, which may be raised again. -/
theorem statement_handler {handler : List Stmt} (f : Fault) (hb : Stmt.AllBare handler) :
    Spends uses f.wrappers (do
      match ← outcome (enclosed (Eval.statements env n handler .unit)) with
      | .ok _ => pure Value.unit
      | .error i => throw (rethrown f i)) Value.wrappers := by
  refine (h.enclosed_statements hb).outcome.first fun r => ?_
  cases r with
  | ok v => exact .pure (Multiset.zero_le _)
  | error i =>
    refine .throw ((wrappers_rethrown_le f i).trans ?_)
    rw [Left, add_zero, add_comm]

theorem statement_succ {s : Stmt} (hs : s.Bare) :
    Spends uses 0 (Eval.statement env (n + 1) s) Value.wrappers := by
  unfold Eval.statement
  refine .before .tick fun _ => ?_
  cases s with
  | expr e =>
    dsimp only
    split
    · exact h.node hs
    · exact h.expr hs
  | define name e constant p =>
    exact (h.expr hs).bind fun v => (Spends.define hl.definitions name v constant).bind fun _ =>
      .pure le_rfl
  | assign target op e p => exact (h.assignment op p hs.1 hs.2).bind fun _ => .pure le_rfl
  | branch c yes no p =>
    refine (h.expr hs.1).forgetting fun v => (spends_truth v _).bind fun b => ?_
    split
    · exact h.enclosed_statements hs.2.1
    · exact h.enclosed_statements hs.2.2
  | loop c body p q =>
    cases c with
    | none => exact h.repeatLoop q nofun hs
    | some c => exact h.repeatLoop q (fun e he => Option.some.inj he ▸ hs.1) hs.2
  | each name counter source body p =>
    have hletters : ∀ s : String, Spends uses 0
        (Eval.eachItem env n name counter body (s.toList.map .char) 0) Value.wrappers := fun s =>
      (h.eachItem name counter _ _ hs.2).mono (Value.wrappersOf_eq_zero fun v hv => by
        obtain ⟨c, -, rfl⟩ := List.mem_map.mp hv
        rfl).le fun _ => le_rfl
    refine (h.expr hs.1).bind fun v => ?_
    split
    · exact .enclosed (h.eachInt name counter _ _ _ hs.2)
    · exact .enclosed (h.eachItem name counter _ _ hs.2)
    · exact .enclosed (hletters _)
    · exact .enclosed (hletters _)
    · exact .fail rfl
  | leave e p =>
    cases e with
    | none => exact .throw le_rfl
    | some e => exact (h.expr hs).bind fun _ => .throw le_rfl
  | skip p => exact .throw le_rfl
  | give e p =>
    cases e with
    | none => exact .throw le_rfl
    | some e => exact (h.expr hs).bind fun _ => .throw le_rfl
  | throw e p =>
    cases e with
    | none => exact .throw le_rfl
    | some e => exact (h.expr hs).bind fun _ => .throw le_rfl
  | attempt body name handler p =>
    refine (h.enclosed_statements hs.1).outcome.bind fun r => ?_
    dsimp only
    split
    · exact .pure (Multiset.zero_le _)
    · split
      · exact .throw (Multiset.le_add_right _ _)
      · refine .enclosed ?_
        split
        · rename_i f q _ _ x
          have hcaught := Fault.wrappers_caught f q
          refine (Spends.retain (by simp [Left, hcaught])).bind fun _ => ?_
          refine (Spends.define hl.definitions x _ false).andThen _ le_rfl fun _ => ?_
          exact (h.statement_handler f hs.2).mono (by simp [Left]) fun _ => le_rfl
        · exact (h.statement_handler _ hs.2).mono (Multiset.le_add_right _ _) fun _ => le_rfl
    · exact .throw (Multiset.le_add_right _ _)
  | block body p => exact h.enclosed_statements hs

theorem succ : AllSpend uses env (n + 1) where
  expr := h.expr_succ
  node := h.node_succ hl
  operand := h.operand_succ
  anyIs := h.anyIs_succ
  firstValue := h.firstValue_succ
  pieces := h.pieces_succ hl
  values := h.values_succ
  arrayItems := h.arrayItems_succ
  mapEntries := h.mapEntries_succ
  call name _ p := h.call_succ hl name p
  chain := h.chain_succ hl
  steps := h.steps_succ
  prepare := h.prepare_succ
  statements := h.statements_succ
  statement := h.statement_succ hl
  round := h.round_succ
  repeatLoop := h.repeatLoop_succ
  roundFor := h.roundFor_succ hl
  eachInt := h.eachInt_succ
  eachItem := h.eachItem_succ
  assignment := h.assignment_succ hl

end AllSpend

theorem allSpend {env : Environment κ} (hl : env.Lends uses) (n : Nat) : AllSpend uses env n := by
  induction n with
  | zero => exact allSpend_zero env
  | succ n ih => exact ih.succ hl

end Eval

/-- The wrappers in the value of a script, or in the fault that it ends with. -/
def endWrappers : Except Failed Value → Multiset Handle
  | .ok v => v.wrappers
  | .error f => f.fault.wrappers

/-- A script that is given the wrappers in its bindings owns all wrappers that it has to do with,
and at the end those of its result. -/
theorem owns_runStatements {env : Environment κ} (hl : env.Lends uses) {body : List Stmt}
    (hb : Stmt.AllBare body) {scope : List Binding} {m : Multiset Handle}
    (hm : scopeWrappers scope ≤ m) :
    (runStatements env scope body).Owns uses (fun r m => endWrappers r ≤ m) m := by
  have hrun := (Eval.allSpend hl Eval.fuel).statements .unit hb (.initial scope) rfl 0 m
    (by simpa [Frame.initial] using hm)
  refine Program.Owns.bind hrun fun r m hr => ?_
  have hleft := (Multiset.le_add_left _ _).trans ((Multiset.le_add_right _ 0).trans hr.2)
  obtain ⟨i | v, frame⟩ := r
  · have hend := (Multiset.le_add_right _ _).trans hleft
    cases i with
    | fault f p => exact hend
    | returned v => exact hend
    | exited v => exact hend
    | leaveLoop v => exact Multiset.zero_le _
    | nextRound => exact Multiset.zero_le _
  · exact hleft

end EditorScripting.Script
