import EditorScripting.Proofs.Configuration.Histories

/-!
Scripts of configuration that consist of calls with literal arguments. They run call by call until
one fails or the operations are used up; the changes of the calls before that stay.
-/
namespace EditorScripting.Configuration

open Script

/-- Whatever the bindings and the settings are, a computation that begins after `used` operations
ends after `later` ones, with the same result and after asking for the same changes. -/
def Runs {α : Type} (x : Eval Change α) (used : Nat) (result : Except Interrupt α) (later : Nat)
    (changes : List Change) : Prop :=
  ∀ frame s,
    (x frame).run world ⟨s, used⟩ = ((result, frame), ⟨changes.foldl Change.apply s, later⟩) ∧
    (x frame).asks world ⟨s, used⟩ = changes

namespace Runs

variable {α β : Type} {used mid later : Nat} {changes : List Change}

theorem pure (a : α) : Runs (Pure.pure a) used (.ok a) used [] := fun _ _ => ⟨rfl, rfl⟩

theorem fail (f : Fault) (p : Option Position) :
    Runs (Eval.fail f p : Eval Change α) used (.error (.fault f p)) used [] := fun _ _ => ⟨rfl, rfl⟩

theorem bind {x : Eval Change α} {f : α → Eval Change β} {a : α} {result : Except Interrupt β}
    {changes' : List Change} (hx : Runs x used (.ok a) mid changes)
    (hf : Runs (f a) mid result later changes') :
    Runs (x >>= f) used result later (changes ++ changes') := by
  intro frame s
  obtain ⟨hrun, hasks⟩ := hx frame s
  change ((x frame).bind _).run world _ = _ ∧ ((x frame).bind _).asks world _ = _
  rw [Program.run_bind, Program.asks_bind, hrun, hasks, List.foldl_append]
  obtain ⟨hrun, hasks⟩ := hf frame (changes.foldl Change.apply s)
  exact ⟨hrun, congrArg (changes ++ ·) hasks⟩

theorem bind_error {x : Eval Change α} {f : α → Eval Change β} {i : Interrupt}
    (hx : Runs x used (.error i) later changes) : Runs (x >>= f) used (.error i) later changes := by
  intro frame s
  obtain ⟨hrun, hasks⟩ := hx frame s
  change ((x frame).bind _).run world _ = _ ∧ ((x frame).bind _).asks world _ = _
  rw [Program.run_bind, Program.asks_bind, hrun, hasks]
  exact ⟨rfl, List.append_nil changes⟩

/-- A computation that changes nothing before the one that counts. -/
theorem andThen {x : Eval Change α} {f : α → Eval Change β} {a : α} {result : Except Interrupt β}
    (hx : Runs x used (.ok a) mid []) (hf : Runs (f a) mid result later changes) :
    Runs (x >>= f) used result later changes := hx.bind hf

/-- A computation after the one that counts, which makes its result up from the first one's. -/
theorem followed {x : Eval Change α} {f : α → Eval Change β} {result : Except Interrupt α}
    (hx : Runs x used result mid changes) {g : α → β}
    (hf : ∀ a, Runs (f a) mid (.ok (g a)) mid []) :
    Runs (x >>= f) used (result.map g) mid changes := by
  cases result with
  | error i => exact hx.bind_error
  | ok a =>
    have h := hx.bind (hf a)
    rw [List.append_nil] at h
    exact h

theorem tick {p : Position} (h : used < maxOperations) :
    Runs (Eval.tick p) used (.ok ()) (used + 1) [] := by
  intro frame s
  have hallowed : refusal (used + 1) = none := by
    have hmax : maxOperations = 100000 := rfl
    rw [refusal, if_neg]
    simp only [Limits.exceeds, Bool.and_eq_true, decide_eq_true_eq, not_and]
    omega
  change (Program.step _).run world _ = _ ∧ (Program.step _).asks world _ = _
  rw [Program.run, Program.asks]
  simp only [world, hallowed]
  exact ⟨rfl, rfl⟩

theorem tick_refused {p : Position} :
    Runs (Eval.tick p) maxOperations (.error (.fault .tooManyOperations (some p)))
      (maxOperations + 1) [] := fun _ _ => ⟨rfl, rfl⟩

theorem ask {c : Change} {p : Option Position} : Runs (Eval.ask c p) used (.ok .unit) used [c] :=
  fun _ _ => ⟨rfl, rfl⟩

/-- Nothing is wrapped, so that nothing is counted. -/
theorem handles {f : Host.Handle → Eval Change PUnit} (hf : ∀ h, Runs (f h) used (.ok ()) used [])
    (hs : List Host.Handle) : Runs (hs.forM f) used (.ok ()) used [] := by
  induction hs with
  | nil => exact pure ()
  | cons h r ih => exact (hf h).andThen ih

theorem release (v : Value) : Runs (Eval.release v) used (.ok ()) used [] :=
  handles (fun _ _ _ => ⟨rfl, rfl⟩) v.handles

theorem retain (v : Value) : Runs (Eval.retain v) used (.ok ()) used [] :=
  handles (fun _ _ _ => ⟨rfl, rfl⟩) v.handles

theorem releaseAll (vs : List Value) : Runs (vs.forM Eval.release) used (.ok ()) used [] := by
  induction vs with
  | nil => exact pure ()
  | cons v r ih => exact (release v).andThen ih

end Runs

/-- A call in a script, whose arguments are literals. -/
structure Call where
  name : String
  args : List (Value × Position)
  position : Position

namespace Call

def values (k : Call) : List Value := k.args.map (·.1)

def literal (a : Value × Position) : Expr := .const a.1 a.2

def stmt (k : Call) : Stmt := .expr (.call k.name (k.args.map literal) k.position)

/-- The call does more than compute a value from its arguments. -/
def isSpecial (k : Call) : Bool :=
  match k.name, k.values with
  | "type_of", [_] | "to_string", [_] | "to_debug", [_] | "print", [] | "print", [_]
  | "debug", [] | "debug", [_] | "exit", [] | "exit", [_] | "contains", [.array _, _] => true
  | _, _ => false

/-- A call of a setter, of a function that computes a value, or of no function at all. A number for
the settings has 64 bits. -/
structure Plain (k : Call) : Prop where
  special : k.isSpecial = false
  fits : ∀ c, Change.ofCall? k.name k.values = some c → c.Fits

/-- What a call does if its operations are allowed: it fails, or it changes the settings, or it has
no effect. -/
def reply (k : Call) : Except Fault (List Change) :=
  match Library.change? limits k.name k.values with
  | some r => r.map fun _ => []
  | none =>
    match Change.ofCall? k.name k.values, Library.call? k.name k.values with
    | some c, _ => .ok [c]
    | none, some r => r.map fun _ => []
    | none, none => .error (.functionNotFound (Eval.signature k.name k.values))

/-- How a call ends, if with a value then with `v`. -/
def result (k : Call) (v : Value) : Except Interrupt Value :=
  match k.reply with
  | .ok _ => .ok v
  | .error f => .error (.fault f (some k.position))

/-- The places of the operations of a call: the statement, the arguments, and the function. -/
def places (k : Call) : List Position := k.position :: (k.args.map (·.2) ++ [k.position])

theorem length_places (k : Call) : k.places.length = k.args.length + 2 := by
  rw [places, List.length_cons, List.length_append, List.length_map]
  rfl

end Call

/-- The changes that calls make one after another when some operations are used up already, and the
failure that ends them. -/
def perform : Nat → List Call → List Change × Option Failed
  | _, [] => ([], none)
  | used, k :: r =>
    match k.places[maxOperations - used]?, k.reply with
    | some p, _ => ([], some ⟨.tooManyOperations, some p⟩)
    | none, .error f => ([], some ⟨f, some k.position⟩)
    | none, .ok changes =>
      let (later, failed) := perform (used + k.places.length) r
      (changes ++ later, failed)

theorem runs_checkReceiver {used : Nat} (v : Value) (p : Position) :
    Runs (Eval.checkReceiver (environment []) v p) used (.ok ()) used [] := by
  cases v <;> exact .pure ()

theorem runs_check {used : Nat} (v : Value) (p : Position) :
    Runs (Eval.ofExcept p (limits.check v)) used (.ok v) used [] := .pure v

variable {used n : Nat} {k : Call}

/-- What is left of a call of a function once its value is there. -/
theorem runs_checked (v : Value) (args : List Value) (p : Position) :
    Runs (do
      let v ← Eval.ofExcept p (limits.check v)
      args.head?.forM (Eval.checkReceiver (environment []) · p)
      return v) used (.ok v) used [] := by
  have hreceiver : Runs (args.head?.forM (Eval.checkReceiver (environment []) · p)) used (.ok ())
      used [] := by
    cases args with
    | nil => exact .pure ()
    | cons a r => exact runs_checkReceiver a p
  exact (runs_check v p).andThen (hreceiver.andThen (.pure v))

/-- The native part of a call. -/
theorem runs_callNative (hk : k.Plain) (hpure : Library.change? limits k.name k.values = none)
    (h : used < maxOperations) :
    ∃ v, Runs (Eval.callNative (environment []) k.name k.values k.position) used (k.result v)
      (used + 1) (k.reply.toOption.getD []) := by
  have hspecial := hk.special
  obtain ⟨name, args, p⟩ := k
  unfold Call.isSpecial at hspecial
  unfold Eval.callNative Call.result Call.reply
  rw [hpure]
  dsimp only at hspecial ⊢
  generalize Call.values _ = args at hspecial ⊢
  split
  · cases hspecial
  rw [show (environment []).function = Change.ofCall? from rfl]
  cases hc : Change.ofCall? name args with
  | some c => exact ⟨.unit, (Runs.tick h).andThen (Runs.ask.bind (runs_checked .unit args p))⟩
  | none =>
    dsimp only
    split <;> try cases hspecial
    cases hl : Library.call? name args with
    | none => exact ⟨.unit, (Runs.tick h).andThen (Runs.fail _ _).bind_error⟩
    | some r =>
      cases r with
      | error f => exact ⟨.unit, (Runs.tick h).andThen (Runs.fail _ _).bind_error⟩
      | ok v =>
        have hvalue : Runs (Eval.ofExcept p (.ok v)) (used + 1) (.ok v) (used + 1) [] := .pure v
        exact ⟨v, (Runs.tick h).andThen (hvalue.andThen ((Runs.retain v).andThen
          ((Runs.pure v).andThen (runs_checked v args p))))⟩

theorem runs_callNative_refused (hk : k.Plain) :
    Runs (Eval.callNative (environment []) k.name k.values k.position) maxOperations
      (.error (.fault .tooManyOperations (some k.position))) (maxOperations + 1) [] := by
  have hspecial := hk.special
  unfold Call.isSpecial at hspecial
  unfold Eval.callNative
  generalize k.name = name at hspecial ⊢
  generalize k.values = args at hspecial ⊢
  split
  · cases hspecial
  · exact Runs.tick_refused.bind_error

/-- An argument is one operation. -/
theorem runs_argument (a : Value × Position) (h : used < maxOperations) :
    Runs (Eval.expr (environment []) (n + 2) (Call.literal a)) used (.ok a.1) (used + 1) [] := by
  rw [Eval.expr, Call.literal, Eval.node]
  exact (Runs.tick h).andThen (.pure a.1)

theorem runs_argument_refused (a : Value × Position) :
    Runs (Eval.expr (environment []) (n + 2) (Call.literal a)) maxOperations
      (.error (.fault .tooManyOperations (some a.2))) (maxOperations + 1) [] := by
  rw [Eval.expr]
  exact Runs.tick_refused.bind_error

theorem runs_arguments (args : List (Value × Position)) (done : List Value)
    (h : used + args.length ≤ maxOperations) (hn : maxOperations - used + 3 ≤ n) :
    Runs (Eval.values (environment []) n (args.map Call.literal) done) used
      (.ok (done.reverse ++ args.map (·.1))) (used + args.length) [] := by
  induction args generalizing used n done with
  | nil =>
    obtain ⟨n, rfl⟩ := Nat.exists_eq_add_of_le' (show 1 ≤ n by omega)
    rw [List.map_nil, Eval.values, List.map_nil, List.append_nil]
    exact .pure done.reverse
  | cons a r ih =>
    rw [List.length_cons] at h
    obtain ⟨n, rfl⟩ := Nat.exists_eq_add_of_le' (show 3 ≤ n by omega)
    have hr := ih (a.1 :: done) (show used + 1 + r.length ≤ maxOperations by omega)
      (show maxOperations - (used + 1) + 3 ≤ n + 2 by omega)
    rw [List.reverse_cons, List.append_assoc, List.singleton_append] at hr
    rw [List.map_cons, Eval.values, List.map_cons, List.length_cons,
      show used + (r.length + 1) = used + 1 + r.length by omega]
    exact (runs_argument a (by omega)).andThen hr

theorem runs_arguments_refused {args : List (Value × Position)} {done : List Value}
    {a : Value × Position} (hu : used ≤ maxOperations)
    (ha : args[maxOperations - used]? = some a) (hn : maxOperations - used + 3 ≤ n) :
    Runs (Eval.values (environment []) n (args.map Call.literal) done) used
      (.error (.fault .tooManyOperations (some a.2))) (maxOperations + 1) [] := by
  induction args generalizing used n done with
  | nil => cases ha
  | cons b r ih =>
    obtain ⟨n, rfl⟩ := Nat.exists_eq_add_of_le' (show 3 ≤ n by omega)
    rw [List.map_cons, Eval.values]
    obtain rfl | hlt := Nat.eq_or_lt_of_le hu
    · rw [Nat.sub_self] at ha
      cases ha
      exact (runs_argument_refused a).bind_error
    · rw [show maxOperations - used = maxOperations - (used + 1) + 1 by omega] at ha
      exact (runs_argument b hlt).andThen (ih hlt ha (by omega))

theorem definition?_nil (receiver : Option Value) (name : String) (arity : Nat) :
    (environment []).definition? receiver name arity = none := by
  cases receiver <;> rfl

theorem change?_nil (name : String) : Library.change? limits name [] = none := by
  simp [Library.change?]

theorem runs_apply {first : Value} {others : List Value} (hk : k.Plain)
    (hv : k.values = first :: others) (h : used < maxOperations) :
    ∃ v changed, Runs (Eval.apply (environment []) (n + 1) false (.ofValue first) k.name others
        k.position)
      used ((k.result v).map (·, changed)) (used + 1) (k.reply.toOption.getD []) := by
  rw [Eval.apply]
  simp only [Eval.Target.ofValue, definition?_nil, Bool.false_eq_true, if_false, ← hv]
  rw [show (environment []).limits = limits from rfl]
  cases hpure : Library.change? limits k.name k.values with
  | none =>
    obtain ⟨v, hnative⟩ := runs_callNative hk hpure h
    exact ⟨v, none, hnative.followed fun v => (Runs.releaseAll others).andThen (.pure (v, none))⟩
  | some r =>
    unfold Call.result Call.reply
    rw [hpure]
    cases r with
    | error f => exact ⟨.unit, none, (Runs.tick h).andThen (Runs.fail _ _).bind_error⟩
    | ok changed =>
      obtain ⟨v, new⟩ := changed
      have hvalue : Runs (Eval.ofExcept k.position (.ok (v, new))) (used + 1) (.ok (v, new))
        (used + 1) [] := .pure (v, new)
      exact ⟨v, some new, (Runs.tick h).andThen (hvalue.andThen (.pure (v, some new)))⟩

theorem runs_apply_refused {first : Value} {others : List Value} (hk : k.Plain)
    (hv : k.values = first :: others) :
    Runs (Eval.apply (environment []) (n + 1) false (.ofValue first) k.name others k.position)
      maxOperations (.error (.fault .tooManyOperations (some k.position))) (maxOperations + 1)
      [] := by
  rw [Eval.apply]
  simp only [Eval.Target.ofValue, definition?_nil, Bool.false_eq_true, if_false, ← hv]
  rw [show (environment []).limits = limits from rfl]
  cases Library.change? limits k.name k.values with
  | none => exact (runs_callNative_refused hk).bind_error
  | some r => exact Runs.tick_refused.bind_error

theorem runs_call (hk : k.Plain) (h : used + k.args.length < maxOperations)
    (hn : maxOperations - used + 4 ≤ n) :
    ∃ v, Runs (Eval.call (environment []) n k.name (k.args.map Call.literal) k.position) used
      (k.result v) (used + k.args.length + 1) (k.reply.toOption.getD []) := by
  obtain ⟨n, rfl⟩ := Nat.exists_eq_add_of_le' (show 3 ≤ n by omega)
  cases hargs : k.args with
  | nil =>
    rw [hargs] at h
    have hv : k.values = [] := by rw [Call.values, hargs]; rfl
    have hpure : Library.change? limits k.name k.values = none := by
      rw [hv]
      exact change?_nil k.name
    obtain ⟨v, hnative⟩ := runs_callNative hk hpure h
    rw [hv] at hnative
    rw [List.map_nil, Eval.call, definition?_nil]
    exact ⟨v, hnative⟩
  | cons a r =>
    rw [hargs, List.length_cons] at h
    have hv : k.values = a.1 :: r.map (·.1) := by rw [Call.values, hargs]; rfl
    obtain ⟨v, changed, happly⟩ :=
      runs_apply (n := n + 1) hk hv (show used + 1 + r.length < maxOperations by omega)
    have hreleased := happly.followed (f := fun w => do Eval.release a.1; return w.1) fun w =>
      (Runs.release a.1).andThen (.pure w.1)
    have hresult : ((k.result v).map (·, changed)).map Prod.fst = k.result v := by
      cases k.result v <;> rfl
    rw [hresult] at hreleased
    have hothers := runs_arguments r [] (show used + 1 + r.length ≤ maxOperations by omega)
      (show maxOperations - (used + 1) + 3 ≤ n + 2 by omega)
    rw [List.map_cons, Eval.call, List.length_cons,
      show used + (r.length + 1) = used + 1 + r.length by omega]
    exact ⟨v, (runs_argument a (by omega)).andThen (hothers.andThen hreleased)⟩

theorem runs_call_refused (hk : k.Plain) (hu : used ≤ maxOperations) {p : Position}
    (hp : (k.args.map (·.2) ++ [k.position])[maxOperations - used]? = some p)
    (hn : maxOperations - used + 4 ≤ n) :
    Runs (Eval.call (environment []) n k.name (k.args.map Call.literal) k.position) used
      (.error (.fault .tooManyOperations (some p))) (maxOperations + 1) [] := by
  obtain ⟨n, rfl⟩ := Nat.exists_eq_add_of_le' (show 3 ≤ n by omega)
  cases hargs : k.args with
  | nil =>
    rw [hargs, List.map_nil, List.nil_append, List.getElem?_singleton] at hp
    split at hp <;> cases hp
    obtain rfl : used = maxOperations := by omega
    have hv : k.values = [] := by rw [Call.values, hargs]; rfl
    have hnative := runs_callNative_refused hk
    rw [hv] at hnative
    rw [List.map_nil, Eval.call, definition?_nil]
    exact hnative
  | cons a r =>
    have hv : k.values = a.1 :: r.map (·.1) := by rw [Call.values, hargs]; rfl
    rw [hargs, List.map_cons, List.cons_append] at hp
    rw [List.map_cons, Eval.call]
    obtain rfl | hlt := Nat.eq_or_lt_of_le hu
    · rw [Nat.sub_self] at hp
      cases hp
      exact (runs_argument_refused a).bind_error
    rw [show maxOperations - used = maxOperations - (used + 1) + 1 by omega,
      List.getElem?_cons_succ] at hp
    refine (runs_argument a hlt).andThen ?_
    -- The operations are used up in front of another argument or in front of the function.
    by_cases hr : maxOperations - (used + 1) < r.length
    · rw [List.getElem?_append_left (by rwa [List.length_map]), List.getElem?_map] at hp
      obtain ⟨b, hb, rfl⟩ := Option.map_eq_some_iff.mp hp
      exact (runs_arguments_refused hlt hb (by omega)).bind_error
    · rw [List.getElem?_append_right (by rw [List.length_map]; omega), List.length_map,
        List.getElem?_singleton] at hp
      split at hp <;> cases hp
      have hothers := runs_arguments r [] (show used + 1 + r.length ≤ maxOperations by omega)
        (show maxOperations - (used + 1) + 3 ≤ n + 2 by omega)
      rw [show used + 1 + r.length = maxOperations by omega] at hothers
      exact hothers.andThen (runs_apply_refused hk hv).bind_error

theorem runs_stmt (hk : k.Plain) (h : used + k.places.length ≤ maxOperations)
    (hn : maxOperations - used + 7 ≤ n) :
    ∃ v, Runs (Eval.statement (environment []) n k.stmt) used (k.result v)
      (used + k.places.length) (k.reply.toOption.getD []) := by
  obtain ⟨n, rfl⟩ := Nat.exists_eq_add_of_le' (show 2 ≤ n by omega)
  rw [Call.length_places] at h ⊢
  obtain ⟨v, hcall⟩ := runs_call hk (show used + 1 + k.args.length < maxOperations by omega)
    (show maxOperations - (used + 1) + 4 ≤ n by omega)
  rw [show used + 1 + k.args.length + 1 = used + (k.args.length + 2) by omega] at hcall
  rw [Call.stmt, Eval.statement, Eval.node]
  exact ⟨v, (Runs.tick (by omega)).andThen hcall⟩

theorem runs_stmt_refused (hk : k.Plain) (hu : used ≤ maxOperations) {p : Position}
    (hp : k.places[maxOperations - used]? = some p) (hn : maxOperations - used + 7 ≤ n) :
    Runs (Eval.statement (environment []) n k.stmt) used
      (.error (.fault .tooManyOperations (some p))) (maxOperations + 1) [] := by
  obtain ⟨n, rfl⟩ := Nat.exists_eq_add_of_le' (show 2 ≤ n by omega)
  rw [Call.stmt, Eval.statement, Eval.node]
  obtain rfl | hlt := Nat.eq_or_lt_of_le hu
  · rw [Nat.sub_self] at hp
    cases hp
    exact Runs.tick_refused.bind_error
  · rw [show maxOperations - used = maxOperations - (used + 1) + 1 by omega, Call.places,
      List.getElem?_cons_succ] at hp
    exact (Runs.tick hlt).andThen (runs_call_refused hk hlt hp (by omega))

/-- How calls end: with a value, or with a failure. -/
def Ends (failed : Option Failed) (result : Except Interrupt Value) : Prop :=
  match failed with
  | none => ∃ v, result = .ok v
  | some f => result = .error (.fault f.fault f.position)

theorem runs_stmts {calls : List Call} (hk : ∀ k ∈ calls, k.Plain) (hu : used ≤ maxOperations)
    (hn : maxOperations - used + 8 ≤ n) (v : Value) :
    ∃ result later, Ends (perform used calls).2 result ∧
      Runs (Eval.statements (environment []) n (calls.map Call.stmt) v) used result later
        (perform used calls).1 := by
  -- A statement takes one unit of fuel and begins at least one operation, so that the fuel lasts
  -- as long as operations are left.
  induction calls generalizing used n v with
  | nil =>
    obtain ⟨n, rfl⟩ := Nat.exists_eq_add_of_le' (show 1 ≤ n by omega)
    rw [List.map_nil, Eval.statements]
    exact ⟨.ok v, used, ⟨v, rfl⟩, .pure v⟩
  | cons k r ih =>
    obtain ⟨hk, hr⟩ := List.forall_mem_cons.mp hk
    obtain ⟨n, rfl⟩ := Nat.exists_eq_add_of_le' (show 1 ≤ n by omega)
    rw [List.map_cons, Eval.statements, perform]
    cases hp : k.places[maxOperations - used]? with
    | some p =>
      exact ⟨_, _, rfl,
        (Runs.release v).andThen (runs_stmt_refused hk hu hp (by omega)).bind_error⟩
    | none =>
      have hplaces := List.getElem?_eq_none_iff.mp hp
      obtain ⟨v', hstmt⟩ := runs_stmt (n := n) hk (show used + k.places.length ≤ _ by omega)
        (by omega)
      have hlength := k.length_places
      unfold Call.result at hstmt
      cases hreply : k.reply with
      | error f =>
        rw [hreply] at hstmt
        exact ⟨_, _, rfl, (Runs.release v).andThen hstmt.bind_error⟩
      | ok changes =>
        rw [hreply] at hstmt
        obtain ⟨result, later, hend, hruns⟩ :=
          ih hr (show used + k.places.length ≤ maxOperations by omega)
            (show maxOperations - (used + k.places.length) + 8 ≤ n by omega) v'
        exact ⟨result, later, hend, (Runs.release v).andThen (hstmt.bind hruns)⟩

theorem fits_of_mem_reply (hk : k.Plain) {changes : List Change} (hr : k.reply = .ok changes) :
    ∀ c ∈ changes, c.Fits := by
  unfold Call.reply at hr
  split at hr
  next r _ => cases r <;> cases hr; exact nofun
  split at hr
  next c hc =>
    cases hr
    intro d hd
    rw [List.mem_singleton.mp hd]
    exact hk.fits c hc
  next r _ _ => cases r <;> cases hr; exact nofun
  next => cases hr

theorem fits_of_mem_perform {calls : List Call} (hk : ∀ k ∈ calls, k.Plain) (used : Nat) :
    ∀ c ∈ (perform used calls).1, c.Fits := by
  induction calls generalizing used with
  | nil => exact nofun
  | cons k r ih =>
    obtain ⟨hk, hr⟩ := List.forall_mem_cons.mp hk
    rw [perform]
    split
    · exact nofun
    · exact nofun
    next changes _ hreply =>
      intro c hc
      rcases List.mem_append.mp hc with hc | hc
      · exact fits_of_mem_reply hk hreply c hc
      · exact ih hr _ c hc

/-! Simplifying leaves calls as they are. -/

theorem simplified_arguments (args : List (Value × Position)) :
    Fold.exprs limits [] (args.map Call.literal) = args.map Call.literal := by
  induction args with
  | nil =>
    rw [List.map_nil, Fold.exprs]
  | cons a r ih =>
    rw [List.map_cons, Fold.exprs, ih, Call.literal, Fold.expr]

theorem simplified_stmt (hk : k.Plain) : Fold.stmt limits true [] k.stmt = [k.stmt] := by
  rw [Call.stmt, Fold.stmt, Fold.expr, simplified_arguments]
  -- Only asking for the type of a literal is simplified.
  intro v p hname hargs
  rw [simplified_arguments] at hargs
  obtain ⟨a, ha, -⟩ := List.map_eq_singleton_iff.mp hargs
  have hvalues : k.values = [a.1] := by
    rw [Call.values, ha]
    rfl
  have hspecial := hk.special
  rw [Call.isSpecial, hname, hvalues] at hspecial
  cases hspecial

theorem simplified_stmts {calls : List Call} (hk : ∀ k ∈ calls, k.Plain) :
    Fold.stmts limits true [] (calls.map Call.stmt) = calls.map Call.stmt := by
  induction calls with
  | nil => rw [List.map_nil, Fold.stmts]
  | cons k r ih =>
    obtain ⟨hk, hr⟩ := List.forall_mem_cons.mp hk
    rw [List.map_cons, Fold.stmts, simplified_stmt hk]
    exact congrArg (k.stmt :: ·) (ih hr)

theorem opened_calls (calls : List Call) :
    Fold.opened (calls.map Call.stmt) = calls.map Call.stmt := by
  induction calls with
  | nil => rfl
  | cons k r ih => exact congrArg (k.stmt :: ·) ih

theorem reachable_calls (calls : List Call) :
    Fold.reachable (calls.map Call.stmt) = calls.map Call.stmt := by
  induction calls with
  | nil => rfl
  | cons k r ih => exact congrArg (k.stmt :: ·) ih

theorem pruned_calls (calls : List Call) :
    Fold.prune true (calls.map Call.stmt) = calls.map Call.stmt := by
  induction calls with
  | nil => rfl
  | cons k r ih =>
    cases r with
    | nil => rfl
    | cons k' r => exact congrArg (k.stmt :: ·) ih

theorem returning_calls (calls : List Call) :
    Fold.returning (calls.map Call.stmt) = calls.map Call.stmt := by
  cases calls <;> rfl

theorem simplify_calls {calls : List Call} (hk : ∀ k ∈ calls, k.Plain) :
    (Listing.mk [] (calls.map Call.stmt)).simplify limits = ⟨[], calls.map Call.stmt⟩ := by
  have hbody : Listing.simplifiedBody limits [] false (calls.map Call.stmt) =
      calls.map Call.stmt := by
    rw [Listing.simplifiedBody]
    simp only [simplified_stmts hk, opened_calls, reachable_calls, pruned_calls,
      Bool.false_eq_true, if_false, ← List.map_reverse, returning_calls, List.reverse_reverse]
  rw [Listing.simplify, hbody]
  rfl

/-- A script of calls makes their changes, one after another, and fails with the first failure. -/
theorem scriptEffect_calls {source : String} {calls : List Call}
    (hs : parseScript limits source = .ok ⟨[], calls.map Call.stmt⟩)
    (hk : ∀ k ∈ calls, k.Plain) :
    scriptEffect source =
      ((perform 0 calls).2.elim (.ok ()) fun f => .error (.configuration f.message),
        (perform 0 calls).1) := by
  have hfuel : maxOperations - 0 + 8 ≤ Eval.fuel := by decide
  obtain ⟨result, later, hend, hruns⟩ := runs_stmts hk (Nat.zero_le _) hfuel .unit
  obtain ⟨hrun, hasks⟩ := hruns (.initial []) .default
  unfold scriptEffect program runStatements Eval.conclude
  rw [hs]
  dsimp only
  rw [simplify_calls hk, Program.run_bind, Program.asks_bind, hrun, hasks]
  cases hperform : (perform 0 calls).2 with
  | none =>
    rw [hperform] at hend
    obtain ⟨v, rfl⟩ := hend
    exact congrArg (Prod.mk _) (List.append_nil _)
  | some f =>
    rw [hperform] at hend
    cases hend
    exact congrArg (Prod.mk _) (List.append_nil _)

end EditorScripting.Configuration
