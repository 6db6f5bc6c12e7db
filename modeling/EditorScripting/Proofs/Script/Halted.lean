import EditorScripting.Proofs.Script.Asks
import EditorScripting.Proofs.Script.Stops

/-!
A script in a world that has come to a halt. Whatever begins then gives no command. What is left are
calls of functions of the module whose arguments were being evaluated.
-/
namespace EditorScripting.Script.Eval

variable {κ α β σ : Type} (env : Environment κ) (w : World κ σ) (T : σ → Prop)

/-- The computation gives no command if it begins after the halt. -/
def Silent (x : Eval κ α) : Prop := ∀ s frame, T s → (x frame).asks w s = []

/-- The computation has no value if it begins after the halt. -/
def Interrupted (x : Eval κ α) : Prop :=
  ∀ s frame, T s → ∃ i frame', ((x frame).run w s).1 = (.error i, frame')

/-- Whatever part of a script begins after the halt, it gives no command. A node begins after its
own operation: it does not need to be asked for again by a call without arguments, which is why such
a call is left out here. -/
structure AllSilent : Prop where
  expr : ∀ n e, Silent w T (expr env n e)
  node : ∀ n e, (∀ path name start p, e ≠ .moduleCall path name [] start p) →
    Silent w T (node env n e)
  operand : ∀ n e, Silent w T (operand env n e)
  anyIs : ∀ n wanted es, Silent w T (anyIs env n wanted es)
  firstValue : ∀ n es, Silent w T (firstValue env n es)
  pieces : ∀ n es done, Silent w T (pieces env n es done)
  values : ∀ n es done, Silent w T (values env n es done)
  arrayItems : ∀ n es done size, Silent w T (arrayItems env n es done size)
  mapEntries : ∀ n es done size, Silent w T (mapEntries env n es done size)
  call : ∀ n name args p, Silent w T (call env n name args p)
  apply : ∀ n isMethod t name others p, Silent w T (apply env n isMethod t name others p)
  run : ∀ n d receiver args p, Silent w T (run env n d receiver args p)
  chain : ∀ n root links, Silent w T (chain env n root links)
  steps : ∀ n links, Silent w T (steps env n links)
  prepare : ∀ n links done, Silent w T (prepare env n links done)
  follow : ∀ n t steps u, Silent w T (follow env n t steps u)
  followOwn : ∀ n v steps u, Silent w T (followOwn env n v steps u)
  followPart : ∀ n t key p j r u, Silent w T (followPart env n t key p j r u)
  statements : ∀ n body v, Silent w T (statements env n body v)
  statement : ∀ n s, Silent w T (statement env n s)
  round : ∀ n body, Silent w T (round env n body)
  repeatLoop : ∀ n c body q, Silent w T (repeatLoop env n c body q)
  roundFor : ∀ n name counter body v k, Silent w T (roundFor env n name counter body v k)
  eachInt : ∀ n name counter body i last k, Silent w T (eachInt env n name counter body i last k)
  eachItem : ∀ n name counter body vs k, Silent w T (eachItem env n name counter body vs k)
  assignment : ∀ n target op e p, Silent w T (assignment env n target op e p)
  callNative : ∀ name args p, Silent w T (callNative env name args p)
  getProperty : ∀ v name p j, Silent w T (getProperty env v name p j)
  setProperty : ∀ v name p j u, Silent w T (setProperty env v name p j u)
  binary : ∀ op a b p, Silent w T (binary env op a b p)
  reassign : ∀ op a b p, Silent w T (reassign env op a b p)
  pieceText : ∀ v, Silent w T (pieceText env v)

variable {w T}

theorem Interrupted.bind {x : Eval κ α} (hx : Interrupted w T x) (f : α → Eval κ β) :
    Interrupted w T (x >>= f) := fun s frame hs => by
  obtain ⟨i, frame', he⟩ := hx s frame hs
  rw [bind_apply, Program.run_bind, he]
  exact ⟨i, frame', rfl⟩

/-- What comes behind it does not matter. -/
theorem Interrupted.silent {x : Eval κ α} (hx : Interrupted w T x) (hsilent : Silent w T x)
    (f : α → Eval κ β) : Silent w T (x >>= f) := fun s frame hs => by
  obtain ⟨i, frame', he⟩ := hx s frame hs
  rw [bind_apply, Program.asks_bind, hsilent s frame hs, he]
  rfl

/-- The terms of a script that may have to stop for any reason, and whose calls are those of
functions of the module. -/
def terms : Terms κ := ⟨fun _ => True, ModuleCall env⟩

theorem allStop_terms (n : Nat) : AllStop env (terms env) n := allStop env (fun h => h) n

section

variable (hw : w.Halts T)
include hw

theorem Returns.silent {V : α → Prop} {x : Eval κ α} (hx : Returns .nothing (terms env) V x) :
    Silent w T x := fun _ frame hs => (hx frame).quiet hw (fun _ => trivial) hs

theorem interrupted_expr (n : Nat) (e : Expr) : Interrupted w T (expr env n e) := by
  intro s frame hs
  cases n with
  | zero =>
    rw [expr]
    exact ⟨_, _, rfl⟩
  | succ n =>
    have hrefused := hw.step s (hw.keeps.step s hs)
    rw [expr]
    change ∃ i frame', ((Program.step _).run w s).1 = _
    rw [Program.run]
    generalize w.step s = answer at hrefused
    obtain ⟨r | r, s'⟩ := answer
    · cases hrefused
    · exact ⟨_, _, rfl⟩

theorem interrupted_values (n : Nat) {args : List Expr} (ha : args ≠ []) :
    Interrupted w T (values env n args []) := by
  cases n with
  | zero =>
    rw [values]
    exact fun _ _ _ => ⟨_, _, rfl⟩
  | succ n =>
    cases args with
    | nil => exact absurd rfl ha
    | cons e r =>
      rw [values]
      exact (interrupted_expr env hw n e).bind _

theorem silent_node (n : Nat) (e : Expr)
    (he : ∀ path name start p, e ≠ .moduleCall path name [] start p) :
    Silent w T (node env n e) := by
  cases n with
  | zero =>
    rw [node]
    exact fun _ _ _ => rfl
  | succ n =>
    have h := allStop_terms env n
    by_cases hcall : ∃ path name args start p, e = .moduleCall path name args start p
    · obtain ⟨path, name, args, start, p, rfl⟩ := hcall
      by_cases hvariable : ∃ x q rest, args = .ref x q :: rest
      · obtain ⟨x, q, rest, rfl⟩ := hvariable
        exact Returns.silent env hw (h.variableCall_succ _ _ _ _ _ _ _)
      · have hargs : args ≠ [] := fun hnone => he path name start p (by rw [hnone])
        rw [node_moduleCall env n path name start p fun x q rest hfirst =>
          hvariable ⟨x, q, rest, hfirst⟩]
        exact (interrupted_values env hw n hargs).silent (Returns.silent env hw (h.values _ _)) _
    · exact Returns.silent env hw (h.otherNode_succ e fun path name args start p he =>
        hcall ⟨path, name, args, start, p, he⟩)

theorem allSilent : AllSilent env w T := by
  have h := allStop_terms env
  have silent {β : Type} {x : Eval κ β} (hx : Stops (terms env) x) : Silent w T x :=
    Returns.silent env hw hx
  exact {
    expr := fun n e => silent ((h n).expr e)
    node := silent_node env hw
    operand := fun n e => silent ((h n).operand e)
    anyIs := fun n wanted es => silent ((h n).anyIs wanted es)
    firstValue := fun n es => silent ((h n).firstValue es)
    pieces := fun n es done => silent ((h n).pieces es done)
    values := fun n es done => Returns.silent env hw ((h n).values es done)
    arrayItems := fun n es done size => silent ((h n).arrayItems es done size)
    mapEntries := fun n es done size => silent ((h n).mapEntries es done size)
    call := fun n name args p => silent ((h n).call name args p)
    apply := fun n isMethod t name others p => silent ((h n).apply isMethod t name others p)
    run := fun n d receiver args p => silent ((h n).run d receiver args p)
    chain := fun n root links => silent ((h n).chain root links)
    steps := fun n links => silent ((h n).steps links)
    prepare := fun n links done => silent ((h n).prepare links done)
    follow := fun n t steps u => silent ((h n).follow t steps u)
    followOwn := fun n v steps u => silent ((h n).followOwn v steps u)
    followPart := fun n t key p j r u => silent ((h n).followPart t key p j r u)
    statements := fun n body v => silent ((h n).statements body v)
    statement := fun n s => silent ((h n).statement s)
    round := fun n body => silent ((h n).round body)
    repeatLoop := fun n c body q => silent ((h n).repeatLoop c body q)
    roundFor := fun n name counter body v k => silent ((h n).roundFor name counter body v k)
    eachInt := fun n name counter body i last k => silent ((h n).eachInt name counter body i last k)
    eachItem := fun n name counter body vs k => silent ((h n).eachItem name counter body vs k)
    assignment := fun n target op e p => silent ((h n).assignment target op e p)
    callNative := fun name args p => silent (stops_callNative env name args p)
    getProperty := fun v name p j => silent (stops_getProperty env v name p j)
    setProperty := fun v name p j u => silent (stops_setProperty env v name p j u)
    binary := fun op a b p => silent (stops_binary env op a b p)
    reassign := fun op a b p => silent (stops_reassign env op a b p)
    pieceText := fun v => silent (stops_pieceText env v) }

end

variable (w T) in
/-- The command belongs to a call of a function of the module that is under way in a run of `p`,
when `q` is left of it: the node of the call began before the halt, the rest of its arguments is
being evaluated, and their values make up the command. -/
inductive Underway (p : Program κ α) (s : σ) (q : Program κ α) (s' : σ) (c : κ) : Prop
  | intro {n : Nat} {name : String} {args : List Expr} {start place : Position} {frame : Frame}
      {k : Except Interrupt Value × Frame → Program κ α} {s₀ : σ}
      {rest : Program κ (Except Interrupt (List Value) × Frame)} {vs : List Value} {frame' : Frame}
      (some_args : args ≠ [])
      (begun : p.Reaches w s
        ((node env (n + 1) (.moduleCall env.modulePath name args start place) frame).bind k) s₀)
      (before : ¬ T s₀)
      (evaluating : (values env n args [] frame).Reaches w s₀ rest s')
      (now : q = (rest.bind (followedBy (calling env env.modulePath name start place))).bind k)
      (there : (rest.run w s').1 = (.ok vs, frame'))
      (as_many : vs.length = args.length)
      (gives : env.moduleFunction name vs = some c)

theorem function_of_calling {path : List String} {name : String} {start p : Position}
    {vs : List Value} {frame : Frame} {c : κ}
    {g : Except String Value → Program κ (Except Interrupt Value × Frame)}
    (h : calling env path name start p vs frame = .ask c g) :
    path = env.modulePath ∧ env.moduleFunction name vs = some c := by
  unfold calling callModule at h
  by_cases hmodule : env.modulePath.isEmpty || path.head? != env.modulePath.head?
  · rw [if_pos hmodule] at h
    cases h
  rw [if_neg hmodule] at h
  dsimp only at h
  generalize hd : (if path = env.modulePath then env.moduleFunction name vs else none) = command
    at h
  cases command with
  | none => cases h
  | some d =>
    by_cases hpath : path = env.modulePath
    · rw [if_pos hpath] at hd
      cases h
      exact ⟨hpath, hd⟩
    · rw [if_neg hpath] at hd
      cases hd

/-- The calls that a script leaves to the end are such calls. -/
theorem underway_of_terms {p q : Program κ α} {s s' : σ} {c : κ}
    (hu : Program.Underway (terms env) w T p s q s' c) : Underway env w T p s q s' c := by
  obtain @⟨_, _, _, rest, _, _, s₀, _, hcall, hbegun, hbefore, hevaluating, hnow, hgives⟩ := hu
  obtain @⟨n, path, name, args, start, place, frame, hargs, hfirst⟩ := hcall
  have hresult := ((allStop_terms env n).values args [] frame).result (fun _ => trivial) w s₀
  rw [← hevaluating.run_eq] at hresult
  generalize hend : rest.run w s' = ended at hresult hgives
  obtain ⟨⟨r | vs, frame'⟩, s''⟩ := ended
  · cases hgives
  obtain ⟨rfl, hfunction⟩ := function_of_calling env hgives
  refine .intro hargs ?_ hbefore hevaluating hnow (congrArg Prod.fst hend) ?_ hfunction
  · rw [node_moduleCall env n _ name start place hfirst, bind_apply]
    exact hbegun
  · exact hresult.trans (by rw [List.length_nil, Nat.zero_add])

end EditorScripting.Script.Eval
