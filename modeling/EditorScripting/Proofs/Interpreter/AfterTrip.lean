import EditorScripting.Proofs.Guest.Tripped
import EditorScripting.Proofs.Interpreter.Stopping
import EditorScripting.Proofs.Script.Halted

/-!
What an evaluation still does when it has to stop. Nothing that begins then reaches the host or the
dictionary. Only functions of the module whose arguments are being evaluated are still called with
them, so that point, mark and the table of symbols may change once more.
-/
namespace EditorScripting.Interpreter

open Host Script Guest

variable {σ : Type} (around : Surroundings σ) (i : Interpreter) (source : String) (s : σ)

/-- The commands of a phase, none if it does not take place. -/
def Phase.calls (phase : Phase) : List Command :=
  ((phase.start around i source s).map fun (p, r) => p.asks (world around i) r).getD []

/-- The commands after a phase. -/
def Phase.laterCalls : Phase → List Command
  | expression => conversion.calls around i source s
  | conversion => []

/-- The moments of an evaluation: the guest as it is then, and the commands that it still gives. -/
inductive Ahead : List Command → Running σ → Prop
  | equipping {hs rest} : bindingHandles i.globals = hs ++ rest →
      Ahead (Phase.expression.calls around i source s ++ Phase.conversion.calls around i source s)
        (hs.foldl (fun r h => r.give around h) (fresh around i s))
  | running {phase : Phase} {p r q r'} : phase.start around i source s = some (p, r) →
      p.Reaches (world around i) r q r' →
      Ahead (q.asks (world around i) r' ++ phase.laterCalls around i source s) r'
  | releasing {hs rest} : (outcome around i source s).2.held = hs ++ rest →
      Ahead [] { (outcome around i source s).2 with
        shared := hs.foldl (fun s h => Wrapper.drop around.host h s)
          (outcome around i source s).2.shared
        held := rest }

variable {around i source s}

theorem calls_of_start (phase : Phase) {p : Program Command (Except Failed Value)} {r : Running σ}
    (hp : phase.start around i source s = some (p, r)) :
    phase.calls around i source s = p.asks (world around i) r := by
  rw [Phase.calls, hp]
  rfl

/-- The conversion starts as the expression leaves the guest. -/
theorem expression_of_conversionStart {q : Program Command (Except Failed Value)} {r' : Running σ}
    (hq : conversionStart around i source s = some (q, r')) :
    ∃ p r, expressionStart around i source s = some (p, r) ∧
      r' = { (p.run (world around i) r).2 with operations := 0 } := by
  obtain ⟨v, rr, body, hr, -, he⟩ := conversionStart_eq_some_iff.mp hq
  obtain ⟨⟨p, r⟩, hp, hrun⟩ := Option.map_eq_some_iff.mp hr
  cases he
  exact ⟨p, r, hp, by rw [show p.run (world around i) r = (.ok v, rr) from hrun]⟩

/-- What the outcome is taken from: the guest after the last phase that takes place. -/
theorem outcome_eq {p : Program Command (Except Failed Value)} {r : Running σ}
    (hp : expressionStart around i source s = some (p, r)) :
    (outcome around i source s).2 =
      match conversionStart around i source s with
      | some (q, r') => (q.run (world around i) r').2
      | none => (p.run (world around i) r).2 := by
  obtain ⟨body, hc, he⟩ := expressionStart_eq_some_iff.mp hp
  cases he
  -- Both sides run the same programs, and stop at the same failures.
  unfold outcome runExpression conversionStart
  rw [hc, hp]
  simp only [Option.bind_eq_bind, Option.bind_some]
  rw [show Running.world around i.settings.maxOperations.toNat = world around i from rfl]
  generalize (runStatements (environment i.settings) i.globals body).run (world around i)
    (equipped around i s) = e
  obtain ⟨f | v, r'⟩ := e
  · rfl
  dsimp only
  cases conversion i.settings with
  | error f => rfl
  | ok body =>
    simp only [Except.toOption, Option.bind_some, Option.pure_def]
    split <;> rename_i hrun <;> rw [hrun]

section

variable {C : Command → Prop} {J : Bridge → σ → Prop} (hk : around.KeepsFor C J)
  {p q : Program Command (Except Failed Value)} {r r' : Running σ}
include hk

/-- What is kept from a moment of a phase on, is kept until the end of the phase. -/
theorem keeps_run (ha : p.Reaches (world around i) r q r')
    (hC : ∀ c ∈ q.asks (world around i) r', C c) (hJ : J r'.bridge r'.shared) :
    J (p.run (world around i) r).2.bridge (p.run (world around i) r).2.shared := by
  have hend := Program.run_keepsFor (hk.world i.settings.maxOperations.toNat) hC hJ
  rw [show Running.world around i.settings.maxOperations.toNat = world around i from rfl,
    ha.run_eq] at hend
  exact hend

theorem keeps_conversionStart (hp : expressionStart around i source s = some (p, r))
    (ha : p.Reaches (world around i) r q r') (hC : ∀ c ∈ q.asks (world around i) r', C c)
    (hJ : J r'.bridge r'.shared) {q' : Program Command (Except Failed Value)} {r'' : Running σ}
    (hq : conversionStart around i source s = some (q', r'')) : J r''.bridge r''.shared := by
  obtain ⟨p', r₀, hp', rfl⟩ := expression_of_conversionStart hq
  cases hp.symm.trans hp'
  exact keeps_run hk ha hC hJ

theorem keeps_expression (hp : expressionStart around i source s = some (p, r))
    (ha : p.Reaches (world around i) r q r')
    (hC : ∀ c ∈ q.asks (world around i) r' ++ Phase.conversion.calls around i source s, C c)
    (hJ : J r'.bridge r'.shared) :
    J (outcome around i source s).2.bridge (outcome around i source s).2.shared := by
  have hexpression : ∀ c ∈ q.asks (world around i) r', C c := fun c hc =>
    hC c (List.mem_append_left _ hc)
  rw [outcome_eq hp]
  cases hq : conversionStart around i source s with
  | none => exact keeps_run hk ha hexpression hJ
  | some start =>
    obtain ⟨q', r''⟩ := start
    have hstart := keeps_conversionStart hk hp ha hexpression hJ hq
    refine keeps_run hk .refl (fun c hc => hC c (List.mem_append_right _ ?_)) hstart
    rw [calls_of_start .conversion hq]
    exact hc

theorem keeps_conversion (hp : conversionStart around i source s = some (p, r))
    (ha : p.Reaches (world around i) r q r') (hC : ∀ c ∈ q.asks (world around i) r', C c)
    (hJ : J r'.bridge r'.shared) :
    J (outcome around i source s).2.bridge (outcome around i source s).2.shared := by
  obtain ⟨p', r₀, hp', -⟩ := expression_of_conversionStart hp
  rw [outcome_eq hp', hp]
  exact keeps_run hk ha hC hJ

theorem keeps_equipped
    (hC : ∀ c ∈ Phase.expression.calls around i source s ++
      Phase.conversion.calls around i source s, C c)
    (hJ : J (equipped around i s).bridge (equipped around i s).shared) :
    J (outcome around i source s).2.bridge (outcome around i source s).2.shared := by
  cases hc : compile i.settings i.globals source with
  | error f =>
    unfold outcome
    rw [hc]
    exact hJ
  | ok body =>
    have hp : expressionStart around i source s = some _ :=
      expressionStart_eq_some_iff.mpr ⟨body, hc, rfl⟩
    rw [calls_of_start .expression hp] at hC
    exact keeps_expression hk hp .refl hC hJ

/-- What is kept for all the commands that are still to come, is kept until the end. -/
theorem keeps_ahead {calls : List Command} (hr : Ahead around i source s calls r)
    (hC : ∀ c ∈ calls, C c) (hJ : J r.bridge r.shared) :
    J (outcome around i source s).2.bridge
      ((outcome around i source s).2.releaseAll around).shared := by
  cases hr with
  | @equipping hs rest he =>
    have hequipped : J (equipped around i s).bridge (equipped around i s).shared := by
      unfold equipped
      rw [he, List.foldl_append]
      exact hk.gives rest _ hJ
    exact hk.drops _ _ _ (keeps_equipped hk hC hequipped)
  | @running phase p r q r' hp ha =>
    refine hk.drops _ _ _ ?_
    cases phase with
    | expression => exact keeps_expression hk hp ha hC hJ
    | conversion =>
      exact keeps_conversion hk hp ha (fun c hc => hC c (List.mem_append_left _ hc)) hJ
  | @releasing hs rest he =>
    unfold Running.releaseAll
    rw [he, List.foldl_append]
    exact hk.drops rest _ _ hJ

end

/-- The evaluation has to stop. -/
def Halted (around : Surroundings σ) (r : Running σ) : Prop := around.Tripped r.shared

variable (around i source s) in
/-- The command belongs to a call that is under way at a moment of an evaluation: its node began
before the evaluation had to stop, and its arguments are being evaluated. -/
def Underway (r : Running σ) (c : Command) : Prop :=
  ∃ (phase : Phase) (p q : Program Command (Except Failed Value)) (r₀ : Running σ),
    phase.start around i source s = some (p, r₀) ∧
    Eval.Underway (environment i.settings) (world around i) (Halted around) p r₀ q r c

/-- Such a call has arguments. -/
theorem takesArgument_of_underway {r : Running σ} {c : Command}
    (hu : Underway around i source s r c) : c.TakesArgument := by
  obtain ⟨phase, p, q, r₀, -, hargs, -, -, -, -, -, hlength, hgives⟩ := hu
  refine Command.takesArgument_of_moduleFunction? hgives ?_
  rintro rfl
  exact hargs (List.eq_nil_of_length_eq_zero hlength.symm)

section

variable (hl : around.Lawful) (hf : around.Forward)
include hl hf

theorem halts_world : (world around i).Halts (Halted around) :=
  hl.halts hf i.settings.maxOperations.toNat

/-- The commands that come after a moment of a phase at which the evaluation has to stop. -/
theorem underway_asks {phase : Phase} {p q : Program Command (Except Failed Value)}
    {r r' : Running σ} (hp : phase.start around i source s = some (p, r))
    (ha : p.Reaches (world around i) r q r') (ht : Halted around r') :
    ∀ c ∈ q.asks (world around i) r', Underway around i source s r' c := by
  have hw : (world around i).Halts (Halted around) := halts_world hl hf
  have hanswers := answers_start (P := Eval.terms (environment i.settings)) (fun h => h) hp
  have hdown := hanswers.windsDown hw (fun _ => trivial) (s := r) fun _ => rfl
  exact fun c hc =>
    ⟨phase, p, q, r, hp, Eval.underway_of_terms _ (hdown q r' c ha ht hc)⟩

/-- A phase that starts too late gives no commands. -/
theorem calls_eq_nil (phase : Phase)
    (ht : ∀ p r, phase.start around i source s = some (p, r) → Halted around r) :
    phase.calls around i source s = [] := by
  unfold Phase.calls
  cases hp : phase.start around i source s with
  | none => rfl
  | some start =>
    have hanswers := answers_start (P := Eval.terms (environment i.settings)) (fun h => h) hp
    exact hanswers.quiet (halts_world hl hf) (fun _ => trivial) (ht _ _ hp)

/-- The commands that an evaluation still gives when it has to stop. -/
theorem underway_ahead {calls : List Command} {r : Running σ}
    (hr : Ahead around i source s calls r) (ht : Halted around r) :
    ∀ c ∈ calls, Underway around i source s r c := by
  have hk := (hl.tracks_tripped hf).keepsFor
  have hconversion {p q : Program Command (Except Failed Value)} {r r' : Running σ}
      (hp : expressionStart around i source s = some (p, r))
      (ha : p.Reaches (world around i) r q r') (ht : Halted around r') :
      Phase.conversion.calls around i source s = [] :=
    calls_eq_nil hl hf .conversion fun _ _ hq =>
      keeps_conversionStart hk hp ha (fun _ _ => trivial) ht hq
  cases hr with
  | @equipping hs rest he =>
    have hequipped : Halted around (equipped around i s) := by
      unfold equipped
      rw [he, List.foldl_append]
      exact hk.gives rest _ ht
    have hexpression {p : Program Command (Except Failed Value)} {r : Running σ}
        (hp : expressionStart around i source s = some (p, r)) : Halted around r := by
      obtain ⟨body, -, hb⟩ := expressionStart_eq_some_iff.mp hp
      cases hb
      exact hequipped
    have hnone : Phase.conversion.calls around i source s = [] :=
      calls_eq_nil hl hf .conversion fun q r' hq => by
        obtain ⟨p, r, hp, -⟩ := expression_of_conversionStart hq
        exact keeps_conversionStart hk hp .refl (fun _ _ => trivial) (hexpression hp) hq
    rw [hnone, calls_eq_nil hl hf .expression fun _ _ => hexpression]
    exact nofun
  | @running phase p r q r' hp ha =>
    have hlater : phase.laterCalls around i source s = [] := by
      cases phase with
      | expression => exact hconversion hp ha ht
      | conversion => rfl
    rw [hlater, List.append_nil]
    exact underway_asks hl hf hp ha ht
  | releasing he => exact nofun

/-- What can be seen of the host stays as it is from the trip on, but for calls that are there to
change it. -/
theorem view_after_trip {calls : List Command} {r : Running σ}
    (hr : Ahead around i source s calls r) (ht : Halted around r) {β : Type} {view : σ → β}
    {e : Effect} (hv : around.Shows view e) (he : ∀ c ∈ calls, c.effect? ≠ some e) :
    view (i.evaluate around source s).2.2 = view r.shared := by
  have hcalls := underway_ahead hl hf hr ht
  rw [evaluate_eq]
  dsimp only
  rw [hv.setWatchdog]
  exact keeps_ahead (hv.keepsFor (view r.shared)) hr
    (fun c hc => ⟨takesArgument_of_underway (hcalls c hc), he c hc⟩) rfl

end

theorem dictionary_filing {α : Type} (result : Except Failure α) (i : Interpreter) :
    (filing result i).2.dictionary = i.dictionary := by
  cases result <;> rfl

/-- Whenever an evaluation has to stop, nothing that begins from then on gives a command. The
commands that still come are those of functions of the module that take an argument, and they belong
to calls whose nodes had begun before and whose arguments are being evaluated. So the dictionary
stays as it is, and what can be seen of the host stays as well unless one of the calls is there to
change it. Whatever the language of the guest is, its programs give no more commands than that if
they are allowed to go on before each operation, calls of some kind excepted. -/
theorem calls_after_trip (hl : around.Lawful) (hf : around.Forward) (i : Interpreter)
    (source : String) (s : σ) {calls : List Command} {r : Running σ}
    (hr : Ahead around i source s calls r) (ht : Halted around r) :
    Eval.AllSilent (environment i.settings) (world around i) (Halted around) ∧
    (∀ c ∈ calls, c.TakesArgument ∧ Underway around i source s r c) ∧
    (i.evaluate around source s).2.1.dictionary = r.bridge.dictionary ∧
    (∀ {β : Type} (view : σ → β) (e : Effect), around.Shows view e →
      (∀ c ∈ calls, c.effect? ≠ some e) →
      view (i.evaluate around source s).2.2 = view r.shared) ∧
    ∀ {β : Type} (P : Terms Command) (Q : β → Prop) (p : Program Command β) (r₀ : Running σ),
      (∀ reason, P.stop reason) → p.Answers P Q .nothing →
      p.WindsDown P (world around i) (Halted around) r₀ := by
  have hcalls := underway_ahead hl hf hr ht
  have hw : (world around i).Halts (Halted around) := halts_world hl hf
  refine ⟨Eval.allSilent _ hw, fun c hc => ⟨takesArgument_of_underway (hcalls c hc), hcalls c hc⟩,
    ?_, fun view e hv he => view_after_trip hl hf hr ht hv he, fun P Q p r₀ hP hp => ?_⟩
  · rw [evaluate_eq]
    dsimp only
    rw [dictionary_filing]
    exact keeps_ahead (around.keepsFor_dictionary r.bridge.dictionary) hr
      (fun c hc => takesArgument_of_underway (hcalls c hc)) rfl
  · exact hp.windsDown hw hP fun _ => rfl

/-- On the stage of a session, after a trip point is only moved by calls to move it, the mark only
set by calls to set it, and a symbol only interned by calls to wrap one. -/
theorem editor_after_trip (name : String) (i : Interpreter) (source : String)
    (stage : Session.Stage) {calls : List Command} {r : Running Session.Stage}
    (hr : Ahead (Session.Stage.around name) i source stage calls r)
    (ht : Halted (Session.Stage.around name) r) :
    let editor := (i.evaluate (Session.Stage.around name) source stage).2.2.editor
    ((∀ n, .gotoChar n ∉ calls) → editor.buffer.point = r.shared.editor.buffer.point) ∧
    ((∀ n, .setMark n ∉ calls) → editor.buffer.mark = r.shared.editor.buffer.mark) ∧
    ((∀ x, .wrap x ∉ calls) → editor.obarray = r.shared.editor.obarray) := by
  have hl := Session.Stage.lawful_around name
  have hf := Session.Stage.forward_around name
  refine ⟨fun hnone => ?_, fun hnone => ?_, fun hnone => ?_⟩
  · refine view_after_trip hl hf hr ht (Session.Stage.shows_point name) fun c hc he => ?_
    cases c <;> cases he
    exact hnone _ hc
  · refine view_after_trip hl hf hr ht (Session.Stage.shows_mark name) fun c hc he => ?_
    cases c <;> cases he
    exact hnone _ hc
  · refine view_after_trip hl hf hr ht (Session.Stage.shows_symbols name) fun c hc he => ?_
    cases c <;> cases he
    exact hnone _ hc

/-! The request to stop comes while point is told, so that the mark can be set there. -/

/-- A stage with some text, on which asking for point asks the interpreter to stop. -/
def hurried : Session.Stage :=
  (Session.Stage.ofEditor (.ofBuffer (.ofText "hello" none))).withHooks
    ⟨[], [], some "main", 0, false⟩

/-- An expression that sets the mark to where point is, and goes on. -/
def marking : String := "emacs::set_mark(emacs::point()) + 1"

/-- Point has just been told, and the mark is still to be set. -/
theorem marking_ahead : ∃ r,
    Ahead (Session.Stage.around "main") usual marking hurried [.setMark 1] r ∧
      Halted (Session.Stage.around "main") r ∧ r.shared.editor.buffer.mark = none := by
  let w := world (Session.Stage.around "main") usual
  have hmoment : (expressionStart (Session.Stage.around "main") usual marking hurried).map
      (fun (p, r) =>
        let (q, r') := p.after w 4 r
        (q.asks w r', (r'.shared.watchdog "main").cancelled, r'.shared.editor.buffer.mark)) =
      some ([.setMark 1], true, none) := by
    unfold expressionStart
    rw [show usual.settings = .default from rfl, environment_default]
    decide +kernel
  have hlater :
      Phase.conversion.calls (Session.Stage.around "main") usual marking hurried = [] := by
    unfold Phase.calls Phase.start conversionStart expressionStart
    rw [show usual.settings = .default from rfl, environment_default]
    decide +kernel
  obtain ⟨⟨p, r⟩, hp, hafter⟩ := Option.map_eq_some_iff.mp hmoment
  dsimp only at hafter
  generalize ha : p.after w 4 r = moment at hafter
  obtain ⟨q, r'⟩ := moment
  obtain ⟨hasks, hrest⟩ := Prod.mk.inj hafter
  obtain ⟨hcancelled, hmark⟩ := Prod.mk.inj hrest
  have hstart : Phase.expression.start (Session.Stage.around "main") usual marking hurried =
    some (p, r) := hp
  have hahead := Ahead.running hstart ⟨4, ha⟩
  rw [hasks, Phase.laterCalls, hlater, List.append_nil] at hahead
  exact ⟨r', hahead, .inl hcancelled, hmark⟩

theorem calls_after_trip_marking :
    (Session.Stage.around "main").Lawful ∧ (Session.Stage.around "main").Forward ∧
    ∃ r, Ahead (Session.Stage.around "main") usual marking hurried [.setMark 1] r ∧
      Halted (Session.Stage.around "main") r ∧
      Underway (Session.Stage.around "main") usual marking hurried r (.setMark 1) ∧
      let (_, i, s) := usual.evaluate (Session.Stage.around "main") marking hurried
      i.dictionary = r.bridge.dictionary ∧
      s.editor.buffer.point = r.shared.editor.buffer.point ∧
      s.editor.obarray = r.shared.editor.obarray := by
  have hl := Session.Stage.lawful_around "main"
  have hf := Session.Stage.forward_around "main"
  obtain ⟨r, hr, ht, -⟩ := marking_ahead
  obtain ⟨-, hcalls, hdictionary, hview, -⟩ := calls_after_trip hl hf usual marking hurried hr ht
  exact ⟨hl, hf, r, hr, ht, (hcalls _ List.mem_cons_self).2, hdictionary,
    hview _ .point (Session.Stage.shows_point "main") (by decide),
    hview _ .symbols (Session.Stage.shows_symbols "main") (by decide)⟩

/-- The mark is set after the interpreter was asked to stop. -/
theorem mark_set_after_trip :
    ∃ r, Ahead (Session.Stage.around "main") usual marking hurried [.setMark 1] r ∧
      Halted (Session.Stage.around "main") r ∧ r.shared.editor.buffer.mark = none ∧
      (usual.evaluate (Session.Stage.around "main") marking hurried).2.2.editor.buffer.mark =
        some 1 := by
  obtain ⟨r, hr, ht, hmark⟩ := marking_ahead
  refine ⟨r, hr, ht, hmark, ?_⟩
  rw [evaluate_eq]
  unfold outcome runExpression
  rw [show usual.settings = .default from rfl, environment_default]
  decide +kernel

end EditorScripting.Interpreter
