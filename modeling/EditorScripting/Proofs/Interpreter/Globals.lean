import Mathlib.Data.List.Dedup
import EditorScripting.Proofs.Editor.References
import EditorScripting.Proofs.Interpreter.Confined

/-!
The global variables. Evaluations never change them, so they are what definitions have made of them,
and an expression finds under each name the value that was defined last.
-/
namespace EditorScripting

open Host Script Guest

namespace Interpreter

/-- The value that some definitions, oldest first, give to a name. -/
def latest (ds : List (String × Value)) (name : String) : Option Value := ds.reverse.lookup name

/-- The variables that some definitions make: one for each name, and the name that was defined first
comes last. -/
def defined (ds : List (String × Value)) : List Binding :=
  (ds.reverse.map (·.1)).dedup.filterMap fun name => (latest ds name).map fun v => ⟨name, v, false⟩

/-- The constant that every interpreter starts with. -/
def versionConstant : Binding := ⟨"version", .string version, true⟩

theorem latest_concat (ds : List (String × Value)) (name other : String) (v : Value) :
    latest (ds ++ [(name, v)]) other = if other = name then some v else latest ds other := by
  unfold latest
  rw [List.reverse_append, List.reverse_singleton, List.singleton_append, List.lookup_cons]
  by_cases ho : other = name
  · simp [ho]
  · simp [ho, beq_eq_false_iff_ne.mpr ho]

theorem latest_eq_none_iff {ds : List (String × Value)} {name : String} :
    latest ds name = none ↔ name ∉ ds.map (·.1) := by
  unfold latest
  rw [List.lookup_eq_none_iff]
  simp
  grind

theorem mem_names {ds : List (String × Value)} {name : String} :
    name ∈ (ds.reverse.map (·.1)).dedup ↔ name ∈ ds.map (·.1) := by
  simp

theorem mem_defined {ds : List (String × Value)} {b : Binding} :
    b ∈ defined ds ↔ ∃ v, latest ds b.name = some v ∧ b = ⟨b.name, v, false⟩ := by
  unfold defined
  rw [List.mem_filterMap]
  constructor
  · rintro ⟨name, -, hb⟩
    obtain ⟨v, hv, rfl⟩ := Option.map_eq_some_iff.mp hb
    exact ⟨v, hv, rfl⟩
  · rintro ⟨v, hv, hb⟩
    refine ⟨b.name, mem_names.mpr ?_, by rw [hv, Option.map_some, ← hb]⟩
    by_contra hn
    rw [latest_eq_none_iff.mpr hn] at hv
    cases hv

theorem exists_latest {ds : List (String × Value)} {name : String} (hm : name ∈ ds.map (·.1)) :
    ∃ v, latest ds name = some v :=
  Option.ne_none_iff_exists'.mp fun hnone => latest_eq_none_iff.mp hnone hm

/-- No name is left out, and none comes twice. -/
theorem map_name_defined (ds : List (String × Value)) :
    (defined ds).map (·.name) = (ds.reverse.map (·.1)).dedup := by
  unfold defined
  rw [List.map_filterMap]
  conv_rhs => rw [← List.filterMap_some (l := (ds.reverse.map (·.1)).dedup)]
  refine List.filterMap_congr fun name hm => ?_
  obtain ⟨v, hv⟩ := exists_latest (mem_names.mp hm)
  rw [hv]
  rfl

/-- Under a name there is the value that was defined last. -/
theorem find?_defined (ds : List (String × Value)) (name : String) :
    (defined ds).find? (·.name == name) = (latest ds name).map fun v => ⟨name, v, false⟩ := by
  cases hv : latest ds name with
  | none =>
    rw [Option.map_none, List.find?_eq_none]
    intro b hb
    obtain ⟨w, hw, -⟩ := mem_defined.mp hb
    simp only [beq_iff_eq]
    rintro rfl
    rw [hv] at hw
    cases hw
  | some v =>
    have hm : (⟨name, v, false⟩ : Binding) ∈ defined ds := mem_defined.mpr ⟨v, hv, rfl⟩
    cases hf : (defined ds).find? (·.name == name) with
    | none => exact absurd (List.find?_eq_none.mp hf _ hm) (by simp)
    | some b =>
      obtain ⟨w, hw, hb⟩ := mem_defined.mp (List.mem_of_find?_eq_some hf)
      have hname : b.name = name := by simpa using List.find?_some hf
      rw [hname, hv] at hw
      rw [hb, hname, Option.some.inj hw, Option.map_some]

/-- A name that was defined before keeps its place. -/
theorem defined_concat_of_mem {ds : List (String × Value)} {name : String} (v : Value)
    (hm : name ∈ ds.map (·.1)) : defined (ds ++ [(name, v)]) =
      (defined ds).map fun b => if b.name = name then { b with value := v } else b := by
  have hm' : name ∈ ds.reverse.map (·.1) := by simpa using hm
  unfold defined
  rw [List.reverse_append, List.reverse_singleton, List.singleton_append, List.map_cons,
    List.dedup_cons_of_mem hm', List.map_filterMap]
  refine List.filterMap_congr fun other ho => ?_
  obtain ⟨w, hw⟩ := exists_latest (mem_names.mp ho)
  rw [latest_concat, hw, Option.map_some]
  by_cases hname : other = name <;> simp [hname]

theorem defined_concat_of_not_mem {ds : List (String × Value)} {name : String} (v : Value)
    (hm : name ∉ ds.map (·.1)) :
    defined (ds ++ [(name, v)]) = ⟨name, v, false⟩ :: defined ds := by
  have hm' : name ∉ ds.reverse.map (·.1) := by simpa using hm
  unfold defined
  rw [List.reverse_append, List.reverse_singleton, List.singleton_append, List.map_cons,
    List.dedup_cons_of_notMem hm', List.filterMap_cons, latest_concat, if_pos rfl, Option.map_some]
  refine congrArg _ (List.filterMap_congr fun other ho => ?_)
  have hne : other ≠ name := by
    rintro rfl
    exact hm' (List.mem_dedup.mp ho)
  rw [latest_concat, if_neg hne]

theorem store_of_nodup {name : String} (v : Value) {globals : List Binding}
    (rest : List Binding) (hnodup : (globals.map (·.name)).Nodup)
    (hm : name ∈ globals.map (·.name)) : Eval.store name v (globals ++ rest) =
      (globals.map fun b => if b.name = name then { b with value := v } else b) ++ rest := by
  induction globals with
  | nil => cases hm
  | cons b globals ih =>
    rw [List.map_cons, List.nodup_cons] at hnodup
    rw [List.cons_append, Eval.store, List.map_cons, List.cons_append]
    by_cases hb : b.name = name
    · have hrest : ∀ c ∈ globals, (if c.name = name then { c with value := v } else c) = c := by
        intro c hc
        have hne : c.name ≠ name := by
          rintro hname
          exact hnodup.1 (List.mem_map.mpr ⟨c, hc, hname.trans hb.symm⟩)
        rw [if_neg hne]
      rw [if_pos (by simpa using hb), if_pos hb, List.map_congr_left hrest, List.map_id']
    · rw [List.map_cons, List.mem_cons] at hm
      have hm' := hm.resolve_left (Ne.symm hb)
      rw [if_neg (by simpa using hb), if_neg hb, ih hnodup.2 hm']

/-- A new definition takes effect where the newest binding of its name is a variable, and on top of
all others if there is none. -/
theorem bind_defined (ds : List (String × Value)) (name : String) (v : Value) :
    (bind name v (defined ds ++ [versionConstant])).1 =
      defined (ds ++ [(name, v)]) ++ [versionConstant] := by
  unfold bind
  rw [List.find?_append, find?_defined]
  by_cases hm : name ∈ ds.map (·.1)
  · obtain ⟨w, hw⟩ := exists_latest hm
    have hnames := map_name_defined ds
    rw [hw, defined_concat_of_mem v hm]
    refine store_of_nodup v _ ?_ ?_
    · rw [hnames]
      exact List.nodup_dedup _
    · rw [hnames]
      exact mem_names.mpr hm
  · rw [latest_eq_none_iff.mpr hm, defined_concat_of_not_mem v hm]
    by_cases hversion : name = "version"
    · simp [hversion, versionConstant]
    · simp [versionConstant, Ne.symm hversion]

section

variable {σ : Type} {around : Surroundings σ} {answers : σ → List Bool}

theorem globals_start {settings : Settings} {i : Interpreter} (hi : start settings = .ok i) :
    i.globals = [versionConstant] := by
  rw [eq_of_start hi]
  rfl

theorem globals_filing {α : Type} (r : Except Failure α) (i : Interpreter) :
    (filing r i).2.globals = i.globals := by
  cases r <;> rfl

theorem globals_evaluateExpression (i : Interpreter) (h : Handle) (s : σ) :
    (i.evaluateExpression around h s).2.1.globals = i.globals := by
  refine evaluateExpression_keeps around i s h (Q := fun j _ => j.globals = i.globals) ?_ ?_ ?_
  · intro f
    exact globals_filing _ i
  · intro source
    exact globals_evaluate around i source s
  · intro text j t hj
    exact hj

/-- The definitions among some events. -/
def Event.definitions (events : List (Event around answers)) : List (String × Value) :=
  events.filterMap fun
    | .defineGlobal name v => some (name, v)
    | _ => none

/-- Only definitions change the globals. -/
theorem globals_run {i : Interpreter} (hi : i.globals = [versionConstant]) (s : σ)
    (events : List (Event around answers)) :
    (Event.run i s events).1.globals = defined (Event.definitions events) ++ [versionConstant] := by
  induction events using List.reverseRecOn with
  | nil => exact hi
  | append_singleton events e ih =>
    rw [Event.run_concat, Event.definitions, List.filterMap_append, ← Event.definitions]
    generalize Event.run i s events = reached at ih ⊢
    obtain ⟨j, s⟩ := reached
    dsimp only at ih
    cases e with
    | evaluate source late hl =>
      rw [Event.apply, evaluateUntil_eq]
      dsimp only
      rw [globals_filing, ih]
      simp
    | evaluateExpression h =>
      rw [Event.apply, globals_evaluateExpression, ih]
      simp
    | refresh =>
      change j.globals = _
      rw [ih]
      simp
    | defineGlobal name v =>
      change (bind name v j.globals).1 = _
      rw [ih, bind_defined]
      simp
    | drain =>
      change j.globals = _
      rw [ih]
      simp
    | elsewhere f hf =>
      change j.globals = _
      rw [ih]
      simp

/-- The guest with copies of the wrappers in a list, the last one on top. -/
theorem foldl_give (hs : List Handle) (r : Running σ) :
    hs.foldl (fun r h => r.give around h) r =
      { r with
        shared := hs.foldl (fun s h => Wrapper.copy around.host h s) r.shared
        held := hs.reverse ++ r.held } := by
  induction hs generalizing r with
  | nil => rfl
  | cons h hs ih =>
    rw [List.foldl_cons, ih]
    simp [Running.give, Running.hold]

/-- A text that cannot be compiled is reported. The wrappers in the globals are copied and the
copies dropped, and nothing else is asked of the host. -/
theorem evaluate_of_malformed {i : Interpreter} {source : String} {f : Failure}
    (hc : compile i.settings i.globals source = .error f) (s : σ) :
    let hs := bindingHandles i.globals
    i.evaluate around source s =
      (.error f, i.withDiagnostics (i.diagnostics.recordFailure f),
        around.setWatchdog .idle (hs.reverse.foldl (fun s h => Wrapper.drop around.host h s)
          (hs.foldl (fun s h => Wrapper.copy around.host h s)
            (around.setWatchdog (Watchdog.arm i.settings.timeout (around.now s)) s)))) := by
  have ho : outcome around i source s = (.error f, equipped around i s) := by
    unfold outcome
    rw [hc]
  rw [evaluate_eq, ho]
  dsimp only
  unfold equipped
  rw [foldl_give]
  simp [fresh, Running.releaseAll, filing, withDiagnostics, diagnostics]

end

end Interpreter

namespace Session.Stage

/-- Copies that are dropped in the opposite order leave nothing behind, except that a copy without a
pin takes one away from others. -/
theorem drops_copies (hs : List Handle) (s : Stage) :
    hs.reverse.foldl (fun s h => Wrapper.drop host h s)
        (hs.foldl (fun s h => Wrapper.copy host h s) s) =
      { s with editor := (hs.filter (· ∈ s.hooks.pinFails)).foldl Editor.unpin s.editor } := by
  induction hs generalizing s with
  | nil => rfl
  | cons h hs ih =>
    have hdrop : ∀ s : Stage, Wrapper.drop host h s = { s with editor := s.editor.unpin h } :=
      fun _ => rfl
    rw [List.foldl_cons, List.reverse_cons, List.foldl_append, ih, List.foldl_cons, List.foldl_nil,
      hdrop]
    by_cases hrefused : h ∈ s.hooks.pinFails
    · have hcopy : Wrapper.copy host h s = s := by
        change (pin h s).2 = s
        rw [pin, if_pos hrefused]
      rw [hcopy, List.filter_cons_of_pos (by simpa using hrefused), List.foldl_cons,
        Editor.foldl_unpin_comm]
    · have hcopy : Wrapper.copy host h s = { s with editor := (s.editor.pin h).2 } := by
        change (pin h s).2 = _
        rw [pin, if_neg hrefused]
        rfl
      rw [hcopy, List.filter_cons_of_neg (by simpa using hrefused), ← Editor.foldl_unpin_comm,
        Editor.unpin_pin]

end Session.Stage

namespace Interpreter

variable {σ : Type} {around : Surroundings σ} {answers : σ → List Bool}

/-- On the stage of a session, pins are all that a text that cannot be compiled may change. -/
theorem evaluate_on_stage_of_malformed {i : Interpreter} {source : String} {f : Failure}
    (hc : compile i.settings i.globals source = .error f) (name : String) (stage : Session.Stage) :
    let refused := (bindingHandles i.globals).filter (· ∈ stage.hooks.pinFails)
    ∃ watchdogs, i.evaluate (Session.Stage.around name) source stage =
      (.error f, i.withDiagnostics (i.diagnostics.recordFailure f),
        { stage with editor := refused.foldl Editor.unpin stage.editor, watchdogs }) := by
  have hhost : (Session.Stage.around name).host = Session.Stage.host := rfl
  rw [evaluate_of_malformed hc, hhost, Session.Stage.drops_copies]
  exact ⟨_, rfl⟩

/-- What is found among the globals. -/
theorem find?_globals (ds : List (String × Value)) (name : String) :
    (defined ds ++ [versionConstant]).find? (·.name == name) =
      ((latest ds name).map fun v => ⟨name, v, false⟩).or
        (if name = "version" then some versionConstant else none) := by
  rw [List.find?_append, find?_defined]
  congr 1
  by_cases hversion : name = "version"
  · simp [versionConstant, hversion]
  · simp [versionConstant, hversion, Ne.symm hversion]

theorem find?_known (globals : List Binding) (name : String) :
    (known globals).find? (·.1 == name) = (globals.find? (·.name == name)).map fun b =>
      (b.name, if b.constant then some b.value else none) := by
  unfold known
  rw [List.find?_map]
  rfl

theorem look_of_find? {κ : Type} (env : Environment κ) {globals : List Binding} {name : String}
    {b : Binding} (hb : globals.find? (·.name == name) = some b) (p : Position) :
    Eval.look env (.ref name p) (.initial globals) = .done (.ok b, .initial globals) := by
  unfold Eval.look
  have hget : ∀ f : Frame → Eval κ Binding,
      (get >>= f) (.initial globals) = f (.initial globals) (.initial globals) := fun _ => rfl
  dsimp only
  rw [hget, show (Frame.initial globals).scope = globals from rfl, hb]
  rfl

/-- Whatever was evaluated in between, with whatever outcome, the globals are what the definitions
have made of the version constant. An expression finds under each name the value that was defined
last. A text that cannot be compiled changes nothing but the stream of failures, as long as the host
grants the pins for copies of the globals: each copy that is refused one takes a pin away. -/
theorem globals_of_definitions {settings : Settings} {i₀ : Interpreter}
    (hi : start settings = .ok i₀) (s : σ) (events : List (Event around answers)) :
    let i := (Event.run i₀ s events).1
    let ds := Event.definitions events
    i.globals = defined ds ++ [versionConstant] ∧
    (∀ name, i.globals.find? (·.name == name) =
      ((latest ds name).map fun v => ⟨name, v, false⟩).or
        (if name = "version" then some versionConstant else none)) ∧
    (∀ name v, latest ds name = some v →
      (known i.globals).find? (·.1 == name) = some (name, none) ∧
      ∀ env p, Eval.look (κ := Command) env (.ref name p) (.initial i.globals) =
        .done (.ok ⟨name, v, false⟩, .initial i.globals)) ∧
    ∀ source f, compile i.settings i.globals source = .error f →
      ∀ name (stage : Session.Stage),
        let refused := (bindingHandles i.globals).filter (· ∈ stage.hooks.pinFails)
        let editor := refused.foldl Editor.unpin stage.editor
        (∃ watchdogs, i.evaluate (Session.Stage.around name) source stage =
          (.error f, i.withDiagnostics (i.diagnostics.recordFailure f),
            { stage with editor, watchdogs })) ∧
        ∀ h, editor.heap.pinCount h = stage.editor.heap.pinCount h - refused.count h := by
  intro i ds
  have hglobals : i.globals = defined ds ++ [versionConstant] :=
    globals_run (globals_start hi) s events
  have hfind := find?_globals ds
  rw [← hglobals] at hfind
  refine ⟨hglobals, hfind, ?_, ?_⟩
  · intro name v hv
    have hnewest : i.globals.find? (·.name == name) = some ⟨name, v, false⟩ := by
      rw [hfind, hv]
      rfl
    refine ⟨?_, fun env p => look_of_find? env hnewest p⟩
    rw [find?_known, hnewest]
    rfl
  · intro source f hc name stage
    exact ⟨evaluate_on_stage_of_malformed hc name stage,
      fun h => Editor.pinCount_foldl_unpin stage.editor _ h⟩

/-! A wrapper is kept by the session and in a global. The host refuses the pin for the copy that an
evaluation gets, and dropping the copy takes a pin of the others. -/

theorem start_default : start .default = .ok usual := by
  have hok : (conversion .default).isOk = true := by decide +kernel
  unfold start
  cases hc : conversion .default with
  | error f =>
    rw [hc] at hok
    cases hok
  | ok body => rfl

/-- The wrapper becomes a global. -/
def kept : List (Event (Session.Stage.around "main") (Session.Stage.answersOf "main")) :=
  [.defineGlobal "g" (.object ⟨21, 0⟩)]

/-- A string with a pin for each of its two wrappers, which the host does not pin any more. -/
def refusing : Session.Stage :=
  let e := ((Editor.ofBuffer (.ofText "" none)).makeString "kept").2
  (Session.Stage.ofEditor ((e.pin ⟨21, 0⟩).2.pin ⟨21, 0⟩).2).withHooks
    ⟨[], [⟨21, 0⟩], none, 0, false⟩

theorem globals_of_definitions_refused :
    let i := (Event.run usual refusing kept).1
    start .default = .ok usual ∧
    i.globals = [⟨"g", .object ⟨21, 0⟩, false⟩, versionConstant] ∧
    refusing.editor.heap.pinCount ⟨21, 0⟩ = 2 ∧
    ∃ f, compile i.settings i.globals "(" = .error f ∧
      (i.evaluate (Session.Stage.around "main") "(" refusing).1 = .error f ∧
      (i.evaluate (Session.Stage.around "main") "(" refusing).2.2.editor.heap.pinCount ⟨21, 0⟩ =
        1 := by
  intro i
  obtain ⟨hglobals, -, -, hmalformed⟩ := globals_of_definitions start_default refusing kept
  have hrefused : (compile i.settings i.globals "(").isOk = false := by decide +kernel
  cases hc : compile i.settings i.globals "(" with
  | ok body =>
    rw [hc] at hrefused
    cases hrefused
  | error f =>
    obtain ⟨⟨watchdogs, heval⟩, hpins⟩ := hmalformed "(" f hc "main" refusing
    refine ⟨start_default, hglobals, by decide +kernel, f, rfl, ?_, ?_⟩
    · rw [heval]
    · rw [heval]
      exact (hpins ⟨21, 0⟩).trans (by decide +kernel)

end Interpreter

end EditorScripting
