import EditorScripting.Proofs.Guest.Serving
import EditorScripting.Proofs.Interpreter.Stopping

/-!
What an evaluation leaves in the stream of failures. Each failure is filed once, after everything
that refreshes have filed in the course of the expression.
-/
namespace EditorScripting

open Host Script Guest

/-- Files some entries, one after the other. -/
def Diagnostics.recordAll (d : Diagnostics) (entries : List Diagnostic) : Diagnostics :=
  entries.foldl record d

theorem Diagnostics.recordAll_append (d : Diagnostics) (entries entries' : List Diagnostic) :
    d.recordAll (entries ++ entries') = (d.recordAll entries).recordAll entries' :=
  List.foldl_append

/-- The newest entry is never pushed out. -/
theorem Diagnostics.getLast?_record (d : Diagnostics) (entry : Diagnostic) :
    (d.record entry).entries.getLast? = some entry := by
  simp [record]

namespace Guest.Running

variable {σ : Type} (around : Surroundings σ)

/-- The entries that a refresh files. -/
def refreshEntries (r : Running σ) : List Diagnostic :=
  (r.bridge.refresh around.host r.shared).1.failures.map fun (name, f) => Bridge.diagnostic name f

/-- The entries that a command files. Only a refresh files any. -/
def commandEntries (c : Command) (r : Running σ) : List Diagnostic :=
  match c with
  | .refresh => r.refreshEntries around
  | _ => []

/-- The entries that the commands of a program file. -/
def programEntries {α : Type} (limit : Nat) : Program Command α → Running σ → List Diagnostic
  | .done _, _ => []
  | .step k, r =>
    let (answer, r) := (world around limit).step r
    programEntries limit (k answer) r
  | .probe n k, r =>
    let (answer, r) := (world around limit).probe n r
    programEntries limit (k answer) r
  | .retain h k, r => programEntries limit k ((world around limit).retain h r)
  | .release h k, r => programEntries limit k ((world around limit).release h r)
  | .ask c k, r =>
    let (answer, r') := (world around limit).ask c r
    (r.elapse around).commandEntries around c ++ programEntries limit (k answer) r'

variable {around}

theorem operation_of_mem_refreshEntries {r : Running σ} {entry : Diagnostic}
    (he : entry ∈ r.refreshEntries around) : entry.operation = "installing symbol" := by
  obtain ⟨⟨name, f⟩, -, rfl⟩ := List.mem_map.mp he
  rfl

theorem operation_of_mem_programEntries {α : Type} {limit : Nat} {p : Program Command α}
    {r : Running σ} {entry : Diagnostic} (he : entry ∈ programEntries around limit p r) :
    entry.operation = "installing symbol" := by
  induction p generalizing r with
  | done a => cases he
  | step k ih => exact ih _ he
  | probe n k ih => exact ih _ he
  | retain h k ih => exact ih he
  | release h k ih => exact ih he
  | ask c k ih =>
    rcases List.mem_append.mp he with hc | hk
    · cases c with
      | refresh => exact operation_of_mem_refreshEntries hc
      | _ => cases hc
    · exact ih _ hk

theorem bridge_step (limit : Nat) (r : Running σ) :
    ((world around limit).step r).2.bridge = r.bridge := by
  unfold world step
  dsimp only
  split <;> rfl

theorem bridge_probe (limit n : Nat) (r : Running σ) :
    ((world around limit).probe n r).2.bridge = r.bridge := by
  unfold world probe
  dsimp only
  split <;> rfl

theorem bridge_retain (limit : Nat) (h : Handle) (r : Running σ) :
    ((world around limit).retain h r).bridge = r.bridge := by
  unfold world retain
  dsimp only
  split <;> rfl

theorem bridge_release (limit : Nat) (h : Handle) (r : Running σ) :
    ((world around limit).release h r).bridge = r.bridge := by
  unfold world release
  dsimp only
  split <;> rfl

variable (around)

theorem bridge_gives (hs : List Handle) (r : Running σ) :
    (hs.foldl (fun r h => r.give around h) r).bridge = r.bridge := by
  induction hs generalizing r with
  | nil => rfl
  | cons h hs ih => exact ih _

theorem diagnostics_perform (c : Command) (r : Running σ) :
    (r.perform around c).2.bridge.diagnostics =
      r.bridge.diagnostics.recordAll (r.commandEntries around c) := by
  cases c with
  | refresh =>
    unfold perform commandEntries refreshEntries Diagnostics.recordAll Bridge.refresh
    rw [List.foldl_map]
  | symbols =>
    have hgives := bridge_gives around r.bridge.dictionary.handles r
    rw [Dictionary.handles, List.foldl_map] at hgives
    exact congrArg Bridge.diagnostics hgives
  | symbol name =>
    unfold perform
    dsimp only
    split <;> rfl
  | wrap name =>
    unfold perform
    dsimp only
    split <;> rfl
  | invoke h =>
    unfold perform
    dsimp only
    split <;> rfl
  | _ => rfl

/-- A program files the entries of its commands and nothing else. -/
theorem diagnostics_run {α : Type} (limit : Nat) (p : Program Command α) (r : Running σ) :
    (p.run (world around limit) r).2.bridge.diagnostics =
      r.bridge.diagnostics.recordAll (programEntries around limit p r) := by
  induction p generalizing r with
  | done a => rfl
  | step k ih =>
    have hrest := ih ((world around limit).step r).1 ((world around limit).step r).2
    rw [bridge_step] at hrest
    exact hrest
  | probe n k ih =>
    have hrest := ih ((world around limit).probe n r).1 ((world around limit).probe n r).2
    rw [bridge_probe] at hrest
    exact hrest
  | retain h k ih =>
    have hrest := ih ((world around limit).retain h r)
    rw [bridge_retain] at hrest
    exact hrest
  | release h k ih =>
    have hrest := ih ((world around limit).release h r)
    rw [bridge_release] at hrest
    exact hrest
  | ask c k ih =>
    have hcommand := diagnostics_perform around c (r.elapse around)
    have hrest := ih ((world around limit).ask c r).1 ((world around limit).ask c r).2
    rw [show ((world around limit).ask c r).2.bridge.diagnostics = _ from hcommand,
      ← Diagnostics.recordAll_append] at hrest
    exact hrest

end Guest.Running

namespace Interpreter

variable {σ : Type}

section

variable (around : Surroundings σ) (i : Interpreter) (source : String) (s : σ)

/-- The entries that a phase of an evaluation files, if it takes place. -/
def phaseEntries (phase : Phase) : List Diagnostic :=
  ((phase.start around i source s).map fun (p, r) =>
    Running.programEntries around i.settings.maxOperations.toNat p r).getD []

/-- The entries that refreshes file in the course of an evaluation. -/
def guestEntries : List Diagnostic :=
  phaseEntries around i source s .expression ++ phaseEntries around i source s .conversion

end

variable {around : Surroundings σ} {i : Interpreter} {source : String} {s : σ}

theorem operation_of_mem_guestEntries {entry : Diagnostic}
    (he : entry ∈ guestEntries around i source s) : entry.operation = "installing symbol" := by
  have hphase : ∀ phase, entry ∈ phaseEntries around i source s phase →
      entry.operation = "installing symbol" := by
    intro phase hm
    unfold phaseEntries at hm
    cases hp : phase.start around i source s with
    | none =>
      rw [hp] at hm
      cases hm
    | some start =>
      rw [hp] at hm
      exact Running.operation_of_mem_programEntries hm
  rcases List.mem_append.mp he with hm | hm
  · exact hphase _ hm
  · exact hphase _ hm

theorem diagnostics_equipped :
    (equipped around i s).bridge.diagnostics = i.diagnostics := by
  unfold equipped
  rw [Running.bridge_gives]
  rfl

theorem phaseEntries_of_none {phase : Phase} (hp : phase.start around i source s = none) :
    phaseEntries around i source s phase = [] := by
  unfold phaseEntries
  rw [hp]
  rfl

theorem diagnostics_phase {phase : Phase} {p : Program Command (Except Failed Value)}
    {r r' : Running σ} {v : Except Failed Value}
    (hp : phase.start around i source s = some (p, r))
    (hr : phase.run around i source s = some (v, r')) :
    r'.bridge.diagnostics =
      r.bridge.diagnostics.recordAll (phaseEntries around i source s phase) := by
  have hrun := Running.diagnostics_run around i.settings.maxOperations.toNat p r
  unfold Phase.run at hr
  unfold phaseEntries
  rw [hp] at hr ⊢
  rw [show p.run (Running.world around i.settings.maxOperations.toNat) r = (v, r') from
    Option.some.inj hr] at hrun
  exact hrun

theorem diagnostics_expression {v : Except Failed Value} {r : Running σ}
    (hr : Phase.run around i source s .expression = some (v, r)) :
    r.bridge.diagnostics =
      i.diagnostics.recordAll (phaseEntries around i source s .expression) := by
  obtain ⟨p, hp, -⟩ := Option.map_eq_some_iff.mp hr
  have hphase := diagnostics_phase hp hr
  obtain ⟨body, -, rfl⟩ := expressionStart_eq_some_iff.mp hp
  rw [diagnostics_equipped] at hphase
  exact hphase

theorem diagnostics_conversion {v : Except Failed Value} {r : Running σ}
    (hr : Phase.run around i source s .conversion = some (v, r)) :
    r.bridge.diagnostics = i.diagnostics.recordAll (guestEntries around i source s) := by
  obtain ⟨p, hp, -⟩ := Option.map_eq_some_iff.mp hr
  have hphase := diagnostics_phase hp hr
  obtain ⟨w, r', body, hr', -, rfl⟩ := conversionStart_eq_some_iff.mp hp
  dsimp only at hphase
  rw [hphase, diagnostics_expression hr', guestEntries, Diagnostics.recordAll_append]

/-- Without a conversion, only the expression files entries. -/
theorem guestEntries_of_no_conversion (hn : ∀ p, conversionStart around i source s ≠ some p) :
    guestEntries around i source s = phaseEntries around i source s .expression := by
  have hnone : Phase.start around i source s .conversion = none :=
    Option.eq_none_iff_forall_ne_some.mpr hn
  rw [guestEntries, phaseEntries_of_none hnone, List.append_nil]

variable (around i source s)

/-- Whichever way the programs come to an end, what refreshes have filed is in the stream. -/
theorem diagnostics_outcome :
    (outcome around i source s).2.bridge.diagnostics =
      i.diagnostics.recordAll (guestEntries around i source s) := by
  rcases outcome_cases around i source s with
    ⟨f, hc, ho⟩ | ⟨f, r, hr, ho⟩ | ⟨v, r, f, hr, hc, ho⟩ | ⟨v, r, hr, ho⟩ <;> rw [ho]
  · have hexpression : Phase.start around i source s .expression = none := by
      unfold Phase.start expressionStart
      rw [hc]
      rfl
    have hconversion : ∀ p, conversionStart around i source s ≠ some p := by
      intro p hp
      obtain ⟨v, r, body, hr, -, -⟩ := conversionStart_eq_some_iff.mp hp
      rw [Phase.run, hexpression] at hr
      cases hr
    rw [guestEntries_of_no_conversion hconversion, phaseEntries_of_none hexpression]
    exact diagnostics_equipped
  · have hconversion : ∀ p, conversionStart around i source s ≠ some p := by
      intro p hp
      obtain ⟨v, r', body, hr', -, -⟩ := conversionStart_eq_some_iff.mp hp
      rw [hr] at hr'
      cases hr'
    rw [guestEntries_of_no_conversion hconversion]
    exact diagnostics_expression hr
  · have hconversion : ∀ p, conversionStart around i source s ≠ some p := by
      intro p hp
      obtain ⟨v', r', body, -, hc', -⟩ := conversionStart_eq_some_iff.mp hp
      rw [hc] at hc'
      cases hc'
    rw [guestEntries_of_no_conversion hconversion]
    exact diagnostics_expression hr
  · exact diagnostics_conversion hr

/-- An evaluation files its failure after all that refreshes have filed. -/
theorem diagnostics_evaluate :
    (i.evaluate around source s).2.1.diagnostics =
      match (i.evaluate around source s).1 with
      | .ok _ => i.diagnostics.recordAll (guestEntries around i source s)
      | .error f =>
        (i.diagnostics.recordAll (guestEntries around i source s)).recordFailure f := by
  rw [← diagnostics_outcome, evaluate_eq]
  generalize outcome around i source s = o
  obtain ⟨f | text, r⟩ := o
  · rfl
  · rfl

/-- The labels of failures, by whether there is a source text to evaluate. -/
def callLabels : Except Failure String → List String
  | .error _ => ["checking argument", "accessing host value"]
  | .ok _ => ["compiling", "evaluating expression", "converting to string"]

variable {around i source s}

theorem operation_of_sourceOf {host : Interface σ} {h : Handle} {f : Failure}
    (hf : sourceOf host s h = .error f) : f.operation ∈ callLabels (.error f) := by
  unfold sourceOf at hf
  split at hf <;> cases hf
  · exact .head _
  · exact .tail _ (.head _)

theorem operation_of_classify (w : Watchdog) (f : Failed) :
    (classify w f).operation = "evaluating expression" := by
  unfold classify
  split <;> rfl

theorem operation_of_converted {v : Except Failed Value} {f : Failure}
    (hf : converted v = .error f) : f.operation = "converting to string" := by
  unfold converted at hf
  split at hf <;> cases hf <;> rfl

theorem operation_of_compile {settings : Settings} {globals : List Binding} {f : Failure}
    (hf : compile settings globals source = .error f) : f.operation = "compiling" := by
  unfold compile at hf
  split at hf <;> cases hf
  rfl

theorem operation_of_conversion {settings : Settings} {f : Failure}
    (hf : conversion settings = .error f) : f.operation = "compiling" := by
  unfold conversion at hf
  split at hf <;> cases hf
  rfl

theorem operation_of_evaluate {f : Failure} (hf : (i.evaluate around source s).1 = .error f) :
    f.operation ∈ callLabels (.ok source) := by
  rw [evaluate_eq] at hf
  dsimp only at hf
  rcases outcome_cases around i source s with
    ⟨g, hc, ho⟩ | ⟨g, r, -, ho⟩ | ⟨v, r, g, -, hc, ho⟩ | ⟨v, r, -, ho⟩ <;> rw [ho] at hf
  · rw [← Except.error.inj hf, operation_of_compile hc]
    exact .head _
  · rw [← Except.error.inj hf, operation_of_classify]
    exact .tail _ (.head _)
  · rw [← Except.error.inj hf, operation_of_conversion hc]
    exact .head _
  · rw [operation_of_converted hf]
    exact .tail _ (.tail _ (.head _))

section

variable (around : Surroundings σ) (i : Interpreter) (h : Handle) (s : σ)

/-- What the expression in a host string comes to: the text of its value, or a failure. -/
def answerOf : Except Failure String :=
  match sourceOf around.host s h with
  | .ok source => (i.evaluate around source s).1
  | .error f => .error f

/-- The entries that refreshes file in the course of the expression in a host string. -/
def callEntries : List Diagnostic :=
  match sourceOf around.host s h with
  | .ok source => guestEntries around i source s
  | .error _ => []

end

/-- The result of a call on an editor: a string of that text, which is none of the objects that
were there. -/
theorem string_of_evaluate {editor : σ → Editor} (he : around.Serves editor)
    (hs : (editor s).Reachable) {text : String}
    (hf : (editor (around.host.makeString text (i.evaluate around source s).2.2).2).heap.Fits) :
    let u := (i.evaluate around source s).2.2
    let (result, t) := around.host.makeString text u
    result ≠ around.host.nil t ∧ (editor u).heap.isLive result = false ∧
      around.host.stringValue t result = .ok (some text) := by
  have hu : (editor (i.evaluate around source s).2.2).Reachable :=
    tracks_evaluate (m := 0) he.tracks (fun w hb => by rw [he.setWatchdog]; exact hb) hs
  generalize (i.evaluate around source s).2.2 = u at hf hu ⊢
  obtain ⟨hresult, heditor⟩ := he.makeString text u
  dsimp only
  rw [heditor] at hf
  rw [he.nil, he.stringValue, hresult, heditor]
  exact ⟨hu.makeString_ne_nil hf, hu.makeString_fresh hf, hu.stringValue_makeString hf⟩

theorem evaluateExpression_of_argument {h : Handle} {f : Failure}
    (hsource : sourceOf around.host s h = .error f) :
    i.evaluateExpression around h s =
      (around.host.nil s, i.withDiagnostics (i.diagnostics.recordFailure f), s) := by
  unfold evaluateExpression
  rw [hsource]
  rfl

theorem evaluateExpression_of_failure {h : Handle} {f : Failure}
    (hsource : sourceOf around.host s h = .ok source)
    (hf : (i.evaluate around source s).1 = .error f) :
    i.evaluateExpression around h s =
      (around.host.nil (i.evaluate around source s).2.2, (i.evaluate around source s).2) := by
  unfold evaluateExpression
  rw [hsource]
  dsimp only
  generalize i.evaluate around source s = e at hf ⊢
  obtain ⟨result, j, u⟩ := e
  subst hf
  rfl

theorem evaluateExpression_of_text {h : Handle} {text : String}
    (hsource : sourceOf around.host s h = .ok source)
    (ht : (i.evaluate around source s).1 = .ok text) :
    i.evaluateExpression around h s =
      let (result, t) := around.host.makeString text (i.evaluate around source s).2.2
      (result, (i.evaluate around source s).2.1, t) := by
  unfold evaluateExpression
  rw [hsource]
  dsimp only
  generalize i.evaluate around source s = e at ht ⊢
  obtain ⟨result, j, u⟩ := e
  subst ht
  rfl

/-- A call either fails, returns nil and files its failure as the last entry, or it returns a new
string with the text of the value and files nothing. All other entries are those of refreshes in the
course of the expression, and come before. On an editor, the string is another object than nil. -/
theorem evaluateExpression_reports (around : Surroundings σ) (i : Interpreter) (h : Handle)
    (s : σ) :
    let after := i.evaluateExpression around h s
    let entries := callEntries around i h s
    (∀ entry ∈ entries, entry.operation = "installing symbol") ∧
    match answerOf around i h s with
    | .error f =>
      after.1 = around.host.nil after.2.2 ∧
      after.2.1.diagnostics =
        (i.diagnostics.recordAll entries).record ⟨f.operation, f.message⟩ ∧
      after.2.1.diagnostics.entries.getLast? = some ⟨f.operation, f.message⟩ ∧
      f.operation ∈ callLabels (sourceOf around.host s h)
    | .ok text =>
      after.2.1.diagnostics = i.diagnostics.recordAll entries ∧
      ∃ source, sourceOf around.host s h = .ok source ∧
        (after.1, after.2.2) = around.host.makeString text (i.evaluate around source s).2.2 ∧
        ∀ editor, around.Serves editor → (editor s).Reachable → (editor after.2.2).heap.Fits →
          after.1 ≠ around.host.nil after.2.2 ∧
          (editor (i.evaluate around source s).2.2).heap.isLive after.1 = false ∧
          around.host.stringValue after.2.2 after.1 = .ok (some text) := by
  cases hsource : sourceOf around.host s h with
  | error f =>
    have hcall : callEntries around i h s = [] := by rw [callEntries, hsource]
    have hanswer : answerOf around i h s = .error f := by rw [answerOf, hsource]
    rw [hcall, hanswer, evaluateExpression_of_argument hsource]
    exact ⟨nofun, rfl, rfl, Diagnostics.getLast?_record _ _, operation_of_sourceOf hsource⟩
  | ok source =>
    have hentries : ∀ entry ∈ guestEntries around i source s,
        entry.operation = "installing symbol" := fun _ => operation_of_mem_guestEntries
    have hdiagnostics := diagnostics_evaluate around i source s
    have hcall : callEntries around i h s = guestEntries around i source s := by
      rw [callEntries, hsource]
    cases hresult : (i.evaluate around source s).1 with
    | error f =>
      have hanswer : answerOf around i h s = .error f := by rw [answerOf, hsource, ← hresult]
      rw [hcall, hanswer, evaluateExpression_of_failure hsource hresult]
      rw [hresult] at hdiagnostics
      refine ⟨hentries, rfl, hdiagnostics, ?_, operation_of_evaluate hresult⟩
      exact (congrArg (·.entries.getLast?) hdiagnostics).trans (Diagnostics.getLast?_record _ _)
    | ok text =>
      have hanswer : answerOf around i h s = .ok text := by rw [answerOf, hsource, ← hresult]
      rw [hcall, hanswer, evaluateExpression_of_text hsource hresult]
      rw [hresult] at hdiagnostics
      exact ⟨hentries, hdiagnostics, source, rfl, rfl, fun editor he hs hf =>
        string_of_evaluate he hs hf⟩

/-- A stage with an editor that has the text of an expression. -/
def asking : Session.Stage :=
  ((Session.Stage.ofEditor (.ofBuffer (.ofText "" none))).onEditor (·.makeString "6 * 7")).2

theorem evaluateExpression_reports_product :
    (Session.Stage.around "main").Serves Session.Stage.editor ∧ asking.editor.Reachable ∧
    let after := usual.evaluateExpression (Session.Stage.around "main") ⟨21, 0⟩ asking
    after.2.2.editor.heap.Fits ∧ after.1 ≠ after.2.2.editor.nil ∧
      after.2.2.editor.stringValue after.1 = .ok (some "42") := by
  have hserves := Session.Stage.serves_around "main"
  have hreachable : asking.editor.Reachable := ⟨.ofText "" none, [.makeString "6 * 7"], rfl⟩
  have hanswer : answerOf (Session.Stage.around "main") usual ⟨21, 0⟩ asking = .ok "42" := by
    unfold answerOf evaluate evaluateArmed runExpression
    rw [show usual.settings = .default from rfl, environment_default]
    decide +kernel
  have hfits : (usual.evaluateExpression (Session.Stage.around "main") ⟨21, 0⟩
      asking).2.2.editor.heap.Fits := by
    unfold evaluateExpression evaluate evaluateArmed runExpression Heap.Fits
    rw [show usual.settings = .default from rfl, environment_default]
    decide +kernel
  have hreports := evaluateExpression_reports (Session.Stage.around "main") usual ⟨21, 0⟩ asking
  rw [hanswer] at hreports
  obtain ⟨-, -, source, -, -, hstring⟩ := hreports
  obtain ⟨hne, -, htext⟩ := hstring _ hserves hreachable hfits
  exact ⟨hserves, hreachable, hfits, hne, htext⟩

end Interpreter

end EditorScripting
