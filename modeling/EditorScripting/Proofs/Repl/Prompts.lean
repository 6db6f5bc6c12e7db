import EditorScripting.Proofs.Bridge.Walk
import EditorScripting.Proofs.Editor.Tidy
import EditorScripting.Proofs.Interpreter.Globals
import EditorScripting.Proofs.Interpreter.Reporting
import EditorScripting.Repl.Command

/-!
The editor in the course of the loop. Each line is evaluated in a string of its own, and what it
leaves behind is collected before the next prompt, but not before its result has been read.
-/
namespace EditorScripting

open Host Guest

namespace Interpreter

variable {σ : Type} {around : Surroundings σ} {editor : σ → Editor} {s : σ}

theorem stringValue_nil (he : around.Serves editor) (hs : (editor s).Reachable)
    (hf : (editor s).heap.Fits) :
    around.host.stringValue s (around.host.nil s) = .ok none := by
  have hnil := (hs.referring hf).nil
  rw [he.stringValue, he.nil, Editor.stringValue, Heap.get_of_get? hnil]
  rfl

/-- The result of a call on an editor can be read. -/
theorem readable_evaluateExpression (he : around.Serves editor) (hs : (editor s).Reachable)
    (i : Interpreter) (h : Handle)
    (hf : (editor (i.evaluateExpression around h s).2.2).heap.Fits) :
    ∃ value, around.host.stringValue (i.evaluateExpression around h s).2.2
      (i.evaluateExpression around h s).1 = .ok value := by
  have hlater : (editor (i.evaluateExpression around h s).2.2).Reachable :=
    tracks_evaluateExpression (m := 0) he.tracks (fun w hb => by rw [he.setWatchdog]; exact hb) h hs
  cases hsource : sourceOf around.host s h with
  | error f =>
    rw [evaluateExpression_of_argument hsource] at hf hlater ⊢
    exact ⟨none, stringValue_nil he hlater hf⟩
  | ok source =>
    cases hresult : (i.evaluate around source s).1 with
    | error f =>
      rw [evaluateExpression_of_failure hsource hresult] at hf hlater ⊢
      exact ⟨none, stringValue_nil he hlater hf⟩
    | ok text =>
      rw [evaluateExpression_of_text hsource hresult] at hf ⊢
      obtain ⟨-, -, htext⟩ := string_of_evaluate he hs hf
      exact ⟨some text, htext⟩

end Interpreter

namespace Repl

variable {s t : State} {P : State → Prop}

/-- The editor has been used as editors are, and so it will be: what happens while an expression is
evaluated does not concern the editor. -/
structure State.Proper (s : State) : Prop where
  reachable : s.desk.editor.Reachable
  serves : s.around.Serves Standalone.editor

/-- The result of an expression, and the state in which its text is read. -/
def State.answered (source : String) (s : State) : Handle × State :=
  let (text, desk) := s.desk.onEditor (·.makeString source)
  let (result, interpreter, desk) := s.interpreter.evaluateExpression s.around text desk
  (result, { s with desk, interpreter })

theorem State.evaluate_eq (source : String) (s : State) :
    s.evaluate source =
      let (result, t) := s.answered source
      match t.desk.editor.stringValue result with
      | .error e => .failed e
      | .ok value =>
        .printed [value.getD "nil"] { t with desk := (t.desk.onEditor (·.collect)).2 } := by
  unfold State.evaluate State.answered
  rfl

theorem State.Proper.answered (hs : s.Proper) (source : String) : (s.answered source).2.Proper where
  reachable := by
    have htext := hs.reachable.apply (.makeString source)
    exact Interpreter.tracks_evaluateExpression (m := 0) hs.serves.tracks
      (fun w hb => by rw [hs.serves.setWatchdog]; exact hb) _ htext
  serves := hs.serves

/-- The string that holds the result of a line is still there when its text is read. -/
theorem State.Proper.readable (hs : s.Proper) (source : String)
    (hf : (s.answered source).2.desk.editor.heap.Fits) :
    ∃ value, (s.answered source).2.desk.editor.stringValue (s.answered source).1 = .ok value := by
  have htext := hs.reachable.apply (.makeString source)
  obtain ⟨value, hvalue⟩ := Interpreter.readable_evaluateExpression hs.serves htext _ _ hf
  rw [hs.serves.stringValue] at hvalue
  exact ⟨value, hvalue⟩

/-- What a line leaves behind: the editor as it was, or a collected one. -/
theorem State.editor_of_printed {line : Line} {lines : List String}
    (hrun : s.run line = .printed lines t) :
    t.around = s.around ∧ (t.desk.editor = s.desk.editor ∨ ∃ source, line = .expression source ∧
      t.desk.editor = (s.answered source).2.desk.editor.collect.2) := by
  cases line with
  | blank =>
    cases hrun
    exact ⟨rfl, .inl rfl⟩
  | quit => cases hrun
  | diagnostics =>
    cases hrun
    exact ⟨rfl, .inl rfl⟩
  | expression source =>
    rw [State.run, evaluate_eq] at hrun
    dsimp only at hrun
    split at hrun
    · cases hrun
    · cases hrun
      exact ⟨rfl, .inr ⟨source, rfl, rfl⟩⟩

theorem State.proper_run {line : Line} {lines : List String} (hs : s.Proper)
    (hrun : s.run line = .printed lines t) : t.Proper := by
  obtain ⟨haround, heditor⟩ := editor_of_printed hrun
  refine ⟨?_, haround ▸ hs.serves⟩
  rcases heditor with hsame | ⟨source, -, hcollected⟩
  · rw [hsame]
    exact hs.reachable
  · rw [hcollected]
    exact (hs.answered source).reachable.apply .collect

theorem State.tidy_run {line : Line} {lines : List String} (hs : s.desk.editor.Tidy)
    (hrun : s.run line = .printed lines t) : t.desk.editor.Tidy := by
  rcases (editor_of_printed hrun).2 with hsame | ⟨source, -, hcollected⟩
  · rw [hsame]
    exact hs
  · rw [hcollected]
    exact Editor.tidy_collect _

section

variable {E : Editor → Prop} (hnew : ∀ buffer, E (.ofBuffer buffer))
  (hpin : ∀ h e, E e → E (e.pin h).2) (hunpin : ∀ h e, E e → E (e.unpin h))
  {meanwhile : Standalone → Standalone} {settings : Settings}
include hnew hpin hunpin

theorem State.keeps_start {buffer : Buffer}
    (hstart : State.start (Standalone.amid meanwhile) buffer settings = .ok s) :
    s.around = Standalone.amid meanwhile ∧ E s.desk.editor := by
  have hdesk : E (Standalone.ofEditor (.ofBuffer buffer)).editor := hnew buffer
  unfold State.start at hstart
  generalize Standalone.ofEditor (.ofBuffer buffer) = desk at hdesk hstart
  cases hi : Interpreter.start settings with
  | error f =>
    simp only [Shared.initializeOnce, Shared.empty, hi] at hstart
    cases hstart
  | ok i =>
    simp only [Shared.initializeOnce, Shared.empty, hi] at hstart
    cases hstart
    have hrefresh : E (i.bridge.refresh Standalone.host desk).2.2.editor :=
      Bridge.keeps_refresh (P := fun desk : Standalone => E desk.editor) (fun h _ => hpin h _)
        (fun h _ => hunpin h _) hdesk
    exact ⟨rfl, Bridge.keeps_drop (P := fun desk : Standalone => E desk.editor)
      (fun h _ => hunpin h _) hrefresh⟩

/-- Until its first prompt the loop only pins and unpins what a new editor has. -/
theorem State.keeps_open {path : Option String} {file : String → Option ByteArray}
    (hopen : State.open (Standalone.amid meanwhile) settings path file = .ok s) :
    s.around = Standalone.amid meanwhile ∧ E s.desk.editor := by
  have hok : ∀ buffer,
      (State.start (Standalone.amid meanwhile) buffer settings).mapError Fatal.start = .ok s →
        s.around = Standalone.amid meanwhile ∧ E s.desk.editor := by
    intro buffer h
    cases hstart : State.start (Standalone.amid meanwhile) buffer settings with
    | error f =>
      rw [hstart] at h
      cases h
    | ok u =>
      rw [hstart] at h
      obtain rfl : u = s := Except.ok.inj h
      exact keeps_start hnew hpin hunpin hstart
  unfold State.open at hopen
  cases path with
  | none => exact hok _ hopen
  | some p =>
    dsimp only at hopen
    cases hfile : Text.decode (file p) with
    | error problem =>
      rw [hfile] at hopen
      cases hopen
    | ok text =>
      rw [hfile] at hopen
      exact hok _ hopen

end

/-- A line fails only if it is an expression whose result cannot be read. -/
theorem State.source_of_failed {line : Line} {e : HostError} (hrun : s.run line = .failed e) :
    ∃ source, line = .expression source ∧
      (s.answered source).2.desk.editor.stringValue (s.answered source).1 = .error e := by
  cases line with
  | expression source =>
    refine ⟨source, rfl, ?_⟩
    rw [State.run, evaluate_eq] at hrun
    dsimp only at hrun
    split at hrun
    · rename_i f hread
      cases hrun
      exact hread
    · cases hrun
  | _ => cases hrun

/-- What the loop goes through: it prompts, it reads results, and it prints. -/
inductive Moment where
  | prompt (s : State)
  | result (h : Handle) (s : State)
  | printed (lines : List String)

namespace Moment

def text : Moment → String
  | .prompt _ => "> "
  | .result _ _ => ""
  | .printed lines => lineText lines

/-- The result that a line leads to. -/
def ofLine (s : State) : Line → List Moment
  | .expression source => [.result (s.answered source).1 (s.answered source).2]
  | _ => []

end Moment

/-- All that happens from a prompt to the end of the loop. -/
def moments (s : State) : List (List UInt8) → List Moment
  | [] => [.prompt s]
  | line :: rest =>
    .prompt s :: match String.fromUTF8? ⟨line.toArray⟩ with
      | none => []
      | some text => Moment.ofLine s (.ofText text) ++
        match s.run (.ofText text) with
        | .printed lines next => .printed lines :: moments next rest
        | _ => []

/-- The moments of the loop write what the loop writes. -/
theorem converse_fst (s : State) (input : List (List UInt8)) :
    (converse s input).1 = String.join ((moments s input).map Moment.text) := by
  induction input generalizing s with
  | nil => rfl
  | cons line rest ih =>
    unfold converse moments
    cases String.fromUTF8? ⟨line.toArray⟩ with
    | none => rfl
    | some text =>
      have hquiet : String.join ((Moment.ofLine s (.ofText text)).map Moment.text) = "" := by
        cases Line.ofText text <;> rfl
      dsimp only
      rw [List.map_cons, List.map_append, String.join_cons, String.join_append, hquiet]
      cases s.run (.ofText text) with
      | printed lines next =>
        dsimp only
        rw [ih, List.map_cons, String.join_cons, String.empty_append, String.append_assoc]
        rfl
      | finished => rfl
      | failed e => rfl

/-- The loop ends with an error of the host only if the text of a result cannot be read. -/
theorem result_of_converse {input : List (List UInt8)} {e : HostError}
    (hend : (converse s input).2 = some (.value e)) :
    ∃ h t, .result h t ∈ moments s input ∧ t.desk.editor.stringValue h = .error e := by
  induction input generalizing s with
  | nil => cases hend
  | cons line rest ih =>
    unfold converse at hend
    unfold moments
    cases hline : String.fromUTF8? ⟨line.toArray⟩ with
    | none =>
      rw [hline] at hend
      cases hend
    | some text =>
      rw [hline] at hend
      dsimp only at hend ⊢
      cases hrun : s.run (.ofText text) with
      | finished =>
        rw [hrun] at hend
        cases hend
      | printed lines next =>
        rw [hrun] at hend
        obtain ⟨h, t, hm, hread⟩ := ih hend
        exact ⟨h, t, by simp [hm], hread⟩
      | failed f =>
        rw [hrun] at hend
        obtain rfl : f = e := by simpa using hend
        obtain ⟨source, hsource, hread⟩ := State.source_of_failed hrun
        refine ⟨(s.answered source).1, (s.answered source).2, ?_, hread⟩
        simp [hsource, Moment.ofLine]

/-- A moment of a loop whose states at prompts are all of one kind. -/
def Moment.Within (P : State → Prop) : Moment → Prop
  | .prompt s => P s
  | .result h t => ∃ source s, P s ∧ s.answered source = (h, t)
  | .printed _ => True

theorem within_of_mem
    (hkeep : ∀ {s line lines next}, P s → s.run line = .printed lines next → P next)
    {input : List (List UInt8)} (hs : P s) : ∀ m ∈ moments s input, m.Within P := by
  induction input generalizing s with
  | nil =>
    intro m hm
    obtain rfl : m = .prompt s := by simpa [moments] using hm
    exact hs
  | cons line rest ih =>
    intro m hm
    unfold moments at hm
    rcases List.mem_cons.mp hm with rfl | hm
    · exact hs
    · split at hm
      · cases hm
      · rename_i text _
        rcases List.mem_append.mp hm with hm | hm
        · cases hl : Line.ofText text <;> rw [hl] at hm
          case expression source =>
            obtain rfl := List.mem_singleton.mp hm
            exact ⟨source, s, hs, rfl⟩
          all_goals cases hm
        · split at hm
          · rename_i lines next hrun
            rcases List.mem_cons.mp hm with rfl | hm
            · trivial
            · exact ih (hkeep hs hrun) m hm
          · cases hm

/-- Whatever the file, the settings and the lines are, and however time passes and evaluations are
asked to stop: there is no garbage in the editor at any prompt, and the result of every line can be
read, so that none of them ends the loop with an error. To be read, slots need indices of their
own. -/
theorem prompts_tidy {meanwhile : Standalone → Standalone}
    (hm : ∀ desk, (meanwhile desk).editor = desk.editor) {settings : Settings}
    {path : Option String} {file : String → Option ByteArray}
    (hopen : State.open (Standalone.amid meanwhile) settings path file = .ok s)
    (input : List (List UInt8)) :
    (∀ t, .prompt t ∈ moments s input → t.desk.editor.Tidy) ∧
    (∀ h t, .result h t ∈ moments s input → t.desk.editor.heap.Fits →
      ∃ value, t.desk.editor.stringValue h = .ok value) ∧
    ((∀ h t, .result h t ∈ moments s input → t.desk.editor.heap.Fits) →
      ∀ e, (converse s input).2 ≠ some (.value e)) := by
  have htidy : s.desk.editor.Tidy := (State.keeps_open Editor.settled_ofBuffer
    (fun h _ he => he.pin h) (fun h _ he => he.unpin h) hopen).2.tidy
  have hproper : s.Proper := by
    obtain ⟨haround, hreachable⟩ := State.keeps_open (E := Editor.Reachable)
      (fun buffer => ⟨buffer, [], rfl⟩) (fun h _ he => he.apply (.pin h))
      (fun h _ he => he.apply (.unpin h)) hopen
    exact ⟨hreachable, haround ▸ Standalone.serves_amid hm⟩
  have hread : ∀ h t, .result h t ∈ moments s input → t.desk.editor.heap.Fits →
      ∃ value, t.desk.editor.stringValue h = .ok value := by
    intro h t hm hf
    obtain ⟨source, u, hu, heq⟩ := within_of_mem State.proper_run hproper _ hm
    have hvalue := hu.readable source
    rw [heq] at hvalue
    exact hvalue hf
  refine ⟨fun t hm => ?_, hread, fun hfits e hend => ?_⟩
  · exact within_of_mem (P := (·.desk.editor.Tidy)) State.tidy_run htidy _ hm
  · obtain ⟨h, t, hm, herror⟩ := result_of_converse hend
    obtain ⟨value, hvalue⟩ := hread h t hm (hfits h t hm)
    rw [herror] at hvalue
    cases hvalue

/-- The loop at its first prompt, without a configuration and without a file. -/
def opened : State :=
  let desk := Standalone.ofEditor (.ofBuffer (.ofText "" none))
  let (report, interpreter, desk) := Interpreter.usual.refresh Standalone.around desk
  { desk := report.drop Standalone.host desk, around := Standalone.around, interpreter }

theorem open_default : State.open Standalone.around .default none (fun _ => none) = .ok opened := by
  have hstart : State.start Standalone.around (.ofText "" none) .default = .ok opened := by
    unfold State.start opened
    generalize Standalone.ofEditor (.ofBuffer (.ofText "" none)) = desk
    simp only [Shared.initializeOnce, Shared.empty, Interpreter.start_default]
    rfl
  change (State.start Standalone.around (.ofText "" none) .default).mapError Fatal.start = _
  rw [hstart]
  rfl

theorem prompts_tidy_product :
    State.open Standalone.around .default none (fun _ => none) = .ok opened ∧
    let input := splitLines "6 * 7\n".toUTF8.toList
    (∀ t, .prompt t ∈ moments opened input → t.desk.editor.Tidy) ∧
    (∃ h t, .result h t ∈ moments opened input ∧ t.desk.editor.stringValue h = .ok (some "42")) ∧
    ∀ e, (converse opened input).2 ≠ some (.value e) := by
  have hinput : splitLines "6 * 7\n".toUTF8.toList = [[54, 32, 42, 32, 55, 10]] := by
    decide +kernel
  have hline : String.fromUTF8? ⟨#[54, 32, 42, 32, 55, 10]⟩ = some "6 * 7\n" := by decide +kernel
  have hexpression : Line.ofText "6 * 7\n" = .expression "6 * 7" := by decide +kernel
  have hresult : ∀ h t, .result h t ∈ moments opened [[54, 32, 42, 32, 55, 10]] ↔
      (h, t) = opened.answered "6 * 7" := by
    intro h t
    simp only [moments, hline, hexpression, Moment.ofLine]
    cases opened.run (.expression "6 * 7") <;> simp [Prod.ext_iff]
  have hanswer : (opened.answered "6 * 7").2.desk.editor.heap.slots.size ≤ UInt32.size ∧
      ((opened.answered "6 * 7").2.desk.editor.stringValue
        (opened.answered "6 * 7").1).toOption = some (some "42") := by
    unfold State.answered Interpreter.evaluateExpression Interpreter.evaluate
      Interpreter.evaluateArmed Interpreter.runExpression
    rw [show opened.interpreter.settings = .default from rfl, Interpreter.environment_default]
    decide +kernel
  obtain ⟨htidy, hread, hend⟩ := prompts_tidy (fun _ => rfl) open_default
    (splitLines "6 * 7\n".toUTF8.toList)
  rw [hinput] at htidy hread hend ⊢
  generalize opened.answered "6 * 7" = answer at hresult hanswer
  obtain ⟨result, t⟩ := answer
  have hm : .result result t ∈ moments opened [[54, 32, 42, 32, 55, 10]] :=
    (hresult result t).mpr rfl
  obtain ⟨hfits, htext⟩ := hanswer
  obtain ⟨value, hvalue⟩ := hread result t hm hfits
  rw [hvalue] at htext
  obtain rfl : value = some "42" := Option.some.inj htext
  refine ⟨open_default, htidy, ⟨result, t, hm, hvalue⟩, hend fun h u hu => ?_⟩
  cases (hresult h u).mp hu
  exact hfits

end Repl

end EditorScripting
