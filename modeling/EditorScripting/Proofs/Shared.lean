import EditorScripting.Guest.Standalone
import EditorScripting.Proofs.Interpreter.Confined
import EditorScripting.Shared

/-!
The one interpreter of a process. Whichever calls come, for whichever hosts, the first installation
that succeeds is the only one. From then on everybody reaches that interpreter, which does what it
would do by itself.
-/
namespace EditorScripting

open Host Guest

variable {σ : Type}

namespace Shared

/-- What comes to the shared place of a process, or happens to the hosts in between. -/
inductive Call (σ : Type)
  | initializeOnce (around : Surroundings σ) (settings : Settings)
  | global
  | evaluateExpression (h : Handle)
  | refresh
  | drain
  | elsewhere (f : σ → σ)

namespace Call

def apply : Call σ → Shared σ × σ → Shared σ × σ
  | .initializeOnce around settings, (p, s) => ((p.initializeOnce around settings).2, s)
  | .global, w => w
  | .evaluateExpression h, (p, s) => (p.evaluateExpression h s).2
  | .refresh, (p, s) => (p.refresh s).2
  | .drain, (p, s) => (p.drain s).2
  | .elsewhere f, (p, s) => (p, f s)

/-- A process from its start, when nothing is installed. -/
def run (s : σ) (calls : List (Call σ)) : Shared σ × σ :=
  calls.foldl (fun w c => c.apply w) (.empty, s)

/-- What a call does to the hosts while nothing is installed. -/
def pass : σ → Call σ → σ
  | s, .elsewhere f => f s
  | s, _ => s

/-- What a call does to an interpreter that is not shared. Installations do not concern it. -/
def serve (around : Surroundings σ) : Interpreter × σ → Call σ → Interpreter × σ
  | (i, s), .evaluateExpression h => (i.evaluateExpression around h s).2
  | (i, s), .refresh =>
    let (report, i, s) := i.refresh around s
    (i, report.drop around.host s)
  | (i, s), .drain => (i.withDiagnostics i.diagnostics.drain.2, s)
  | (i, s), .elsewhere f => (i, f s)
  | w, .initializeOnce _ _ | w, .global => w

/-- What a call installs at an empty place. -/
def made : Call σ → Option (Installed σ)
  | .initializeOnce around settings =>
    match Interpreter.start settings with
    | .ok i => some ⟨around, i⟩
    | .error _ => none
  | _ => none

theorem made_eq_some_iff {c : Call σ} {i : Installed σ} :
    c.made = some i ↔ ∃ settings, c = .initializeOnce i.around settings ∧
      Interpreter.start settings = .ok i.interpreter := by
  cases c with
  | initializeOnce around settings =>
    simp only [made]
    cases hs : Interpreter.start settings with
    | ok j =>
      constructor
      · intro h
        cases h
        exact ⟨settings, rfl, hs⟩
      · rintro ⟨other, heq, ho⟩
        cases heq
        rw [hs] at ho
        cases ho
        rfl
    | error f =>
      constructor
      · intro h
        cases h
      · rintro ⟨other, heq, ho⟩
        cases heq
        rw [hs] at ho
        cases ho
  | _ => simp [made]

theorem apply_empty {c : Call σ} (h : c.made = none) (s : σ) :
    c.apply (.empty, s) = (.empty, pass s c) := by
  cases c with
  | initializeOnce around settings =>
    simp only [made] at h
    cases hs : Interpreter.start settings with
    | ok i =>
      rw [hs] at h
      cases h
    | error f => simp [apply, Shared.initializeOnce, empty, hs, pass]
  | _ => rfl

theorem apply_first {c : Call σ} {i : Installed σ} (h : c.made = some i) (s : σ) :
    c.apply (.empty, s) = (⟨some i⟩, s) := by
  obtain ⟨settings, rfl, hs⟩ := made_eq_some_iff.mp h
  simp [apply, Shared.initializeOnce, empty, hs]

theorem apply_installed (c : Call σ) (around : Surroundings σ) (i : Interpreter) (s : σ) :
    c.apply (⟨some ⟨around, i⟩⟩, s) =
      (⟨some ⟨around, (serve around (i, s) c).1⟩⟩, (serve around (i, s) c).2) := by
  cases c <;> rfl

theorem settings_serve (around : Surroundings σ) (w : Interpreter × σ) (c : Call σ) :
    (serve around w c).1.settings = w.1.settings := by
  cases c with
  | evaluateExpression h => exact Interpreter.settings_evaluateExpression around w.1 h w.2
  | _ => rfl

theorem foldl_empty {calls : List (Call σ)} (h : ∀ c ∈ calls, c.made = none) (s : σ) :
    run s calls = (.empty, calls.foldl pass s) := by
  unfold run
  induction calls generalizing s with
  | nil => rfl
  | cons c cs ih =>
    obtain ⟨hc, hcs⟩ := List.forall_mem_cons.mp h
    rw [List.foldl_cons, apply_empty hc, ih hcs, List.foldl_cons]

theorem foldl_installed (calls : List (Call σ)) (around : Surroundings σ) (i : Interpreter)
    (s : σ) :
    calls.foldl (fun w c => c.apply w) (⟨some ⟨around, i⟩⟩, s) =
      let (j, t) := calls.foldl (serve around) (i, s)
      (⟨some ⟨around, j⟩⟩, t) := by
  induction calls generalizing i s with
  | nil => rfl
  | cons c cs ih => rw [List.foldl_cons, apply_installed, ih, List.foldl_cons]

theorem settings_foldl (calls : List (Call σ)) (around : Surroundings σ) (w : Interpreter × σ) :
    (calls.foldl (serve around) w).1.settings = w.1.settings := by
  induction calls generalizing w with
  | nil => rfl
  | cons c cs ih => rw [List.foldl_cons, ih, settings_serve]

/-- The calls up to and behind the first one that installs. -/
theorem run_append_first {before : List (Call σ)} {c : Call σ} {i : Installed σ}
    (hbefore : ∀ c ∈ before, c.made = none) (hc : c.made = some i) (after : List (Call σ)) (s : σ) :
    run s (before ++ c :: after) =
      let (j, t) := after.foldl (serve i.around) (i.interpreter, before.foldl pass s)
      (⟨some ⟨i.around, j⟩⟩, t) := by
  have hempty := foldl_empty hbefore s
  unfold run at hempty ⊢
  rw [List.foldl_append, hempty, List.foldl_cons, apply_first hc, foldl_installed]

end Call

open Call

/-- Every installation among some calls fails. -/
def NoneStarts (calls : List (Call σ)) : Prop :=
  ∀ around settings, .initializeOnce around settings ∈ calls →
    ∃ f, Interpreter.start settings = .error f

theorem noneStarts_iff {calls : List (Call σ)} :
    NoneStarts calls ↔ ∀ c ∈ calls, c.made = none := by
  constructor
  · intro h c hc
    cases hm : c.made with
    | none => rfl
    | some i =>
      obtain ⟨settings, rfl, hs⟩ := made_eq_some_iff.mp hm
      obtain ⟨f, hf⟩ := h _ _ hc
      rw [hs] at hf
      cases hf
  · intro h around settings hc
    cases hs : Interpreter.start settings with
    | error f => exact ⟨f, rfl⟩
    | ok i =>
      have hm : made (.initializeOnce around settings) = some ⟨around, i⟩ :=
        made_eq_some_iff.mpr ⟨settings, rfl, hs⟩
      rw [h _ hc] at hm
      cases hm

/-- The place is empty as it was at the start. An installation succeeds or fails just as the
interpreter does, and a failed one changes nothing. -/
structure Vacant (s : σ) (calls : List (Call σ)) (p : Shared σ) (t : σ) : Prop where
  noneStarts : NoneStarts calls
  hosts : t = calls.foldl pass s
  global : p.global = none
  evaluate : ∀ h u, p.evaluateExpression h u = (none, p, u)
  installs : ∀ around settings i, Interpreter.start settings = .ok i →
    p.initializeOnce around settings = (.ok ⟨around, i⟩, ⟨some ⟨around, i⟩⟩)
  fails : ∀ around settings f, Interpreter.start settings = .error f →
    p.initializeOnce around settings = (.error f, p)

/-- The interpreter that was installed first, for its host and with its settings, is in the state in
which the calls behind its installation would have left it by itself. It answers for the process,
and no other one is installed. -/
structure Occupied (s : σ) (before : List (Call σ)) (around : Surroundings σ)
    (settings : Settings) (i : Interpreter) (after : List (Call σ)) (p : Shared σ) (t : σ) :
    Prop where
  noneStarts : NoneStarts before
  starts : Interpreter.start settings = .ok i
  global : p.global = some ⟨around, (after.foldl (serve around) (i, before.foldl pass s)).1⟩
  hosts : t = (after.foldl (serve around) (i, before.foldl pass s)).2
  settings : ∀ now, p.global = some now → now.interpreter.settings = settings
  evaluate : ∀ now h u, p.global = some now → p.evaluateExpression h u =
    let (result, j, u) := now.interpreter.evaluateExpression around h u
    (some result, ⟨some ⟨around, j⟩⟩, u)
  refuses : ∀ other more, p.initializeOnce other more = (.error .alreadyInitialized, p)

/-- After any calls either every installation has failed and nothing is installed, or the first one
that succeeded is what the process shares. -/
theorem installed_once (s : σ) (calls : List (Call σ)) :
    Vacant s calls (run s calls).1 (run s calls).2 ∨ ∃ before around settings i after,
      calls = before ++ .initializeOnce around settings :: after ∧
        Occupied s before around settings i after (run s calls).1 (run s calls).2 := by
  cases hfirst : calls.findSome? made with
  | none =>
    have hnone := List.findSome?_eq_none_iff.mp hfirst
    left
    refine ⟨noneStarts_iff.mpr hnone, ?_, ?_, ?_, ?_, ?_⟩ <;> rw [foldl_empty hnone s]
    · rfl
    · intro h t
      rfl
    · intro around settings i hs
      simp [initializeOnce, empty, hs]
    · intro around settings f hs
      simp [initializeOnce, empty, hs]
  | some first =>
    obtain ⟨before, c, after, rfl, hmade, hnone⟩ := List.findSome?_eq_some_iff.mp hfirst
    have hrun := run_append_first hnone hmade after s
    obtain ⟨around, i⟩ := first
    obtain ⟨settings, rfl, hs⟩ := made_eq_some_iff.mp hmade
    have hkept := settings_foldl after around (i, before.foldl pass s)
    have hown : i.settings = settings := congrArg _ (Interpreter.eq_of_start hs)
    right
    refine ⟨before, around, settings, i, after, rfl, noneStarts_iff.mpr hnone, hs,
      ?_, ?_, ?_, ?_, ?_⟩ <;> rw [hrun]
    · rfl
    · rintro now ⟨⟩
      exact hkept.trans hown
    · rintro now h u ⟨⟩
      rfl
    · intro other more
      rfl

example :
    let narrow := { Settings.default with maxExprDepth := 2 }
    let renamed := { Settings.default with moduleName := "lisp" }
    let calls := [narrow, .default, renamed].map (Call.initializeOnce Standalone.around)
    let p := (run (Standalone.ofEditor (.ofBuffer (.ofText "" none))) calls).1
    p.global.map (·.interpreter.settings.moduleName) = some "emacs" := by
  decide +kernel

end Shared

end EditorScripting
