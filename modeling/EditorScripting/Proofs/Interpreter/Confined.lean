import Mathlib.Data.List.Induction
import EditorScripting.Proofs.Guest.Monitored
import EditorScripting.Proofs.Interpreter.Stopping

/-!
Requests to stop and deadlines concern one evaluation alone, the one under way. As long as it lasts,
its watchdog is armed and takes note of requests; before and after, the watchdog is idle.
-/
namespace EditorScripting

open Host Script Guest

namespace Watchdog

theorem cancel_idle : idle.cancel = (false, idle) := rfl

theorem check_idle (now : Nat) : idle.check now = none := rfl

theorem cancelled_of_check {w : Watchdog} {now : Nat} (hc : w.check now = some .cancelled) :
    w.cancelled = true := by
  unfold check at hc
  split at hc
  · assumption
  · split at hc
    · split at hc <;> cases hc
    · cases hc

theorem deadline_of_check {w : Watchdog} {now : Nat} (hc : w.check now = some .timedOut) :
    ∃ time limit, w.deadline = some (time, limit) ∧ time ≤ now := by
  unfold check at hc
  split at hc
  · cases hc
  · split at hc
    · rename_i time limit hd
      split at hc
      · rename_i hle
        exact ⟨time, limit, hd, hle⟩
      · cases hc
    · cases hc

end Watchdog

/-- Since the log was `log`, the watchdog has been armed with a deadline, and it holds a request
only if some request was answered with yes. -/
structure Heard (log : List Bool) (deadline : Option (Nat × Text.Duration)) (log' : List Bool)
    (w : Watchdog) : Prop where
  armed : w.armed = true
  deadline_eq : w.deadline = deadline
  answers : ∃ heard, log' = log ++ heard ∧ (w.cancelled = true → true ∈ heard)

theorem Heard.cancel {log : List Bool} {deadline : Option (Nat × Text.Duration)} (log' : List Bool)
    (w : Watchdog) (hh : Heard log deadline log' w) :
    Heard log deadline (log' ++ [w.cancel.1]) w.cancel.2 := by
  obtain ⟨ha, hd, heard, hlog, -⟩ := hh
  have hyes : w.cancel = (true, { w with cancelled := true }) := by
    unfold Watchdog.cancel
    rw [ha]
    rfl
  rw [hyes]
  refine ⟨ha, hd, heard ++ [true], ?_, fun _ => by simp⟩
  rw [hlog, List.append_assoc]

namespace Interpreter

variable {σ : Type} {around : Surroundings σ} {answers : σ → List Bool} {i : Interpreter}
  {source : String} {s : σ}

theorem permitted_of_check {P : Stop → Prop} {w : Watchdog} {now : Nat}
    (hp : ∀ reason, w.check now = some reason → P reason) :
    Refusal.Permitted P ((w.check now).map Refusal.stopped) := by
  cases hc : w.check now with
  | none => trivial
  | some reason => exact hp reason hc

/-- A phase is stopped only for a reason that the watchdog gives at some moment of the phase. -/
theorem stop_visited {phase : Phase} {f : Failed} {r : Running σ} {reason : Stop}
    (hr : phase.run around i source s = some (.error f, r)) (hf : f.stop? = some reason) :
    ∃ p r₀ r', phase.start around i source s = some (p, r₀) ∧
      p.run (world around i) r₀ = (.error f, r) ∧ p.Visits (world around i) r₀ r' ∧
      (around.watchdog r'.shared).check (around.now r'.shared) = some reason := by
  obtain ⟨⟨p, r₀⟩, hp, he⟩ := Option.map_eq_some_iff.mp hr
  have hend := (stops_start (fun reason => ∃ r', p.Visits (world around i) r₀ r' ∧
      (around.watchdog r'.shared).check (around.now r'.shared) = some reason) hp).run_visits
    (w := world around i) (s := r₀)
    (fun r' hv => by
      unfold world Running.world Running.step at hv ⊢
      dsimp only at hv ⊢
      split
      · trivial
      · rw [if_neg ‹_›] at hv
        exact permitted_of_check fun reason hc => ⟨_, hv, hc⟩)
    (fun n r' hv => by
      unfold world Running.world Running.probe at hv ⊢
      dsimp only at hv ⊢
      split
      · trivial
      · rw [if_neg ‹_›] at hv
        exact permitted_of_check fun reason hc => ⟨_, hv, hc⟩)
  rw [show p.run (world around i) r₀ = (.error f, r) from he] at hend
  dsimp only at hend
  rw [Failed.stop?_eq_some_iff.mp hf] at hend
  obtain ⟨r', hv, hc⟩ := hend
  exact ⟨p, r₀, r', hp, he, hv, hc⟩

/-- An expression counts as cancelled if and only if a request stopped it. -/
theorem classify_eq_cancelled_iff {w : Watchdog} {f : Failed} :
    classify w f = .cancelled ↔ f.stop? = some .cancelled := by
  rw [Failed.stop?_eq_some_iff]
  unfold classify
  split <;> simp_all

theorem stop_of_timeout {w : Watchdog} {f : Failed} {limit : Text.Duration}
    (hc : classify w f = .timeout limit) : f.stop? = some .timedOut ∧ w.limit = limit := by
  unfold classify at hc
  split at hc
  · cases hc
  · rename_i hf
    exact ⟨Failed.stop?_eq_some_iff.mpr hf, Failure.timeout.inj hc⟩
  · cases hc

/-- An outcome that reports a stop comes from the expression, not from the conversion. -/
theorem expression_of_isStop {failure : Failure} {r : Running σ}
    (ho : outcome around i source s = (.error failure, r)) (hs : failure.IsStop) :
    ∃ f, Phase.run around i source s .expression = some (.error f, r) ∧
      classify (around.watchdog r.shared) f = failure := by
  rcases outcome_cases around i source s with
    ⟨f, hc, hf⟩ | ⟨f, r', hr, hf⟩ | ⟨v, r', f, -, hc, hf⟩ | ⟨v, r', -, hf⟩ <;>
    obtain ⟨he, rfl⟩ := Prod.mk.inj (hf.symm.trans ho)
  · obtain rfl := Except.error.inj he
    exact absurd hs (not_isStop_of_compile hc)
  · exact ⟨f, hr, Except.error.inj he⟩
  · obtain rfl := Except.error.inj he
    exact absurd hs (not_isStop_of_conversion hc)
  · exact absurd hs (not_isStop_of_converted he)

/-- The deadline that an evaluation starts with. -/
def deadlineOf (around : Surroundings σ) (i : Interpreter) (s : σ) :
    Option (Nat × Text.Duration) :=
  i.settings.timeout.map fun d => (around.now s + d.nanoseconds, d)

section

variable (hm : around.Monitored answers)
include hm

/-- The watchdog and the log at every moment of an evaluation. -/
theorem heard_during {r : Running σ} (hr : During around i source s r) :
    Heard (answers s) (deadlineOf around i s) (answers r.shared) (around.watchdog r.shared) := by
  have hfresh : Heard (answers s) (deadlineOf around i s) (answers (fresh around i s).shared)
      (around.watchdog (fresh around i s).shared) := by
    unfold fresh
    dsimp only
    rw [hm.watchdog_setWatchdog, hm.answers_setWatchdog]
    exact ⟨rfl, rfl, [], (List.append_nil _).symm, nofun⟩
  exact accounts_during (m := bindingHandles i.globals) (hm.tracks Heard.cancel) hfresh
    (fun _ hh => by simpa using hh) hr

/-- A request that a phase has met is there until the guest has let go of everything. -/
theorem cancelled_of_visits {p : Program Command (Except Failed Value)} {r r' : Running σ}
    (hv : p.Visits (world around i) r r')
    (hc : (around.watchdog r'.shared).cancelled = true) :
    (around.watchdog ((p.run (world around i) r).2.releaseAll around).shared).cancelled = true := by
  have ht := hm.tracks (I := fun _ w => w.cancelled = true) fun _ _ => Watchdog.cancelled_cancel
  obtain ⟨q, hq⟩ := hv.rest
  have hkeeps := Running.keeps_accounts (m := 0) ht i.settings.maxOperations.toNat
  have hend := Program.run_keeps hkeeps q hc
  rw [show Running.world around i.settings.maxOperations.toNat = world around i from rfl,
    hq] at hend
  exact Wrapper.tracks_drops (m := 0) ht.host.new hend

/-- A cancelled outcome has a request, which is still there when the guest has let go of
everything. -/
theorem cancelled_of_outcome {r : Running σ}
    (ho : outcome around i source s = (.error .cancelled, r)) :
    (around.watchdog (r.releaseAll around).shared).cancelled = true := by
  obtain ⟨f, hr, hf⟩ := expression_of_isStop ho (.inl rfl)
  obtain ⟨p, r₀, r', -, he, hv, hcheck⟩ := stop_visited hr (classify_eq_cancelled_iff.mp hf)
  have hcancelled := cancelled_of_visits hm hv (Watchdog.cancelled_of_check hcheck)
  rw [he] at hcancelled
  exact hcancelled

/-- An outcome that ran out of time did so at some moment of the evaluation. -/
theorem passed_of_outcome {limit : Text.Duration} {r : Running σ}
    (ho : outcome around i source s = (.error (.timeout limit), r)) :
    i.settings.timeout = some limit ∧
      ∃ r', During around i source s r' ∧
        around.now s + limit.nanoseconds ≤ around.now r'.shared := by
  obtain ⟨f, hr, hf⟩ := expression_of_isStop ho (.inr ⟨limit, rfl⟩)
  obtain ⟨hstop, hlimit⟩ := stop_of_timeout hf
  obtain ⟨p, r₀, r', hp, he, hv, hcheck⟩ := stop_visited hr hstop
  obtain ⟨time, limit', hdeadline, hle⟩ := Watchdog.deadline_of_check hcheck
  have hduring : During around i source s r' := .running hp hv
  have hend : During around i source s r := by
    have hlast := Program.visits_run (world around i) p r₀
    rw [he] at hlast
    exact .running hp hlast
  rw [(heard_during hm hduring).deadline_eq] at hdeadline
  obtain ⟨d, htimeout, hd⟩ := Option.map_eq_some_iff.mp hdeadline
  obtain ⟨rfl, rfl⟩ := Prod.mk.inj hd
  rw [Watchdog.limit, (heard_during hm hend).deadline_eq, hdeadline] at hlimit
  obtain rfl : d = limit := hlimit
  exact ⟨htimeout, r', hduring, hle⟩

end

/-- An evaluation, with what happens elsewhere after the last operation of the guest and before the
watchdog is disarmed. -/
def evaluateUntil (around : Surroundings σ) (late : σ → σ) (i : Interpreter) (source : String)
    (s : σ) : Except Failure String × Interpreter × σ :=
  let s := around.setWatchdog (Watchdog.arm i.settings.timeout (around.now s)) s
  let (result, i, s) := evaluateArmed around i source s
  let (result, i) := filing result i
  (result, i, around.setWatchdog .idle (late s))

theorem evaluateUntil_id (around : Surroundings σ) (i : Interpreter) (source : String) (s : σ) :
    evaluateUntil around id i source s = i.evaluate around source s := rfl

theorem evaluateUntil_eq (around : Surroundings σ) (late : σ → σ) (i : Interpreter)
    (source : String) (s : σ) :
    evaluateUntil around late i source s =
      let (result, r) := outcome around i source s
      let r' := r.releaseAll around
      let j := (filing result { i with bridge := r'.bridge }).2
      (result, j, around.setWatchdog .idle (late r'.shared)) := by
  unfold evaluateUntil evaluateArmed outcome
  rfl

theorem settings_filing {α : Type} (r : Except Failure α) (i : Interpreter) :
    (filing r i).2.settings = i.settings := by
  cases r <;> rfl

theorem settings_evaluateUntil (around : Surroundings σ) (late : σ → σ) (i : Interpreter)
    (source : String) (s : σ) :
    (evaluateUntil around late i source s).2.1.settings = i.settings := by
  rw [evaluateUntil_eq]
  dsimp only
  rw [settings_filing]

theorem settings_evaluateExpression (around : Surroundings σ) (i : Interpreter) (h : Handle)
    (s : σ) : (i.evaluateExpression around h s).2.1.settings = i.settings := by
  refine evaluateExpression_keeps around i s h (Q := fun j _ => j.settings = i.settings) ?_ ?_ ?_
  · intro f
    exact settings_filing _ i
  · intro source
    exact settings_evaluateUntil around id i source s
  · intro text j t hj
    exact hj

/-- Nothing of the requests to stop and the deadline is left after an evaluation, and only its own
ones matter to it. -/
structure Confined (around : Surroundings σ) (answers : σ → List Bool) (late : σ → σ)
    (i : Interpreter) (source : String) (s : σ) : Prop where
  armed : ∀ r, During around i source s r → (around.watchdog r.shared).armed = true
  idle : around.watchdog (evaluateUntil around late i source s).2.2 = .idle
  /-- A cancelled evaluation said yes to a request. -/
  cancelled : (evaluateUntil around late i source s).1 = .error .cancelled →
    ∃ heard, answers (evaluateUntil around late i source s).2.2 = answers s ++ heard ∧ true ∈ heard
  /-- An evaluation that ran out of time did so at some moment. -/
  timeout : ∀ limit, (evaluateUntil around late i source s).1 = .error (.timeout limit) →
    i.settings.timeout = some limit ∧
      ∃ r, During around i source s r ∧ around.now s + limit.nanoseconds ≤ around.now r.shared

theorem confined (hm : around.Monitored answers) {late : σ → σ} (hl : around.Hears answers late)
    (i : Interpreter) (source : String) (s : σ) : Confined around answers late i source s where
  armed r hr := (heard_during hm hr).armed
  idle := by
    rw [evaluateUntil_eq]
    exact hm.watchdog_setWatchdog _ _
  cancelled hc := by
    have hreleased : During around i source s _ := .releasing (List.append_nil _).symm
    have hheard := hl.keeps Heard.cancel (heard_during hm hreleased)
    rw [evaluateUntil_eq] at hc ⊢
    dsimp only at hc ⊢
    rw [hm.answers_setWatchdog]
    have hcancelled := cancelled_of_outcome hm (Prod.ext hc rfl)
    have hasked := hl.keeps (I := fun _ w => w.cancelled = true)
      (fun _ _ => Watchdog.cancelled_cancel) hcancelled
    obtain ⟨-, -, heard, hlog, hyes⟩ := hheard
    exact ⟨heard, hlog, hyes hasked⟩
  timeout limit ht := by
    rw [evaluateUntil_eq] at ht
    exact passed_of_outcome hm (Prod.ext ht rfl)

/-- What can happen to an interpreter and around it. -/
inductive Event (around : Surroundings σ) (answers : σ → List Bool)
  | evaluate (source : String) (late : σ → σ) (hl : around.Hears answers late)
  | evaluateExpression (h : Handle)
  | refresh
  | defineGlobal (name : String) (v : Value)
  | drain
  /-- Something happens elsewhere: requests to stop, work of the host, time. -/
  | elsewhere (f : σ → σ) (hf : around.Hears answers f)

namespace Event

def apply : Event around answers → Interpreter × σ → Interpreter × σ
  | .evaluate source late _, (i, s) => (evaluateUntil around late i source s).2
  | .evaluateExpression h, (i, s) => (i.evaluateExpression around h s).2
  | .refresh, (i, s) => (i.refresh around s).2
  | .defineGlobal name v, (i, s) => i.defineGlobal around name v s
  | .drain, (i, s) => (i.withDiagnostics i.diagnostics.drain.2, s)
  | .elsewhere f _, (i, s) => (i, f s)

def run (i : Interpreter) (s : σ) (events : List (Event around answers)) : Interpreter × σ :=
  events.foldl (fun p e => e.apply p) (i, s)

end Event

/-- Requests leave an idle watchdog idle. -/
theorem idle_cancel (_ : List Bool) (w : Watchdog) (hw : w = .idle) : w.cancel.2 = .idle := by
  rw [hw, Watchdog.cancel_idle]

theorem idle_evaluateExpression (hm : around.Monitored answers) (i : Interpreter) (h : Handle)
    (hs : around.watchdog s = .idle) :
    (i.evaluateExpression around h s).2.1.settings = i.settings ∧
      around.watchdog (i.evaluateExpression around h s).2.2 = .idle := by
  refine ⟨settings_evaluateExpression around i h s, ?_⟩
  refine evaluateExpression_keeps around i s h (Q := fun _ t => around.watchdog t = .idle) ?_ ?_ ?_
  · intro f
    exact hs
  · intro source
    exact hm.watchdog_setWatchdog _ _
  · intro text j t hidle
    exact (hm.makeString text).keeps (I := fun _ w => w = .idle) idle_cancel hidle

/-- One event keeps the settings, and leaves the watchdog idle. -/
theorem Event.idle (hm : around.Monitored answers) (e : Event around answers) {i : Interpreter}
    (hs : around.watchdog s = .idle) :
    (e.apply (i, s)).1.settings = i.settings ∧ around.watchdog (e.apply (i, s)).2 = .idle := by
  have ht := hm.tracks (I := fun _ w => w = .idle) idle_cancel
  cases e with
  | evaluate source late hl =>
    exact ⟨settings_evaluateUntil around late i source s, (confined hm hl i source s).idle⟩
  | evaluateExpression h => exact idle_evaluateExpression hm i h hs
  | refresh => exact ⟨rfl, tracks_refresh (m := 0) ht.host hs⟩
  | defineGlobal name v => exact ⟨rfl, tracks_defineGlobal (m := 0) ht.host name v hs⟩
  | drain => exact ⟨rfl, hs⟩
  | elsewhere f hf => exact ⟨rfl, hf.keeps (I := fun _ w => w = .idle) idle_cancel hs⟩

theorem Event.run_concat (i : Interpreter) (s : σ) (events : List (Event around answers))
    (e : Event around answers) : run i s (events ++ [e]) = e.apply (run i s events) := by
  unfold run
  rw [List.foldl_append]
  rfl

theorem Event.idle_run (hm : around.Monitored answers) (i : Interpreter)
    (hs : around.watchdog s = .idle) (events : List (Event around answers)) :
    (run i s events).1.settings = i.settings ∧ around.watchdog (run i s events).2 = .idle := by
  induction events using List.reverseRecOn with
  | nil => exact ⟨rfl, hs⟩
  | append_singleton events e ih =>
    obtain ⟨hsettings, hidle⟩ := ih
    rw [run_concat]
    obtain ⟨hsettings', hidle'⟩ := e.idle hm hidle
    exact ⟨hsettings'.trans hsettings, hidle'⟩

/-- Whatever has happened, nothing is asked of the interpreter between two evaluations, and the next
one hears its own requests and meets its own deadline. -/
theorem requests_confined (hm : around.Monitored answers) (i : Interpreter)
    (hs : around.watchdog s = .idle) (events : List (Event around answers)) :
    let reached := Event.run i s events
    (reached.1.settings = i.settings ∧ around.watchdog reached.2 = .idle ∧
      (∀ now, (around.watchdog reached.2).check now = none) ∧
      (around.watchdog reached.2).cancel = (false, around.watchdog reached.2)) ∧
    ∀ source late, around.Hears answers late →
      Confined around answers late reached.1 source reached.2 := by
  intro reached
  obtain ⟨hsettings, hidle⟩ := Event.idle_run hm i hs events
  refine ⟨⟨hsettings, hidle, fun now => ?_, ?_⟩, fun source late hl => confined hm hl _ source _⟩
  · rw [hidle, Watchdog.check_idle]
  · rw [hidle, Watchdog.cancel_idle]

/-! The interpreter is asked to stop between two evaluations, to no effect, and again while an
expression reads point. -/

/-- A request that comes while nothing runs. -/
def early : List (Event (Session.Stage.around "main") (Session.Stage.answersOf "main")) :=
  [.elsewhere Session.Stage.hookedCancel (Session.Stage.hears_hookedCancel "main")]

theorem stopped_in_expression :
    ∃ f r, Phase.run (Session.Stage.around "main") usual "emacs::point() + 1"
        (Event.run usual impatient early).2 .expression = some (.error f, r) ∧
      f.stop? = some .cancelled := by
  have hend : (Phase.run (Session.Stage.around "main") usual "emacs::point() + 1"
      (Event.run usual impatient early).2 .expression).map (fun (v, _) => match v with
        | .error f => f.stop?
        | .ok _ => none) = some (some .cancelled) := by
    unfold Phase.run Phase.start expressionStart
    rw [show usual.settings = .default from rfl, environment_default]
    decide +kernel
  obtain ⟨⟨f | v, r⟩, hrun, he⟩ := Option.map_eq_some_iff.mp hend
  · exact ⟨f, r, hrun, he⟩
  · cases he

theorem requests_confined_early :
    (Session.Stage.around "main").Monitored (Session.Stage.answersOf "main") ∧
    (Session.Stage.around "main").watchdog impatient = .idle ∧
    let s := (Event.run usual impatient early).2
    (usual.evaluate (Session.Stage.around "main") "emacs::point() + 1" s).1 = .error .cancelled ∧
    ∃ heard, Session.Stage.answersOf "main"
        (usual.evaluate (Session.Stage.around "main") "emacs::point() + 1" s).2.2 =
      Session.Stage.answersOf "main" s ++ heard ∧ true ∈ heard := by
  have hm := Session.Stage.monitored_around "main"
  have hs : (Session.Stage.around "main").watchdog impatient = .idle := rfl
  obtain ⟨-, hconfined⟩ := requests_confined hm usual hs early
  have hnothing : (Session.Stage.around "main").Hears (Session.Stage.answersOf "main") id :=
    Session.Stage.hears_of_same fun _ => ⟨rfl, rfl, rfl⟩
  obtain ⟨f, r, hr, hf⟩ := stopped_in_expression
  have hresult := (evaluate_of_outcome (outcome_of_expression hr)).1
  rw [classify_eq_cancelled_iff.mpr hf] at hresult
  exact ⟨hm, hs, hresult, (hconfined "emacs::point() + 1" id hnothing).cancelled hresult⟩

end Interpreter

end EditorScripting
