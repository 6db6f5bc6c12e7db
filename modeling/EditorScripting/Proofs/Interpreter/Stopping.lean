import EditorScripting.Proofs.Guest.Lawful
import EditorScripting.Proofs.Interpreter.Tracks
import EditorScripting.Proofs.Script.Stops

/-!
What an evaluation is reported as that the watchdog stops. A stop of the expression is reported as a
stop, with the limit that was configured; a stop of the conversion of its value is not.
-/
namespace EditorScripting

open Host Script Guest

/-- Why a script was stopped, if it failed for that. -/
def Script.Failed.stop? (f : Failed) : Option Stop :=
  match f.fault with
  | .stopped reason => some reason
  | _ => none

theorem Script.Failed.stop?_eq_some_iff {f : Failed} {reason : Stop} :
    f.stop? = some reason ↔ f.fault = .stopped reason := by
  unfold stop?
  split
  · rename_i hf
    simp [hf]
  · rename_i hf
    exact ⟨nofun, fun h => (hf reason h).elim⟩

/-- The failure that reports a stop. Nothing runs into a limit that there is not. -/
def Stop.failure? (limit : Option Text.Duration) : Stop → Option Failure
  | .cancelled => some .cancelled
  | .timedOut => limit.map .timeout

/-- Reports of stops. -/
def Failure.IsStop (f : Failure) : Prop := f = .cancelled ∨ ∃ limit, f = .timeout limit

namespace Interpreter

variable {σ : Type} {around : Surroundings σ} {i : Interpreter} {source : String} {s : σ}

/-- A watchdog without a deadline lets nothing run into it. -/
theorem permitted_check {w : Watchdog} {d : Option (Nat × Text.Duration)} (hw : w.deadline = d)
    (now : Nat) :
    Refusal.Permitted (fun reason => reason = .timedOut → d.isSome = true)
      ((w.check now).map Refusal.stopped) := by
  unfold Watchdog.check
  rw [hw]
  split
  · exact fun h => by cases h
  · cases d with
    | none => trivial
    | some d =>
      dsimp only
      split
      · exact fun _ => rfl
      · trivial

theorem permitted_poll {d : Option (Nat × Text.Duration)} (hl : around.Lawful) {r : Running σ}
    (hd : (around.watchdog r.shared).deadline = d) :
    Refusal.Permitted (fun reason => reason = .timedOut → d.isSome = true) (r.poll around).1 :=
  permitted_check ((hl.meanwhile r.shared).deadline.trans hd) _

/-- The programs of both phases keep to terms that count calls of functions of the module. -/
theorem answers_start {P : Terms Command} (hP : Eval.Excuses (environment i.settings) P)
    {phase : Phase} {p : Program Command (Except Failed Value)} {r : Running σ}
    (hp : phase.start around i source s = some (p, r)) :
    p.Answers P
      (fun
        | .ok _ => True
        | .error f => f.fault.Permitted P.stop) .nothing := by
  cases phase with
  | expression =>
    obtain ⟨body, -, hb⟩ := expressionStart_eq_some_iff.mp hp
    cases hb
    exact answers_runStatements hP _ _
  | conversion =>
    obtain ⟨v, r', body, -, -, hb⟩ := conversionStart_eq_some_iff.mp hp
    cases hb
    exact answers_runStatements hP _ _

/-- The programs of both phases are stopped for no other reasons than the world's. -/
theorem stops_start (P : Stop → Prop) {phase : Phase}
    {p : Program Command (Except Failed Value)} {r : Running σ}
    (hp : phase.start around i source s = some (p, r)) :
    p.Answers ⟨P, fun _ _ => True⟩
      (fun
        | .ok _ => True
        | .error f => f.fault.Permitted P) .nothing :=
  answers_start (fun _ => trivial) hp

/-- A phase runs into a limit only if one is configured, and that is the limit of the watchdog. -/
theorem stopped_phase (hl : around.Lawful) {phase : Phase} {f : Failed} {r : Running σ}
    (hr : phase.run around i source s = some (.error f, r)) :
    (f.stop? = some .timedOut → i.settings.timeout.isSome = true) ∧
      (around.watchdog r.shared).limit = i.settings.timeout.getD ⟨0⟩ := by
  let d := i.settings.timeout.map fun d => (around.now s + d.nanoseconds, d)
  have ht := hl.tracks_deadline d
  have hfresh : (around.watchdog (fresh around i s).shared).deadline = d := by
    unfold fresh
    rw [hl.watchdog_setWatchdog]
    rfl
  obtain ⟨⟨p, r'⟩, hp, he⟩ := Option.map_eq_some_iff.mp hr
  have hstart : (around.watchdog r'.shared).deadline = d :=
    accounts_during (m := bindingHandles i.globals) ht hfresh (fun _ hh => by simpa using hh)
      (.running hp .here)
  have hkeeps := Running.keeps_accounts (m := 0) ht i.settings.maxOperations.toNat
  have hend := (stops_start (fun reason => reason = .timedOut → d.isSome = true) hp).run
    (w := world around i) (I := Running.Accounts (fun _ s => (around.watchdog s).deadline = d) 0)
    (fun r hr => ⟨by
      unfold world Running.world Running.step
      dsimp only
      split
      · trivial
      · exact permitted_poll hl hr, hkeeps.step r hr⟩)
    (fun n r hr => ⟨by
      unfold world Running.world Running.probe
      dsimp only
      split
      · trivial
      · exact permitted_poll hl hr, hkeeps.probe n r hr⟩)
    hkeeps.retain hkeeps.release hkeeps.ask hstart
  rw [show p.run (world around i) r' = (.error f, r) from he] at hend
  obtain ⟨hfault, hdeadline⟩ := hend
  constructor
  · intro hs
    dsimp only at hfault
    rw [Failed.stop?_eq_some_iff.mp hs] at hfault
    simpa [d] using hfault rfl
  · unfold Watchdog.limit
    rw [show (around.watchdog r.shared).deadline = d from hdeadline, Option.map_map]
    cases i.settings.timeout <;> rfl

theorem evaluate_of_outcome {f : Failure} {r : Running σ}
    (ho : outcome around i source s = (.error f, r)) :
    (i.evaluate around source s).1 = .error f ∧
      (i.evaluate around source s).2.1.diagnostics =
        r.bridge.diagnostics.record ⟨f.operation, f.message⟩ := by
  rw [evaluate_eq, ho]
  exact ⟨rfl, rfl⟩

theorem classify_stop {w : Watchdog} {f : Failed} {reason : Stop} {limit : Option Text.Duration}
    (hf : f.stop? = some reason) (hlimit : reason = .timedOut → limit.isSome = true)
    (hw : w.limit = limit.getD ⟨0⟩) : reason.failure? limit = some (classify w f) := by
  unfold classify
  rw [Failed.stop?_eq_some_iff.mp hf]
  cases reason with
  | cancelled => rfl
  | timedOut =>
    obtain ⟨d, rfl⟩ := Option.isSome_iff_exists.mp (hlimit rfl)
    rw [hw]
    rfl

/-- Texts that cannot be compiled are no stops. -/
theorem not_isStop_of_compile {settings : Settings} {globals : List Binding} {f : Failure}
    (hc : compile settings globals source = .error f) : ¬ f.IsStop := by
  unfold compile at hc
  split at hc
  · cases hc
  · cases hc
    simp [Failure.IsStop, malformed]

theorem not_isStop_of_conversion {settings : Settings} {f : Failure}
    (hc : conversion settings = .error f) : ¬ f.IsStop := by
  unfold conversion at hc
  split at hc
  · cases hc
  · cases hc
    simp [Failure.IsStop, malformed]

theorem not_isStop_of_converted {v : Except Failed Value} {f : Failure}
    (hc : converted v = .error f) : ¬ f.IsStop := by
  unfold converted at hc
  split at hc <;> cases hc <;> simp [Failure.IsStop]

/-- A failed expression is reported as a stop only if it was stopped. -/
theorem stop_of_classify {w : Watchdog} {f : Failed} (hc : (classify w f).IsStop) :
    ∃ reason, f.stop? = some reason := by
  unfold classify Failure.IsStop at hc
  split at hc
  · rename_i hf
    exact ⟨_, Failed.stop?_eq_some_iff.mpr hf⟩
  · rename_i hf
    exact ⟨_, Failed.stop?_eq_some_iff.mpr hf⟩
  · simp at hc

theorem message_of_stop {f : Failed} {reason : Stop} (hf : f.stop? = some reason) :
    f.message = located "Script terminated" f.position := by
  unfold Failed.message
  rw [Failed.stop?_eq_some_iff.mp hf]
  rfl

/-- A stop is reported as a stop, with the limit that is configured and under the label of
expressions, exactly if it hits the expression itself. One that hits the conversion of the value is
reported as a failed conversion. -/
theorem evaluate_stopped (hl : around.Lawful) (i : Interpreter) (source : String) (s : σ) :
    (∀ f r reason, Phase.run around i source s .expression = some (.error f, r) →
      f.stop? = some reason →
      ∃ failure, reason.failure? i.settings.timeout = some failure ∧
        (i.evaluate around source s).1 = .error failure ∧
        (i.evaluate around source s).2.1.diagnostics =
          r.bridge.diagnostics.record ⟨"evaluating expression", failure.message⟩) ∧
    (∀ f r reason, Phase.run around i source s .conversion = some (.error f, r) →
      f.stop? = some reason →
      let detail := located "Script terminated" f.position
      (i.evaluate around source s).1 = .error (.conversion detail) ∧
        (i.evaluate around source s).2.1.diagnostics =
          r.bridge.diagnostics.record ⟨"converting to string", "conversion error: " ++ detail⟩) ∧
    (∀ failure, (i.evaluate around source s).1 = .error failure →
      failure.IsStop →
      ∃ f r reason, Phase.run around i source s .expression = some (.error f, r) ∧
        f.stop? = some reason ∧ reason.failure? i.settings.timeout = some failure) := by
  refine ⟨fun f r reason hr hf => ?_, fun f r reason hr hf => ?_, fun failure he hs => ?_⟩
  · have ho := outcome_of_expression hr
    obtain ⟨hlimit, hw⟩ := stopped_phase hl hr
    have hc := classify_stop hf (fun hreason => hlimit (hreason ▸ hf)) hw
    refine ⟨_, hc, (evaluate_of_outcome ho).1, (evaluate_of_outcome ho).2.trans ?_⟩
    cases reason with
    | cancelled =>
      obtain hc := Option.some.inj hc
      rw [← hc]
      rfl
    | timedOut =>
      obtain ⟨d, -, hd⟩ := Option.map_eq_some_iff.mp hc
      rw [← hd]
      rfl
  · have ho := outcome_of_conversion hr
    rw [show converted (.error f) = .error (.conversion f.message) from rfl,
      message_of_stop hf] at ho
    exact evaluate_of_outcome ho
  · rcases outcome_cases around i source s with
      ⟨f, hc, ho⟩ | ⟨f, r, hr, ho⟩ | ⟨v, r, f, -, hc, ho⟩ | ⟨v, r, -, ho⟩
    · obtain rfl := Except.error.inj ((evaluate_of_outcome ho).1.symm.trans he)
      exact absurd hs (not_isStop_of_compile hc)
    · obtain rfl := Except.error.inj ((evaluate_of_outcome ho).1.symm.trans he)
      obtain ⟨reason, hf⟩ := stop_of_classify hs
      obtain ⟨hlimit, hw⟩ := stopped_phase hl hr
      exact ⟨f, r, reason, hr, hf, classify_stop hf (fun hreason => hlimit (hreason ▸ hf)) hw⟩
    · obtain rfl := Except.error.inj ((evaluate_of_outcome ho).1.symm.trans he)
      exact absurd hs (not_isStop_of_conversion hc)
    · have hfst : (i.evaluate around source s).1 = converted v := by rw [evaluate_eq, ho]
      exact absurd hs (not_isStop_of_converted (hfst.symm.trans he))

/-! The stop that goes unreported: the host asks for it while the expression reads point, and the
first operation after that is the conversion's. -/

theorem environment_default :
    environment .default =
      { Command.environment (limits .default) "emacs" with modulePath := ["emacs"] } := by
  have hpath : Command.modulePath "emacs" = ["emacs"] := by
    have hsplit : "emacs".splitOn "::" = ["emacs"] := by
      unfold String.splitOn
      rw [if_neg (by decide)]
      iterate 5 rw [String.splitOnAux, if_neg (by decide +kernel), if_neg (by decide +kernel)]
      rw [String.splitOnAux, if_pos (by decide +kernel)]
      decide +kernel
    unfold Command.modulePath
    rw [hsplit]
  unfold environment Command.environment
  rw [show Settings.default.moduleName = "emacs" from rfl, hpath]

/-- An interpreter with default settings. -/
def usual : Interpreter :=
  ⟨.default, ⟨"refresh", ∅, .empty 256⟩, [⟨"version", .string version, true⟩]⟩

/-- A stage on which asking for point asks the interpreter to stop. -/
def impatient : Session.Stage :=
  (Session.Stage.ofEditor (.ofBuffer (.ofText "" none))).withHooks ⟨[], [], some "main", 0, false⟩

theorem stopped_in_conversion :
    ∃ f r, Phase.run (Session.Stage.around "main") usual "emacs::point()" impatient .conversion =
      some (.error f, r) ∧ f.stop? = some .cancelled ∧ f.position = some ⟨1, 1⟩ := by
  have hend : (Phase.run (Session.Stage.around "main") usual "emacs::point()" impatient
      .conversion).map (fun (v, _) => match v with
        | .error f => (f.stop?, f.position)
        | .ok _ => (none, none)) = some (some .cancelled, some ⟨1, 1⟩) := by
    unfold Phase.run Phase.start conversionStart expressionStart
    rw [show usual.settings = .default from rfl, environment_default]
    decide +kernel
  obtain ⟨⟨f | v, r⟩, hrun, he⟩ := Option.map_eq_some_iff.mp hend
  · exact ⟨f, r, hrun, congrArg Prod.fst he, congrArg Prod.snd he⟩
  · cases he

theorem evaluate_stopped_in_conversion :
    (Session.Stage.around "main").Lawful ∧
    (usual.evaluate (Session.Stage.around "main") "emacs::point()" impatient).1 =
      .error (.conversion "Script terminated (line 1, position 1)") := by
  have hl := Session.Stage.lawful_around "main"
  obtain ⟨f, r, hr, hstop, hp⟩ := stopped_in_conversion
  obtain ⟨-, hconversion, -⟩ := evaluate_stopped hl usual "emacs::point()" impatient
  refine ⟨hl, ?_⟩
  rw [(hconversion f r .cancelled hr hstop).1, hp]
  rfl

end Interpreter

end EditorScripting
