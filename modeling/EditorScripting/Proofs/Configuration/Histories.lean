import EditorScripting.Proofs.Configuration.Changes
import EditorScripting.Proofs.Script.Asks

/-!
Histories of a configuration: scripts and files that are given to it one after another. What an
input does depends on the input alone: it ends in some way, and its calls make some changes. So the
settings after a history are the default ones after all these changes.
-/
namespace EditorScripting.Configuration

open Script Text

/-- A script, or a file that may hold one. -/
inductive Input where
  | script (source : String)
  | file (path : String) (bytes : Option ByteArray)
  | defaultFile (path : String) (bytes : Option ByteArray)

def Input.run (c : Configuration) : Input → Except Failure Unit × Configuration
  | script source => c.eval source
  | file path bytes => c.loadFile path bytes
  | defaultFile path bytes => c.loadDefault path bytes

/-- The results of inputs that are given one after another, and the configuration after them. -/
def history (c : Configuration) : List Input → List (Except Failure Unit) × Configuration
  | [] => ([], c)
  | i :: r =>
    let (result, c) := i.run c
    let (results, c) := c.history r
    (result :: results, c)

/-- The program that a script runs. -/
def program (script : Listing) : Program Change (Except Failed Value) :=
  runStatements (environment (script.simplify limits).definitions) [] (script.simplify limits).body

/-- How a script ends whose program ends like this. -/
def conclusion : Except Failed Value → Except Failure Unit
  | .ok _ => .ok ()
  | .error f => .error (.configuration f.message)

/-- How a script ends, and the changes that its calls make. -/
def scriptEffect (source : String) : Except Failure Unit × List Change :=
  match parseScript limits source with
  | .error (complaint, p) =>
    (.error (.configuration ("parse error: " ++ located complaint.message (some p))), [])
  | .ok script =>
    (conclusion ((program script).run world ⟨.default, 0⟩).1,
      (program script).asks world ⟨.default, 0⟩)

def fileEffect (path : String) (bytes : Option ByteArray) : Except Failure Unit × List Change :=
  match decode bytes with
  | .ok source => scriptEffect source
  | .error why => (.error (.configuration ("failed to read " ++ path ++ ": " ++ why.reason)), [])

def Input.effect : Input → Except Failure Unit × List Change
  | script source => scriptEffect source
  | file path bytes => fileEffect path bytes
  | defaultFile _ none => (.ok (), [])
  | defaultFile path (some bytes) => fileEffect path (some bytes)

/-- What a configuration makes of an effect. -/
def after (c : Configuration) (effect : Except Failure Unit × List Change) :
    Except Failure Unit × Configuration :=
  (effect.1, ⟨effect.2.foldl Change.apply c.settings⟩)

/-- No answer depends on the settings, so a program does the same whatever they are, and its
commands are all that changes them. -/
theorem run_world {α : Type} (p : Program Change α) (s s' : Settings) (n : Nat) :
    p.run world ⟨s, n⟩ =
      ((p.run world ⟨s', n⟩).1,
        ⟨(p.asks world ⟨s', n⟩).foldl Change.apply s, (p.run world ⟨s', n⟩).2.operations⟩) := by
  induction p generalizing s s' n with
  | done a => rfl
  | step k ih => exact ih _ s s' (n + 1)
  | probe ahead k ih => exact ih _ s s' n
  | retain h k ih => exact ih s s' n
  | release h k ih => exact ih s s' n
  | ask change k ih => exact ih _ (change.apply s) (change.apply s') n

theorem eval_eq (c : Configuration) (source : String) :
    c.eval source = c.after (scriptEffect source) := by
  unfold eval scriptEffect
  cases parseScript limits source with
  | error complaint => rfl
  | ok script =>
    dsimp only
    rw [show runStatements _ _ _ = program script from rfl, run_world _ _ .default]
    cases ((program script).run world ⟨.default, 0⟩).1 <;> rfl

theorem loadFile_eq (c : Configuration) (path : String) (bytes : Option ByteArray) :
    c.loadFile path bytes = c.after (fileEffect path bytes) := by
  unfold loadFile fileEffect
  cases decode bytes with
  | ok source => exact eval_eq c source
  | error why => rfl

theorem Input.run_eq (i : Input) (c : Configuration) : i.run c = c.after i.effect := by
  cases i with
  | script source => exact eval_eq c source
  | file path bytes => exact loadFile_eq c path bytes
  | defaultFile path bytes =>
    cases bytes with
    | none => rfl
    | some bytes => exact loadFile_eq c path (some bytes)

theorem history_eq (c : Configuration) (inputs : List Input) :
    c.history inputs =
      (inputs.map (·.effect.1), ⟨(inputs.flatMap (·.effect.2)).foldl Change.apply c.settings⟩) := by
  induction inputs generalizing c with
  | nil => rfl
  | cons i r ih =>
    rw [history, i.run_eq]
    dsimp only [after]
    rw [ih, List.map_cons, List.flatMap_cons, List.foldl_append]

theorem depthsBounded_history (inputs : List Input) :
    (initial.history inputs).2.settings.DepthsBounded := by
  rw [history_eq]
  exact Settings.depthsBounded_default.foldl _

end EditorScripting.Configuration
