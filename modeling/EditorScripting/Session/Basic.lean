import EditorScripting.Interpreter
import EditorScripting.Session.Stage

/-!
A session: interpreters, wrappers and reports of refreshes by name, on a common stage. What is put
under a name that is in use replaces the old thing, which is dropped after the new one was made.
-/
namespace EditorScripting

open Host Script

structure Session where
  stage : Session.Stage
  /-- The wrappers that the session keeps. -/
  objects : Std.TreeMap String Handle
  reports : Std.TreeMap String Report
  interpreters : Std.TreeMap String Interpreter

namespace Session

def ofEditor (e : Editor) : Session := ⟨.ofEditor e, ∅, ∅, ∅⟩

def editor (s : Session) : Editor := s.stage.editor

/-- A step of the stage alone. -/
def onStage {α : Type} (f : Stage → α × Stage) (s : Session) : α × Session :=
  let (a, stage) := f s.stage
  (a, { s with stage })

/-- A change of the stage alone. -/
def mapStage (f : Stage → Stage) (s : Session) : Session := { s with stage := f s.stage }

/-- A step of the editor itself, past the hooks. -/
def onEditor {α : Type} (f : Editor → α × Editor) (s : Session) : α × Session :=
  s.onStage (·.onEditor f)

/-- Drops a wrapper. -/
def dropWrapper (h : Handle) (s : Session) : Session := s.mapStage (Wrapper.drop Stage.host h)

/-- Keeps a wrapper under a name. -/
def keepObject (name : String) (h : Handle) (s : Session) : Session :=
  let old := s.objects[name]?
  let s := { s with objects := s.objects.insert name h }
  match old with
  | some g => s.dropWrapper g
  | none => s

/-- Wraps a value and keeps the wrapper. -/
def wrap (h : Handle) (name : String) (s : Session) : Except HostError Handle × Session :=
  match s.onStage (Wrapper.new Stage.host h) with
  | (.ok _, s) => (.ok h, s.keepObject name h)
  | (.error e, s) => (.error e, s)

/-- Copies a wrapper and keeps the copy. -/
def copyObject (h : Handle) (name : String) (s : Session) : Session :=
  (s.mapStage (Wrapper.copy Stage.host h)).keepObject name h

/-- Drops a wrapper that is kept, and tells whether there was one. -/
def dropObject (name : String) (s : Session) : Bool × Session :=
  match s.objects[name]? with
  | some h => (true, { s with objects := s.objects.erase name }.dropWrapper h)
  | none => (false, s)

/-- Drops the wrapper that a value was handed over in. -/
def discardMarshalled (m : Except HostError Marshalled) (s : Session) : Session :=
  match m with
  | .ok (.object h) => s.dropWrapper h
  | _ => s

/-- Calls a wrapped value. A wrapper in the result is dropped at once. -/
def invoke (h : Handle) (s : Session) : Except Failure Marshalled × Session :=
  let (m, s) := s.onStage (Wrapper.invoke Stage.host h)
  (m.mapError .host, s.discardMarshalled m)

/-- Hands a value to the guest. A wrapper in the result is dropped at once. -/
def marshal (h : Handle) (s : Session) : Except Failure Marshalled × Session :=
  let (m, s) := s.onStage (Wrapper.marshal Stage.host h)
  (m.mapError .host, s.discardMarshalled m)

/-- Drops an interpreter with all its wrappers. -/
def dropInterpreter (name : String) (i : Interpreter) (s : Session) : Session :=
  s.mapStage fun stage => (i.drop (Stage.around name) stage).setWatchdog name .idle

/-- Starts an interpreter under a name. -/
def start (name : String) (settings : Settings) (s : Session) : Except Failure Unit × Session :=
  match Interpreter.start settings with
  | .error f => (.error f, s)
  | .ok i =>
    let old := s.interpreters[name]?
    let s := { s with interpreters := s.interpreters.insert name i }
    (.ok (), match old with
      | some i => s.dropInterpreter name i
      | none => s)

/-- Drops an interpreter, and tells whether there was one. -/
def stop (name : String) (s : Session) : Bool × Session :=
  match s.interpreters[name]? with
  | some i => (true, { s with interpreters := s.interpreters.erase name }.dropInterpreter name i)
  | none => (false, s)

/-- Lets the interpreter of a name work on the stage. -/
def withInterpreter {α : Type} (name : String) (s : Session)
    (f : Interpreter → Stage → α × Interpreter × Stage) : Option (α × Session) :=
  s.interpreters[name]?.map fun i =>
    let (a, i, stage) := f i s.stage
    (a, { s with stage, interpreters := s.interpreters.insert name i })

/-- Evaluates an expression. -/
def evaluate (name source : String) (s : Session) : Option (Except Failure String × Session) :=
  s.withInterpreter name fun i => i.evaluate (Stage.around name) source

/-- Evaluates the expression in a host string. -/
def evaluateExpression (name : String) (h : Handle) (s : Session) : Option (Handle × Session) :=
  s.withInterpreter name fun i => i.evaluateExpression (Stage.around name) h

/-- Keeps a report under a name. -/
def keepReport (name : String) (r : Report) (s : Session) : Session :=
  let old := s.reports[name]?
  let s := { s with reports := s.reports.insert name r }
  match old with
  | some r => s.mapStage (r.drop Stage.host)
  | none => s

/-- Drops a report that is kept, and tells whether there was one. -/
def dropReport (name : String) (s : Session) : Bool × Session :=
  match s.reports[name]? with
  | some r => (true, { s with reports := s.reports.erase name }.mapStage (r.drop Stage.host))
  | none => (false, s)

/-- Refreshes the dictionary of an interpreter. The report is kept if it gets a name, and dropped
otherwise. -/
def refresh (name : String) (keep : Option String) (s : Session) : Option (Report × Session) :=
  (s.withInterpreter name fun i => i.refresh (Stage.around name)).map fun (r, s) =>
    (r, match keep with
      | some k => s.keepReport k r
      | none => s.mapStage (r.drop Stage.host))

/-- Looks a symbol up, copies its wrapper, shows the copy and drops it. -/
def lookUp (name symbol : String) (s : Session) :
    Option (Option (Handle × Except HostError String) × Session) :=
  s.withInterpreter name fun i stage =>
    match i.dictionary.find? symbol with
    | none => (none, i, stage)
    | some h =>
      let stage := Wrapper.copy Stage.host h stage
      let text := Wrapper.display Stage.host stage h
      (some (h, text), i, Wrapper.drop Stage.host h stage)

/-- The keys of the map of all installed wrappers, which is made for that and dropped. -/
def mapKeys (name : String) (s : Session) : Option (List String × Session) :=
  s.withInterpreter name fun i stage =>
    let handles := i.dictionary.entries.map (·.2)
    let stage := handles.foldl (fun s h => Wrapper.copy Stage.host h s) stage
    let stage := handles.foldl (fun s h => Wrapper.drop Stage.host h s) stage
    (i.dictionary.names, i, stage)

/-- Gives an interpreter a global variable, with copies of the wrappers in its value. -/
def defineGlobal (name key : String) (v : Value) (s : Session) : Option (Unit × Session) :=
  s.withInterpreter name fun i stage =>
    let stage := v.handles.foldl (fun s h => Wrapper.copy Stage.host h s) stage
    ((), i.defineGlobal (Stage.around name) key v stage)

/-- Takes all entries out of an interpreter's stream of failures. -/
def drain (name : String) (s : Session) : Option (List Diagnostic × Session) :=
  s.withInterpreter name fun i stage =>
    let (entries, d) := i.diagnostics.drain
    (entries, i.withDiagnostics d, stage)

/-- Asks an interpreter to stop. -/
def cancel (name : String) (s : Session) : Bool × Session := s.onStage (·.cancel name)

end Session

end EditorScripting
