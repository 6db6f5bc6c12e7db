import EditorScripting.Guest.Standalone
import EditorScripting.Settings.Json
import EditorScripting.Shared

/-!
The read-eval-print loop, one line at a time. The strings that a line makes are collected when it is
done.
-/
namespace EditorScripting.Repl

open Host Guest

/-- What a line of input asks for. -/
inductive Line where
  | blank
  | quit
  | diagnostics
  | expression (source : String)
deriving DecidableEq, Repr

/-- Blanks around a line do not matter. -/
def Line.ofText (text : String) : Line :=
  match String.ofList (Text.trim text.toList) with
  | "" => .blank
  | ":quit" => .quit
  | ":diagnostics" => .diagnostics
  | source => .expression source

/-- The editor, and its interpreter with what surrounds it. -/
structure State where
  desk : Standalone
  around : Surroundings Standalone
  interpreter : Interpreter

/-- How a line ends: with printed lines, at the end of the loop, or with an error. -/
inductive Reply where
  | printed (lines : List String) (next : State)
  | finished
  | failed (e : HostError)

namespace State

/-- Starts the loop for a buffer. The symbols of the editor are installed at once. -/
def start (around : Surroundings Standalone) (buffer : Buffer) (settings : Settings) :
    Except Failure State := do
  let desk := Standalone.ofEditor (Editor.ofBuffer buffer)
  let ⟨around, i⟩ ← (Shared.empty.initializeOnce around settings).1
  let (report, interpreter, desk) := i.refresh around desk
  return { desk := report.drop around.host desk, around, interpreter }

/-- Evaluates an expression, and prints its text or nil. -/
def evaluate (source : String) (s : State) : Reply :=
  let (text, desk) := s.desk.onEditor (·.makeString source)
  let (result, interpreter, desk) := s.interpreter.evaluateExpression s.around text desk
  match desk.editor.stringValue result with
  | .error e => .failed e
  | .ok value =>
    let (_, desk) := desk.onEditor (·.collect)
    .printed [value.getD "nil"] { s with desk, interpreter }

/-- Takes the diagnostics out and prints them. -/
def printDiagnostics (s : State) : Reply :=
  let (entries, d) := s.interpreter.diagnostics.drain
  .printed (entries.map (·.compact)) { s with interpreter := s.interpreter.withDiagnostics d }

/-- Carries out a line. -/
def run (s : State) : Line → Reply
  | .blank => .printed [] s
  | .quit => .finished
  | .diagnostics => s.printDiagnostics
  | .expression source => s.evaluate source

end State

end EditorScripting.Repl
