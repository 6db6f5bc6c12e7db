import EditorScripting.Guest.Run
import EditorScripting.Script.Fold
import EditorScripting.Script.Parser
import EditorScripting.Settings

/-!
An interpreter for expressions of the guest language, bound to a host. It owns the dictionary of
installed symbols, the stream of failures and the global variables. An evaluation works on a copy
of the global variables, so it never changes them.
-/
namespace EditorScripting

open Host Script Guest

structure Interpreter where
  settings : Settings
  bridge : Bridge
  /-- The global variables and constants, innermost and newest first. -/
  globals : List Binding

namespace Interpreter

/-- The version that the constant of that name tells. -/
def version : String := "0.1.0"

/-- The bounds on expressions and values that settings set. -/
def limits (s : Settings) : Limits where
  exprDepth := s.maxExprDepth.toNat
  callDepth := 64
  stringSize := s.maxStringSize.toNat
  arraySize := s.maxArraySize.toNat
  mapSize := s.maxMapSize.toNat

def environment (s : Settings) : Environment Command :=
  Command.environment (limits s) s.moduleName

/-- Why a text cannot be compiled. -/
def malformed (c : Complaint × Position) : Failure := .compile (located c.1.message (some c.2))

/-- The expression that turns the result of an evaluation into text. -/
def conversionSource : String := "to_string(value)"

/-- The conversion, read under the bounds of the settings. -/
def conversion (s : Settings) : Except Failure (List Stmt) :=
  match parseExpression (limits s) [] conversionSource with
  | .ok e => .ok (Listing.simplifiedBody (limits s) [("value", none)] false [.expr e])
  | .error c => .error (malformed c)

/-- A new interpreter has the constant of its version and an empty dictionary. It cannot be made
with bounds that are too narrow for its own conversion expression. -/
def start (s : Settings) : Except Failure Interpreter := do
  discard (conversion s)
  return {
    settings := s
    bridge := {
      reservedName := s.reservedName
      dictionary := ∅
      diagnostics := Diagnostics.empty s.diagnosticsCapacity.toNat }
    globals := [⟨"version", .string version, true⟩] }

def diagnostics (i : Interpreter) : Diagnostics := i.bridge.diagnostics

/-- The interpreter with another stream of failures. -/
def withDiagnostics (i : Interpreter) (d : Diagnostics) : Interpreter :=
  { i with bridge := { i.bridge with diagnostics := d } }

def dictionary (i : Interpreter) : Dictionary := i.bridge.dictionary

/-- Names that expressions can rely on. Only constants have a value before an expression runs. -/
def known (globals : List Binding) : Fold.Known :=
  globals.map fun b => (b.name, if b.constant then some b.value else none)

/-- Reads a text as an expression and simplifies it. -/
def compile (s : Settings) (globals : List Binding) (source : String) :
    Except Failure (List Stmt) :=
  match parseExpression (limits s) ((globals.filter (·.constant)).map (·.name)) source with
  | .ok e => .ok (Listing.simplifiedBody (limits s) (known globals) false [.expr e])
  | .error c => .error (malformed c)

/-- The wrappers in the values of bindings. -/
def bindingHandles (globals : List Binding) : List Handle := globals.flatMap (·.value.handles)

section

variable {σ : Type} (around : Surroundings σ)

/-- Files a failure and passes the result on. -/
def filing {α : Type} (r : Except Failure α) (i : Interpreter) : Except Failure α × Interpreter :=
  (r, match r with
    | .ok _ => i
    | .error f => i.withDiagnostics (i.diagnostics.recordFailure f))

/-- What a failed evaluation is reported as. A stop is reported as such, with the limit that the
watchdog has. -/
def classify (w : Watchdog) (f : Failed) : Failure :=
  match f.fault with
  | .stopped .cancelled => .cancelled
  | .stopped .timedOut => .timeout w.limit
  | _ => .evaluation f.message

/-- Runs an expression, and then the conversion of its result with a count of its own. -/
def runExpression (s : Settings) (globals : List Binding) (body : List Stmt) (r : Running σ) :
    Except Failure String × Running σ :=
  let world := Running.world around s.maxOperations.toNat
  let env := environment s
  match (runStatements env globals body).run world r with
  | (.error f, r) => (.error (classify (around.watchdog r.shared) f), r)
  | (.ok v, r) =>
    match conversion s with
    | .error f => (.error f, r)
    | .ok body =>
      let program := runStatements env [⟨"value", v, false⟩] body
      match program.run world { r with operations := 0 } with
      | (.ok (.string text), r) => (.ok text, r)
      | (.ok v, r) => (.error (.conversion ("Output type incorrect: " ++ v.typeName)), r)
      | (.error f, r) => (.error (.conversion f.message), r)

/-- Evaluates an expression with the watchdog armed. The guest starts with copies of the wrappers
in the globals, and everything that it still holds at the end is dropped. -/
def evaluateArmed (i : Interpreter) (source : String) (s : σ) :
    Except Failure String × Interpreter × σ :=
  let r : Running σ := ⟨s, i.bridge, 0, []⟩
  let r := (bindingHandles i.globals).foldl (fun r h => r.give around h) r
  let (result, r) := match compile i.settings i.globals source with
    | .error f => (Except.error f, r)
    | .ok body => runExpression around i.settings i.globals body r
  let r := r.releaseAll around
  (result, { i with bridge := r.bridge }, r.shared)

/-- Evaluates an expression and returns the text of its value. A failure is filed. -/
def evaluate (i : Interpreter) (source : String) (s : σ) :
    Except Failure String × Interpreter × σ :=
  let s := around.setWatchdog (Watchdog.arm i.settings.timeout (around.now s)) s
  let (result, i, s) := evaluateArmed around i source s
  let (result, i) := filing result i
  (result, i, around.setWatchdog .idle s)

/-- The source text that a host value holds. -/
def sourceOf (host : Interface σ) (s : σ) (h : Handle) : Except Failure String :=
  match host.stringValue s h with
  | .ok (some source) => .ok source
  | .ok none =>
    .error (.wrongType "string" (match host.typeOf s h with
      | .ok found => found
      | .error _ => "unknown"))
  | .error e => .error (.host e)

/-- Evaluates the expression in a host string. The result is a new host string, or nil after a
failure, which is filed. -/
def evaluateExpression (i : Interpreter) (h : Handle) (s : σ) : Handle × Interpreter × σ :=
  match sourceOf around.host s h with
  | .error f => (around.host.nil s, (filing (.error f : Except Failure Unit) i).2, s)
  | .ok source =>
    match evaluate around i source s with
    | (.ok text, i, s) =>
      let (h, s) := around.host.makeString text s
      (h, i, s)
    | (.error _, i, s) => (around.host.nil s, i, s)

/-- Wraps and installs the symbols of the host. -/
def refresh (i : Interpreter) (s : σ) : Report × Interpreter × σ :=
  let (report, bridge, s) := i.bridge.refresh around.host s
  (report, { i with bridge }, s)

/-- Gives the newest binding of a name a new value if it is a variable, and adds a binding
otherwise. The old value is returned too. -/
def bind (name : String) (v : Value) (globals : List Binding) : List Binding × Option Value :=
  match globals.find? (·.name == name) with
  | some ⟨_, old, false⟩ => (Eval.store name v globals, some old)
  | _ => (⟨name, v, false⟩ :: globals, none)

/-- Makes a value a global variable for all later evaluations. The interpreter takes the value
over; a value that it replaces is dropped. -/
def defineGlobal (i : Interpreter) (name : String) (v : Value) (s : σ) : Interpreter × σ :=
  let (globals, old) := bind name v i.globals
  let gone := (old.map Value.handles).getD []
  ({ i with globals }, gone.foldl (fun s h => Wrapper.drop around.host h s) s)

/-- The names of the globals, oldest first. -/
def globalNames (i : Interpreter) : List String := (i.globals.map (·.name)).reverse

/-- The built-in functions are linked into every interpreter. -/
def hasBuiltins (_ : Interpreter) : Bool := true

def hasModule (i : Interpreter) (name : String) : Bool := i.settings.moduleName == name

/-- Drops an interpreter with all its wrappers. -/
def drop (i : Interpreter) (s : σ) : σ :=
  let s := i.dictionary.clear around.host s
  (bindingHandles i.globals).foldl (fun s h => Wrapper.drop around.host h s) s

end

end Interpreter

end EditorScripting
