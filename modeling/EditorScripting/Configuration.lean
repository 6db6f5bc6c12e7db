import EditorScripting.Failure
import EditorScripting.Script.Eval
import EditorScripting.Script.Fold
import EditorScripting.Script.Parser
import EditorScripting.Settings
import EditorScripting.Text.Source

/-!
Configuration by scripts. A script changes settings by calling setters. Every call takes effect at
once, so the calls before a failure stay; a script that cannot be read has no effect.
-/
namespace EditorScripting

open Script Text

/-- A change of one field of the settings. -/
inductive Change where
  | moduleName (name : String)
  | reservedName (name : String)
  | maxOperations (n : Int)
  | maxExprDepth (n : Int)
  | maxFnDepth (n : Int)
  | timeoutMs (n : Int)
  | noTimeout
  | maxStringSize (n : Int)
  | maxArraySize (n : Int)
  | maxMapSize (n : Int)
  | diagnosticsCapacity (n : Int)
deriving DecidableEq, Repr

namespace Change

/-- The number nearest to an integer that is at least `low`. -/
def atLeast (low n : Int) : UInt64 := UInt64.ofNat (max low n).toNat

/-- A depth of nesting is at least 1 and at most 1024. -/
def depth (n : Int) : UInt64 := UInt64.ofNat (max 1 (min n 1024)).toNat

/-- The settings after a change. -/
def apply (s : Settings) : Change → Settings
  | moduleName name => { s with moduleName := name }
  | reservedName name => { s with reservedName := name }
  | maxOperations n => { s with maxOperations := atLeast 0 n }
  | maxExprDepth n => { s with maxExprDepth := depth n }
  | maxFnDepth n => { s with maxFnDepth := depth n }
  | timeoutMs n => { s with timeoutMs := some (atLeast 0 n) }
  | noTimeout => { s with timeoutMs := none }
  | maxStringSize n => { s with maxStringSize := atLeast 0 n }
  | maxArraySize n => { s with maxArraySize := atLeast 0 n }
  | maxMapSize n => { s with maxMapSize := atLeast 0 n }
  | diagnosticsCapacity n => { s with diagnosticsCapacity := atLeast 1 n }

/-- The change that a call in a script asks for. -/
def ofCall? (name : String) (args : List Value) : Option Change :=
  match name, args with
  | "set_module_name", [.string s] => some (.moduleName s)
  | "set_reserved_name", [.string s] => some (.reservedName s)
  | "set_max_operations", [.int n] => some (.maxOperations n)
  | "set_max_expr_depth", [.int n] => some (.maxExprDepth n)
  | "set_max_fn_depth", [.int n] => some (.maxFnDepth n)
  | "set_timeout_ms", [.int n] => some (.timeoutMs n)
  | "disable_timeout", [] => some .noTimeout
  | "set_max_string_size", [.int n] => some (.maxStringSize n)
  | "set_max_array_size", [.int n] => some (.maxArraySize n)
  | "set_max_map_size", [.int n] => some (.maxMapSize n)
  | "set_diagnostics_capacity", [.int n] => some (.diagnosticsCapacity n)
  | _, _ => none

end Change

/-- The settings that scripts have made so far. -/
structure Configuration where
  settings : Settings
deriving Inhabited

namespace Configuration

/-- No script has run yet. -/
def initial : Configuration := ⟨.default⟩

/-- Scripts are bounded in depth but not in the size of their values. -/
def limits : Limits where
  exprDepth := 64
  callDepth := 64
  stringSize := 0
  arraySize := 0
  mapSize := 0

/-- The number of operations that one script may begin. -/
def maxOperations : Nat := 100000

/-- The state of a running script: the settings and the number of operations begun. -/
structure Running where
  settings : Settings
  operations : Nat

/-- The refusal after too many operations. -/
def refusal (operations : Nat) : Option Refusal :=
  if Limits.exceeds maxOperations operations then some .tooManyOperations else none

/-- The world of scripts. It has no wrapped values. -/
def world : World Change Running where
  step r := (refusal (r.operations + 1), { r with operations := r.operations + 1 })
  probe ahead r := (refusal (r.operations + ahead), r)
  retain _ r := r
  release _ r := r
  ask c r := (.ok .unit, { r with settings := c.apply r.settings })

def environment (definitions : List Definition) : Environment Change where
  limits
  modulePath := []
  moduleFunction _ _ := none
  function := Change.ofCall?
  property _ _ := none
  describe _ := none
  definitions

/-- Runs a script in a scope of its own. -/
def eval (c : Configuration) (source : String) : Except Failure Unit × Configuration :=
  match parseScript limits source with
  | .error (complaint, p) =>
    (.error (.configuration ("parse error: " ++ located complaint.message (some p))), c)
  | .ok script =>
    let script := script.simplify limits
    let program := runStatements (environment script.definitions) [] script.body
    match program.run world ⟨c.settings, 0⟩ with
    | (.ok _, r) => (.ok (), ⟨r.settings⟩)
    | (.error f, r) => (.error (.configuration f.message), ⟨r.settings⟩)

/-- Runs the script in a file. -/
def loadFile (c : Configuration) (path : String) (bytes : Option ByteArray) :
    Except Failure Unit × Configuration :=
  match decode bytes with
  | .ok source => c.eval source
  | .error why =>
    (.error (.configuration ("failed to read " ++ path ++ ": " ++ why.reason)), c)

/-- Runs the script at the default place, if there is one. -/
def loadDefault (c : Configuration) (path : String) (bytes : Option ByteArray) :
    Except Failure Unit × Configuration :=
  match bytes with
  | none => (.ok (), c)
  | some b => c.loadFile path (some b)

end Configuration

end EditorScripting
