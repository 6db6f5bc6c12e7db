import EditorScripting.Host.Object
import EditorScripting.Text.Duration

/-!
What can go wrong between a host and guest code. Each failure has a wording and the label under
which the diagnostic stream files it.
-/
namespace EditorScripting

open Host Text

inductive Failure where
  /-- The expression is malformed. -/
  | compile (detail : String)
  /-- Running the expression failed. -/
  | evaluation (detail : String)
  /-- The result has no text. -/
  | conversion (detail : String)
  /-- The expression ran longer than it may. -/
  | timeout (limit : Duration)
  | cancelled
  | wrongType (expected found : String)
  | host (error : HostError)
  | alreadyInitialized
  | configuration (detail : String)
deriving DecidableEq, Repr

namespace Failure

def message : Failure → String
  | compile detail => "compile error: " ++ detail
  | evaluation detail => "evaluation error: " ++ detail
  | conversion detail => "conversion error: " ++ detail
  | timeout limit => "evaluation exceeded its " ++ limit.text ++ " deadline"
  | cancelled => "evaluation was cancelled"
  | wrongType expected found =>
    "wrong type argument: expected " ++ expected ++ ", got " ++ found
  | host error => error.message
  | alreadyInitialized => "interpreter is already initialized"
  | configuration detail => "config error: " ++ detail

/-- What the program was doing when it failed. -/
def operation : Failure → String
  | compile _ => "compiling"
  | evaluation _ | timeout _ | cancelled => "evaluating expression"
  | conversion _ => "converting to string"
  | wrongType _ _ => "checking argument"
  | host _ => "accessing host value"
  | alreadyInitialized => "initializing"
  | configuration _ => "loading config"

end Failure

end EditorScripting
