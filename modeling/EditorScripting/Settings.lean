import EditorScripting.Text.Duration

/-!
What can be configured about an interpreter.
-/
namespace EditorScripting

open Text

/-- A limit of zero on operations or on the size of data means that there is no limit. -/
structure Settings where
  moduleName : String
  /-- The symbol that a refresh never installs. -/
  reservedName : String
  maxOperations : UInt64
  maxExprDepth : UInt64
  maxFnDepth : UInt64
  timeoutMs : Option UInt64
  maxStringSize : UInt64
  maxArraySize : UInt64
  maxMapSize : UInt64
  diagnosticsCapacity : UInt64
deriving DecidableEq, Repr

namespace Settings

def default : Settings where
  moduleName := "emacs"
  reservedName := "refresh"
  maxOperations := 100000
  maxExprDepth := 64
  maxFnDepth := 64
  timeoutMs := some 5000
  maxStringSize := 1048576
  maxArraySize := 65536
  maxMapSize := 65536
  diagnosticsCapacity := 256

instance : Inhabited Settings := ⟨default⟩

/-- How long an evaluation may run. -/
def timeout (s : Settings) : Option Duration := s.timeoutMs.map fun n => Duration.ofMilliseconds n.toNat

end Settings

end EditorScripting
