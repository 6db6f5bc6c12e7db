import EditorScripting.Script.Position
import EditorScripting.Script.Printing
import EditorScripting.Script.Program

/-!
Errors that guest code meets when it runs, and the ways in which a computation can end early.
-/
namespace EditorScripting.Script

/-- What went wrong at run time. -/
inductive Fault where
  | variableNotFound (name : String)
  | functionNotFound (signature : String)
  | moduleNotFound (name : String)
  | unknownProperty (name typeName : String)
  /-- A property of a value of some type that takes no value of another type. -/
  | readOnlyProperty (name typeName valueType : String)
  /-- No element of a value of some type by an index of another one, to be read or else to be set
  to a value of a third one. -/
  | noIndexer (typeName indexType : String) (valueType : Option String)
  /-- An operation on numbers, or reading one, has no result. -/
  | arithmetic (detail : String)
  | wrongType (actual expected : String)
  | arrayBounds (index : Int) (size : Nat)
  | stringBounds (index : Int) (size : Nat)
  | bitBounds (index : Int)
  /-- Thrown by the program, or refused by the world. -/
  | thrown (value : Value)
  | tooLarge (what : String)
  | tooManyOperations
  | stopped (reason : Stop)
  | stackOverflow
  | notIterable
  /-- A function that nobody called as a method asks for its receiver. -/
  | noReceiver
  /-- Assigning to a part of a constant. -/
  | constantChanged (name : String)
  /-- Calling a method on a constant that would change it. -/
  | constantReceiver (method : String)
  /-- A fault inside a function that the script defines. -/
  | inFunction (name : String) (cause : Fault) (position : Option Position)
deriving Inhabited, Repr

namespace Fault

/-- A count with the right form of a noun. -/
def counted (n : Nat) (one many : String) : String :=
  toString n ++ " " ++ if n = 1 then one else many

/-- The wording of faults about properties. -/
def getterText (name typeName : String) : String :=
  "Unknown property '" ++ name ++ "' - a getter is not registered for type '" ++ typeName ++ "'"

def setterText (name typeName valueType : String) : String :=
  "No writable property '" ++ name ++ "' - a setter is not registered for type '" ++ typeName ++
    "' to handle '" ++ valueType ++ "'"

def indexerText (typeName indexType : String) (valueType : Option String) : String :=
  typeName ++ " [" ++ indexType ++ "]" ++
    match valueType with
    | some v => " = " ++ v
    | none => ""

/-- The wording of faults. -/
def message : Fault → String
  | variableNotFound name => "Variable not found: " ++ name
  | functionNotFound signature => "Function not found: " ++ signature
  | moduleNotFound name => "Module not found: " ++ name
  | unknownProperty name typeName => getterText name typeName
  | readOnlyProperty name typeName valueType => setterText name typeName valueType
  | noIndexer typeName indexType valueType =>
    "Indexer unavailable: " ++ indexerText typeName indexType valueType
  | arithmetic detail => detail
  | wrongType actual expected =>
    "Data type incorrect: " ++ actual ++ " (expecting " ++ expected ++ ")"
  | arrayBounds index size =>
    "Array index " ++ toString index ++ " out of bounds: " ++
      if size = 0 then "array is empty"
      else "only " ++ counted size "element" "elements" ++ " in array"
  | stringBounds index size =>
    "String index " ++ toString index ++ " out of bounds: " ++
      if size = 0 then "string is empty"
      else "only " ++ counted size "character" "characters" ++ " in string"
  | bitBounds index =>
    "Bit-field index " ++ toString index ++ " out of bounds: only 64 bits in bit-field"
  | thrown .unit => "Runtime error"
  | thrown (.string "") => "Runtime error"
  | thrown value => "Runtime error: " ++ value.plainText
  | tooLarge what => what ++ " too large"
  | tooManyOperations => "Too many operations"
  | stopped _ => "Script terminated"
  | stackOverflow => "Stack overflow"
  | notIterable => "For loop expects iterable type"
  | noReceiver => "'this' not bound"
  | constantChanged name => "Cannot modify constant " ++ name
  | constantReceiver method => "Non-pure method '" ++ method ++ "' cannot be called on constant"
  | inFunction name cause position =>
    located cause.message position ++ "\nin call to function '" ++ name ++ "'"

/-- The kind of a fault and what it is about, as a script that catches it sees them. -/
def details : Fault → List (String × Value)
  | variableNotFound name => kind "ErrorVariableNotFound" [("variable", .string name)]
  | functionNotFound signature => kind "ErrorFunctionNotFound" [("function", .string signature)]
  | moduleNotFound name => kind "ErrorModuleNotFound" [("module", .string name)]
  | unknownProperty name typeName =>
    kind "ErrorDotExpr" [("property", .string (getterText name typeName))]
  | readOnlyProperty name typeName valueType =>
    kind "ErrorDotExpr" [("property", .string (setterText name typeName valueType))]
  | noIndexer typeName indexType valueType =>
    kind "ErrorIndexingType" [("type", .string (indexerText typeName indexType valueType))]
  | arithmetic _ => kind "ErrorArithmetic" []
  | wrongType actual expected =>
    kind "ErrorMismatchDataType" [("actual", .string actual), ("requested", .string expected)]
  | arrayBounds index size => kind "ErrorArrayBounds" (bounds index size)
  | stringBounds index size => kind "ErrorStringBounds" (bounds index size)
  | bitBounds index => kind "ErrorBitFieldBounds" (bounds index 64)
  | thrown _ => kind "ErrorRuntime" []
  | tooLarge what => kind "ErrorDataTooLarge" [("type", .string what)]
  | tooManyOperations => kind "ErrorTooManyOperations" []
  | stopped _ => kind "ErrorTerminated" [("token", .unit)]
  | stackOverflow => kind "ErrorStackOverflow" []
  | notIterable => kind "ErrorFor" []
  | noReceiver => kind "ErrorUnboundThis" []
  | constantChanged name => kind "ErrorAssignmentToConstant" [("variable", .string name)]
  | constantReceiver method =>
    kind "ErrorNonPureMethodCallOnConstant" [("function", .string method)]
  | inFunction name _ _ =>
    kind "ErrorInFunctionCall" [("function", .string name), ("source", .string "")]
where
  kind (name : String) (rest : List (String × Value)) : List (String × Value) :=
    ("error", .string name) :: rest
  bounds (index : Int) (size : Nat) : List (String × Value) :=
    [("index", .int index), ("length", .int size)]

/-- The value that a fault was thrown with, also if it came out of functions. -/
def thrownValue? : Fault → Option Value
  | thrown v => some v
  | inFunction _ cause _ => cause.thrownValue?
  | _ => none

/-- What a script catches: a thrown value itself, and otherwise a map that describes the fault. -/
def caught (f : Fault) (p : Option Position) : Value :=
  match f.thrownValue? with
  | some v => v
  | none =>
    let place : List (String × Value) := match p with
      | some p =>
        if p = Position.nowhere then [] else [("line", .int p.line), ("position", .int p.column)]
      | none => []
    let entries : List (String × Value) := ("message", .string f.message) :: place ++ f.details
    .map (entries.foldl (fun m (k, v) => Value.insertEntry k v m) [])

/-- Faults that a script cannot catch. -/
def isSystem : Fault → Bool
  | tooLarge _ | tooManyOperations | stopped _ | stackOverflow => true
  | _ => false

end Fault

/-- How a computation ends early. -/
inductive Interrupt where
  | fault (f : Fault) (position : Option Position)
  /-- A loop ends with a value. -/
  | leaveLoop (value : Value)
  | nextRound
  | returned (value : Value)
  /-- The whole script ends. -/
  | exited (value : Value)
deriving Inhabited, Repr

end EditorScripting.Script
