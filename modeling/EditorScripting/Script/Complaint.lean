import EditorScripting.Script.Token

/-!
What can be wrong with a sequence of tokens.
-/
namespace EditorScripting.Script

inductive Complaint where
  | misspelled (cause : Misspelling)
  | incomplete
  | unknownOperator (text : String)
  | reserved (text : String)
  /-- A token that has to come next, and what it would be for. -/
  | missing (token purpose : String)
  | mismatched (expected found : String)
  | expressionExpected (what : String)
  | propertyExpected
  | variableExpected
  /-- A literal that is no index of another literal. -/
  | badIndex (detail : String)
  | duplicateProperty (name : String)
  | duplicateVariable (name : String)
  | tooLarge (what : String) (limit : Nat)
  | tooDeep
  /-- An assignment to a constant; a literal has no name. -/
  | constantAssigned (name : String)
  | notAssignable
  /-- A symbol that makes no sense at its place, with advice if there is some. -/
  | improper (symbol : String) (advice : Option String)
  /-- A method called with the variables of its caller. -/
  | openMethod
  | misplacedFunction
  | unnamedFunction
  | noParameters (name : String)
  | noBody (name : String)
  | duplicateParameter (function parameter : String)
  | duplicateFunction (name : String) (arity : Nat)
  | outsideLoop
deriving DecidableEq, Repr

namespace Complaint

/-- A reserved word, rather than a symbol. -/
def isWord (text : String) : Bool := text.toList.head?.any fun c => c.isAlpha || c == '_'

def message : Complaint → String
  | misspelled cause => cause.message
  | incomplete => "Script is incomplete"
  | unknownOperator text => "Unknown operator: '" ++ text ++ "'"
  | reserved text =>
    "'" ++ text ++ "' is a reserved " ++ if isWord text then "keyword" else "symbol"
  | missing token purpose => "Expecting '" ++ token ++ "' " ++ purpose
  | mismatched expected found => "Expecting " ++ expected ++ ", not " ++ found
  | expressionExpected what => "Expecting " ++ what ++ " expression"
  | propertyExpected => "Expecting name of a property"
  | variableExpected => "Expecting name of a variable"
  | badIndex detail => detail
  | duplicateProperty name => "Duplicated property for object map literal: " ++ name
  | duplicateVariable name => "Duplicated variable name: " ++ name
  | tooLarge what limit => what ++ " exceeds the maximum limit (" ++ toString limit ++ ")"
  | tooDeep => "Expression exceeds maximum complexity"
  | constantAssigned "" => "Cannot assign to a constant value"
  | constantAssigned name => "Cannot assign to constant " ++ name
  | notAssignable => "Expression cannot be assigned to"
  | improper _ (some advice) => advice
  | improper symbol none => "Invalid symbol encountered: '" ++ symbol ++ "'"
  | openMethod => "method-call style does not support running within the caller's scope"
  | misplacedFunction =>
    "Function definitions must be at global level and cannot be inside a block or another function"
  | unnamedFunction => "Expecting function name in function declaration"
  | noParameters name => "Expecting parameters for function " ++ name
  | noBody name => "Expecting body statement block for function " ++ name
  | duplicateParameter function parameter =>
    "Duplicated parameter " ++ parameter ++ " for function " ++ function
  | duplicateFunction name arity =>
    "Function " ++ name ++ " with " ++
      (if arity = 0 then "no parameters already exists"
      else if arity = 1 then "1 parameter already exists"
      else toString arity ++ " parameters already exists")
  | outsideLoop => "Break statement should only be used inside a loop"

end Complaint

end EditorScripting.Script
