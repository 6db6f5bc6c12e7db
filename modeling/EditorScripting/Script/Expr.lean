import EditorScripting.Script.Operator

/-!
Expressions and statements of scripts, with the places that messages refer to.
-/
namespace EditorScripting.Script

/-- How a link of a chain is joined to what is in front of it. -/
structure Joint where
  /-- The place of the point or of the opening bracket. -/
  position : Position
  /-- If there is unit in front of the link, the chain ends with unit. -/
  optional : Bool
deriving Repr, Inhabited

mutual

inductive Expr where
  | const (value : Value) (position : Position)
  /-- Pieces whose texts are joined. -/
  | template (parts : List Expr) (position : Position)
  | array (items : List Expr) (position : Position)
  | map (entries : List (String × Expr)) (position : Position)
  | ref (name : String) (position : Position)
  /-- A variable of a module; the places are those of the first and of the last name. -/
  | moduleRef (path : List String) (name : String) (start position : Position)
  | call (name : String) (args : List Expr) (position : Position)
  /-- A function of a module; the places are those of the first and of the last name. -/
  | moduleCall (path : List String) (name : String) (args : List Expr)
      (start position : Position)
  | negate (operand : Expr) (position : Position)
  | affirm (operand : Expr) (position : Position)
  | invert (operand : Expr) (position : Position)
  | binary (op : Operator) (left right : Expr) (position : Position)
  /-- All operands hold. The place is that of the first operator. -/
  | allOf (operands : List Expr) (position : Position)
  /-- Some operand holds. -/
  | anyOf (operands : List Expr) (position : Position)
  /-- The first operand that is not unit. -/
  | firstOf (operands : List Expr) (position : Position)
  /-- The container holds the item. -/
  | member (container item : Expr) (position : Position)
  /-- A root with properties, methods and indices behind it. -/
  | chain (root : Expr) (links : List Link)
  /-- Statements whose last value counts. -/
  | block (body : List Stmt) (position : Position)

inductive Link where
  | property (name : String) (position : Position) (joint : Joint)
  | method (name : String) (args : List Expr) (position : Position) (joint : Joint)
  | index (key : Expr) (joint : Joint)

inductive Stmt where
  | expr (e : Expr)
  | define (name : String) (value : Expr) (constant : Bool) (position : Position)
  /-- An assignment, with the operator that it applies first. -/
  | assign (target : Expr) (op : Option Operator) (value : Expr) (position : Position)
  | branch (condition : Expr) (yes no : List Stmt) (position : Position)
  /-- A loop; without condition it has no end of its own. -/
  | loop (condition : Option Expr) (body : List Stmt) (position bodyPosition : Position)
  | each (name : String) (counter : Option String) (source : Expr) (body : List Stmt)
      (position : Position)
  /-- Ends a loop, which then has the value. -/
  | leave (value : Option Expr) (position : Position)
  | skip (position : Position)
  | give (value : Option Expr) (position : Position)
  | throw (value : Option Expr) (position : Position)
  | attempt (body : List Stmt) (name : Option String) (handler : List Stmt) (position : Position)
  | block (body : List Stmt) (position : Position)

end

instance : Inhabited Expr := ⟨.const .unit Position.start⟩

instance : Inhabited Stmt := ⟨.skip Position.start⟩

namespace Link

def joint : Link → Joint
  | property _ _ j | method _ _ _ j | index _ j => j

end Link

namespace Expr

/-- The place at which running an expression is reported. -/
def position : Expr → Position
  | const _ p | template _ p | array _ p | map _ p | ref _ p | moduleRef _ _ _ p
  | call _ _ p | moduleCall _ _ _ _ p | negate _ p | affirm _ p | invert _ p | binary _ _ _ p
  | allOf _ p | anyOf _ p | firstOf _ p | member _ _ p | block _ p => p
  | chain _ (l :: _) => l.joint.position
  | chain root [] => root.position

mutual

/-- The place where an expression starts; calls and operators count as starting at their own place. -/
def start : Expr → Position
  | moduleRef _ _ s _ => s
  | allOf es p | anyOf es p | firstOf es p => firstStart es p
  | chain root _ => root.start
  | e => e.position

/-- The place where the first of some expressions starts. -/
def firstStart : List Expr → Position → Position
  | [], p => p
  | e :: _, _ => e.start

end

/-- The expression names a variable. -/
def isVariable : Expr → Bool
  | ref _ _ | moduleRef _ _ _ _ => true
  | _ => false

/-- A call, or an operator, which counts as one. -/
def isCall : Expr → Bool
  | call _ _ _ | moduleCall _ _ _ _ _ | negate _ _ | affirm _ _ | invert _ _
  | binary _ _ _ _ | member _ _ _ => true
  | _ => false

/-- The value of an expression that is one. -/
def literal? : Expr → Option Value
  | const v _ => some v
  | _ => none

end Expr

namespace Link

/-- The place at which the link itself is reported. -/
def position : Link → Position
  | property _ p _ | method _ _ p _ => p
  | index key _ => key.position

end Link

namespace Stmt

/-- The place at which a statement is reported. -/
def position : Stmt → Position
  | expr e => e.start
  | define _ _ _ p | assign _ _ _ p | branch _ _ _ p | loop _ _ p _ | each _ _ _ _ p | leave _ p
  | skip p | give _ p | throw _ p | attempt _ _ _ p | block _ p => p

/-- The statement needs no semicolon behind it. -/
def closesItself : Stmt → Bool
  | branch .. | loop .. | each .. | attempt .. | block .. => true
  | _ => false

end Stmt

/-- A function that a script defines. One that is defined for a type of receivers can only be called
as a method of such a receiver. -/
structure Definition where
  receiver : Option String
  name : String
  parameters : List String
  body : List Stmt
  position : Position
deriving Inhabited

/-- A script: its functions and its statements. -/
structure Listing where
  definitions : List Definition
  body : List Stmt
deriving Inhabited

end EditorScripting.Script
