import EditorScripting.Script.Expr
import EditorScripting.Script.Printing

/-!
Simplifying scripts before they run. Operators on literals are applied, names of constants are
replaced by their values, blocks that define nothing are opened, and statements that cannot be
reached or have no effect are dropped. What would fail is left to fail when it runs.
-/
namespace EditorScripting.Script

namespace Fold

/-- Names in scope, innermost first, with the values of constants. -/
abbrev Known := List (String × Option Value)

/-- The values of literals, if all of them are. -/
def literals? (es : List Expr) : Option (List Value) := es.mapM (·.literal?)

/-- The entries of a map literal whose values are literals. -/
def literalEntries? : List (String × Expr) → Option (List (String × Value))
  | [] => some []
  | (k, e) :: r => do
    let v ← e.literal?
    return Value.insertEntry k v (← literalEntries? r)

mutual

/-- Running the simplified expression can change nothing, and what it finds out does not matter if
its value does not. -/
def isPure : Expr → Bool
  | .const _ _ | .ref _ _ => true
  | .block body _ => arePure body
  | _ => false

/-- Running the simplified statement can neither change anything nor go on forever. -/
def statementIsPure : Stmt → Bool
  | .expr e => isPure e
  | .branch c yes no _ => isPure c && arePure yes && arePure no
  | .each _ _ source body _ => source.literal?.isSome && arePure body
  | .attempt body _ handler _ => arePure body && arePure handler
  | .block body _ => arePure body
  | _ => false

def arePure : List Stmt → Bool
  | [] => true
  | s :: r => statementIsPure s && arePure r

end

/-- The statement changes nothing outside the block that it stands in. -/
def isLocal : Stmt → Bool
  | .define _ e _ _ => isPure e
  | s => statementIsPure s

/-- The statement can be the value of a block. -/
def hasValue : Stmt → Bool
  | .expr _ | .branch _ _ _ _ | .block _ _ => true
  | _ => false

/-- The statement defines a name for those behind it. -/
def isDefinition : Stmt → Bool
  | .define _ _ _ _ => true
  | _ => false

/-- Control never gets behind the statement. -/
def isFinal : Stmt → Bool
  | .leave _ _ | .skip _ | .give _ _ | .throw _ _ => true
  | _ => false

/-- Blocks that define nothing are replaced by their statements. -/
def opened : List Stmt → List Stmt
  | [] => []
  | .block (s :: body) p :: r =>
    if (s :: body).any isDefinition then .block (s :: body) p :: opened r
    else s :: body ++ opened r
  | s :: r => s :: opened r

/-- Statements up to the first one that ends them. -/
def reachable : List Stmt → List Stmt
  | [] => []
  | s :: r => if isFinal s then [s] else s :: reachable r

/-- Statements without those that are pure, the last one excepted if its value counts. -/
def prune (keepLast : Bool) : List Stmt → List Stmt
  | [] => []
  | [s] => if !keepLast && statementIsPure s then [] else [s]
  | s :: r => if statementIsPure s then prune keepLast r else s :: prune keepLast r

/-- The statements of a block, last one first, without definitions at the end, which nobody can use
any more. The value of the block is kept. -/
def trimmed : List Stmt → List Stmt
  | [] => []
  | .expr (.const v p) :: r => .expr (.const v p) :: r.dropWhile isLocal
  | s :: r =>
    if !hasValue s && isLocal s then
      if r.head?.any hasValue then .block [] s.position :: r else trimmed r
    else s :: r

/-- The statements of a function or script, last one first, in which a final `return` is a value. -/
def returning : List Stmt → List Stmt
  | .give (some e) _ :: r => .expr e :: r
  | .give none p :: r => if r.head?.any hasValue then .block [] p :: r else r
  | r => r

/-- The statements of a block whose parts are simplified. -/
def tidy (keepLast : Bool) (body : List Stmt) : List Stmt :=
  let body := prune keepLast (reachable (opened body))
  (if keepLast then trimmed body.reverse else body.reverse.dropWhile isLocal).reverse

/-- Joins adjacent literal pieces of a template, and leaves out those that are empty. -/
def joinPieces : List Expr → List Expr
  | [] => []
  | e :: r =>
    match e, joinPieces r with
    | .const .unit _, r => r
    | .const (.string "") _, r => r
    | .const (.string s) p, .const (.string t) _ :: r => .const (.string (s ++ t)) p :: r
    | e, r => e :: r

/-- A template whose pieces are simplified. -/
def template (parts : List Expr) (p : Position) : Expr :=
  match literals? parts with
  | some values => .const (.string (String.join (values.map Value.plainText))) p
  | none => .template (joinPieces parts) p

/-- The item at an index, which counts from the end if it is negative. -/
def item? {α : Type} (items : List α) (i : Int) : Option α :=
  let i := if i < 0 then i + items.length else i
  if 0 ≤ i then items[i.toNat]? else none

/-- An element that a literal certainly has. -/
def element? : Expr → Link → Option Expr
  | .const (.array items) p, .index (.const (.int i) _) _ => (item? items i).map (.const · p)
  | .const (.string s) p, .index (.const (.int i) _) _ =>
    (item? s.toList i).map fun c => .const (.char c) p
  | .const (.map entries) p, .index (.const (.string key) _) _ => some (value entries p key)
  | .const (.map entries) p, .property key _ _ => some (value entries p key)
  | .const v _, .method "type_of" [] p _ => some (.const (.string v.typeName) p)
  | _, _ => none
where
  value (entries : List (String × Value)) (p : Position) (key : String) : Expr :=
    .const ((Value.lookup key entries).getD .unit) p

/-- An operator between simplified operands. -/
def binary (limits : Limits) (op : Operator) (l r : Expr) (p : Position) : Expr :=
  match l.literal?, r.literal? with
  | some a, some b =>
    match op.onSimple? a b with
    | some (.ok v) =>
      match limits.check v with
      | .ok v => .const v p
      | .error _ => .binary op l r p
    | _ => .binary op l r p
  | _, _ => .binary op l r p

/-- Operands without the literals that change nothing, up to the first literal that decides. -/
def decisive (isNeutral decides : Value → Bool) : List Expr → List Expr
  | [] => []
  | e :: r =>
    match e with
    | .const v p =>
      if isNeutral v then decisive isNeutral decides r
      else if decides v then [.const v p]
      else .const v p :: decisive isNeutral decides r
    | e => e :: decisive isNeutral decides r

/-- Joins operands that are left; without operands there is the value `otherwise`. -/
def joined (otherwise : Value) (join : List Expr → Position → Expr) (p : Position) :
    List Expr → Expr
  | [] => .const otherwise p
  | [e] => e
  | es => join es p

def isTrue : Value → Bool
  | .bool b => b
  | _ => false

def isFalse : Value → Bool
  | .bool b => !b
  | _ => false

def isUnit : Value → Bool
  | .unit => true
  | _ => false

/-- Conjunctions, disjunctions and fallbacks of simplified operands. A fallback that has only units
is false. -/
def allOf (es : List Expr) (p : Position) : Expr :=
  joined (.bool true) .allOf p (decisive isTrue isFalse es)

def anyOf (es : List Expr) (p : Position) : Expr :=
  joined (.bool false) .anyOf p (decisive isFalse isTrue es)

def firstOf (es : List Expr) (p : Position) : Expr :=
  joined (.bool false) .firstOf p (decisive isUnit (fun _ => true) es)

/-- A block whose statements are simplified. A call has its own place among statements. -/
def block (body : List Stmt) (p : Position) : Expr :=
  match body with
  | [] => .const .unit p
  | [.expr e] => if e.isCall then .block [.expr e] p else e
  | body => .block body p

/-- A conditional whose parts are simplified. Without branches the condition alone is left, and
unit as the value if one is needed. -/
def branch (keepLast : Bool) (condition : Expr) (yes no : List Stmt) (p : Position) : List Stmt :=
  match condition, yes, no with
  | .const (.bool true) _, yes, _ => [.block yes p]
  | .const (.bool false) _, _, no => [.block no p]
  | c, [], [] => if keepLast then [.expr c, .block [] c.start] else [.expr c]
  | c, yes, no => [.branch c yes no p]

/-- The operator can be part of an assignment. -/
def assigns (op : Operator) : Bool :=
  !op.isComparison && op != .range && op != .closedRange

/-- An assignment of simplified parts. Applying an operator to a variable and storing the result
in it is one step. -/
def assignment (target : Expr) (op : Option Operator) (value : Expr) (p : Position) : Stmt :=
  match target, op, value with
  | .ref x q, none, .binary op (.ref y r) e s =>
    if x = y ∧ assigns op then .assign (.ref x q) (some op) e s
    else .assign (.ref x q) none (.binary op (.ref y r) e s) p
  | target, op, value => .assign target op value p

mutual

def expr (limits : Limits) (known : Known) : Expr → Expr
  | .const v p => .const v p
  | .template parts p => template (exprs limits known parts) p
  | .array items p =>
    let items := exprs limits known items
    match literals? items with
    | some values => .const (.array values) p
    | none => .array items p
  | .map entries p =>
    let entries := fields limits known entries
    match literalEntries? entries with
    | some values => .const (.map values) p
    | none => .map entries p
  | .ref name p =>
    match known.find? (·.1 == name) with
    | some (_, some v) => .const v p
    | _ => .ref name p
  | .moduleRef path name s p => .moduleRef path name s p
  | .call name args p =>
    match name, exprs limits known args with
    | "type_of", [.const v _] => .const (.string v.typeName) p
    | name, args => .call name args p
  | .moduleCall path name args s p => .moduleCall path name (exprs limits known args) s p
  | .negate e p => .negate (expr limits known e) p
  | .affirm e p => .affirm (expr limits known e) p
  | .invert e p => .invert (expr limits known e) p
  | .binary op l r p => binary limits op (expr limits known l) (expr limits known r) p
  | .allOf es p => allOf (exprs limits known es) p
  | .anyOf es p => anyOf (exprs limits known es) p
  | .firstOf es p => firstOf (exprs limits known es) p
  | .member c i p => .member (expr limits known c) (expr limits known i) p
  -- a variable at the root of a chain is meant itself, not its value
  | .chain (.ref name p) ls => .chain (.ref name p) (links limits known ls)
  | .chain root [l] =>
    let root := expr limits known root
    let l := link limits known l
    (element? root l).getD (.chain root [l])
  | .chain root ls => .chain (expr limits known root) (links limits known ls)
  | .block body p => block (tidy true (stmts limits true known body)) p

def exprs (limits : Limits) (known : Known) : List Expr → List Expr
  | [] => []
  | e :: r => expr limits known e :: exprs limits known r

def fields (limits : Limits) (known : Known) : List (String × Expr) → List (String × Expr)
  | [] => []
  | (k, e) :: r => (k, expr limits known e) :: fields limits known r

def link (limits : Limits) (known : Known) : Link → Link
  | .property name p j => .property name p j
  | .method name args p j => .method name (exprs limits known args) p j
  | .index key j => .index (expr limits known key) j

def links (limits : Limits) (known : Known) : List Link → List Link
  | [] => []
  | l :: r => link limits known l :: links limits known r

/-- The target of an assignment, in which only arguments and indices are simplified. -/
def target (limits : Limits) (known : Known) : Expr → Expr
  | .chain root ls => .chain root (links limits known ls)
  | e => e

/-- A statement of a block whose last value counts or not. -/
def stmt (limits : Limits) (keepLast : Bool) (known : Known) : Stmt → List Stmt
  | .expr e =>
    match expr limits known e with
    | .block body p => [.block body p]
    | e => [.expr e]
  | .define name e constant p => [.define name (expr limits known e) constant p]
  | .assign e op v p => [assignment (target limits known e) op (expr limits known v) p]
  | .branch c yes no p =>
    branch keepLast (expr limits known c) (tidy keepLast (stmts limits keepLast known yes))
      (tidy keepLast (stmts limits keepLast known no)) p
  | .loop none body p q => [.loop none (tidy false (stmts limits false known body)) p q]
  | .loop (some c) body p q =>
    let body := tidy false (stmts limits false known body)
    match expr limits known c with
    | .const (.bool false) _ => [.block [] p]
    | .const (.bool true) _ => [.loop none body p q]
    | c => [.loop (some c) body p q]
  | .each name counter source body p =>
    let inner := (name, none) :: (counter.toList.map (·, none) ++ known)
    [.each name counter (expr limits known source) (tidy false (stmts limits false inner body)) p]
  | .leave none p => [.leave none p]
  | .leave (some e) p => [.leave (some (expr limits known e)) p]
  | .skip p => [.skip p]
  | .give none p => [.give none p]
  | .give (some e) p => [.give (some (expr limits known e)) p]
  | .throw none p => [.throw none p]
  | .throw (some e) p => [.throw (some (expr limits known e)) p]
  | .attempt body name handler p =>
    let inner := name.toList.map (·, none) ++ known
    let body := tidy false (stmts limits false known body)
    if arePure body then [.block body p]
    else [.attempt body name (tidy false (stmts limits false inner handler)) p]
  | .block body p => [.block (tidy keepLast (stmts limits keepLast known body)) p]

def stmts (limits : Limits) (keepLast : Bool) (known : Known) : List Stmt → List Stmt
  | [] => []
  | s :: r =>
    let now := stmt limits keepLast known s
    let known := match now with
      | [.define name (.const v _) true _] => (name, some v) :: known
      | [.define name _ _ _] => (name, none) :: known
      | _ => known
    now ++ stmts limits keepLast known r

end

end Fold

/-- An expression, simplified with the values of constants. -/
def Expr.simplify (limits : Limits) (known : Fold.Known) (e : Expr) : Expr :=
  Fold.expr limits known e

namespace Listing

/-- The statements of a function or of a script, whose names nobody else uses if they are
`isPrivate`. -/
def simplifiedBody (limits : Limits) (known : Fold.Known) (isPrivate : Bool) (body : List Stmt) :
    List Stmt :=
  let body := Fold.stmts limits true known body
  let body := Fold.prune true (Fold.reachable (Fold.opened body))
  let body := if isPrivate then Fold.trimmed body.reverse else body.reverse
  (Fold.returning body).reverse

/-- A script, simplified. Functions know no names but their parameters. -/
def simplify (limits : Limits) (s : Listing) : Listing :=
  { definitions := s.definitions.map fun d =>
      { d with body := simplifiedBody limits (d.parameters.map (·, none)) true d.body }
    body := simplifiedBody limits [] false s.body }

end Listing

end EditorScripting.Script
