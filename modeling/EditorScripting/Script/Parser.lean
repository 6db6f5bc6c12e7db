import EditorScripting.Script.Complaint
import EditorScripting.Script.Expr
import EditorScripting.Script.Lexer

/-!
Reading expressions and scripts from tokens. Operators are read by precedence. Every construct
that nests counts towards the depth of its expression, and the first token beyond the limit is
reported.

Not every construct of the language is read. `switch`, `do`, `import` and `export` are keywords that
nothing begins with here, and functions without a name are read for the errors in their parameters
only, so that there are no function values.
-/
namespace EditorScripting.Script

namespace Parser

/-- The tokens ahead, the names that are defined so far (and whether they are constant), and the
functions that are defined so far. -/
structure State where
  ahead : List Lexeme
  names : List (String × Bool)
  definitions : List Definition

abbrev Parse := StateT State (Except (Complaint × Position))

/-- Where in a script the reading stands. -/
structure Context where
  limits : Limits
  /-- Blocks hold one expression and no statements. -/
  single : Bool
  /-- Functions may be defined. -/
  isGlobal : Bool
  inFunction : Bool
  inLoop : Bool

def fail {α : Type} (c : Complaint) (p : Position) : Parse α := throw (c, p)

/-- The next token. -/
def peek : Parse Lexeme := do
  return ((← get).ahead.head?).getD ⟨.finish, Position.start⟩

/-- Goes past the next token; the end stays. -/
def advance : Parse Lexeme := do
  let l ← peek
  modify fun s => match s.ahead with
    | _ :: l :: r => { s with ahead := l :: r }
    | _ => s
  return l

/-- Goes past a symbol, if it is next. -/
def acceptSymbol (text : String) : Parse Bool := do
  if (← peek).token.isSymbol text then
    discard advance
    return true
  else return false

/-- A symbol has to come next. A malformed token is reported as such. -/
def expectSymbol (text purpose : String) : Parse Position := do
  let l ← peek
  if l.token.isSymbol text then
    discard advance
    return l.position
  else
    match l.token with
    | .malformed cause => fail (.misspelled cause) l.position
    | _ => fail (.missing text purpose) l.position

/-- Goes past a keyword, if it is next. -/
def acceptKeyword (text : String) : Parse Bool := do
  if (← peek).token.isKeyword text then
    discard advance
    return true
  else return false

/-- A symbol has to come next, and anything else is reported as not being it. -/
def demandSymbol (text purpose : String) : Parse Unit := do
  if !(← acceptSymbol text) then fail (.missing text purpose) (← peek).position

/-- One level further down. -/
def deeper (c : Context) (level : Nat) (p : Position) : Parse Nat :=
  if Limits.exceeds c.limits.exprDepth (level + 1) then fail .tooDeep p else return level + 1

/-- What may be done with two operands. -/
inductive Joiner where
  | plain (op : Operator)
  | both
  | either
  | orElse
  | member
  | notMember

/-- How strongly an operator binds; zero for what is no operator. -/
def precedence : Token → Nat
  | .symbol s =>
    if s == "||" || s == "|" || s == "^" then 30
    else if s == "&&" || s == "&" then 60
    else if s == "==" || s == "!=" then 90
    else if s == "!in" then 110
    else if s == "<" || s == "<=" || s == ">" || s == ">=" then 130
    else if s == "??" then 135
    else if s == ".." || s == "..=" then 140
    else if s == "+" || s == "-" then 150
    else if s == "*" || s == "/" || s == "%" then 180
    else if s == "**" then 190
    else if s == "<<" || s == ">>" then 210
    else 0
  | .keyword s => if s == "in" then 110 else 0
  | _ => 0

def joiner? : Token → Option Joiner
  | .symbol "&&" => some .both
  | .symbol "||" => some .either
  | .symbol "??" => some .orElse
  | .symbol "!in" => some .notMember
  | .symbol s => (Operator.ofText? s).map .plain
  | .keyword "in" => some .member
  | _ => none

/-- The precedence of a token behind an operand. -/
def operatorStrength (l : Lexeme) : Parse Nat :=
  match l.token with
  | .reserved text =>
    if Complaint.isWord text then return 0 else fail (.unknownOperator text) l.position
  | t => return precedence t

/-- What is obviously no truth value, by its kind. -/
def kindOfNonBool? : Expr → Option String
  | .const .unit _ => some "()"
  | .const (.int _) _ => some "a number"
  | .const (.float _) _ => some "a floating-point number"
  | .const (.char _) _ => some "a character"
  | .const (.string _) _ | .template _ _ => some "a string"
  | .array _ _ => some "an array"
  | .map _ _ => some "an object map"
  | _ => none

def ensureBool (e : Expr) : Parse Expr :=
  match kindOfNonBool? e with
  | some kind => fail (.mismatched "a boolean expression" kind) e.start
  | none => return e

/-- What obviously cannot be looped over, by its kind. -/
def kindOfNonIterable? : Expr → Option String
  | .const (.bool _) _ => some "a boolean"
  | .array _ _ | .const (.string _) _ | .template _ _ => none
  | e => kindOfNonBool? e

def ensureIterable (e : Expr) : Parse Expr :=
  match kindOfNonIterable? e with
  | some kind => fail (.mismatched "an iterable value" kind) e.start
  | none => return e

/-- The kind of a literal that is no number, as an index. -/
def kindOfIndex? : Expr → Option String
  | .const (.float _) _ => some "a float"
  | .const (.char _) _ => some "a character"
  | .const .unit _ => some "()"
  | .const (.bool _) _ | .allOf _ _ | .anyOf _ _ => some "a boolean"
  | _ => none

/-- Why a literal is no index of another literal. -/
def indexProblem? (container key : Expr) : Option String :=
  match container with
  | .map _ _ =>
    match key with
    | .const (.int _) _ => some "Object map expects string index, not a number"
    | _ => (kindOfIndex? key).map ("Object map expects string index, not " ++ ·)
  | .const (.int _) _ | .const (.string _) _ | .array _ _ | .template _ _ =>
    match key with
    | .const (.string _) _ | .template _ _ =>
      some "Array, string or bit-field expects numeric index, not a string"
    | _ => (kindOfIndex? key).map ("Array, string or bit-field expects integer index, not " ++ ·)
  | _ => none

/-- A root with links behind it. Behind a root in brackets that is itself an indexed value, a point
joins its indices; what else is in the brackets then counts as part of the last one of them. -/
def chained (root : Expr) (links : List Link) : Expr :=
  match links, root with
  | [], _ => root
  | .index _ _ :: _, _ => .chain root links
  | _, .chain inner found =>
    let isIndex : Link → Bool := fun | .index _ _ => true | _ => false
    match (found.takeWhile isIndex).reverse, found.dropWhile isIndex with
    | [], _ => .chain root links
    | _, [] => .chain inner (found ++ links)
    | .index key joint :: before, rest =>
      .chain inner (before.reverse ++ .index (.chain key rest) joint :: links)
    | _, _ => .chain root links
  | _, _ => .chain root links

mutual

/-- An expression that is put together from literals alone. -/
def isConstant : Expr → Bool
  | .const _ _ => true
  | .template es _ | .array es _ => areConstant es
  | .map es _ => entriesAreConstant es
  | _ => false

def areConstant : List Expr → Bool
  | [] => true
  | e :: r => isConstant e && areConstant r

def entriesAreConstant : List (String × Expr) → Bool
  | [] => true
  | (_, e) :: r => isConstant e && entriesAreConstant r

end

/-- The operands of a joined expression with one more behind them. The left one contributes its own
operands if the same operator joins them; the place stays that of the first operator. -/
def joined (operands? : Expr → Option (List Expr × Position))
    (join : List Expr → Position → Expr) (left right : Expr) (p : Position) : Expr :=
  match operands? left with
  | some (es, q) => join (es ++ [right]) q
  | none => join [left, right] p

def conjunction : Expr → Expr → Position → Expr :=
  joined (fun | .allOf es p => some (es, p) | _ => none) .allOf

def disjunction : Expr → Expr → Position → Expr :=
  joined (fun | .anyOf es p => some (es, p) | _ => none) .anyOf

def fallback : Expr → Expr → Position → Expr :=
  joined (fun | .firstOf es p => some (es, p) | _ => none) .firstOf

/-- A range may end before the token: it then goes on to the greatest integer. -/
def endsRange (t : Token) : Bool :=
  [")", "]", "\x7d", ",", ";", "=>"].any t.isSymbol

/-- The words with which statements, but no expressions, start. -/
def statementWords : List String :=
  ["let", "const", "fn", "break", "continue", "return", "throw", "try"]

/-- A statement that ends at the token has no value. -/
def endsStatement : Token → Bool
  | .finish => true
  | .keyword text => statementWords.contains text
  | t => t.isSymbol ";" || t.isSymbol "\x7d"

/-- The name of a new variable. -/
def variableName : Parse (String × Position) := do
  let l ← advance
  match l.token with
  | .identifier name => return (name, l.position)
  | .reserved text =>
    if Complaint.isWord text then fail (.reserved text) l.position
    else fail .variableExpected l.position
  | .malformed cause => fail (.misspelled cause) l.position
  | _ => fail .variableExpected l.position

/-- An equals sign where a comparison is meant. -/
def refuseEquals : Parse Unit := do
  let l ← peek
  if l.token.isSymbol "=" then
    fail (.improper "=" (some "Possibly a typo of '=='?")) l.position

/-- A block where an expression is meant. -/
def refuseBlock : Parse Unit := do
  let l ← peek
  if l.token.isSymbol "\x7b" then fail (.expressionExpected "a boolean") l.position

/-- The operator of an assignment symbol; plain assignment has none. -/
def assignment? : Token → Option (Option Operator)
  | .symbol "=" => some none
  | .symbol s =>
    match s.toList.reverse with
    | '=' :: r =>
      match Operator.ofText? (String.ofList r.reverse) with
      | some op =>
        if op.isComparison || op == .range || op == .closedRange then none else some (some op)
      | none => none
    | _ => none
  | _ => none

/-- The target of an assignment is a variable that is not constant, or an element of one. -/
def checkTarget (target : Expr) (op : Option Operator) (opPosition : Position) : Parse Unit := do
  match target with
  | .ref name p => if ((← get).names.find? (·.1 == name)).any (·.2) then fail (.constantAssigned name) p
  | .moduleRef _ _ _ _ => pure ()
  | .chain root links =>
    match links.findSome? fun | .method _ _ p _ => some p | _ => none with
    | some p => fail .notAssignable p
    | none =>
      match root with
      | .ref _ _ | .moduleRef _ _ _ _ => pure ()
      | _ => fail .notAssignable root.position
  | .allOf _ _ | .anyOf _ _ | .firstOf _ _ =>
    if op.isNone then fail (.improper "=" (some "Possibly a typo of '=='?")) opPosition
    else fail .notAssignable target.position
  | _ =>
    if isConstant target then fail (.constantAssigned "") target.start
    else fail .notAssignable target.position

/-- Runs a parser in a scope of its own: names defined in it are forgotten afterwards. -/
def inScope {α : Type} (p : Parse α) : Parse α := do
  let names := (← get).names
  let a ← p
  modify fun s => { s with names }
  return a

/-- Defines a name. -/
def declare (name : String) (constant : Bool) : Parse Unit :=
  modify fun s => { s with names := (name, constant) :: s.names }

/-- The name of a function that is defined, with the type of its receivers if there is one. -/
def functionName : Parse (Option String × String) := do
  let l ← advance
  let m ← peek
  let name (l : Lexeme) : Parse String :=
    match l.token with
    | .identifier name => return name
    | .reserved text => fail (.reserved text) l.position
    | _ => fail .unnamedFunction l.position
  let typed (receiver : String) : Parse (Option String × String) := do
    discard advance
    return (some receiver, ← name (← advance))
  match l.token with
  | .identifier receiver =>
    if m.token.isSymbol "." then typed receiver else return (none, receiver)
  | .string receiver =>
    if m.token.isSymbol "." then typed receiver
    else fail (.missing "." "after the type name for 'this'") m.position
  | _ => return (none, ← name l)

/-- The names of parameters up to the symbol `closing`, behind those that are read. -/
def namesUpTo (function closing closes separates : String) :
    Nat → List String → Parse (List String)
  | 0, _ => fail .tooDeep Position.start
  | n + 1, done => do
    let l ← advance
    match l.token with
    | .identifier name =>
      if done.contains name then fail (.duplicateParameter function name) l.position
      let m ← advance
      match m.token with
      | .malformed cause => fail (.misspelled cause) m.position
      | t =>
        if t.isSymbol closing then return (name :: done).reverse
        else if t.isSymbol "," then
          namesUpTo function closing closes separates n (name :: done)
        else fail (.missing "," separates) m.position
    | .keyword _ => fail .variableExpected l.position
    | .malformed cause => fail (.misspelled cause) l.position
    | .reserved text =>
      if Complaint.isWord text then fail (.reserved text) l.position
      else fail (.missing closing closes) l.position
    | t => if t.isSymbol closing then return done.reverse else fail (.missing closing closes) l.position

/-- The parameters of a function of a name. -/
def parameterNames (fuel : Nat) (function : String) : List String → Parse (List String) :=
  namesUpTo function ")" ("to close the parameters list of function '" ++ function ++ "'")
    ("to separate the parameters of function '" ++ function ++ "'") fuel

/-- The parameters of a function without name. -/
def nameless : Nat → List String → Parse (List String) :=
  namesUpTo "" "|" "to close the parameters list of anonymous function or closure"
    "to separate the parameters of anonymous function"

mutual

def expression : Nat → Context → Nat → Parse Expr
  | 0, _, _ => fail .tooDeep Position.start
  | n + 1, c, level => do
    let level ← deeper c level (← peek).position
    let left ← unary n c level
    binary n c level left.position 1 left

/-- A sign or a negation with its operand, or a primary expression. A range without a first integer
starts at zero. -/
def unary : Nat → Context → Nat → Parse Expr
  | 0, _, _ => fail .tooDeep Position.start
  | n + 1, c, level => do
    let l ← peek
    if l.token.isSymbol "-" then
      discard advance
      match ← unary n c (← deeper c level l.position) with
      | .const (.int x) _ =>
        match checkInt? (-x) with
        | some y => return .const (.int y) l.position
        | none => return .const (.float (-(Arithmetic.toFloat x))) l.position
      | .const (.float x) _ => return .const (.float (-x)) l.position
      | e => return .negate e l.position
    else if l.token.isSymbol "+" then
      discard advance
      match ← unary n c (← deeper c level l.position) with
      | .const (.int x) p => return .const (.int x) p
      | .const (.float x) p => return .const (.float x) p
      | e => return .affirm e l.position
    else if l.token.isSymbol "!" then
      discard advance
      return .invert (← unary n c (← deeper c level l.position)) l.position
    else if l.token.isSymbol ".." || l.token.isSymbol "..=" then
      return .const (.int 0) l.position
    else primary n c level

/-- Goes on behind a left operand as long as operators bind at least as strongly as `strength`. What
is too deep is reported at the place of the last operator, at first at that of the operand. -/
def binary : Nat → Context → Nat → Position → Nat → Expr → Parse Expr
  | 0, _, _, _, _, _ => fail .tooDeep Position.start
  | n + 1, c, level, last, strength, left => do
    let l ← peek
    let s ← operatorStrength l
    let rightward := l.token.isSymbol "**"
    if s < strength || (s == strength && !rightward) then return left
    else
      match joiner? l.token with
      | none => return left
      | some op =>
        discard advance
        let isRange := l.token.isSymbol ".." || l.token.isSymbol "..="
        let right ← if isRange && endsRange (← peek).token then
            pure (.const (.int maxInt) l.position)
          else unary n c level
        let next ← operatorStrength (← peek)
        let right ← if s < next || (s == next && rightward) then
            binary n c (← deeper c level last) right.position s right
          else pure right
        let level ← deeper c level last
        let e ← match op with
          | .plain op => pure (.binary op left right l.position)
          | .both =>
            let right ← ensureBool right
            pure (conjunction (← ensureBool left) right l.position)
          | .either =>
            let right ← ensureBool right
            pure (disjunction (← ensureBool left) right l.position)
          | .orElse => pure (fallback left right l.position)
          | .member => pure (.member right left l.position)
          | .notMember => pure (.invert (.member right left l.position) l.position)
        binary n c level l.position strength e

/-- A literal, a name, or something in brackets, with what follows it. -/
def primary : Nat → Context → Nat → Parse Expr
  | 0, _, _ => fail .tooDeep Position.start
  | n + 1, c, level => do
    let e ← operand n c level
    return chained e (← links n c level (some e) [])

/-- A primary expression without indices, properties and methods. -/
def operand : Nat → Context → Nat → Parse Expr
  | 0, _, _ => fail .tooDeep Position.start
  | n + 1, c, level => do
    let l ← peek
    let p := l.position
    let literal (v : Value) : Parse Expr := do
      discard advance
      return .const v p
    match l.token with
    | .finish => fail .incomplete p
    | .int x => literal (.int x)
    | .float x => literal (.float x)
    | .char x => literal (.char x)
    | .string s => literal (.string s)
    | .keyword "true" => literal (.bool true)
    | .keyword "false" => literal (.bool false)
    | .symbol "()" => literal .unit
    | .symbol "(" =>
      let level ← deeper c level p
      discard advance
      if ← acceptSymbol ")" then return .const .unit p
      else
        let e ← expression n c level
        discard (expectSymbol ")" "for a matching ( in this expression")
        return e
    | .symbol "[" =>
      let level ← deeper c level p
      discard advance
      return .array (← items n c level p [] 0) p
    | .symbol "#\x7b" =>
      let level ← deeper c level p
      discard advance
      return .map (← entries n c level p [] 0) p
    | .template s =>
      let level ← deeper c level p
      discard advance
      let first := if s.isEmpty then [] else [.const (.string s) p]
      return .template (← pieces n c level p first) p
    | .keyword "if" => return .block [← conditional n c (← deeper c level p) p] p
    | .keyword "while" | .keyword "loop" | .keyword "for" =>
      if c.single then fail (.misspelled (.unexpected l.token.text)) p
      else return .block [← loop n c (← deeper c level p)] p
    | .symbol "\x7b" =>
      if c.single then fail (.misspelled (.unexpected l.token.text)) p
      else return .block (← block n c (← deeper c level p) p).1 p
    | .symbol "|" =>
      discard advance
      discard (nameless n [])
      fail (.misspelled (.unexpected l.token.text)) p
    | .identifier name =>
      discard advance
      named n c level [] name p p
    | .reserved text =>
      discard advance
      let next := (← peek).token
      let called := next.isSymbol "(" || next.isSymbol "()" || next.isSymbol "!"
      if called && Lexer.reservedFunctions.contains text then named n c level [] text p p
      else if text == "this" then
        if c.inFunction then return .ref text p
        else fail (.improper text (some "'this' can only be used in functions")) p
      else fail (.reserved text) p
    | .malformed cause => fail (.misspelled cause) p
    | t => fail (.misspelled (.unexpected t.text)) p

/-- What follows a name: more names of a module path, or the arguments of a call. -/
def named : Nat → Context → Nat → List String → String → Position → Position → Parse Expr
  | 0, _, _, _, _, _, _ => fail .tooDeep Position.start
  | n + 1, c, level, path, name, start, p => do
    let l ← peek
    match l.token with
    | .symbol "::" =>
      discard advance
      let (next, q) ← variableName
      named n c level (path ++ [name]) next start q
    | .symbol "(" | .symbol "()" =>
      let args ← arguments n c level name p
      return if path.isEmpty then .call name args p else .moduleCall path name args start p
    | .symbol "!" =>
      if path.isEmpty then return .call name (← arguments n c level name p) p
      else
        discard advance
        let next := (← peek).token
        if next.isSymbol "(" || next.isSymbol "()" then
          fail (.misspelled (.unexpected "!")) l.position
        else fail (.improper "!" (some "'!' cannot be used to call module functions")) l.position
    | _ => return if path.isEmpty then .ref name p else .moduleRef path name start p

/-- The links behind a root and behind those that are read. The root, if the first link is next,
restricts an index. -/
def links : Nat → Context → Nat → Option Expr → List Link → Parse (List Link)
  | 0, _, _, _, _ => fail .tooDeep Position.start
  | n + 1, c, level, root, done => do
    let l ← peek
    let p := l.position
    match l.token with
    | .symbol "." =>
      discard advance
      links n c level none (done ++ (← member n c level ⟨p, false⟩))
    | .symbol "?." =>
      discard advance
      links n c level none (done ++ (← member n c level ⟨p, true⟩))
    | .symbol "[" =>
      discard advance
      links n c level none (done ++ (← indices n c (← deeper c level p) root ⟨p, false⟩ []))
    | .symbol "?[" =>
      discard advance
      links n c level none (done ++ (← indices n c (← deeper c level p) root ⟨p, true⟩ []))
    | _ => return done

/-- A property or method behind a point, with the links behind it, which count as nested in it. -/
def member : Nat → Context → Nat → Joint → Parse (List Link)
  | 0, _, _, _ => fail .tooDeep Position.start
  | n + 1, c, level, joint => do
    let l ← peek
    let p := l.position
    match l.token with
    | .identifier _ => pure ()
    | .reserved text => if !Lexer.reservedMethods.contains text then fail (.reserved text) p
    | _ => fail .propertyExpected p
    let level ← deeper c level joint.position
    discard advance
    let name := l.token.text
    let next ← peek
    match next.token, l.token with
    | .symbol "(", _ | .symbol "()", _ =>
      let args ← arguments n c level name p
      links n c level none [.method name args p joint]
    | .symbol "!", _ =>
      let args ← arguments n c level name p
      let found ← links n c level none [.method name args p joint]
      if found.length = 1 then fail .openMethod p else return found
    | _, .reserved text => fail (.reserved text) p
    | .symbol "::", _ => fail (.improper "::" none) next.position
    | _, _ => links n c level none [.property name p joint]

/-- The arguments of a call, with the brackets around them and the `!` in front of them. -/
def arguments : Nat → Context → Nat → String → Position → Parse (List Expr)
  | 0, _, _, _, _ => fail .tooDeep Position.start
  | n + 1, c, level, name, p => do
    if ← acceptSymbol "!" then
      let l ← peek
      unless l.token.isSymbol "(" || l.token.isSymbol "()" do
        fail (.missing "(" "to start arguments list of function call") l.position
    if ← acceptSymbol "()" then return []
    else
      discard advance
      let l ← peek
      match l.token with
      | .finish =>
        fail (.missing ")" ("to close the arguments list of this function call '" ++ name ++ "'"))
          l.position
      | .malformed cause => fail (.misspelled cause) l.position
      | _ =>
        if ← acceptSymbol ")" then return []
        else moreArguments n c (← deeper c level p) name []

def moreArguments : Nat → Context → Nat → String → List Expr → Parse (List Expr)
  | 0, _, _, _, _ => fail .tooDeep Position.start
  | n + 1, c, level, name, done => do
    let done ← if (← peek).token.isSymbol ")" then pure done
      else do pure ((← expression n c level) :: done)
    let l ← peek
    if ← acceptSymbol ")" then return done.reverse
    else if ← acceptSymbol "," then moreArguments n c level name done
    else
      match l.token with
      | .finish =>
        fail (.missing ")" ("to close the arguments list of this function call '" ++ name ++ "'"))
          l.position
      | .malformed cause => fail (.misspelled cause) l.position
      | _ =>
        fail (.missing "," ("to separate the arguments to function call '" ++ name ++ "'"))
          l.position

/-- Indices behind one another, each of them nested in the one before; the opening bracket of the
first one has been read. The literal that is indexed, if there is one, restricts the first index. -/
def indices : Nat → Context → Nat → Option Expr → Joint → List Link → Parse (List Link)
  | 0, _, _, _, _, _ => fail .tooDeep Position.start
  | n + 1, c, level, container, joint, done => do
    let key ← expression n c (← deeper c level joint.position)
    match container.bind (indexProblem? · key) with
    | some detail => fail (.badIndex detail) key.start
    | none =>
      discard (expectSymbol "]" "for a matching [ in this index expression")
      let done := .index key joint :: done
      let l ← peek
      if l.token.isSymbol "[" || l.token.isSymbol "?[" then
        discard advance
        indices n c (← deeper c level l.position) none ⟨l.position, l.token.isSymbol "?["⟩ done
      else return done.reverse

/-- The items of an array literal that starts at `p`. -/
def items : Nat → Context → Nat → Position → List Expr → Nat → Parse (List Expr)
  | 0, _, _, _, _, _ => fail .tooDeep Position.start
  | n + 1, c, level, p, done, count => do
    let purpose := "to end this array literal"
    let l ← peek
    if c.limits.arraySize != 0 && decide (c.limits.arraySize ≤ count) then
      fail (.tooLarge "Size of array literal" c.limits.arraySize) l.position
    else if ← acceptSymbol "]" then return done.reverse
    else if l.token matches .finish then fail (.missing "]" purpose) l.position
    else
      let e ← expression n c (← deeper c level p)
      let l ← peek
      match l.token with
      | .symbol "," =>
        discard advance
        items n c level p (e :: done) (count + 1)
      | .symbol "]" => items n c level p (e :: done) (count + 1)
      | .finish => fail (.missing "]" purpose) l.position
      | .malformed cause => fail (.misspelled cause) l.position
      | _ => fail (.missing "," "to separate the items of this array literal") l.position

/-- The entries of a map literal that starts at `p`. -/
def entries : Nat → Context → Nat → Position → List (String × Expr) → Nat →
    Parse (List (String × Expr))
  | 0, _, _, _, _, _ => fail .tooDeep Position.start
  | n + 1, c, level, p, done, count => do
    let unfinished := Complaint.missing "\x7d" "to end this object map literal"
    let l ← advance
    let named (name : String) : Parse (List (String × Expr)) := do
      if done.any (·.1 == name) then fail (.duplicateProperty name) l.position
      let m ← advance
      match m.token with
      | .symbol ":" => pure ()
      | .malformed cause => fail (.misspelled cause) m.position
      | _ =>
        fail (.missing ":" ("to follow the property '" ++ name ++ "' in this object map literal"))
          m.position
      if c.limits.mapSize != 0 && decide (c.limits.mapSize ≤ count) then
        fail (.tooLarge "Number of properties in object map literal" c.limits.mapSize)
          (← peek).position
      let e ← expression n c (← deeper c level p)
      let m ← peek
      match m.token with
      | .symbol "," =>
        discard advance
        entries n c level p ((name, e) :: done) (count + 1)
      | .symbol "\x7d" => entries n c level p ((name, e) :: done) (count + 1)
      | .identifier _ =>
        fail (.missing "," "to separate the items of this object map literal") m.position
      | .malformed cause => fail (.misspelled cause) m.position
      | _ => fail unfinished m.position
    match l.token with
    | .symbol "\x7d" => return done.reverse
    | .finish => fail unfinished l.position
    | .identifier name => named name
    | .string name => named name
    | .template _ => fail .propertyExpected l.position
    | .malformed cause => fail (.misspelled cause) l.position
    | .reserved text =>
      if Complaint.isWord text then fail (.reserved text) l.position
      else if done.isEmpty then fail unfinished l.position
      else fail .propertyExpected l.position
    | _ => if done.isEmpty then fail unfinished l.position else fail .propertyExpected l.position

/-- The pieces behind the first text of a template that starts at `p`. -/
def pieces : Nat → Context → Nat → Position → List Expr → Parse (List Expr)
  | 0, _, _, _, _ => fail .tooDeep Position.start
  | n + 1, c, level, p, done => do
    let (body, q) ← block n c level p
    let done := done ++ [.block body q]
    let l ← advance
    match l.token with
    | .string s => return if s.isEmpty then done else done ++ [.const (.string s) l.position]
    | .template s =>
      pieces n c level p (if s.isEmpty then done else done ++ [.const (.string s) l.position])
    | .malformed cause => fail (.misspelled cause) l.position
    | t => fail (.misspelled (.unexpected t.text)) l.position

/-- A conditional, from its keyword on. What is too deep is reported at `outer`. -/
def conditional : Nat → Context → Nat → Position → Parse Stmt
  | 0, _, _, _ => fail .tooDeep Position.start
  | n + 1, c, level, outer => do
    let level ← deeper c level outer
    let l ← advance
    refuseBlock
    let condition ← ensureBool (← expression n c level)
    refuseEquals
    let (yes, _) ← block n c level l.position
    let m ← peek
    if m.token.isKeyword "else" then
      discard advance
      if (← peek).token.isKeyword "if" then
        return .branch condition yes [← conditional n c level l.position] l.position
      else return .branch condition yes (← block n c level l.position).1 l.position
    else return .branch condition yes [] l.position

/-- A loop, from its keyword on. -/
def loop : Nat → Context → Nat → Parse Stmt
  | 0, _, _ => fail .tooDeep Position.start
  | n + 1, c, level => do
    let l ← peek
    let p := l.position
    let level ← deeper c level p
    discard advance
    if l.token.isKeyword "for" then loopOver n c level p
    else if l.token.isKeyword "while" then
      refuseBlock
      let condition ← ensureBool (← expression n c level)
      refuseEquals
      let (body, q) ← block n { c with inLoop := true } level p
      return .loop (some condition) body p q
    else
      let (body, q) ← block n { c with inLoop := true } level p
      return .loop none body p q

/-- A block with the place of its opening brace. A block that is too deep is reported at the place
of the construct that it belongs to. -/
def block : Nat → Context → Nat → Position → Parse (List Stmt × Position)
  | 0, _, _, _ => fail .tooDeep Position.start
  | n + 1, c, level, construct => do
    let p ← expectSymbol "\x7b" "to start a statement block"
    let level ← deeper c level construct
    if c.single then
      let s ← simpleStatement n c level
      let l ← advance
      match l.token with
      | .symbol "\x7d" => return ([s], p)
      | .malformed cause => fail (.misspelled cause) l.position
      | _ => fail (.missing "\x7b" "to start a statement block") l.position
    else
      let body ← inScope (statements n { c with isGlobal := false } level [])
      return (body, p)

/-- The statements of a block up to its closing brace. -/
def statements : Nat → Context → Nat → List Stmt → Parse (List Stmt)
  | 0, _, _, _ => fail .tooDeep Position.start
  | n + 1, c, level, done => do
    let l ← peek
    if ← acceptSymbol "\x7d" then return done.reverse
    else if l.token matches .finish then
      fail (.missing "\x7d" "to terminate this block") l.position
    else
      match ← statement n c level with
      | none => statements n c level done
      | some s =>
        let l ← peek
        if l.token.isSymbol "\x7d" then statements n c level (s :: done)
        else if ← acceptSymbol ";" then statements n c level (s :: done)
        else if s.closesItself then statements n c level (s :: done)
        else
          match l.token with
          | .malformed cause => fail (.misspelled cause) l.position
          | _ => fail (.missing ";" "to terminate this statement") l.position

/-- An expression or an assignment. -/
def simpleStatement : Nat → Context → Nat → Parse Stmt
  | 0, _, _ => fail .tooDeep Position.start
  | n + 1, c, level => do
    let target ← expression n c level
    let l ← peek
    match assignment? l.token with
    | none => return .expr target
    | some op =>
      discard advance
      let value ← expression n c level
      checkTarget target op l.position
      return .assign target op value l.position

/-- One statement; an empty one and the definition of a function leave nothing. -/
def statement : Nat → Context → Nat → Parse (Option Stmt)
  | 0, _, _ => fail .tooDeep Position.start
  | n + 1, c, level => do
    let l ← peek
    let p := l.position
    match l.token with
    | .finish => return none
    | .symbol ";" =>
      discard advance
      return none
    | .symbol "\x7b" =>
      let (body, p) ← block n c (← deeper c level p) p
      return some (.block body p)
    | .keyword "fn" =>
      if !c.isGlobal then fail .misplacedFunction p
      else
        discard advance
        definition n c (← deeper c level p) p
        return none
    | .keyword "if" => return some (← conditional n c (← deeper c level p) p)
    | .keyword "while" | .keyword "loop" | .keyword "for" =>
      return some (← loop n c (← deeper c level p))
    | .keyword "let" => return some (← variableDefinition n c (← deeper c level p) false)
    | .keyword "const" => return some (← variableDefinition n c (← deeper c level p) true)
    | .keyword "break" =>
      if c.inLoop then
        discard advance
        return some (.leave (← result n c level p) p)
      else fail .outsideLoop p
    | .keyword "continue" =>
      discard advance
      if c.inLoop then return some (.skip p) else fail .outsideLoop p
    | .keyword "return" =>
      discard advance
      return some (.give (← result n c level p) p)
    | .keyword "throw" =>
      discard advance
      return some (.throw (← result n c level p) p)
    | .keyword "try" =>
      let level ← deeper c (← deeper c level p) p
      discard advance
      let (body, _) ← block n c level p
      if !(← acceptKeyword "catch") then
        fail (.missing "catch" "for the 'try' statement") (← peek).position
      else
        inScope do
          let name ← if ← acceptSymbol "(" then
              let (name, _) ← variableName
              demandSymbol ")" "to enclose the catch variable"
              declare name false
              pure (some name)
            else pure none
          let (handler, _) ← block n c level p
          return some (.attempt body name handler p)
    | _ => return some (← simpleStatement n c (← deeper c level p))

/-- The value behind the keyword at `p`, if there is one. -/
def result : Nat → Context → Nat → Position → Parse (Option Expr)
  | 0, _, _, _ => fail .tooDeep Position.start
  | n + 1, c, level, p => do
    if endsStatement (← peek).token then return none
    else return some (← expression n c (← deeper c level p))

/-- The definition of a variable or constant, from its keyword on. -/
def variableDefinition : Nat → Context → Nat → Bool → Parse Stmt
  | 0, _, _, _ => fail .tooDeep Position.start
  | n + 1, c, level, constant => do
    let l ← advance
    let (name, _) ← variableName
    let value ← if ← acceptSymbol "=" then expression n c (← deeper c level l.position)
      else pure (.const .unit .nowhere)
    declare name constant
    return .define name value constant l.position

/-- A loop over the items of a value, behind the keyword at `p`. -/
def loopOver : Nat → Context → Nat → Position → Parse Stmt
  | 0, _, _, _ => fail .tooDeep Position.start
  | n + 1, c, level, p => do
    let (name, counter) ← if ← acceptSymbol "(" then
        let (name, _) ← variableName
        demandSymbol "," "after the iteration variable name"
        let (counter, q) ← variableName
        if counter == name then fail (.duplicateVariable counter) q
        demandSymbol ")" "to close the iteration variable"
        pure (name, some counter)
      else
        let (name, _) ← variableName
        pure (name, none)
    let l ← advance
    match l.token with
    | .keyword "in" =>
      refuseBlock
      let source ← ensureIterable (← expression n c level)
      inScope do
        declare name false
        counter.forM (declare · false)
        let (body, _) ← block n { c with inLoop := true } level p
        return .each name counter source body p
    | .malformed cause => fail (.misspelled cause) l.position
    | _ => fail (.missing "in" "after the iteration variable") l.position

/-- The definition of a function, behind the keyword at `p`. -/
def definition : Nat → Context → Nat → Position → Parse Unit
  | 0, _, _, _ => fail .tooDeep Position.start
  | n + 1, c, level, p => do
    let (receiver, name) ← functionName
    let m ← peek
    let parameters ← if ← acceptSymbol "()" then pure []
      else if ← acceptSymbol "(" then
        if ← acceptSymbol ")" then pure [] else parameterNames n name []
      else fail (.noParameters name) m.position
    let m ← peek
    if !m.token.isSymbol "\x7b" then fail (.noBody name) m.position
    else
      let names := (← get).names
      modify fun s => { s with names := parameters.map (·, false) }
      let inner := { c with isGlobal := false, inFunction := true, inLoop := false }
      let (body, _) ← block n inner level p
      modify fun s => { s with names }
      let arity := parameters.length
      let clashes (d : Definition) : Bool :=
        d.receiver == receiver && d.name == name && d.parameters.length == arity
      if (← get).definitions.any clashes then fail (.duplicateFunction name arity) p
      modify fun s =>
        { s with definitions := s.definitions ++ [⟨receiver, name, parameters, body, p⟩] }

end

/-- The statements of a script up to its end. -/
def topLevel (c : Context) (fuel : Nat) : Nat → List Stmt → Parse (List Stmt)
  | 0, done => return done.reverse
  | n + 1, done => do
    let l ← peek
    if l.token matches .finish then return done.reverse
    else
      match ← statement fuel c 0 with
      | none => topLevel c fuel n done
      | some s =>
        let l ← peek
        if l.token matches .finish then return (s :: done).reverse
        else if ← acceptSymbol ";" then topLevel c fuel n (s :: done)
        else if s.closesItself then topLevel c fuel n (s :: done)
        else
          match l.token with
          | .malformed cause => fail (.misspelled cause) l.position
          | _ => fail (.missing ";" "to terminate this statement") l.position

/-- Each token leads through at most this many nested constructs. -/
def fuelFor (tokens : List Lexeme) : Nat := 32 * (tokens.length + 1)

end Parser

/-- Reads a text as one expression. Names of constants may not be assigned to. -/
def parseExpression (limits : Limits) (constants : List String) (text : String) :
    Except (Complaint × Position) Expr := do
  let tokens := tokenize limits.stringSize text
  let c : Parser.Context :=
    { limits, single := true, isGlobal := true, inFunction := false, inLoop := false }
  let (e, s) ← (Parser.expression (Parser.fuelFor tokens) c 0).run
    ⟨tokens, constants.map (·, true), []⟩
  match s.ahead with
  | ⟨.finish, _⟩ :: _ | [] => return e
  | l :: _ => throw (.misspelled (.unexpected l.token.text), l.position)

/-- Reads a text as a sequence of statements. -/
def parseScript (limits : Limits) (text : String) : Except (Complaint × Position) Listing := do
  let tokens := tokenize limits.stringSize text
  let c : Parser.Context :=
    { limits, single := false, isGlobal := true, inFunction := false, inLoop := false }
  let fuel := Parser.fuelFor tokens
  let (body, s) ← (Parser.topLevel c fuel (tokens.length + 1) []).run ⟨tokens, [], []⟩
  return ⟨s.definitions, body⟩

end EditorScripting.Script
