import EditorScripting.Script.Expr
import EditorScripting.Script.Library

/-!
Running expressions and statements. Nodes of an expression, statements, calls of functions and
accesses to elements are operations that the world may refuse (`tick`). Values are copied when a
variable is read or an element is taken out of a container, and dropped when nothing needs them any
more; the world is told about every wrapper that this concerns.

What the parser does not read and the library does not have does not run here: `switch`, function
values and text that is run as code. Facts that rest on the polls and commands of a program alone
hold of any program, also of one that such a form would make.
-/
namespace EditorScripting.Script

open Host

/-- What a script can reach outside itself: functions, methods and properties that the world
answers for, as commands of type `κ`. -/
structure Environment (κ : Type) where
  limits : Limits
  /-- The name of the module, in parts. Without parts there is none. -/
  modulePath : List String
  moduleFunction : String → List Value → Option κ
  /-- Functions without a module, which are also the methods. -/
  function : String → List Value → Option κ
  property : String → Handle → Option κ
  /-- The text of a wrapped value, where there are such values. -/
  describe : Handle → Option κ
  definitions : List Definition

namespace Environment

/-- The function of the script that a name means, among those for values of some type or else among
those for all. -/
def definition? {κ : Type} (env : Environment κ) (receiver : Option Value) (name : String)
    (arity : Nat) : Option Definition :=
  let find? (r : Option String) := env.definitions.find? fun d =>
    d.name == name && d.parameters.length == arity && (d.receiver.map typeOf == r)
  match receiver with
  | some v => (find? (some v.typeName)).or (find? none)
  | none => find? none
where
  /-- Types of numbers have a second name. -/
  typeOf : String → String
    | "int" => "i64"
    | "float" => "f64"
    | name => name

end Environment

/-- A variable or constant. -/
structure Binding where
  name : String
  value : Value
  constant : Bool
deriving Inhabited

/-- The bindings in scope, innermost first, the number of calls that are under way, and the number
of blocks around the statement. Functions see constants that are defined outside of all blocks. -/
structure Frame where
  scope : List Binding
  depth : Nat
  level : Nat
  constants : List (String × Value)

/-- Nothing has run yet. -/
def Frame.initial (scope : List Binding) : Frame := ⟨scope, 0, 0, []⟩

abbrev Eval (κ : Type) := ExceptT Interrupt (StateT Frame (Program κ))

namespace Eval

variable {κ : Type}

def lift {α : Type} (p : Program κ α) : Eval κ α := fun frame => p.bind fun a => .done (.ok a, frame)

def fail {α : Type} (f : Fault) (p : Option Position) : Eval κ α := throw (.fault f p)

def ofExcept {α : Type} (p : Position) : Except Fault α → Eval κ α
  | .ok a => pure a
  | .error f => fail f (some p)

/-- Runs a computation and hands out how it ended; the bindings stay as it leaves them. -/
def outcome {α : Type} (x : Eval κ α) : Eval κ (Except Interrupt α) := fun frame =>
  (x frame).bind fun (r, frame) => .done (.ok r, frame)

def refused : Refusal → Fault
  | .tooManyOperations => .tooManyOperations
  | .stopped reason => .stopped reason

/-- One operation begins. -/
def tick (p : Position) : Eval κ Unit := do
  match ← lift (.step .done) with
  | none => pure ()
  | some r => fail (refused r) (some p)

/-- An operation inside an operation begins. -/
def probe (depth : Nat) : Eval κ (Option Refusal) := lift (.probe depth .done)

/-- A value has been copied. -/
def retain (v : Value) : Eval κ Unit := v.handles.forM fun h => lift (.retain h (.done ()))

def releaseHandles (hs : List Handle) : Eval κ Unit :=
  hs.forM fun h => lift (.release h (.done ()))

/-- A value is dropped. -/
def release (v : Value) : Eval κ Unit := releaseHandles v.handles

/-- Asks the world for a value. -/
def ask (c : κ) (p : Option Position) : Eval κ Value := do
  match ← lift (.ask c .done) with
  | .ok v => pure v
  | .error message => fail (.thrown (.string message)) p

/-- A value that a function is called on has to be within the bounds if it is a container. -/
def checkReceiver (env : Environment κ) (v : Value) (p : Position) : Eval κ Unit :=
  match v with
  | .array _ | .map _ => do discard (ofExcept p (env.limits.check v))
  | _ => pure ()

/-- A text that is computed, or another one in its place if it cannot be had or is too long. -/
def textOr (env : Environment κ) (substitute : String) (text : Eval κ String) : Eval κ String := do
  match ← outcome text with
  | .ok s =>
    if Limits.exceeds env.limits.stringSize s.utf8ByteSize then return substitute else return s
  | .error _ => return substitute

/-- Prints with the world's help. An element that may not or cannot be printed is shown by its
plain text. -/
def printer (env : Environment κ) : Printer (Eval κ) where
  element depth v text := textOr env v.substitute do
    if let some r := ← probe depth then fail (refused r) none
    let s ← text
    checkReceiver env v .nowhere
    return s
  object h := do
    match env.describe h with
    | none => return (Value.object h).typeName
    | some c =>
      match ← ask c none with
      | .string s => return s
      | v => return v.typeName

/-- The text of a value that is made part of another text. -/
def textInside (env : Environment κ) (depth : Nat) (begin : Eval κ Unit) (v : Value) :
    Eval κ String :=
  match v with
  | .string s => pure s
  | v =>
    let substitute := match v with
      | .object _ => v.typeName
      | v => v.plainText
    textOr env substitute do
      begin
      let s ← (printer env).display depth v
      checkReceiver env v .nowhere
      return s

/-- The text of an operand of text. -/
def operandText (env : Environment κ) : Value → Eval κ String :=
  textInside env 1 do
    if let some r := ← probe 1 then fail (refused r) none

/-- The text of a piece of a template. -/
def pieceText (env : Environment κ) : Value → Eval κ String :=
  textInside env 0 (tick .nowhere)

/-- The signature of a call that no function answers. -/
def signature (name : String) (args : List Value) : String :=
  name ++ " (" ++ ", ".intercalate (args.map Value.signatureName) ++ ")"

mutual

/-- Equality of values as an operation `depth` levels down. -/
def equal (p : Position) (depth : Nat) : Value → Value → Eval κ Bool
  | .array a, .array b => if a.length = b.length then equalItems p (depth + 1) a b else pure false
  | .map a, .map b => if a.length = b.length then equalEntries p (depth + 1) a b else pure false
  | .object g, .object h => pure (g == h)
  | a, b =>
    match Operator.equal.onSimple? a b with
    | some (.ok (.bool r)) => pure r
    | _ => pure false

def equalItems (p : Position) (depth : Nat) : List Value → List Value → Eval κ Bool
  | a :: as, b :: bs => do
    if let some r := ← probe depth then fail (refused r) (some p)
    if ← equal p depth a b then equalItems p depth as bs else pure false
  | _, _ => pure true

def equalEntries (p : Position) (depth : Nat) :
    List (String × Value) → List (String × Value) → Eval κ Bool
  | (k, a) :: as, bs => do
    match Value.lookup k bs with
    | none => pure false
    | some b =>
      if let some r := ← probe depth then fail (refused r) (some p)
      if ← equal p depth a b then equalEntries p depth as bs else pure false
  | [], _ => pure true

end

/-- Whether an array holds an item. The item is copied for each comparison. -/
def holds (p : Position) (item : Value) : List Value → Eval κ Bool
  | [] => pure false
  | v :: r => do
    if let some refusal := ← probe 1 then fail (refused refusal) (some p)
    retain item
    let found ← equal p 1 v item
    release item
    if found then pure true else holds p item r

/-- An operator on operands that are not simple. -/
def operate (env : Environment κ) (op : Operator) (a b : Value) (p : Position) : Eval κ Value := do
  match op, a, b with
  | .plus, .string s, v => return .string (s ++ (← operandText env v))
  | .plus, v, .string s => return .string ((← operandText env v) ++ s)
  | .plus, .array xs, .array ys => return .array (xs ++ ys)
  | .plus, .map xs, .map ys =>
    return .map (ys.foldl (fun m (k, v) => Value.insertEntry k v m) xs)
  | .equal, .array _, .array _ => return .bool (← equal p 0 a b)
  | .equal, .map _, .map _ => return .bool (← equal p 0 a b)
  | .equal, .object _, .object _ => return .bool (← equal p 0 a b)
  | .notEqual, .array _, .array _ => return .bool !(← equal p 0 a b)
  | .notEqual, .map _, .map _ => return .bool !(← equal p 0 a b)
  | .notEqual, .object _, .object _ => return .bool !(← equal p 0 a b)
  | op, a, b => fail (.functionNotFound (signature op.text [a, b])) (some p)

/-- The members of the first list that are left when those of the second one are taken away, one
for one. -/
def without (hs : List Handle) : List Handle → List Handle
  | [] => hs
  | h :: r => without (hs.erase h) r

/-- The value of an operator, within the bounds. Its operands are dropped unless they are in the
result. -/
def combined (env : Environment κ) (a b : Value) (p : Position) (x : Eval κ Value) :
    Eval κ Value := do
  let v ← ofExcept p (env.limits.check (← x))
  releaseHandles (without (a.handles ++ b.handles) v.handles)
  return v

/-- A binary operator. -/
def binary (env : Environment κ) (op : Operator) (a b : Value) (p : Position) : Eval κ Value :=
  combined env a b p do
    match op.onSimple? a b with
    | some r => ofExcept p r
    | none => do
      tick p
      operate env op a b p

/-- The operator of an assignment, on the old value and an operand. Text, arrays and maps know how
to grow; other values that are not simple are asked twice. -/
def reassign (env : Environment κ) (op : Operator) (a b : Value) (p : Position) : Eval κ Value :=
  combined env a b p do
    match op.onSimple? a b, op, a, b with
    | some r, _, .int _, .float _ => do
      tick p
      tick p
      ofExcept p r
    | some r, _, _, _ => ofExcept p r
    | none, .plus, .array xs, .array ys => do
      tick p
      return .array (xs ++ ys)
    | none, .plus, .array xs, y => do
      tick p
      return .array (xs ++ [y])
    | none, op, a, b => do
      tick p
      match a with
      | .string _ | .map _ => pure ()
      | _ => tick p
      operate env op a b p

/-- A call of what is not defined by the script. -/
def callNative (env : Environment κ) (name : String) (args : List Value) (p : Position) :
    Eval κ Value := do
  match name, args with
  | "type_of", [v] => return .string v.typeName
  | _, _ =>
    tick p
    let v ← match env.function name args with
      | some c => ask c (some p)
      | none =>
        match name, args with
        | "to_string", [v] => do pure (.string (← (printer env).display 0 v))
        | "to_debug", [v] => do pure (.string (← (printer env).inside 0 v))
        | "print", [] => pure .unit
        | "debug", [] => pure .unit
        | "print", [v] => do
          discard (outcome ((printer env).display 0 v))
          pure .unit
        | "debug", [v] => do
          discard (outcome ((printer env).inside 0 v))
          pure .unit
        | "exit", [] => throw (.exited .unit)
        | "exit", [v] => do
          -- the value outlives the variable that it may stand in
          retain v
          throw (.exited v)
        | "contains", [.array items, v] => do pure (.bool (← holds p v items))
        | name, args =>
          match Library.call? name args with
          | some r =>
            let v ← ofExcept p r
            retain v
            pure v
          | none => fail (.functionNotFound (signature name args)) (some p)
    let v ← ofExcept p (env.limits.check v)
    args.head?.forM (checkReceiver env · p)
    return v

/-- Gives the innermost variable of a name a new value. -/
def store (name : String) (v : Value) : List Binding → List Binding
  | [] => []
  | b :: r => if b.name == name then { b with value := v } :: r else b :: store name v r

/-- The variable that an expression names, which stays where it is. -/
def look (env : Environment κ) : Expr → Eval κ Binding
  | .ref name p => do
    match (← get).scope.find? (·.name == name) with
    | some b => return b
    | none => fail (if name == "this" then .noReceiver else .variableNotFound name) (some p)
  | .moduleRef path name p _ => do
    -- constants of scripts form a module of their own
    if path == ["global"] then
      if let some v := Value.lookup name (← get).constants then return ⟨name, v, true⟩
    if path.head? == env.modulePath.head? || path == ["global"] then
      fail (.variableNotFound ("::".intercalate (path ++ [name]))) (some p)
    else fail (.moduleNotFound ("::".intercalate path)) (some p)
  | e => fail (.variableNotFound "") (some e.position)

/-- Gives the variable that an expression names a new value. -/
def assign (v : Value) : Expr → Eval κ Unit
  | .ref name _ => modify fun frame => { frame with scope := store name v frame.scope }
  | _ => pure ()

/-- Defines a variable or a constant. -/
def define (env : Environment κ) (name : String) (v : Value) (constant : Bool) : Eval κ Unit :=
  modify fun frame =>
    let isShared := constant && frame.level == 0 && !env.definitions.isEmpty
    { frame with
      scope := ⟨name, v, constant⟩ :: frame.scope
      constants := if isShared then (name, v) :: frame.constants else frame.constants }

/-- Drops the bindings above a size of the scope. -/
def shrink (size : Nat) : Eval κ Unit := do
  let scope := (← get).scope
  let gone := scope.take (scope.length - size)
  modify fun frame => { frame with scope := frame.scope.drop (frame.scope.length - size) }
  gone.forM fun b => release b.value

/-- Runs a computation in a scope of its own, however it ends. -/
def enclosed {α : Type} (x : Eval κ α) : Eval κ α := do
  let outer ← get
  set { outer with level := outer.level + 1 }
  let r ← outcome x
  shrink outer.scope.length
  modify fun frame => { frame with level := outer.level }
  match r with
  | .ok a => pure a
  | .error i => throw i

def truth (v : Value) (p : Position) : Eval κ Bool :=
  match v with
  | .bool b => pure b
  | v => fail (.wrongType v.internalName "bool") (some p)

/-- A call of a function of a module. -/
def callModule (env : Environment κ) (path : List String) (name : String) (args : List Value)
    (start p : Position) : Eval κ Value := do
  if env.modulePath.isEmpty || path.head? != env.modulePath.head? then
    fail (.moduleNotFound ("::".intercalate path)) (some start)
  else
    let command := if path = env.modulePath then env.moduleFunction name args else none
    match command with
    | some c => ofExcept p (env.limits.check (← ask c none))
    | none => fail (.functionNotFound (signature ("::".intercalate (path ++ [name])) args)) (some p)

/-- A link of a chain whose arguments have been evaluated. The place of an index is that of its
key. -/
inductive Step where
  | property (name : String) (position : Position) (joint : Joint)
  | method (name : String) (args : List Value) (position : Position) (joint : Joint)
  | index (key : Value) (position : Position) (joint : Joint)
deriving Inhabited

def Step.joint : Step → Joint
  | property _ _ j | method _ _ _ j | index _ _ j => j

/-- What the next step of a chain is made from. -/
structure Target where
  value : Value
  /-- It is what a variable or a container holds, and not a value of its own. -/
  isPart : Bool
  constant : Bool
deriving Inhabited

namespace Target

/-- A value of its own. -/
def ofValue (v : Value) : Target := ⟨v, false, false⟩

def ofBinding (b : Binding) : Target := ⟨b.value, true, b.constant⟩

/-- The part of a container that belongs to a key. Only items and entries are parts that a container
holds; those of a constant are constant. -/
def part (t : Target) (key part : Value) : Target :=
  match t.value, key with
  | .array _, _ => ⟨part, true, t.constant⟩
  | .map entries, .string k => ⟨part, true, t.constant && (Value.lookup k entries).isSome⟩
  | _, _ => ofValue part

/-- The value of the container with another one of its parts. -/
def withPart (t : Target) (key part : Value) : Option Value :=
  match t.value with
  | .array _ | .map _ => (Library.update t.value key part).toOption
  | _ => none

end Target

/-- The value at the end of a chain: a part is copied out. -/
def take (t : Target) : Eval κ Value := do
  if t.isPart then retain t.value
  return t.value

/-- What an assignment does to its target. -/
structure Update where
  op : Option Operator
  value : Value
  position : Position
  /-- The variable that the target is, or is a part of. -/
  variableName : String
  variablePosition : Position

/-- The new value in place of an old one. -/
def Update.apply (env : Environment κ) (u : Update) (t : Target) : Eval κ Value := do
  if t.constant then fail (.constantChanged u.variableName) (some u.variablePosition)
  match u.op with
  | none => do
    release t.value
    return u.value
  | some op => reassign env op t.value u.value u.position

/-- A property of a value that is no map. -/
def getProperty (env : Environment κ) (v : Value) (name : String) (p : Position) (j : Joint) :
    Eval κ Value := do
  tick p
  let command := match v with
    | .object h => env.property name h
    | _ => none
  match command, Library.property? name v with
  | some c, _ => ofExcept p (env.limits.check (← ask c (some p)))
  | none, some r =>
    checkReceiver env v p
    return r
  | none, none =>
    tick j.position
    fail (.unknownProperty name v.typeName) (some p)

/-- Setting a property of a value that is no map, which always fails. -/
def setProperty (env : Environment κ) (v : Value) (name : String) (p : Position) (j : Joint)
    (u : Update) : Eval κ Value := do
  let new ← match u.op with
    | none => pure u.value
    | some _ => do u.apply env (.ofValue (← getProperty env v name p j))
  tick p
  tick j.position
  fail (.readOnlyProperty name v.typeName new.typeName) (some p)

/-- The part of a container at a key, or else the error of reading it or of updating it. -/
def getPart (t : Target) (key : Value) (p : Position) (j : Joint) (u : Option Update) :
    Eval κ Target := do
  tick .nowhere
  match Library.index t.value key with
  | .ok v => do
    release key
    return t.part key v
  | .error (.noIndexer container index _) => do
    tick j.position
    let valueType := (u.filter (·.op.isNone)).map (·.value.typeName)
    fail (.noIndexer container index valueType) (some j.position)
  | .error f => fail f (some p)

/-- Raises what a computation of a script function ended with, unless that is a value. -/
def ofCall (name : String) (p : Position) : Except Interrupt Value → Eval κ Value
  | .ok v => pure v
  | .error (.returned v) => pure v
  | .error (.fault f q) =>
    if f.isSystem then fail f (some p) else fail (.inFunction name f q) (some p)
  | .error i => throw i

/-- What a handler passes on instead of its own end: a bare `throw` raises the caught fault again at
its own place. -/
def rethrown (caught : Fault) : Interrupt → Interrupt
  | .fault (.thrown .unit) q => .fault caught q
  | i => i

mutual

def expr (env : Environment κ) : Nat → Expr → Eval κ Value
  | 0, _ => fail .stackOverflow none
  | n + 1, e => do
    tick e.position
    node env n e

/-- The value of an expression whose own operation has begun. -/
def node (env : Environment κ) : Nat → Expr → Eval κ Value
  | 0, _ => fail .stackOverflow none
  | n + 1, e => do
    match e with
    | .const v _ => return v
    | .template parts p =>
      let s ← pieces env n parts ""
      ofExcept p (env.limits.check (.string s))
    | .array items _ => return .array (← arrayItems env n items [] .zero)
    | .map entries _ => return .map (← mapEntries env n entries [] .zero)
    | .ref _ _ | .moduleRef _ _ _ _ => take (.ofBinding (← look env e))
    | .call name args p => call env n name args p
    | .moduleCall path name args start p =>
      match args with
      | .ref x q :: rest =>
        let others ← values env n rest []
        let first := (← look env (.ref x q)).value
        tick q
        callModule env path name (first :: others) start p
      | args =>
        let args ← values env n args []
        let v ← callModule env path name args start p
        args.forM release
        return v
    | .negate e p =>
      match ← expr env n e with
      | .int x => return .int (← ofExcept p (Arithmetic.neg x))
      | .float x => return .float (-x)
      | v =>
        tick p
        fail (.functionNotFound (signature "-" [v])) (some p)
    | .affirm e p =>
      let v ← operand env n e
      tick p
      match v with
      | .int x => return .int x
      | .float x => return .float x
      | v => fail (.functionNotFound (signature "+" [v])) (some p)
    | .invert e p =>
      match ← expr env n e with
      | .bool b => return .bool !b
      | v =>
        tick p
        fail (.functionNotFound (signature "!" [v])) (some p)
    | .binary op l r p =>
      let a ← expr env n l
      let b ← expr env n r
      binary env op a b p
    | .allOf es _ => return .bool !(← anyIs env n false es)
    | .anyOf es _ => return .bool (← anyIs env n true es)
    | .firstOf es _ => firstValue env n es
    | .member container item p => call env n "contains" [container, item] p
    | .chain root links => chain env n root links
    | .block body _ => enclosed (statements env n body .unit)

/-- The operand of a sign. A variable is looked at where it stands. -/
def operand (env : Environment κ) : Nat → Expr → Eval κ Value
  | 0, _ => fail .stackOverflow none
  | n + 1, e => do
    if e.isVariable then
      tick e.position
      return (← look env e).value
    else expr env n e

/-- Some expression has a truth value, which ends the search. -/
def anyIs (env : Environment κ) : Nat → Bool → List Expr → Eval κ Bool
  | 0, _, _ => fail .stackOverflow none
  | _ + 1, _, [] => return false
  | n + 1, wanted, e :: r => do
    if (← truth (← expr env n e) e.position) == wanted then return true
    else anyIs env n wanted r

/-- The first value that is not unit. -/
def firstValue (env : Environment κ) : Nat → List Expr → Eval κ Value
  | 0, _ => fail .stackOverflow none
  | _ + 1, [] => return .unit
  | n + 1, e :: r => do
    match ← expr env n e with
    | .unit => firstValue env n r
    | v => return v

/-- The texts of the pieces of a template, behind what has been joined. -/
def pieces (env : Environment κ) : Nat → List Expr → String → Eval κ String
  | 0, _, _ => fail .stackOverflow none
  | _ + 1, [], done => pure done
  | n + 1, e :: r, done => do
    let v ← expr env n e
    let text ← pieceText env v
    release v
    pieces env n r (done ++ text)

/-- The values of expressions, behind those that are done, which are in reverse. -/
def values (env : Environment κ) : Nat → List Expr → List Value → Eval κ (List Value)
  | 0, _, _ => fail .stackOverflow none
  | _ + 1, [], done => pure done.reverse
  | n + 1, e :: r, done => do
    let v ← expr env n e
    values env n r (v :: done)

/-- The items of an array, whose size is checked as it grows. -/
def arrayItems (env : Environment κ) :
    Nat → List Expr → List Value → DataSize → Eval κ (List Value)
  | 0, _, _, _ => fail .stackOverflow none
  | _ + 1, [], done, _ => pure done.reverse
  | n + 1, e :: r, done, size => do
    let v ← expr env n e
    let size := size + v.size + ⟨1, 0, 0⟩
    match env.limits.violation? size with
    | some f => fail f (some e.position)
    | none => arrayItems env n r (v :: done) size

/-- The entries of a map, whose size is checked as it grows. -/
def mapEntries (env : Environment κ) :
    Nat → List (String × Expr) → List (String × Value) → DataSize → Eval κ (List (String × Value))
  | 0, _, _, _ => fail .stackOverflow none
  | _ + 1, [], done, _ => pure done
  | n + 1, (k, e) :: r, done, size => do
    let v ← expr env n e
    let size := size + v.size + ⟨0, 1, 0⟩
    match env.limits.violation? size with
    | some f => fail f (some e.position)
    | none => mapEntries env n r (Value.insertEntry k v done) size

/-- A call without module. A first argument that is a variable is looked at last, and the function
may change it, while a constant is copied. -/
def call (env : Environment κ) : Nat → String → List Expr → Position → Eval κ Value
  | 0, _, _, _ => fail .stackOverflow none
  | n + 1, name, args, p => do
    match args with
    | [] =>
      match env.definition? none name 0 with
      | some d => return (← run env n d none [] p).1
      | none => callNative env name [] p
    | e :: rest =>
      if e.isVariable then
        tick e.position
        let others ← values env n rest []
        let b ← look env e
        let (v, changed) ← apply env n false ⟨b.value, true, false⟩ name others p
        unless b.constant do changed.forM (assign · e)
        return v
      else
        let first ← expr env n e
        let others ← values env n rest []
        let (v, _) ← apply env n false (.ofValue first) name others p
        release first
        return v

/-- Applies a function or a method to a first argument and to other ones. The first argument comes
back if it has been changed. -/
def apply (env : Environment κ) :
    Nat → Bool → Target → String → List Value → Position → Eval κ (Value × Option Value)
  | 0, _, _, _, _, _ => fail .stackOverflow none
  | n + 1, isMethod, t, name, others, p => do
    let args := t.value :: others
    let definition := if isMethod then env.definition? (some t.value) name others.length
      else env.definition? none name args.length
    match definition, Library.change? env.limits name args with
    | some d, _ =>
      if isMethod then run env n d (some t.value) others p else run env n d none args p
    | none, some r =>
      tick p
      if t.constant then fail (.constantReceiver name) (some p)
      let (v, changed) ← ofExcept p r
      return (v, some changed)
    | none, none =>
      let v ← callNative env name args p
      others.forM release
      return (v, none)

/-- Runs a function of the script. The receiver that it is called on comes back as the function
leaves it. -/
def run (env : Environment κ) :
    Nat → Definition → Option Value → List Value → Position → Eval κ (Value × Option Value)
  | 0, _, _, _, _ => fail .stackOverflow none
  | n + 1, d, receiver, args, p => do
    tick p
    let frame ← get
    if Limits.exceeds env.limits.callDepth (frame.depth + 1) then fail .stackOverflow (some p)
    let this := receiver.toList.map fun v => Binding.mk "this" v false
    let scope := (d.parameters.zip args).map fun (x, v) => Binding.mk x v false
    set { frame with
      scope := scope.reverse ++ this, depth := frame.depth + 1, level := frame.level + 1 }
    let r ← outcome (statements env n d.body .unit)
    let left := (← get).scope.getLast?
    set frame
    return (← ofCall d.name p r, receiver.bind fun _ => left.map (·.value))

/-- A chain. The arguments of all its links come first, then the root. -/
def chain (env : Environment κ) : Nat → Expr → List Link → Eval κ Value
  | 0, _, _ => fail .stackOverflow none
  | n + 1, root, links => do
    let steps ← steps env n links
    if root.isVariable then
      tick root.position
      let (v, changed) ← follow env n (.ofBinding (← look env root)) steps none
      changed.forM (assign · root)
      return v
    else
      let v ← expr env n root
      return (← followOwn env n v steps none).1

/-- The steps of a chain. A single link without anything to evaluate is a step at once. -/
def steps (env : Environment κ) : Nat → List Link → Eval κ (List Step)
  | 0, _ => fail .stackOverflow none
  | n + 1, links => do
    match links with
    | [.property name p j] => return [.property name p j]
    | [.method name [] p j] => return [.method name [] p j]
    | [.index (.const key p) j] => return [.index key p j]
    | links => prepare env n links []

/-- Evaluates the arguments of links. The operation is that of the joint with the next link. -/
def prepare (env : Environment κ) : Nat → List Link → List Step → Eval κ (List Step)
  | 0, _, _ => fail .stackOverflow none
  | _ + 1, [], done => pure done.reverse
  | n + 1, l :: r, done => do
    tick ((r.head?.map (·.joint.position)).getD l.position)
    let s ← match l with
      | .property name p j => pure (Step.property name p j)
      | .method name args p j => do pure (.method name (← values env n args []) p j)
      | .index key j => do pure (.index (← expr env n key) key.start j)
    prepare env n r (s :: done)

/-- Makes the steps of a chain, and an update behind the last one. The target comes back if it has
been changed. -/
def follow (env : Environment κ) :
    Nat → Target → List Step → Option Update → Eval κ (Value × Option Value)
  | 0, _, _, _ => fail .stackOverflow none
  | _ + 1, t, [], _ => return (← take t, none)
  | n + 1, t, s :: r, u => do
    match s.joint.optional, t.value with
    | true, .unit => return (.unit, none)
    | _, _ =>
      match s, t.value with
      | .method name args p _, _ =>
        let (v, changed) ← apply env n true t name args p
        return ((← followOwn env n v r u).1, changed)
      | .property name p j, .map _ => followPart env n t (.string name) p j r u
      | .index key p j, _ => followPart env n t key p j r u
      | .property name p j, v =>
        match r, u with
        | [], some u => return (← setProperty env v name p j u, none)
        | r, u =>
          let (w, isChanged) ← followOwn env n (← getProperty env v name p j) r u
          -- an attempt to set the property again, which has no effect
          if isChanged then
            tick p
            tick j.position
          return (w, if isChanged then some v else none)

/-- Goes on with a value of its own, which is dropped afterwards as it is then, and tells whether it
has been changed. -/
def followOwn (env : Environment κ) :
    Nat → Value → List Step → Option Update → Eval κ (Value × Bool)
  | 0, _, _, _ => fail .stackOverflow none
  | n + 1, v, steps, u => do
    let (w, changed) ← follow env n (.ofValue v) steps u
    unless steps.isEmpty do release (changed.getD v)
    return (w, changed.isSome)

/-- Goes on with the part of a container at a key. -/
def followPart (env : Environment κ) :
    Nat → Target → Value → Position → Joint → List Step → Option Update →
      Eval κ (Value × Option Value)
  | 0, _, _, _, _, _, _ => fail .stackOverflow none
  | n + 1, t, key, p, j, r, u => do
    match r, u with
    | [], some u =>
      let new ← u.apply env (← getPart t key p j (some u))
      return (.unit, some (← ofExcept u.position (Library.update t.value key new)))
    | r, u =>
      let (v, changed) ← follow env n (← getPart t key p j none) r u
      return (v, changed.bind (t.withPart key))

/-- Runs statements one after another; the value of the last one counts. -/
def statements (env : Environment κ) : Nat → List Stmt → Value → Eval κ Value
  | 0, _, _ => fail .stackOverflow none
  | _ + 1, [], v => pure v
  | n + 1, s :: r, v => do
    release v
    let v ← statement env n s
    statements env n r v

def statement (env : Environment κ) : Nat → Stmt → Eval κ Value
  | 0, _ => fail .stackOverflow none
  | n + 1, s => do
    tick s.position
    match s with
    | .expr e => if e.isCall then node env n e else expr env n e
    | .define name e constant _ =>
      let v ← expr env n e
      define env name v constant
      return .unit
    | .assign target op e p =>
      assignment env n target op e p
      return .unit
    | .branch c yes no _ =>
      if ← truth (← expr env n c) c.position then enclosed (statements env n yes .unit)
      else enclosed (statements env n no .unit)
    | .loop c body _ q => repeatLoop env n c body q
    | .each name counter source body _ =>
      match ← expr env n source with
      | .range a b closed =>
        enclosed (eachInt env n name counter body a (if closed then b else b - 1) 0)
      | .array items => enclosed (eachItem env n name counter body items 0)
      | .string s | .letters s =>
        enclosed (eachItem env n name counter body (s.toList.map .char) 0)
      | _ => fail .notIterable (some source.start)
    | .leave none _ => throw (.leaveLoop .unit)
    | .leave (some e) _ => throw (.leaveLoop (← expr env n e))
    | .skip _ => throw .nextRound
    | .give none _ => throw (.returned .unit)
    | .give (some e) _ => throw (.returned (← expr env n e))
    | .throw none p => fail (.thrown .unit) (some p)
    | .throw (some e) p => fail (.thrown (← expr env n e)) (some p)
    | .attempt body name handler _ =>
      match ← outcome (enclosed (statements env n body .unit)) with
      | .ok _ => return .unit
      | .error (.fault f p) =>
        if f.isSystem then throw (.fault f p)
        else
          enclosed do
            if let some x := name then
              -- the fault may be raised again with the value
              retain (f.caught p)
              define env x (f.caught p) false
            match ← outcome (enclosed (statements env n handler .unit)) with
            | .ok _ => return .unit
            | .error i => throw (rethrown f i)
      | .error i => throw i
    | .block body _ => enclosed (statements env n body .unit)

/-- One round of a loop. The value that the loop ends with comes back if it was the last one. -/
def round (env : Environment κ) : Nat → List Stmt → Eval κ (Option Value)
  | 0, _ => fail .stackOverflow none
  | n + 1, body => do
    match ← outcome (enclosed (statements env n body .unit)) with
    | .ok v =>
      release v
      return none
    | .error .nextRound => return none
    | .error (.leaveLoop v) => return some v
    | .error i => throw i

def repeatLoop (env : Environment κ) : Nat → Option Expr → List Stmt → Position → Eval κ Value
  | 0, _, _, _ => fail .stackOverflow none
  | n + 1, c, body, q => do
    let goesOn ← match c with
      | some e => truth (← expr env n e) e.position
      | none => do
        if body.isEmpty then tick q
        pure true
    if goesOn then
      match ← round env n body with
      | some v => return v
      | none => repeatLoop env n c body q
    else return .unit

/-- A round for one item of what is looped over, in a scope with the item and its number. -/
def roundFor (env : Environment κ) :
    Nat → String → Option String → List Stmt → Value → Nat → Eval κ (Option Value)
  | 0, _, _, _, _, _ => fail .stackOverflow none
  | n + 1, name, counter, body, v, k =>
    enclosed do
      if let some x := counter then define env x (.int k) false
      define env name v false
      round env n body

/-- Rounds for the integers from `i` to `last`. -/
def eachInt (env : Environment κ) :
    Nat → String → Option String → List Stmt → Int → Int → Nat → Eval κ Value
  | 0, _, _, _, _, _, _ => fail .stackOverflow none
  | n + 1, name, counter, body, i, last, k => do
    if i ≤ last then
      match ← roundFor env n name counter body (.int i) k with
      | some v => return v
      | none => eachInt env n name counter body (i + 1) last (k + 1)
    else return .unit

/-- Rounds for the items of a list. -/
def eachItem (env : Environment κ) :
    Nat → String → Option String → List Stmt → List Value → Nat → Eval κ Value
  | 0, _, _, _, _, _ => fail .stackOverflow none
  | _ + 1, _, _, _, [], _ => return .unit
  | n + 1, name, counter, body, v :: r, k => do
    match ← roundFor env n name counter body v k with
    | some v => return v
    | none => eachItem env n name counter body r (k + 1)

/-- Assigns to a variable, or to a part of what a variable holds. -/
def assignment (env : Environment κ) :
    Nat → Expr → Option Operator → Expr → Position → Eval κ Unit
  | 0, _, _, _, _ => fail .stackOverflow none
  | n + 1, target, op, e, p => do
    let v ← expr env n e
    match target with
    | .chain root links =>
      let steps ← steps env n links
      tick root.position
      let b ← look env root
      let u : Update := ⟨op, v, p, b.name, root.position⟩
      let (_, changed) ← follow env n (.ofBinding b) steps (some u)
      changed.forM (assign · root)
    | target =>
      tick target.position
      let b ← look env target
      let u : Update := ⟨op, v, p, b.name, target.position⟩
      assign (← u.apply env (.ofBinding b)) target

end

/-- More nested calls and rounds than any script can run through. -/
def fuel : Nat := Nat.pow 2 62

end Eval

/-- A fault and its place. -/
structure Failed where
  fault : Fault
  position : Option Position

/-- The text that reports a fault. -/
def Failed.message (f : Failed) : String := located f.fault.message f.position

/-- How a whole script ends. -/
def Eval.conclude {κ : Type} (x : Eval κ Value) (scope : List Binding) :
    Program κ (Except Failed Value) :=
  (x (.initial scope)).bind fun
    | (.ok v, _) | (.error (.returned v), _) | (.error (.exited v), _) => .done (.ok v)
    | (.error (.fault f p), _) => .done (.error ⟨f, p⟩)
    | (.error _, _) => .done (.ok .unit)

/-- Runs statements among the given bindings. -/
def runStatements {κ : Type} (env : Environment κ) (scope : List Binding) (body : List Stmt) :
    Program κ (Except Failed Value) :=
  Eval.conclude (Eval.statements env Eval.fuel body .unit) scope

end EditorScripting.Script
