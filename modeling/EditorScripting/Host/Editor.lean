import EditorScripting.Host.Buffer
import EditorScripting.Host.Heap
import EditorScripting.Host.Obarray

/-!
The editor: one buffer, a heap of objects and the table of global symbols. Every handle that the
table holds is a root of the heap, and so is nil.
-/
namespace EditorScripting.Host

structure Editor where
  heap : Heap Object
  obarray : Obarray
  buffer : Buffer
  nil : Handle

namespace Editor

/-- The symbol object of a name, created on first use. -/
def intern (e : Editor) (name : String) : Handle × Editor :=
  match e.obarray.get? name with
  | some cell => (cell.symbol, e)
  | none =>
    let (symbol, heap) := e.heap.alloc (.symbol name)
    (symbol, { e with heap, obarray := e.obarray.insert name symbol })

/-- Puts a value into the heap; nil is always the same object. -/
def make (e : Editor) : Object → Handle × Editor
  | .nil => (e.nil, e)
  | value =>
    let (h, heap) := e.heap.alloc value
    (h, { e with heap })

/-- Gives a global variable a value. The value is made before the name is interned. -/
def setVariable (e : Editor) (name : String) (value : Object) : Handle × Editor :=
  let (h, e) := e.make value
  let (_, e) := e.intern name
  (h, { e with obarray := e.obarray.modify name fun cell => { cell with value := some h } })

/-- Makes a symbol call a primitive. The primitive is made before its name is interned. -/
def definePrimitive (e : Editor) (p : Primitive) : Editor :=
  let (f, heap) := e.heap.alloc (.primitive p)
  let (_, e) := { e with heap }.intern p.name
  { e with obarray := e.obarray.modify p.name fun cell => { cell with function := some f } }

/-- The two symbols whose value is the symbol itself. -/
def bare (buffer : Buffer) : Editor :=
  let (nil, heap) := Heap.empty.alloc .nil
  let (t, heap) := heap.alloc .t
  let table := (Obarray.empty.insert "nil" nil).modify "nil" fun c => { c with value := some nil }
  let table := (table.insert "t" t).modify "t" fun c => { c with value := some t }
  { heap, obarray := table, buffer, nil }

/-- A new editor knows nil, t, the primitives and three variables. -/
def ofBuffer (buffer : Buffer) : Editor :=
  let e := Primitive.all.foldl definePrimitive (bare buffer)
  let (_, e) := e.setVariable "fill-column" (.integer 70)
  let (_, e) := e.setVariable "tab-width" (.integer 8)
  (e.setVariable "buffer-file-name" ((buffer.path.map Object.string).getD .nil)).2

/-- The value of a global variable. -/
def symbolValue (e : Editor) (name : String) : Option Object :=
  (e.obarray.get? name).bind fun cell => cell.value.bind e.heap.get?

/-- Forgets a name. Its symbol object lives on until it is collected. -/
def unintern (e : Editor) (name : String) : Bool × Editor :=
  let (removed, obarray) := e.obarray.remove name
  (removed.isSome, { e with obarray })

def symbolCount (e : Editor) : Nat := e.obarray.size

/-- The handles that a collection starts from. -/
def roots (e : Editor) : List Handle :=
  e.nil :: e.obarray.toList.flatMap fun (_, cell) =>
    cell.symbol :: cell.value.toList ++ cell.function.toList

/-- Reclaims every object that is neither pinned nor a root, and returns their number. -/
def collect (e : Editor) : Nat × Editor :=
  let (n, heap) := e.heap.collect e.roots
  (n, { e with heap })

def globalSymbols (e : Editor) : List Handle := e.obarray.toList.map (·.2.symbol)

def makeString (e : Editor) (text : String) : Handle × Editor := e.make (.string text)

def typeOf (e : Editor) (h : Handle) : Except HostError String := (e.heap.get h).map (·.typeName)

def symbolName (e : Editor) (h : Handle) : Except HostError (Option String) :=
  (e.heap.get h).map (·.symbolName?)

def stringValue (e : Editor) (h : Handle) : Except HostError (Option String) :=
  (e.heap.get h).map fun
    | .string text => some text
    | _ => none

def integerValue (e : Editor) (h : Handle) : Except HostError (Option Int) :=
  (e.heap.get h).map fun
    | .integer n => some n
    | _ => none

def printed (e : Editor) (h : Handle) : Except HostError String :=
  (e.heap.get h).map (·.printed)

def pin (e : Editor) (h : Handle) : Except HostError Unit × Editor :=
  let (r, heap) := e.heap.pin h
  (r, { e with heap })

def unpin (e : Editor) (h : Handle) : Editor := { e with heap := e.heap.unpin h }

/-- The primitive that calling a value runs. A symbol stands for the function of its name, whether
or not it is itself the interned symbol of that name. -/
def resolve (e : Editor) (f : Handle) : Except HostError Primitive := do
  match ← e.heap.get f with
  | .primitive p => .ok p
  | value =>
    match value.symbolName? with
    | none => .error (.notCallable value.printed)
    | some name =>
      match (e.obarray.get? name).bind (·.function) with
      | none => .error (.void name)
      | some g =>
        match ← e.heap.get g with
        | .primitive p => .ok p
        | other => .error (.notCallable other.printed)

/-- What a primitive computes; a mark that is not set is nil. -/
def primitiveValue (e : Editor) : Primitive → Object
  | .point => .integer e.buffer.point
  | .pointMin => .integer e.buffer.pointMin
  | .pointMax => .integer e.buffer.pointMax
  | .bufferSize => .integer e.buffer.size
  | .bufferString => .string e.buffer.text
  | .mark => (e.buffer.mark.map fun n => Object.integer n).getD .nil
  | .lineNumberAtPos => .integer (e.buffer.lineNumberAt (UInt64.ofNat e.buffer.point))

/-- Whether a value can be called. Only a stale handle is an error. -/
def isCallable (e : Editor) (h : Handle) : Except HostError Bool :=
  match e.resolve h with
  | .ok _ => .ok true
  | .error (.reclaimed h) => .error (.reclaimed h)
  | .error _ => .ok false

/-- Calls a value without arguments. -/
def funcall (e : Editor) (f : Handle) : Except HostError Handle × Editor :=
  match e.resolve f with
  | .ok p =>
    let (h, e) := e.make (e.primitiveValue p)
    (.ok h, e)
  | .error err => (.error err, e)

def gotoChar (e : Editor) (position : Int) : Nat × Editor :=
  let (p, buffer) := e.buffer.gotoChar position
  (p, { e with buffer })

def setMark (e : Editor) (position : Int) : Nat × Editor :=
  let (p, buffer) := e.buffer.setMark position
  (p, { e with buffer })

end Editor

end EditorScripting.Host
