import EditorScripting.Host.Editor

/-!
The part of a host that scripting relies on. A host keeps its own state; handles name its values.
Reading point may change that state, since a host may run code of its own then; the other
questions only look at it. What a host does of its own while it answers those is left to what goes
on around an interpreter, which comes before each command of guest code.
-/
namespace EditorScripting.Host

/-- The operations of a host whose state is `σ`. -/
structure Interface (σ : Type) where
  /-- The symbols of the global table, in its order. -/
  globalSymbols : σ → List Handle
  /-- Finds or creates the symbol of a name. -/
  intern : String → σ → Handle × σ
  /-- The object that stands for no value. -/
  nil : σ → Handle
  makeString : String → σ → Handle × σ
  typeOf : σ → Handle → Except HostError String
  symbolName : σ → Handle → Except HostError (Option String)
  stringValue : σ → Handle → Except HostError (Option String)
  integerValue : σ → Handle → Except HostError (Option Int)
  printed : σ → Handle → Except HostError String
  /-- Keeps a value alive until a matching `unpin`. -/
  pin : Handle → σ → Except HostError Unit × σ
  unpin : Handle → σ → σ
  isCallable : σ → Handle → Except HostError Bool
  /-- Calls a value without arguments. -/
  funcall : Handle → σ → Except HostError Handle × σ
  point : σ → Int × σ
  pointMin : σ → Int
  pointMax : σ → Int
  mark : σ → Option Int
  gotoChar : Int → σ → Int × σ
  setMark : Int → σ → Int × σ

/-- The editor as a host that runs no code of its own. -/
def Editor.interface : Interface Editor where
  globalSymbols := globalSymbols
  intern name e := e.intern name
  nil := nil
  makeString text e := e.makeString text
  typeOf := typeOf
  symbolName := symbolName
  stringValue := stringValue
  integerValue := integerValue
  printed := printed
  pin h e := e.pin h
  unpin h e := e.unpin h
  isCallable := isCallable
  funcall f e := e.funcall f
  point e := (e.buffer.point, e)
  pointMin e := e.buffer.pointMin
  pointMax e := e.buffer.pointMax
  mark e := e.buffer.mark.map fun n => (n : Int)
  gotoChar n e := let (p, e) := e.gotoChar n; (p, e)
  setMark n e := let (p, e) := e.setMark n; (p, e)

end EditorScripting.Host
