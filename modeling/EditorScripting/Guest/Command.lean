import EditorScripting.Script.Eval

/-!
What guest code can ask of the editor: the functions of the editor's module, and the methods and
properties of wrapped values.
-/
namespace EditorScripting.Guest

open Host Script

inductive Command where
  | point
  | pointMin
  | pointMax
  | mark
  | gotoChar (position : Int)
  | setMark (position : Int)
  /-- Wraps and installs the symbols of the host. -/
  | refresh
  /-- All installed wrappers by name. -/
  | symbols
  /-- The wrapper installed under a name. -/
  | symbol (name : String)
  /-- A new wrapper of the symbol of a name. -/
  | wrap (name : String)
  | guestName (name : String)
  | hostName (name : String)
  | kind (h : Handle)
  | name (h : Handle)
  | isSymbol (h : Handle)
  | isCallable (h : Handle)
  | invoke (h : Handle)
  | display (h : Handle)
deriving DecidableEq, Repr

namespace Command

/-- The functions of the module. They take arguments of exactly their types. -/
def moduleFunction? (name : String) (args : List Value) : Option Command :=
  match name, args with
  | "point", [] => some .point
  | "point_min", [] => some .pointMin
  | "point_max", [] => some .pointMax
  | "mark", [] => some .mark
  | "goto_char", [.int n] => some (.gotoChar n)
  | "set_mark", [.int n] => some (.setMark n)
  | "refresh", [] => some .refresh
  | "symbols", [] => some .symbols
  | "symbol", [.string s] => some (.symbol s)
  | "LispObject", [.string s] => some (.wrap s)
  | "guest_name", [.string s] => some (.guestName s)
  | "host_name", [.string s] => some (.hostName s)
  | _, _ => none

/-- The methods of wrapped values. -/
def method? (name : String) (args : List Value) : Option Command :=
  match name, args with
  | "invoke", [.object h] => some (.invoke h)
  | "to_string", [.object h] => some (.display h)
  | "to_debug", [.object h] => some (.display h)
  | _, _ => none

/-- The properties of wrapped values. -/
def property? (name : String) (h : Handle) : Option Command :=
  match name with
  | "kind" => some (.kind h)
  | "name" => some (.name h)
  | "is_symbol" => some (.isSymbol h)
  | "is_callable" => some (.isCallable h)
  | _ => none

/-- The parts of a module's name. Only a name of several parts is freed from the blanks around
its parts. -/
def modulePath (name : String) : List String :=
  match name.splitOn "::" with
  | [single] => [single]
  | parts => parts.map fun p => String.ofList (Text.trim p.toList)

/-- What expressions can reach. -/
def environment (limits : Limits) (moduleName : String) : Environment Command where
  limits
  modulePath := modulePath moduleName
  moduleFunction := moduleFunction?
  function := method?
  property := property?
  describe h := some (.display h)
  definitions := []

end Command

end EditorScripting.Guest
