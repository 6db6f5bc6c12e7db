import EditorScripting.Diagnostics
import EditorScripting.Json.Reader
import EditorScripting.Json.Text
import EditorScripting.Settings

/-!
Settings as JSON. They are written as an object with one member for each field, in the order of
the fields. They are read from such an object, in any order and with any other members between, or
from an array of the leading fields; fields that are left out have their defaults.
-/
namespace EditorScripting

open Json

/-- The fields of settings. -/
inductive Field where
  | moduleName
  | reservedName
  | maxOperations
  | maxExprDepth
  | maxFnDepth
  | timeoutMs
  | maxStringSize
  | maxArraySize
  | maxMapSize
  | diagnosticsCapacity
deriving DecidableEq, Repr

namespace Field

/-- All fields in their order. -/
def all : List Field :=
  [moduleName, reservedName, maxOperations, maxExprDepth, maxFnDepth, timeoutMs, maxStringSize,
    maxArraySize, maxMapSize, diagnosticsCapacity]

/-- The name of a field in JSON. -/
def key : Field → String
  | moduleName => "module_name"
  | reservedName => "reserved_name"
  | maxOperations => "max_operations"
  | maxExprDepth => "max_expr_depth"
  | maxFnDepth => "max_fn_depth"
  | timeoutMs => "timeout_ms"
  | maxStringSize => "max_string_size"
  | maxArraySize => "max_array_size"
  | maxMapSize => "max_map_size"
  | diagnosticsCapacity => "diagnostics_capacity"

def ofKey? (key : String) : Option Field := all.find? (·.key == key)

/-- The JSON text of a field's value. -/
def text (s : Settings) : Field → List Char
  | moduleName => quoted s.moduleName
  | reservedName => quoted s.reservedName
  | maxOperations => natural s.maxOperations.toNat
  | maxExprDepth => natural s.maxExprDepth.toNat
  | maxFnDepth => natural s.maxFnDepth.toNat
  | timeoutMs => match s.timeoutMs with
    | some n => natural n.toNat
    | none => ['n', 'u', 'l', 'l']
  | maxStringSize => natural s.maxStringSize.toNat
  | maxArraySize => natural s.maxArraySize.toNat
  | maxMapSize => natural s.maxMapSize.toNat
  | diagnosticsCapacity => natural s.diagnosticsCapacity.toNat

/-- Reads the value of a field into settings. -/
def read (s : Settings) : Field → Reader Settings
  | moduleName => do return { s with moduleName := ← Reader.string }
  | reservedName => do return { s with reservedName := ← Reader.string }
  | maxOperations => do return { s with maxOperations := ← Reader.unsigned }
  | maxExprDepth => do return { s with maxExprDepth := ← Reader.unsigned }
  | maxFnDepth => do return { s with maxFnDepth := ← Reader.unsigned }
  | timeoutMs => do return { s with timeoutMs := ← Reader.nullable Reader.unsigned }
  | maxStringSize => do return { s with maxStringSize := ← Reader.unsigned }
  | maxArraySize => do return { s with maxArraySize := ← Reader.unsigned }
  | maxMapSize => do return { s with maxMapSize := ← Reader.unsigned }
  | diagnosticsCapacity => do return { s with diagnosticsCapacity := ← Reader.unsigned }

end Field

namespace Settings

/-- The settings as JSON text, one field on each line. -/
def pretty (s : Settings) : String :=
  String.ofList (prettyObject (Field.all.map fun f => (f.key, f.text s)))

/-- Reads a member whose name comes next. A field may occur once, which is checked before its value
is looked at; other members are skipped. -/
def readMember (seen : List Field) (s : Settings) : Reader (List Field × Settings) := do
  Reader.token '\x22'
  match Field.ofKey? (← Reader.stringBody) with
  | some f =>
    if f ∈ seen then Reader.fail .unfitting
    else
      Reader.token ':'
      return (f :: seen, ← f.read s)
  | none =>
    Reader.token ':'
    Reader.skip
    return (seen, s)

/-- Reads the members from one that comes next on, and the end of the object. -/
def readMembers : Nat → List Field → Settings → Reader Settings
  | 0, _, _ => Reader.fail .truncated
  | fuel + 1, seen, s => do
    let (seen, s) ← readMember seen s
    let c ← Reader.need
    if c = '\x7d' then
      Reader.advance
      return s
    else if c = ',' then
      Reader.advance
      readMembers fuel seen s
    else Reader.fail .malformed

/-- Reads the leading fields from one that comes next on, and the end of the array. An array with
more items than there are fields is malformed. -/
def readItems : List Field → Settings → Reader Settings
  | [], _ => Reader.fail .malformed
  | f :: fields, s => do
    let s ← f.read s
    let c ← Reader.need
    if c = ']' then
      Reader.advance
      return s
    else if c = ',' ∧ fields ≠ [] then
      Reader.advance
      if (← Reader.need) = ']' then Reader.fail .malformed
      else readItems fields s
    else Reader.fail .malformed

/-- Reads settings on top of the defaults. -/
def read : Reader Settings := do
  let c ← Reader.need
  if c = '[' then
    Reader.advance
    if (← Reader.need) = ']' then
      Reader.advance
      return default
    else readItems Field.all default
  else if c = '\x7b' then
    Reader.advance
    if (← Reader.need) = '\x7d' then
      Reader.advance
      return default
    else readMembers ((← get).length + 1) [] default
  else Reader.refuse

/-- Reads settings from a JSON text. -/
def ofJson (text : String) : Except Problem Settings := Reader.whole read text

end Settings

/-- A diagnostic as JSON text on one line. -/
def Diagnostic.compact (d : Diagnostic) : String :=
  String.ofList
    (compactObject [("operation", quoted d.operation), ("detail", quoted d.detail)])

end EditorScripting
