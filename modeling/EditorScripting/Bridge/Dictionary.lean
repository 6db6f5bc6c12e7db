import Std.Data.TreeMap
import EditorScripting.Bridge.Wrapper
import EditorScripting.Identifier

/-!
The dictionary of installed symbols: for each printable name a wrapper of the symbol.
-/
namespace EditorScripting

open Host

/-- Installed wrappers by the name of their symbol. -/
abbrev Dictionary := Std.TreeMap String Handle

namespace Dictionary

variable {σ : Type} (host : Interface σ)

/-- Installs a copy of a wrapper. A wrapper that was installed under the name before is dropped. -/
def install (d : Dictionary) (name : String) (h : Handle) (s : σ) : Dictionary × σ :=
  let s := Wrapper.copy host h s
  (d.insert name h,
    match d[name]? with
    | some old => Wrapper.drop host old s
    | none => s)

/-- The wrapper installed under a host name, or else under the host name of a guest identifier. -/
def find? (d : Dictionary) (name : String) : Option Handle :=
  d[name]? <|> d[Identifier.hostName name]?

/-- Installed names and wrappers in the order of the names. -/
def entries (d : Dictionary) : List (String × Handle) := d.toList

def names (d : Dictionary) : List String := d.keys

/-- Drops every installed wrapper. -/
def clear (d : Dictionary) (s : σ) : σ :=
  d.entries.foldl (fun s (_, h) => Wrapper.drop host h s) s

end Dictionary

end EditorScripting
