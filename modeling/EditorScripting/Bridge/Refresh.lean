import EditorScripting.Bridge.Dictionary
import EditorScripting.Diagnostics

/-!
Refreshing the dictionary from the host's table of symbols. Each symbol succeeds or fails on its
own. Names that vanished from the table keep the wrapper that was installed last.
-/
namespace EditorScripting

open Host

/-- What a refresh did with each symbol, in the order of the table. -/
structure Report where
  entries : List (String × Except Failure Handle)
  skipped : Nat

namespace Report

def empty : Report := ⟨[], 0⟩

/-- The number of wrappers that were made. -/
def installed (r : Report) : Nat := r.entries.countP fun (_, result) => result.isOk

/-- The symbols that could not be wrapped. -/
def failures (r : Report) : List (String × Failure) :=
  r.entries.filterMap fun
    | (name, .error f) => some (name, f)
    | (_, .ok _) => none

/-- The wrappers that were made, with their names. -/
def wrappers (r : Report) : List (String × Handle) :=
  r.entries.filterMap fun
    | (name, .ok h) => some (name, h)
    | (_, .error _) => none

/-- Drops the wrappers of a report. -/
def drop {σ : Type} (host : Interface σ) (r : Report) (s : σ) : σ :=
  r.wrappers.foldl (fun s (_, h) => Wrapper.drop host h s) s

end Report

/-- The reserved name, the dictionary and the stream for failures. -/
structure Bridge where
  reservedName : String
  dictionary : Dictionary
  diagnostics : Diagnostics

namespace Bridge

variable {σ : Type} (host : Interface σ)

/-- Wraps one symbol under its name. What is no symbol or is stale goes by its handle. -/
def wrapSymbol (h : Handle) (s : σ) : (String × Except Failure Handle) × σ :=
  match host.symbolName s h with
  | .ok (some name) =>
    match Wrapper.new host h s with
    | (.ok _, s) => ((name, .ok h), s)
    | (.error e, s) => ((name, .error (.host e)), s)
  | .ok none =>
    let found := match host.typeOf s h with
      | .ok found => found
      | .error _ => "unknown"
    ((h.text, .error (.wrongType "symbol" found)), s)
  | .error e => ((h.text, .error (.host e)), s)

/-- Visits one symbol. A wrapper of the reserved symbol is dropped again and counted as skipped. -/
def visit (reserved : String) (r : Report) (h : Handle) (s : σ) : Report × σ :=
  match wrapSymbol host h s with
  | ((name, .ok h), s) =>
    if name = reserved then ({ r with skipped := r.skipped + 1 }, Wrapper.drop host h s)
    else ({ r with entries := r.entries ++ [(name, .ok h)] }, s)
  | ((name, .error f), s) => ({ r with entries := r.entries ++ [(name, .error f)] }, s)

/-- Wraps every symbol of the host but the reserved one. -/
def scan (reserved : String) (s : σ) : Report × σ :=
  (host.globalSymbols s).foldl (fun (r, s) h => visit host reserved r h s) (.empty, s)

/-- Installs the wrappers of a report; the last one of a name stays. -/
def install (r : Report) (d : Dictionary) (s : σ) : Dictionary × σ :=
  r.wrappers.foldl (fun (d, s) (name, h) => Dictionary.install host d name h s) (d, s)

/-- The diagnostic for a symbol that could not be wrapped. -/
def diagnostic (name : String) (f : Failure) : Diagnostic :=
  ⟨"installing symbol", name ++ ": " ++ f.message⟩

/-- Wraps the host's symbols, installs what could be wrapped and files what could not. The wrappers
of the report still exist afterwards. -/
def refresh (b : Bridge) (s : σ) : Report × Bridge × σ :=
  let (r, s) := scan host b.reservedName s
  let (dictionary, s) := install host r b.dictionary s
  let diagnostics := r.failures.foldl (fun d (name, f) => d.record (diagnostic name f)) b.diagnostics
  (r, { b with dictionary, diagnostics }, s)

end Bridge

end EditorScripting
