import EditorScripting.Failure
import EditorScripting.Host.Interface

/-!
Guest-side wrappers of host values. A wrapper is known by the handle that it wraps: making one pins
the value, a copy adds a pin and dropping one takes a pin away, so that the host never reclaims a
value that the guest can still reach.
-/
namespace EditorScripting

open Host

/-- A host value as the guest receives it. -/
inductive Marshalled where
  | unit
  | integer (n : Int)
  | string (text : String)
  | object (handle : Handle)
deriving DecidableEq, Repr

namespace Wrapper

variable {σ : Type} (host : Interface σ)

/-- The guest's name for the type of wrappers. -/
def typeName : String := "LispObject"

/-- Makes a wrapper of a value; a stale handle cannot be wrapped. -/
def new (h : Handle) (s : σ) : Except HostError Unit × σ := host.pin h s

/-- Copies a wrapper. The copy exists even if its value cannot be pinned. -/
def copy (h : Handle) (s : σ) : σ := (host.pin h s).2

def drop (h : Handle) (s : σ) : σ := host.unpin h s

def kind (s : σ) (h : Handle) : Except HostError String := host.typeOf s h

def name (s : σ) (h : Handle) : Except HostError (Option String) := host.symbolName s h

def isCallable (s : σ) (h : Handle) : Except HostError Bool := host.isCallable s h

/-- How a wrapper is displayed: a symbol by its name, any other value in its printed form. -/
def display (s : σ) (h : Handle) : Except HostError String := do
  match ← name host s h with
  | some name => .ok (typeName ++ " symbol: " ++ name)
  | none => return typeName ++ ": '" ++ (← host.printed s h) ++ "'"

/-- The debugging view of a wrapper. -/
def debugText (h : Handle) : String :=
  typeName ++ " \x7b value: HostRef \x7b index: " ++ toString h.index.toNat ++ ", generation: " ++
    toString h.generation.toNat ++ " \x7d \x7d"

/-- Hands a host value to the guest: nil becomes unit, integers and strings become guest values,
and all else is wrapped. -/
def marshal (h : Handle) (s : σ) : Except HostError Marshalled × σ :=
  if h = host.nil s then (.ok .unit, s)
  else
    match host.integerValue s h with
    | .error e => (.error e, s)
    | .ok (some n) => (.ok (.integer n), s)
    | .ok none =>
      match host.stringValue s h with
      | .error e => (.error e, s)
      | .ok (some text) => (.ok (.string text), s)
      | .ok none =>
        match new host h s with
        | (.ok _, s) => (.ok (.object h), s)
        | (.error e, s) => (.error e, s)

/-- Calls the wrapped value without arguments and hands the result to the guest. -/
def invoke (h : Handle) (s : σ) : Except HostError Marshalled × σ :=
  match isCallable host s h with
  | .error e => (.error e, s)
  | .ok false =>
    match host.printed s h with
    | .ok text => (.error (.notCallable text), s)
    | .error e => (.error e, s)
  | .ok true =>
    match host.funcall h s with
    | (.ok result, s) => marshal host result s
    | (.error e, s) => (.error e, s)

end Wrapper

end EditorScripting
