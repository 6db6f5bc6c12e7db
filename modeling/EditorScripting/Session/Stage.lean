import Std.Data.TreeMap
import EditorScripting.Guest.Run

/-!
The stage of a session: the editor, the watchdogs of its interpreters, a clock, and hooks by which
the host can be made to misbehave. Interpreters see the editor through the hooks only.
-/
namespace EditorScripting.Session

open Host Guest

/-- How the host differs from the plain editor. -/
structure Hooks where
  /-- Handles that the host reports behind its table of symbols. -/
  extraSymbols : List Handle
  /-- Handles that the host fails to pin. -/
  pinFails : List Handle
  /-- The interpreter that is asked to stop whenever the host is asked for point. -/
  cancelOnPoint : Option String
  /-- The time in milliseconds that the host takes to tell point. -/
  sleepOnPoint : Nat
  /-- The host collects garbage whenever it is asked for point. -/
  collectOnPoint : Bool
deriving Repr

/-- The host is the plain editor. -/
def Hooks.none : Hooks := ⟨[], [], .none, 0, false⟩

structure Stage where
  editor : Editor
  hooks : Hooks
  /-- How often the host was asked for point since the hooks were set. -/
  pointCalls : Nat
  /-- The answers to the requests to stop since then. -/
  cancelResults : List Bool
  /-- The time in nanoseconds. -/
  clock : Nat
  watchdogs : Std.TreeMap String Watchdog

namespace Stage

def ofEditor (editor : Editor) : Stage := ⟨editor, .none, 0, [], 0, ∅⟩

/-- Sets hooks in place of the old ones, and starts the log anew. -/
def withHooks (hooks : Hooks) (s : Stage) : Stage :=
  { s with hooks, pointCalls := 0, cancelResults := [] }

/-- A change of the editor alone. -/
def onEditor {α : Type} (f : Editor → α × Editor) (s : Stage) : α × Stage :=
  let (a, editor) := f s.editor
  (a, { s with editor })

def watchdog (s : Stage) (name : String) : Watchdog := (s.watchdogs[name]?).getD .idle

def setWatchdog (name : String) (w : Watchdog) (s : Stage) : Stage :=
  { s with watchdogs := s.watchdogs.insert name w }

/-- Asks an interpreter to stop, and tells whether it is evaluating. -/
def cancel (name : String) (s : Stage) : Bool × Stage :=
  let (answer, w) := (s.watchdog name).cancel
  (answer, s.setWatchdog name w)

/-- Asks the interpreter that the hooks name to stop. -/
def hookedCancel (s : Stage) : Stage :=
  match s.hooks.cancelOnPoint with
  | some name =>
    let (answer, s) := s.cancel name
    { s with cancelResults := s.cancelResults ++ [answer] }
  | none => s

/-- Lets the time of the hooks pass. -/
def hookedSleep (s : Stage) : Stage :=
  { s with clock := s.clock + s.hooks.sleepOnPoint * 1000000 }

/-- Collects garbage if the hooks say so. -/
def hookedCollect (s : Stage) : Stage :=
  if s.hooks.collectOnPoint then (s.onEditor (·.collect)).2 else s

/-- The host's answer for point, with the hooks before it. -/
def point (s : Stage) : Int × Stage :=
  let s := { s with pointCalls := s.pointCalls + 1 }
  let s := s.hookedCancel.hookedSleep.hookedCollect
  (s.editor.buffer.point, s)

def globalSymbols (s : Stage) : List Handle := s.editor.globalSymbols ++ s.hooks.extraSymbols

def pin (h : Handle) (s : Stage) : Except HostError Unit × Stage :=
  if h ∈ s.hooks.pinFails then (.error (.reclaimed h), s) else s.onEditor (·.pin h)

def host : Interface Stage where
  globalSymbols := globalSymbols
  intern name := onEditor (·.intern name)
  nil s := s.editor.nil
  makeString text := onEditor (·.makeString text)
  typeOf s := s.editor.typeOf
  symbolName s := s.editor.symbolName
  stringValue s := s.editor.stringValue
  integerValue s := s.editor.integerValue
  printed s := s.editor.printed
  pin := pin
  unpin h s := { s with editor := s.editor.unpin h }
  isCallable s := s.editor.isCallable
  funcall f := onEditor (·.funcall f)
  point := point
  pointMin s := s.editor.buffer.pointMin
  pointMax s := s.editor.buffer.pointMax
  mark s := s.editor.buffer.mark.map fun n => (n : Int)
  gotoChar n s := let (p, s) := onEditor (·.gotoChar n) s; (p, s)
  setMark n s := let (p, s) := onEditor (·.setMark n) s; (p, s)

/-- What surrounds the interpreter of a name. -/
def around (name : String) : Surroundings Stage where
  host
  watchdog s := s.watchdog name
  setWatchdog := setWatchdog name
  now := clock
  meanwhile := id

end Stage

end EditorScripting.Session
