import EditorScripting.Guest.Run

/-!
An editor with a single interpreter. While it evaluates, time may pass and it may be asked to stop;
with nothing around it, neither happens.
-/
namespace EditorScripting.Guest

open Host

structure Standalone where
  editor : Editor
  watchdog : Watchdog
  /-- The time in nanoseconds. -/
  clock : Nat

namespace Standalone

def ofEditor (e : Editor) : Standalone := ⟨e, .idle, 0⟩

/-- A change of the editor alone. -/
def onEditor {α : Type} (f : Editor → α × Editor) (s : Standalone) : α × Standalone :=
  let (a, editor) := f s.editor
  (a, { s with editor })

def host : Interface Standalone where
  globalSymbols s := s.editor.globalSymbols
  intern name := onEditor (·.intern name)
  nil s := s.editor.nil
  makeString text := onEditor (·.makeString text)
  typeOf s := s.editor.typeOf
  symbolName s := s.editor.symbolName
  stringValue s := s.editor.stringValue
  integerValue s := s.editor.integerValue
  printed s := s.editor.printed
  pin h := onEditor (·.pin h)
  unpin h s := { s with editor := s.editor.unpin h }
  isCallable s := s.editor.isCallable
  funcall f := onEditor (·.funcall f)
  point s := (s.editor.buffer.point, s)
  pointMin s := s.editor.buffer.pointMin
  pointMax s := s.editor.buffer.pointMax
  mark s := s.editor.buffer.mark.map fun n => (n : Int)
  gotoChar n s := let (p, s) := onEditor (·.gotoChar n) s; (p, s)
  setMark n s := let (p, s) := onEditor (·.setMark n) s; (p, s)

/-- What surrounds the interpreter if this happens before each operation. -/
def amid (meanwhile : Standalone → Standalone) : Surroundings Standalone where
  host
  watchdog := watchdog
  setWatchdog w s := { s with watchdog := w }
  now := clock
  meanwhile

/-- Nothing happens but what the interpreter does. -/
def around : Surroundings Standalone := amid id

end Standalone

end EditorScripting.Guest
