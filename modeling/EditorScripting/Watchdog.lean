import EditorScripting.Text.Duration

/-!
Deadline and cancellation of a running evaluation. A watchdog is armed while an evaluation runs and
is polled between its operations. A cancel request takes effect only while the watchdog is armed,
so a request that comes too late never reaches the next evaluation.
-/
namespace EditorScripting

open Text

/-- Why an evaluation is stopped. -/
inductive Stop where
  | cancelled
  | timedOut
deriving DecidableEq, Repr

/-- The deadline is kept with the limit that it comes from. -/
structure Watchdog where
  armed : Bool
  cancelled : Bool
  deadline : Option (Nat × Duration)
deriving DecidableEq, Repr, Inhabited

namespace Watchdog

/-- Nothing runs, nothing is asked for. -/
def idle : Watchdog := ⟨false, false, none⟩

/-- Starts the clock of one evaluation. Time counts nanoseconds. -/
def arm (limit : Option Duration) (now : Nat) : Watchdog :=
  ⟨true, false, limit.map fun d => (now + d.nanoseconds, d)⟩

/-- Why the evaluation has to stop, if it has to. A cancel request comes before the deadline. -/
def check (w : Watchdog) (now : Nat) : Option Stop :=
  if w.cancelled then some .cancelled
  else match w.deadline with
    | some (time, _) => if time ≤ now then some .timedOut else none
    | none => none

/-- Asks for the evaluation to stop, and tells whether one is running. -/
def cancel (w : Watchdog) : Bool × Watchdog :=
  (w.armed, if w.armed then { w with cancelled := true } else w)

/-- The limit of the running evaluation. -/
def limit (w : Watchdog) : Duration := (w.deadline.map (·.2)).getD ⟨0⟩

end Watchdog

end EditorScripting
