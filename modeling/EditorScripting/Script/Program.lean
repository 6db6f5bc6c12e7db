import EditorScripting.Script.Value
import EditorScripting.Watchdog

/-!
Running guest code as a dialogue with the world around it. The evaluator never touches a host, a
clock or a counter: it yields a program, a tree of requests whose branches are the answers, and
the world answers them one by one (`Program.run`). So whatever every answer preserves, every
program preserves (`Program.run_preserves`).
-/
namespace EditorScripting.Script

open Host

/-- Why the world does not allow a program to go on. -/
inductive Refusal where
  | tooManyOperations
  | stopped (reason : Stop)
deriving DecidableEq, Repr

/-- A running program with result of type `α`. A command of type `κ` asks the world for a value,
which it may refuse with a message. -/
inductive Program (κ : Type) (α : Type) where
  | done (result : α)
  /-- One more operation is about to begin. -/
  | step (next : Option Refusal → Program κ α)
  /-- An operation inside an operation is about to begin, `ahead` levels down. It is not counted. -/
  | probe (ahead : Nat) (next : Option Refusal → Program κ α)
  /-- A wrapper has been copied. -/
  | retain (h : Handle) (next : Program κ α)
  /-- A wrapper has been dropped. -/
  | release (h : Handle) (next : Program κ α)
  | ask (command : κ) (next : Except String Value → Program κ α)

namespace Program

variable {κ α β σ : Type}

def bind : Program κ α → (α → Program κ β) → Program κ β
  | done a, f => f a
  | step k, f => step fun r => (k r).bind f
  | probe n k, f => probe n fun r => (k r).bind f
  | retain h k, f => retain h (k.bind f)
  | release h k, f => release h (k.bind f)
  | ask c k, f => ask c fun r => (k r).bind f

instance : Monad (Program κ) where
  pure := done
  bind := bind

theorem bind_done (p : Program κ α) : p.bind done = p := by
  induction p with
  | done a => rfl
  | step k ih => exact congrArg step (funext ih)
  | probe n k ih => exact congrArg (probe n) (funext ih)
  | retain h k ih => exact congrArg (retain h) ih
  | release h k ih => exact congrArg (release h) ih
  | ask c k ih => exact congrArg (ask c) (funext ih)

theorem bind_assoc {γ : Type} (p : Program κ α) (f : α → Program κ β) (g : β → Program κ γ) :
    (p.bind f).bind g = p.bind fun a => (f a).bind g := by
  induction p with
  | done a => rfl
  | step k ih => exact congrArg step (funext ih)
  | probe n k ih => exact congrArg (probe n) (funext ih)
  | retain h k ih => exact congrArg (retain h) ih
  | release h k ih => exact congrArg (release h) ih
  | ask c k ih => exact congrArg (ask c) (funext ih)

end Program

/-- How a world with state `σ` answers requests. -/
structure World (κ σ : Type) where
  step : σ → Option Refusal × σ
  probe : Nat → σ → Option Refusal × σ
  retain : Handle → σ → σ
  release : Handle → σ → σ
  ask : κ → σ → Except String Value × σ

namespace Program

variable {κ α β σ : Type}

/-- Runs a program in a world. -/
def run (w : World κ σ) : Program κ α → σ → α × σ
  | done a, s => (a, s)
  | step k, s => let (r, s) := w.step s; (k r).run w s
  | probe n k, s => let (r, s) := w.probe n s; (k r).run w s
  | retain h k, s => k.run w (w.retain h s)
  | release h k, s => k.run w (w.release h s)
  | ask c k, s => let (r, s) := w.ask c s; (k r).run w s

/-- What every answer preserves holds after every run. -/
theorem run_preserves (w : World κ σ) (I : σ → Prop)
    (hstep : ∀ s, I s → I (w.step s).2) (hprobe : ∀ n s, I s → I (w.probe n s).2)
    (hretain : ∀ h s, I s → I (w.retain h s)) (hrelease : ∀ h s, I s → I (w.release h s))
    (hask : ∀ c s, I s → I (w.ask c s).2) (p : Program κ α) (s : σ) (hs : I s) :
    I (p.run w s).2 := by
  induction p generalizing s with
  | done => exact hs
  | step k ih => exact ih _ _ (hstep s hs)
  | probe n k ih => exact ih _ _ (hprobe n s hs)
  | retain h k ih => exact ih _ (hretain h s hs)
  | release h k ih => exact ih _ (hrelease h s hs)
  | ask c k ih => exact ih _ _ (hask c s hs)

/-- Running one program after another passes the state on. -/
theorem run_bind (w : World κ σ) (p : Program κ α) (f : α → Program κ β) (s : σ) :
    (p.bind f).run w s = (f (p.run w s).1).run w (p.run w s).2 := by
  induction p generalizing s with
  | done => rfl
  | step k ih => exact ih _ _
  | probe n k ih => exact ih _ _
  | retain h k ih => exact ih _
  | release h k ih => exact ih _
  | ask c k ih => exact ih _ _

end Program

end EditorScripting.Script
