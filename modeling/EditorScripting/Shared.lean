import EditorScripting.Interpreter

/-!
The interpreter that a whole process shares, with the host that it was made for. It is installed
once; from then on everybody reaches the same one.
-/
namespace EditorScripting

open Host Guest

/-- An interpreter with its host. -/
structure Installed (σ : Type) where
  around : Surroundings σ
  interpreter : Interpreter

/-- The place of the shared interpreter, which is empty at first. The hosts of the process all live
in one state. -/
structure Shared (σ : Type) where
  installed : Option (Installed σ)

namespace Shared

variable {σ : Type}

def empty : Shared σ := ⟨none⟩

/-- Installs a new interpreter for a host. The second installation fails, and an interpreter that
cannot be started is not installed. -/
def initializeOnce (around : Surroundings σ) (settings : Settings) (p : Shared σ) :
    Except Failure (Installed σ) × Shared σ :=
  match p.installed with
  | some _ => (.error .alreadyInitialized, p)
  | none =>
    match Interpreter.start settings with
    | .ok i => (.ok ⟨around, i⟩, ⟨some ⟨around, i⟩⟩)
    | .error f => (.error f, p)

/-- The shared interpreter, if there is one. -/
def global (p : Shared σ) : Option (Installed σ) := p.installed

/-- Lets the shared interpreter work on its host, if there is one. -/
def withInstalled {α : Type} (p : Shared σ) (s : σ)
    (f : Surroundings σ → Interpreter → σ → α × Interpreter × σ) : Option α × Shared σ × σ :=
  match p.installed with
  | some ⟨around, i⟩ =>
    let (a, i, s) := f around i s
    (some a, ⟨some ⟨around, i⟩⟩, s)
  | none => (none, p, s)

/-- Evaluates the expression in a host string. -/
def evaluateExpression (h : Handle) (p : Shared σ) (s : σ) : Option Handle × Shared σ × σ :=
  p.withInstalled s fun around i => i.evaluateExpression around h

/-- Wraps and installs the symbols of the host, and returns how many were wrapped. -/
def refresh (p : Shared σ) (s : σ) : Option Nat × Shared σ × σ :=
  p.withInstalled s fun around i s =>
    let (report, i, s) := i.refresh around s
    (report.installed, i, report.drop around.host s)

/-- Takes all entries out of the stream of failures. -/
def drain (p : Shared σ) (s : σ) : Option (List Diagnostic) × Shared σ × σ :=
  p.withInstalled s fun _ i s =>
    let (entries, d) := i.diagnostics.drain
    (entries, i.withDiagnostics d, s)

end Shared

end EditorScripting
