import EditorScripting.Script.Program

/-!
The states that the world goes through while a program runs.
-/
namespace EditorScripting.Script

variable {κ α σ : Type}

/-- A property of states that the world keeps whatever it is asked. -/
structure World.Keeps (w : World κ σ) (I : σ → Prop) : Prop where
  step : ∀ s, I s → I (w.step s).2
  probe : ∀ n s, I s → I (w.probe n s).2
  retain : ∀ h s, I s → I (w.retain h s)
  release : ∀ h s, I s → I (w.release h s)
  ask : ∀ c s, I s → I (w.ask c s).2

namespace Program

/-- The world is in some state before or after an answer in a run of a program. -/
inductive Visits (w : World κ σ) : Program κ α → σ → σ → Prop
  | here {p s} : Visits w p s s
  | step {k s s'} : Visits w (k (w.step s).1) (w.step s).2 s' → Visits w (.step k) s s'
  | probe {n k s s'} : Visits w (k (w.probe n s).1) (w.probe n s).2 s' → Visits w (.probe n k) s s'
  | retain {h k s s'} : Visits w k (w.retain h s) s' → Visits w (.retain h k) s s'
  | release {h k s s'} : Visits w k (w.release h s) s' → Visits w (.release h k) s s'
  | ask {c k s s'} : Visits w (k (w.ask c s).1) (w.ask c s).2 s' → Visits w (.ask c k) s s'

/-- What the world keeps holds in every state that a run goes through. -/
theorem Visits.keeps {w : World κ σ} {I : σ → Prop} (hw : w.Keeps I) {p : Program κ α} {s s' : σ}
    (hv : p.Visits w s s') (hs : I s) : I s' := by
  induction hv with
  | here => exact hs
  | step _ ih => exact ih (hw.step _ hs)
  | probe _ ih => exact ih (hw.probe _ _ hs)
  | retain _ ih => exact ih (hw.retain _ _ hs)
  | release _ ih => exact ih (hw.release _ _ hs)
  | ask _ ih => exact ih (hw.ask _ _ hs)

/-- What a program goes through, it goes through with another one behind it. -/
theorem Visits.bind {β : Type} {w : World κ σ} {p : Program κ α} {s s' : σ} (hv : p.Visits w s s')
    (f : α → Program κ β) : (p.bind f).Visits w s s' := by
  induction hv with
  | here => exact .here
  | step _ ih => exact .step ih
  | probe _ ih => exact .probe ih
  | retain _ ih => exact .retain ih
  | release _ ih => exact .release ih
  | ask _ ih => exact .ask ih

/-- The second of two programs goes on where the first one ends. -/
theorem Visits.of_run {β : Type} {w : World κ σ} {p : Program κ α} {f : α → Program κ β} {s s' : σ}
    (hv : (f (p.run w s).1).Visits w (p.run w s).2 s') : (p.bind f).Visits w s s' := by
  induction p generalizing s with
  | done a => exact hv
  | step k ih => exact .step (ih _ hv)
  | probe n k ih => exact .probe (ih _ hv)
  | retain h k ih => exact .retain (ih hv)
  | release h k ih => exact .release (ih hv)
  | ask c k ih => exact .ask (ih _ hv)

theorem visits_run (w : World κ σ) (p : Program κ α) (s : σ) : p.Visits w s (p.run w s).2 := by
  induction p generalizing s with
  | done a => exact .here
  | step k ih => exact .step (ih _ _)
  | probe n k ih => exact .probe (ih _ _)
  | retain h k ih => exact .retain (ih _)
  | release h k ih => exact .release (ih _)
  | ask c k ih => exact .ask (ih _ _)

/-- From each state of a run, what is left of the program leads to the same end. -/
theorem Visits.rest {w : World κ σ} {p : Program κ α} {s s' : σ} (hv : p.Visits w s s') :
    ∃ q : Program κ α, q.run w s' = p.run w s := by
  induction hv with
  | @here p s => exact ⟨p, rfl⟩
  | step _ ih => exact ih
  | probe _ ih => exact ih
  | retain _ ih => exact ih
  | release _ ih => exact ih
  | ask _ ih => exact ih

theorem run_keeps {w : World κ σ} {I : σ → Prop} (hw : w.Keeps I) (p : Program κ α) {s : σ}
    (hs : I s) : I (p.run w s).2 := (visits_run w p s).keeps hw hs

end Program

end EditorScripting.Script
