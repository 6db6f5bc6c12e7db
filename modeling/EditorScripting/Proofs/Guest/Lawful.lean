import EditorScripting.Proofs.Guest.Tracks
import EditorScripting.Proofs.Table
import EditorScripting.Session.Stage

/-!
What an interpreter relies on about its surroundings. Others may ask an evaluation to stop at any
moment, and the watchdog is the interpreter's own otherwise.
-/
namespace EditorScripting

open Host Guest

/-- A watchdog is left alone, or is asked to stop what it watches. -/
def Watchdog.Asked (w w' : Watchdog) : Prop := w' = w ∨ w' = w.cancel.2

theorem Watchdog.Asked.deadline {w w' : Watchdog} (ha : w.Asked w') : w'.deadline = w.deadline := by
  rcases ha with rfl | rfl
  · rfl
  · unfold cancel
    dsimp only
    split <;> rfl

/-- A request takes none back. -/
theorem Watchdog.cancelled_cancel {w : Watchdog} (hw : w.cancelled = true) :
    w.cancel.2.cancelled = true := by
  unfold cancel
  dsimp only
  split
  · rfl
  · exact hw

namespace Guest.Surroundings

variable {σ : Type}

/-- A change of the surroundings does no more to the watchdog than to ask it to stop. -/
def Spares (around : Surroundings σ) (f : σ → σ) : Prop :=
  ∀ s, (around.watchdog s).Asked (around.watchdog (f s))

/-- The watchdog belongs to the interpreter: the host and all others may ask it to stop, at any
time, and can do nothing else to it. -/
structure Lawful (around : Surroundings σ) : Prop where
  watchdog_setWatchdog : ∀ w s, around.watchdog (around.setWatchdog w s) = w
  meanwhile : around.Spares around.meanwhile
  intern : ∀ name, around.Spares fun s => (around.host.intern name s).2
  makeString : ∀ text, around.Spares fun s => (around.host.makeString text s).2
  pin : ∀ h, around.Spares fun s => (around.host.pin h s).2
  unpin : ∀ h, around.Spares (around.host.unpin h)
  funcall : ∀ f, around.Spares fun s => (around.host.funcall f s).2
  point : around.Spares fun s => (around.host.point s).2
  gotoChar : ∀ n, around.Spares fun s => (around.host.gotoChar n s).2
  setMark : ∀ n, around.Spares fun s => (around.host.setMark n s).2

/-- The deadline stays the same while an evaluation runs. -/
theorem Lawful.tracks_deadline {around : Surroundings σ} (hl : around.Lawful)
    (d : Option (Nat × Text.Duration)) :
    around.Tracks fun _ s => (around.watchdog s).deadline = d where
  host :=
    { intern name hb := (hl.intern name _).deadline.trans hb
      makeString text hb := (hl.makeString text _).deadline.trans hb
      funcall f hb := (hl.funcall f _).deadline.trans hb
      point hb := (hl.point _).deadline.trans hb
      gotoChar n hb := (hl.gotoChar n _).deadline.trans hb
      setMark n hb := (hl.setMark n _).deadline.trans hb
      pin h hb := by
        have hpin := (hl.pin h _).deadline.trans hb
        dsimp only at hpin
        split <;> rename_i hp <;> rw [hp] at hpin <;> exact hpin
      copy h hb _ := (hl.pin h _).deadline.trans hb
      unpin h hb := (hl.unpin h _).deadline.trans hb }
  meanwhile hb := (hl.meanwhile _).deadline.trans hb

end Guest.Surroundings

namespace Session.Stage

theorem asked_cancel (name other : String) (s : Stage) :
    (s.watchdog name).Asked ((s.cancel other).2.watchdog name) := by
  unfold cancel setWatchdog watchdog
  dsimp only
  rw [Std.TreeMap.getElem?_insert]
  split
  · rename_i he
    obtain rfl := Std.LawfulEqCmp.eq_of_compare he
    exact .inr rfl
  · exact .inl rfl

/-- Hooks may ask any interpreter to stop. -/
theorem asked_point (name : String) (s : Stage) :
    (s.watchdog name).Asked (s.point.2.watchdog name) := by
  have hcollect : ∀ s : Stage, s.hookedCollect.watchdog name = s.watchdog name := by
    intro s
    unfold hookedCollect
    split <;> rfl
  have hpoint : s.point.2.watchdog name =
      ({ s with pointCalls := s.pointCalls + 1 } : Stage).hookedCancel.hookedSleep.watchdog name :=
    hcollect _
  rw [hpoint]
  unfold hookedCancel
  dsimp only
  split
  · exact asked_cancel name _ s
  · exact .inl rfl

/-- On the stage of a session, an interpreter has its watchdog for itself. -/
theorem lawful_around (name : String) : (around name).Lawful := by
  have hsame : ∀ s s' : Stage, s'.watchdogs = s.watchdogs →
      ((around name).watchdog s).Asked ((around name).watchdog s') := by
    intro s s' he
    refine .inl ?_
    unfold around watchdog
    dsimp only
    rw [he]
  refine ⟨?_, ?_, ?_, ?_, ?_, ?_, ?_, ?_, ?_, ?_⟩
  · intro w s
    simp [around, watchdog, setWatchdog]
  · exact fun s => hsame s s rfl
  · exact fun _ s => hsame s _ rfl
  · exact fun _ s => hsame s _ rfl
  · intro h s
    refine hsame s _ ?_
    unfold around host pin
    dsimp only
    split <;> rfl
  · exact fun _ s => hsame s _ rfl
  · exact fun _ s => hsame s _ rfl
  · exact asked_point name
  · exact fun _ s => hsame s _ rfl
  · exact fun _ s => hsame s _ rfl

end Session.Stage

end EditorScripting
