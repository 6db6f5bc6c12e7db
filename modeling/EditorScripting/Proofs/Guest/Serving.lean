import EditorScripting.Guest.Standalone
import EditorScripting.Proofs.Editor.References
import EditorScripting.Proofs.Guest.Tracks
import EditorScripting.Session.Stage

/-!
The editor as the host of an interpreter. Its state is found in the state of the surroundings, and
others may use it as well.
-/
namespace EditorScripting

open Host Guest

namespace Host.Editor

/-- The editor has been made on some buffer and used since. -/
def Reachable (e : Editor) : Prop := ∃ buffer ops, e = run buffer ops

theorem Reachable.apply {e : Editor} (he : e.Reachable) (op : Op) : (op.apply e).Reachable := by
  obtain ⟨buffer, ops, rfl⟩ := he
  exact ⟨buffer, ops ++ [op], (run_concat buffer ops op).symm⟩

theorem Reachable.referring {e : Editor} (he : e.Reachable) (hf : e.heap.Fits) : e.Referring := by
  obtain ⟨buffer, ops, rfl⟩ := he
  exact referring_run hf

variable {e : Editor} (he : e.Reachable) {text : String} (hf : (e.makeString text).2.heap.Fits)
include he hf

theorem Reachable.get?_makeString :
    (e.makeString text).2.heap.get? (e.makeString text).1 = some (.string text) :=
  get?_make hf (he.referring (Nat.le_trans (Op.size_le (.makeString text) e) hf))

/-- A string that is made is another object than nil. -/
theorem Reachable.makeString_ne_nil :
    (e.makeString text).1 ≠ (e.makeString text).2.nil := by
  have hstring := he.get?_makeString hf
  have hnil := ((he.apply (.makeString text)).referring hf).nil
  intro hsame
  rw [hsame] at hstring
  exact absurd (hstring.symm.trans hnil) (by simp)

theorem Reachable.stringValue_makeString :
    (e.makeString text).2.stringValue (e.makeString text).1 = .ok (some text) := by
  rw [stringValue, Heap.get_of_get? (he.get?_makeString hf)]
  rfl

/-- The handle of a string that is made was not in use. -/
theorem Reachable.makeString_fresh : e.heap.isLive (e.makeString text).1 = false := by
  have hr := he.referring (Nat.le_trans (Op.size_le (.makeString text) e) hf)
  exact Heap.isLive_eq_false_iff.mpr (Heap.slot?_alloc_fresh hr.heap hf)

end Host.Editor

namespace Guest.Surroundings

variable {σ : Type}

/-- The host is an editor. Whatever is asked of it and whatever happens elsewhere, the editor is
only used as editors are. -/
structure Serves (around : Surroundings σ) (editor : σ → Editor) : Prop where
  nil : ∀ s, around.host.nil s = (editor s).nil
  makeString : ∀ text s, (around.host.makeString text s).1 = ((editor s).makeString text).1 ∧
    editor (around.host.makeString text s).2 = ((editor s).makeString text).2
  stringValue : ∀ s h, around.host.stringValue s h = (editor s).stringValue h
  setWatchdog : ∀ w s, editor (around.setWatchdog w s) = editor s
  tracks : around.Tracks fun _ s => (editor s).Reachable

end Guest.Surroundings

/-- An interpreter has the editor as its host, whatever happens to the rest meanwhile. -/
theorem Guest.Standalone.serves_amid {meanwhile : Standalone → Standalone}
    (hm : ∀ s, (meanwhile s).editor = s.editor) :
    (Standalone.amid meanwhile).Serves Standalone.editor where
  nil _ := rfl
  makeString _ _ := ⟨rfl, rfl⟩
  stringValue _ _ := rfl
  setWatchdog _ _ := rfl
  tracks :=
    { host :=
        { intern text hs := hs.apply (.intern text)
          makeString text hs := hs.apply (.makeString text)
          funcall f hs := hs.apply (.funcall f)
          point hs := hs
          gotoChar n hs := hs.apply (.gotoChar n)
          setMark n hs := hs.apply (.setMark n)
          pin {_ s} h hs := by
            have hpin : (Standalone.host.pin h s).2.editor.Reachable := hs.apply (.pin h)
            split <;> rename_i hp <;> rw [show Standalone.host.pin h s = _ from hp] at hpin <;>
              exact hpin
          copy h hs _ := hs.apply (.pin h)
          unpin h hs := hs.apply (.unpin h) }
      meanwhile {_ s} hs := by
        have hsame : ((Standalone.amid meanwhile).meanwhile s).editor = s.editor := hm s
        rw [hsame]
        exact hs }

namespace Session.Stage

theorem reachable_point {s : Stage} (hs : s.editor.Reachable) : s.point.2.editor.Reachable := by
  have hcancel : ∀ s : Stage, s.hookedCancel.editor = s.editor := by
    intro s
    unfold hookedCancel
    split <;> rfl
  have hcollect : ∀ s : Stage, s.editor.Reachable → s.hookedCollect.editor.Reachable := by
    intro s hs
    unfold hookedCollect
    split
    · exact hs.apply .collect
    · exact hs
  unfold point
  refine hcollect _ ?_
  unfold hookedSleep
  dsimp only
  rw [hcancel]
  exact hs

theorem reachable_pin {s : Stage} (h : Handle) (hs : s.editor.Reachable) :
    (s.pin h).2.editor.Reachable := by
  unfold pin
  split
  · exact hs
  · exact hs.apply (.pin h)

/-- On the stage of a session, an interpreter has the editor as its host, be it with hooks. -/
theorem serves_around (name : String) : (around name).Serves editor where
  nil _ := rfl
  makeString _ _ := ⟨rfl, rfl⟩
  stringValue _ _ := rfl
  setWatchdog _ _ := rfl
  tracks :=
    { host :=
        { intern text hs := hs.apply (.intern text)
          makeString text hs := hs.apply (.makeString text)
          funcall f hs := hs.apply (.funcall f)
          point hs := reachable_point hs
          gotoChar n hs := hs.apply (.gotoChar n)
          setMark n hs := hs.apply (.setMark n)
          pin h hs := by
            have hpin := reachable_pin h hs
            split <;> rename_i hp <;> rw [show pin h _ = _ from hp] at hpin <;> exact hpin
          copy h hs _ := reachable_pin h hs
          unpin h hs := hs.apply (.unpin h) }
      meanwhile hs := hs }

end Session.Stage

end EditorScripting
