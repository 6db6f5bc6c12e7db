import EditorScripting.Proofs.Buffer.Moves
import EditorScripting.Proofs.Editor.Variables

/-!
The buffer of an editor. Symbols, values and calls have no effect on it, so whatever happens to the
editor, no more happens to the buffer than moves.
-/
namespace EditorScripting.Host.Editor

theorem buffer_intern (e : Editor) (name : String) : (e.intern name).2.buffer = e.buffer := by
  unfold intern
  split <;> rfl

theorem buffer_make (e : Editor) (v : Object) : (e.make v).2.buffer = e.buffer := by
  cases v <;> rfl

theorem buffer_setVariable (e : Editor) (name : String) (v : Object) :
    (e.setVariable name v).2.buffer = e.buffer :=
  (buffer_intern (e.make v).2 name).trans (buffer_make e v)

theorem buffer_funcall (e : Editor) (f : Handle) : (e.funcall f).2.buffer = e.buffer := by
  unfold funcall
  split
  · exact buffer_make e _
  · rfl

theorem buffer_definePrimitives (e : Editor) (ps : List Primitive) :
    (ps.foldl definePrimitive e).buffer = e.buffer := by
  induction ps generalizing e with
  | nil => rfl
  | cons p ps ih =>
    have hone : (e.definePrimitive p).buffer = e.buffer := buffer_intern _ p.name
    exact (ih (e.definePrimitive p)).trans hone

/-- Moves concern point and mark, and nothing else concerns the buffer. -/
theorem Op.leads (op : Op) (e : Editor) : e.buffer.Leads (op.apply e).buffer := by
  cases op with
  | intern name => exact .of_eq (buffer_intern e name)
  | setVariable name v => exact .of_eq (buffer_setVariable e name v)
  | makeString text => exact .of_eq (buffer_make e _)
  | funcall f => exact .of_eq (buffer_funcall e f)
  | gotoChar n => exact .gotoChar e.buffer n
  | setMark n => exact .setMark e.buffer n
  | unintern | pin | unpin | collect => exact .of_eq rfl

theorem leads_foldl (e : Editor) (ops : List Op) :
    e.buffer.Leads (ops.foldl Op.apply e).buffer := by
  induction ops generalizing e with
  | nil => exact .refl _
  | cons op ops ih => exact (op.leads e).trans (ih (op.apply e))

theorem leads_run (buffer : Buffer) (ops : List Op) : buffer.Leads (run buffer ops).buffer := by
  have hprimitives : (Primitive.all.foldl definePrimitive (bare buffer)).buffer = buffer :=
    buffer_definePrimitives (bare buffer) Primitive.all
  have hrun := leads_foldl (Primitive.all.foldl definePrimitive (bare buffer))
    ((presets buffer).drop 2 ++ ops)
  rwa [hprimitives, ← run_eq] at hrun

/-- After any run the text is the one that the editor was made with. -/
theorem text_run (buffer : Buffer) (ops : List Op) :
    (run buffer ops).buffer.text = buffer.text := (leads_run buffer ops).text

/-- Point and mark are in the text after any run. -/
theorem placed_run {buffer : Buffer} (hb : buffer.Placed) (ops : List Op) :
    (run buffer ops).buffer.Placed := (leads_run buffer ops).placed hb

end EditorScripting.Host.Editor
