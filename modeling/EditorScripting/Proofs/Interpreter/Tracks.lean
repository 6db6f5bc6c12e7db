import EditorScripting.Proofs.Guest.Tracks
import EditorScripting.Proofs.Interpreter.Phases
import EditorScripting.Proofs.Script.Wrappers

/-!
Which wrappers exist in the course of an evaluation, and after each thing that an interpreter does.
-/
namespace EditorScripting.Interpreter

open Host Script Guest

variable {σ : Type}

/-- The wrappers that an interpreter owns: those of its dictionary and those in its globals. -/
def handles (i : Interpreter) : List Handle := i.dictionary.handles ++ bindingHandles i.globals

/-- All interpreters that start with some settings are alike. -/
theorem eq_of_start {settings : Settings} {i : Interpreter} (hi : start settings = .ok i) :
    i = {
      settings
      bridge := {
        reservedName := settings.reservedName
        dictionary := ∅
        diagnostics := Diagnostics.empty settings.diagnosticsCapacity.toNat }
      globals := [⟨"version", .string version, true⟩] } := by
  unfold start at hi
  cases hc : conversion settings with
  | error f =>
    rw [hc] at hi
    cases hi
  | ok body =>
    rw [hc] at hi
    exact (Except.ok.inj hi).symm

/-- A new interpreter owns no wrapper. -/
theorem handles_start {settings : Settings} {i : Interpreter} (hi : start settings = .ok i) :
    i.handles = [] := by
  rw [eq_of_start hi]
  rfl

theorem handles_withDiagnostics (i : Interpreter) (d : Diagnostics) :
    (i.withDiagnostics d).handles = i.handles := rfl

/-- Filing a failure concerns the stream of failures alone. -/
theorem handles_filing {α : Type} (r : Except Failure α) (i : Interpreter) :
    (filing r i).2.handles = i.handles := by
  cases r with
  | ok a => rfl
  | error f => rfl

/-- Moves the wrappers of the globals to all the others. -/
theorem handles_add (i : Interpreter) (m : Multiset Handle) :
    (i.handles + m : Multiset Handle) = i.dictionary.handles + (bindingHandles i.globals + m) := by
  rw [handles, ← Multiset.coe_add, add_assoc]

section

variable {around : Surroundings σ} {B : Multiset Handle → σ → Prop} (ht : around.Tracks B)
  {i : Interpreter} {source : String} {s : σ} {m : Multiset Handle}
include ht

/-- Whatever an evaluation goes through, the account of the wrappers is right. -/
theorem accounts_during (hfresh : (fresh around i s).Accounts B m)
    (hglobals : ∀ h ∈ bindingHandles i.globals, h ∈ m) {r : Running σ}
    (hr : During around i source s r) : r.Accounts B m := by
  have hgive : ∀ hs : List Handle, (∀ h ∈ hs, h ∈ m) →
      Running.Accounts B m (hs.foldl (fun r h => r.give around h) (fresh around i s)) :=
    fun hs hm => Running.accounts_gives ht hfresh fun h hh =>
      Multiset.mem_add.mpr (.inr (hm h hh))
  have hphases := keeps_phases around i source s (I := Running.Accounts B m)
    (Running.keeps_accounts ht _) (fun _ hr => hr) (hgive _ hglobals)
  cases hr with
  | equipping he => exact hgive _ fun h hh => hglobals h (by rw [he]; simp [hh])
  | running hp hv => exact hv.keeps (Running.keeps_accounts ht _) (hphases.1 _ _ _ hp)
  | @releasing hs rest he =>
    have hend := hphases.2
    generalize (outcome around i source s).2 = r at he hend ⊢
    unfold Running.Accounts at hend ⊢
    rw [he, ← Multiset.coe_add, add_assoc, add_left_comm] at hend
    exact Wrapper.tracks_drops ht.host.new hend

/-- After an evaluation the guest holds nothing any more. -/
theorem tracks_releaseAll (source : String) (hfresh : (fresh around i s).Accounts B m)
    (hglobals : ∀ h ∈ bindingHandles i.globals, h ∈ m) :
    B ((outcome around i source s).2.bridge.dictionary.handles + m)
      ((outcome around i source s).2.releaseAll around).shared := by
  have hreleased : During around i source s _ := .releasing (List.append_nil _).symm
  have hend := accounts_during ht hfresh hglobals hreleased
  simpa [Running.Accounts, Running.releaseAll] using hend

omit ht in
/-- An evaluation never changes the globals. -/
theorem globals_evaluate (around : Surroundings σ) (i : Interpreter) (source : String) (s : σ) :
    (i.evaluate around source s).2.1.globals = i.globals := by
  rw [evaluate_eq]
  dsimp only
  unfold filing
  cases (outcome around i source s).1 with
  | ok text => rfl
  | error f => rfl

variable (hset : ∀ {m s} w, B m s → B m (around.setWatchdog w s))
include hset

omit ht in
theorem accounts_fresh (hb : B (i.handles + m) s) :
    (fresh around i s).Accounts B (bindingHandles i.globals + m) := by
  rw [handles_add] at hb
  have hidle := hset (Watchdog.arm i.settings.timeout (around.now s)) hb
  simpa [Running.Accounts, fresh, dictionary] using hidle

theorem tracks_evaluate (hb : B (i.handles + m) s) :
    B ((i.evaluate around source s).2.1.handles + m) (i.evaluate around source s).2.2 := by
  have hend := tracks_releaseAll ht source (accounts_fresh hset hb) fun h hh => by
    simp [hh]
  rw [evaluate_eq]
  dsimp only
  rw [handles_filing, handles_add]
  exact hset _ hend

theorem tracks_evaluateExpression (h : Handle) (hb : B (i.handles + m) s) :
    B ((i.evaluateExpression around h s).2.1.handles + m)
      (i.evaluateExpression around h s).2.2 := by
  refine evaluateExpression_keeps around i s h (Q := fun j t => B (j.handles + m) t) ?_ ?_ ?_
  · intro f
    rw [handles_filing]
    exact hb
  · intro source
    exact tracks_evaluate ht hset hb
  · intro text j t hj
    exact ht.host.makeString text hj

end

section

variable {around : Surroundings σ} {B : Multiset Handle → σ → Prop} (ht : around.host.Tracks B)
  {i : Interpreter} {s : σ} {m : Multiset Handle}
include ht

/-- After a refresh the wrappers of the report exist as well. -/
theorem tracks_refresh (hb : B (i.handles + m) s) :
    B ((i.refresh around s).2.1.handles + ((i.refresh around s).1.handles + m))
      (i.refresh around s).2.2 := by
  rw [handles_add] at hb
  have hrefresh := Bridge.tracks_refresh ht hb
  rw [handles_add, add_left_comm (bindingHandles _ : Multiset Handle)]
  exact hrefresh

theorem tracks_drop (hb : B (i.handles + m) s) : B m (i.drop around s) := by
  rw [handles_add] at hb
  exact Wrapper.tracks_drops ht.new (Dictionary.tracks_clear ht.new hb)

end

/-! Global variables. -/

theorem bindingHandles_cons (b : Binding) (globals : List Binding) :
    bindingHandles (b :: globals) = b.value.handles ++ bindingHandles globals := rfl

/-- The new value joins the globals, and what it replaces leaves them. -/
theorem bindingHandles_bind (name : String) (v : Value) (globals : List Binding) :
    (bindingHandles (bind name v globals).1 +
        ((bind name v globals).2.map Value.handles).getD [] : Multiset Handle) =
      v.handles + bindingHandles globals := by
  unfold bind
  split
  · rename_i n old hf
    exact scopeWrappers_store hf
  · simp [bindingHandles_cons]

/-- A global takes over the wrappers of its value. -/
theorem tracks_defineGlobal {around : Surroundings σ} {B : Multiset Handle → σ → Prop}
    (ht : around.host.Tracks B) {i : Interpreter} {s : σ} {m : Multiset Handle} (name : String)
    (v : Value) (hb : B (v.handles + (i.handles + m)) s) :
    B ((i.defineGlobal around name v s).1.handles + m) (i.defineGlobal around name v s).2 := by
  rw [handles_add, add_left_comm, ← add_assoc (v.handles : Multiset Handle),
    ← bindingHandles_bind name v i.globals,
    add_comm (bindingHandles (bind name v i.globals).1 : Multiset Handle), add_assoc,
    add_left_comm] at hb
  rw [handles_add]
  exact Wrapper.tracks_drops ht.new hb

end EditorScripting.Interpreter
