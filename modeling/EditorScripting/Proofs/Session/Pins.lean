import Mathlib.Data.List.Induction
import Mathlib.Data.List.Infix
import EditorScripting.Proofs.Session.Tracks

/-!
Pins in runs of a session. In every state that a run reaches, in the midst of evaluations too, a
handle is pinned once for each wrapper of it and once for each pin from outside that has not been
taken back.
-/
namespace EditorScripting.Session

open Host Script

/-- The pins of the editor are those from outside that have not been taken back and one for each
wrapper, and every wrapper can be used. -/
structure Stage.Exact (pins unpins wrappers : Multiset Handle) (s : Stage) : Prop where
  pinCount : ∀ h,
    s.editor.heap.pinCount h = pins.count h - unpins.count h + wrappers.count h
  usable : ∀ h ∈ wrappers, s.Usable h

theorem Stage.Balanced.exact {pins unpins wrappers : Multiset Handle} {s : Stage}
    (hb : s.Balanced (wrappers + (pins - unpins))) (hf : s.editor.heap.Fits) :
    s.Exact pins unpins wrappers := by
  obtain ⟨hs, hp⟩ := hb.2 hf
  refine ⟨fun h => ?_, fun h hm => ?_⟩
  · rw [hp, Multiset.count_add, Multiset.count_sub, Nat.add_comm]
  · exact Stage.usable_of_live hb.1 hs (hb.2.live hf (Multiset.mem_add.mpr (.inl hm)))

/-- What can happen to a session. -/
inductive Act where
  -- the editor by itself
  | intern (name : String)
  | setVariable (name : String) (value : Object)
  | makeString (text : String)
  | unintern (name : String)
  | funcall (h : Handle)
  | gotoChar (position : Int)
  | setMark (position : Int)
  | collect
  -- pins from outside
  | pin (h : Handle)
  | unpin (h : Handle)
  -- wrappers that are kept by name, and values on their way to the guest
  | wrap (h : Handle) (key : String)
  | copy (h : Handle) (key : String)
  | drop (key : String)
  | invoke (h : Handle)
  | marshal (h : Handle)
  -- interpreters
  | start (name : String) (settings : Settings)
  | stop (name : String)
  | evaluate (name source : String)
  | evaluateExpression (name : String) (h : Handle)
  | refresh (name : String) (keep : Option String)
  | dropReport (key : String)
  | lookUp (name symbol : String)
  | mapKeys (name : String)
  | defineGlobal (name key : String) (value : Value)
  | drain (name : String)
  | cancel (name : String)
  /-- What the host does when it is asked for point, and what it reports behind its symbols. -/
  | hooks (hooks : Hooks)

/-- The session after something that takes place only if there is such an interpreter. -/
def orSame {α : Type} (s : Session) (r : Option (α × Session)) : Session := (r.map (·.2)).getD s

/-- The session after an act. Only what is wrapped already can be copied or be part of a global
variable, and the host never fails at pins by intent. -/
def after (s : Session) : Act → Session
  | .intern name => (s.onEditor (·.intern name)).2
  | .setVariable name value => (s.onEditor (·.setVariable name value)).2
  | .makeString text => (s.onEditor (·.makeString text)).2
  | .unintern name => (s.onEditor (·.unintern name)).2
  | .funcall h => (s.onEditor (·.funcall h)).2
  | .gotoChar position => (s.onEditor (·.gotoChar position)).2
  | .setMark position => (s.onEditor (·.setMark position)).2
  | .collect => (s.onEditor (·.collect)).2
  | .pin h => (s.onEditor (·.pin h)).2
  | .unpin h => s.mapStage fun stage => { stage with editor := stage.editor.unpin h }
  | .wrap h key => (s.wrap h key).2
  | .copy h key => if h ∈ s.wrappers then s.copyObject h key else s
  | .drop key => (s.dropObject key).2
  | .invoke h => (s.invoke h).2
  | .marshal h => (s.marshal h).2
  | .start name settings => (s.start name settings).2
  | .stop name => (s.stop name).2
  | .evaluate name source => s.orSame (s.evaluate name source)
  | .evaluateExpression name h => s.orSame (s.evaluateExpression name h)
  | .refresh name keep => s.orSame (s.refresh name keep)
  | .dropReport key => (s.dropReport key).2
  | .lookUp name symbol => s.orSame (s.lookUp name symbol)
  | .mapKeys name => s.orSame (s.mapKeys name)
  | .defineGlobal name key value =>
    if ∀ h ∈ value.handles, h ∈ s.wrappers then s.orSame (s.defineGlobal name key value) else s
  | .drain name => s.orSame (s.drain name)
  | .cancel name => (s.cancel name).2
  | .hooks hooks => s.mapStage (Stage.withHooks { hooks with pinFails := [] })

section

variable {m : Multiset Handle} {s : Session}

theorem accounted_orSame {α : Type} {r : Option (α × Session)}
    (hr : ∀ {r'}, r = some r' → r'.2.Accounted m) (hs : s.Accounted m) :
    (s.orSame r).Accounted m := by
  cases r with
  | none => exact hs
  | some r => exact hr rfl

theorem accounted_collect (hs : s.Accounted m) : (s.after .collect).Accounted m :=
  ⟨hs.1, hs.2.collect⟩

theorem accounted_hooks (hooks : Hooks) (hs : s.Accounted m) :
    (s.after (.hooks hooks)).Accounted m := ⟨rfl, hs.2⟩

/-- A pin from outside comes on top of the account if it succeeds. -/
theorem accounted_pin (h : Handle) (hs : s.Accounted m) :
    match (s.editor.pin h).1 with
    | .ok _ => (s.after (.pin h)).Accounted (h ::ₘ m)
    | .error _ => (s.after (.pin h)).Accounted m := by
  have hpin := hs.2.pin h
  have hafter : (s.after (.pin h)).stage =
      { s.stage with editor := (s.stage.editor.pin h).2 } := rfl
  unfold Accounted
  rw [hafter, show (s.after (.pin h)).wrappers = s.wrappers from rfl,
    show s.editor.pin h = s.stage.editor.pin h from rfl, Multiset.add_cons]
  generalize s.stage.editor.pin h = r at hpin ⊢
  obtain ⟨r | r, e⟩ := r
  · exact ⟨hs.1, hpin⟩
  · exact ⟨hs.1, hpin⟩

theorem accounted_unpin {h : Handle} (hs : s.Accounted (h ::ₘ m)) :
    (s.after (.unpin h)).Accounted m := by
  unfold Accounted at hs
  rw [Multiset.add_cons] at hs
  exact ⟨hs.1, hs.2.unpin⟩

/-- All acts but pins and unpins from outside leave the account as it is. -/
theorem accounted_after (a : Act) (hpin : ∀ h, a ≠ .pin h) (hunpin : ∀ h, a ≠ .unpin h)
    (hs : s.Accounted m) : (s.after a).Accounted m := by
  cases a with
  | intern name => exact accounted_onEditor (f := (·.intern name)) hs (Editor.grows_intern _ name)
  | setVariable name value =>
    exact accounted_onEditor (f := (·.setVariable name value)) hs
      (Editor.grows_setVariable _ name value)
  | makeString text =>
    exact accounted_onEditor (f := (·.makeString text)) hs (Editor.grows_makeString _ text)
  | unintern name =>
    exact accounted_onEditor (f := (·.unintern name)) hs (Editor.grows_unintern _ name)
  | funcall h => exact accounted_onEditor (f := (·.funcall h)) hs (Editor.grows_funcall _ h)
  | gotoChar position =>
    exact accounted_onEditor (f := (·.gotoChar position)) hs (Editor.grows_gotoChar _ position)
  | setMark position =>
    exact accounted_onEditor (f := (·.setMark position)) hs (Editor.grows_setMark _ position)
  | collect => exact accounted_collect hs
  | pin h => exact (hpin h rfl).elim
  | unpin h => exact (hunpin h rfl).elim
  | wrap h key => exact accounted_wrap h key hs
  | copy h key =>
    change (if h ∈ s.wrappers then s.copyObject h key else s).Accounted m
    split
    · rename_i hm
      exact accounted_copyObject key hs hm
    · exact hs
  | drop key => exact accounted_dropObject key hs
  | invoke h => exact accounted_invoke h hs
  | marshal h => exact accounted_marshal h hs
  | start name settings => exact accounted_start name settings hs
  | stop name => exact accounted_stop name hs
  | evaluate name source => exact accounted_orSame (fun hr => accounted_evaluate hr hs) hs
  | evaluateExpression name h =>
    exact accounted_orSame (fun hr => accounted_evaluateExpression hr hs) hs
  | refresh name keep => exact accounted_orSame (fun hr => accounted_refresh hr hs) hs
  | dropReport key => exact accounted_dropReport key hs
  | lookUp name symbol => exact accounted_orSame (fun hr => accounted_lookUp hr hs) hs
  | mapKeys name => exact accounted_orSame (fun hr => accounted_mapKeys hr hs) hs
  | defineGlobal name key value =>
    change (if ∀ h ∈ value.handles, h ∈ s.wrappers then
      s.orSame (s.defineGlobal name key value) else s).Accounted m
    split
    · rename_i hv
      exact accounted_orSame (fun hr => accounted_defineGlobal hr hv hs) hs
    · exact hs
  | drain name => exact accounted_orSame (fun hr => accounted_drain hr hs) hs
  | cancel name => exact accounted_cancel hs
  | hooks hooks => exact accounted_hooks hooks hs

end

/-- The wrappers that exist in the course of an evaluation: those of the dictionary, those that the
guest holds, those in the globals and those that the interpreter does not own. -/
def wrappersDuring (s : Session) (name : String) (i : Interpreter) (r : Guest.Running Stage) :
    Multiset Handle :=
  r.bridge.dictionary.handles +
    (r.held + (Interpreter.bindingHandles i.globals + s.wrappersBeside name))

section

variable {m : Multiset Handle} {s : Session} {name : String} {i : Interpreter} {source : String}
  {r : Guest.Running Stage}

theorem balanced_of_accounts
    (hr : r.Accounts Stage.Balanced (Interpreter.bindingHandles i.globals +
      (s.wrappersBeside name + m))) : r.shared.Balanced (s.wrappersDuring name i r + m) := by
  unfold Guest.Running.Accounts at hr
  simp only [wrappersDuring, add_assoc]
  exact hr

theorem accounts_during (hi : s.interpreters[name]? = some i) (hs : s.Accounted m)
    (hr : Interpreter.During (Stage.around name) i source s.stage r) :
    r.Accounts Stage.Balanced (Interpreter.bindingHandles i.globals +
      (s.wrappersBeside name + m)) := by
  unfold Accounted at hs
  rw [wrappers_of_interpreter hi, add_assoc] at hs
  have hset : ∀ {m : Multiset Handle} {s : Stage} w, s.Balanced m →
      ((Stage.around name).setWatchdog w s).Balanced m :=
    fun w hb => Stage.balanced_setWatchdog name w hb
  exact Interpreter.accounts_during (Stage.tracks_around name)
    (Interpreter.accounts_fresh (B := Stage.Balanced) hset hs)
    (fun h hh => Multiset.mem_add.mpr (.inl hh)) hr

/-- Guest code of any kind respects the account, and not only what expressions are run as. -/
theorem accounts_visits {α : Type} {p : Program Guest.Command α}
    (hi : s.interpreters[name]? = some i) (hs : s.Accounted m)
    (hp : p.Visits (Interpreter.world (Stage.around name) i)
      (Interpreter.equipped (Stage.around name) i s.stage) r) :
    r.Accounts Stage.Balanced (Interpreter.bindingHandles i.globals +
      (s.wrappersBeside name + m)) := by
  have hequipped : Interpreter.During (Stage.around name) i "" s.stage
      (Interpreter.equipped (Stage.around name) i s.stage) :=
    .equipping (List.append_nil _).symm
  exact hp.keeps (Guest.Running.keeps_accounts (Stage.tracks_around name) _)
    (accounts_during hi hs hequipped)

end

/-- A session with all pins from outside that succeeded and all unpins from outside so far. -/
structure Ledger where
  session : Session
  pins : Multiset Handle
  unpins : Multiset Handle

namespace Ledger

/-- Carries an act out and writes it down if it is a pin or an unpin from outside. -/
def enter (l : Ledger) (a : Act) : Ledger where
  session := l.session.after a
  pins := match a with
    | .pin h => match (l.session.editor.pin h).1 with
      | .ok _ => h ::ₘ l.pins
      | .error _ => l.pins
    | _ => l.pins
  unpins := match a with
    | .unpin h => h ::ₘ l.unpins
    | _ => l.unpins

/-- The ledger after a run, which starts with a new editor on a buffer. -/
def run (buffer : Buffer) (acts : List Act) : Ledger :=
  acts.foldl enter ⟨.ofEditor (.ofBuffer buffer), 0, 0⟩

theorem run_concat (buffer : Buffer) (acts : List Act) (a : Act) :
    run buffer (acts ++ [a]) = (run buffer acts).enter a := by
  simp [run]

/-- At no time has a handle been unpinned from outside more often than it has been pinned. -/
def Backed (buffer : Buffer) (acts : List Act) : Prop :=
  ∀ before, before <+: acts → (run buffer before).unpins ≤ (run buffer before).pins

theorem accounted_enter {l : Ledger} (a : Act) (hle : l.unpins ≤ l.pins)
    (hle' : (l.enter a).unpins ≤ (l.enter a).pins)
    (hl : l.session.Accounted (l.pins - l.unpins)) :
    (l.enter a).session.Accounted ((l.enter a).pins - (l.enter a).unpins) := by
  cases a with
  | pin h =>
    have hpin := accounted_pin h hl
    unfold enter
    dsimp only
    split <;> rename_i hr <;> rw [hr] at hpin
    · rw [Multiset.cons_sub_of_le h hle]
      exact hpin
    · exact hpin
  | unpin h =>
    have hle' : h ::ₘ l.unpins ≤ l.pins := hle'
    have hsub : h ::ₘ (l.pins - h ::ₘ l.unpins) = l.pins - l.unpins := by
      rw [← Multiset.cons_sub_of_le h hle', ← Multiset.singleton_add, ← Multiset.singleton_add,
        add_tsub_add_eq_tsub_left]
    rw [← hsub] at hl
    exact accounted_unpin hl
  | _ => exact accounted_after _ (by simp) (by simp) hl

theorem Backed.of_append {buffer : Buffer} {acts more : List Act}
    (hb : Backed buffer (acts ++ more)) : Backed buffer acts :=
  fun before hp => hb before (hp.trans (List.prefix_append _ _))

theorem accounted_run {buffer : Buffer} {acts : List Act} (hb : Backed buffer acts) :
    (run buffer acts).session.Accounted ((run buffer acts).pins - (run buffer acts).unpins) := by
  induction acts using List.reverseRecOn with
  | nil => exact ⟨rfl, Editor.balanced_ofBuffer buffer⟩
  | append_singleton acts a ih =>
    have hle := hb acts (List.prefix_append _ _)
    have hle' := hb _ (List.prefix_refl _)
    rw [run_concat] at hle' ⊢
    exact accounted_enter a hle hle' (ih hb.of_append)

/-- Pins are exact in every run. In each state that it reaches, a handle is pinned once for each
wrapper of it that exists and once for each pin from outside that has not been taken back, and the
same holds throughout an evaluation, whatever its source and outcome, where the guest has wrappers
too; it would hold for all other guest code. Every wrapper can be used. An evaluation leaves nothing
behind but what it installed. Nothing is promised once there are more slots than indices, see
`Heap.isLive_of_clash`. -/
theorem pins_exact {buffer : Buffer} {acts : List Act} (hb : Backed buffer acts) :
    let l := run buffer acts
    let s := l.session
    (s.editor.heap.Fits → s.stage.Exact l.pins l.unpins s.wrappers) ∧
    ∀ name i source, s.interpreters[name]? = some i →
      (∀ r, Interpreter.During (Stage.around name) i source s.stage r → r.shared.editor.heap.Fits →
        r.shared.Exact l.pins l.unpins (s.wrappersDuring name i r)) ∧
      (∀ (α : Type) (p : Program Guest.Command α) r,
        p.Visits (Interpreter.world (Stage.around name) i)
          (Interpreter.equipped (Stage.around name) i s.stage) r → r.shared.editor.heap.Fits →
        r.shared.Exact l.pins l.unpins (s.wrappersDuring name i r)) ∧
      ∃ result j stage,
        s.evaluate name source =
          some (result, { s with stage, interpreters := s.interpreters.insert name j }) ∧
        j.globals = i.globals ∧
        (stage.editor.heap.Fits →
          stage.Exact l.pins l.unpins (j.handles + s.wrappersBeside name)) := by
  have hrun := accounted_run hb
  intro l s
  refine ⟨Stage.Balanced.exact hrun, fun name i source hi =>
    ⟨fun r hr => ?_, fun α p r hp => ?_, ?_⟩⟩
  · exact Stage.Balanced.exact (balanced_of_accounts (accounts_during hi hrun hr))
  · exact Stage.Balanced.exact (balanced_of_accounts (accounts_visits hi hrun hp))
  · obtain ⟨⟨result, j, stage⟩, he⟩ : ∃ w, i.evaluate (Stage.around name) source s.stage = w :=
      ⟨_, rfl⟩
    have heval : s.evaluate name source =
        some (result, { s with stage, interpreters := s.interpreters.insert name j }) := by
      unfold evaluate withInterpreter
      rw [hi, Option.map_some]
      dsimp only
      rw [he]
    have hend := accounted_evaluate heval hrun
    unfold Accounted at hend
    rw [wrappers_insert_interpreter] at hend
    have hglobals := Interpreter.globals_evaluate (Stage.around name) i source s.stage
    rw [he] at hglobals
    exact ⟨result, j, stage, heval, hglobals, Stage.Balanced.exact hend⟩

/-- A symbol is wrapped twice, once for a global variable, and forgotten. A pin from outside is
taken back after a collection. -/
def scratch : List Act :=
  [.intern "scratch", .start "main" .default, .wrap ⟨21, 0⟩ "kept",
    .defineGlobal "main" "mine" (.object ⟨21, 0⟩), .pin ⟨21, 0⟩, .unintern "scratch",
    .evaluate "main" "mine", .collect, .unpin ⟨21, 0⟩]

def scratched : Ledger := run (.ofText "" none) scratch

/-- Both wrappers count, and so does the copy of the second one that an evaluation works on. -/
theorem pins_exact_scratch :
    Backed (.ofText "" none) scratch ∧
    scratched.session.editor.heap.pinCount ⟨21, 0⟩ = 2 ∧
    scratched.session.stage.Usable ⟨21, 0⟩ ∧
    ∃ i, scratched.session.interpreters["main"]? = some i ∧
      (Interpreter.equipped (Stage.around "main") i
        scratched.session.stage).shared.editor.heap.pinCount ⟨21, 0⟩ = 3 := by
  have hinits : ∀ before ∈ scratch.inits,
      (run (.ofText "" none) before).unpins ≤ (run (.ofText "" none) before).pins := by
    decide +kernel
  have hb : Backed (.ofText "" none) scratch := fun before hp =>
    hinits before ((List.mem_inits _ _).mpr hp)
  have hsome : scratched.session.interpreters["main"]?.isSome = true := by decide +kernel
  obtain ⟨i, hi⟩ := Option.isSome_iff_exists.mp hsome
  have hcounts : scratched.session.editor.heap.slots.size ≤ UInt32.size ∧
      scratched.pins.count ⟨21, 0⟩ = 1 ∧ scratched.unpins.count ⟨21, 0⟩ = 1 ∧
      scratched.session.wrappers.count ⟨21, 0⟩ = 2 := by
    decide +kernel
  have hequipped : ∀ i ∈ scratched.session.interpreters["main"]?,
      (Interpreter.equipped (Stage.around "main") i
        scratched.session.stage).shared.editor.heap.slots.size ≤ UInt32.size ∧
      (scratched.session.wrappersDuring "main" i (Interpreter.equipped (Stage.around "main") i
        scratched.session.stage)).count ⟨21, 0⟩ = 3 := by
    decide +kernel
  obtain ⟨hfits, hpins, hunpins, hwrappers⟩ := hcounts
  obtain ⟨hfits', hduring⟩ := hequipped i hi
  have hstart : Interpreter.During (Stage.around "main") i "mine" scratched.session.stage
      (Interpreter.equipped (Stage.around "main") i scratched.session.stage) :=
    .equipping (List.append_nil _).symm
  obtain ⟨hexact, hevaluate⟩ := pins_exact hb
  obtain ⟨hkept, husable⟩ := hexact hfits
  have hcopied := ((hevaluate "main" i "mine" hi).1 _ hstart hfits').pinCount ⟨21, 0⟩
  have hkept := hkept ⟨21, 0⟩
  rw [show run (.ofText "" none) scratch = scratched from rfl] at hkept hcopied husable
  rw [hpins, hunpins, hwrappers] at hkept
  rw [hpins, hunpins, hduring] at hcopied
  have hmem : ⟨21, 0⟩ ∈ scratched.session.wrappers := by
    rw [← Multiset.count_pos, hwrappers]
    decide
  exact ⟨hb, hkept, husable _ hmem, i, hi, hcopied⟩

end Ledger

end EditorScripting.Session
