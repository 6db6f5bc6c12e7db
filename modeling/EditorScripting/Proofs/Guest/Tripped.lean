import EditorScripting.Proofs.Editor.Contents
import EditorScripting.Proofs.Guest.Lawful
import EditorScripting.Proofs.Script.Asks

/-!
What the guest can do once it has to stop. Nothing undoes a request to stop or a deadline that has
passed, and the watchdog allows nothing any more. What is left are calls of functions that take
arguments, and what these change of the host.
-/
namespace EditorScripting

open Host Script Guest

namespace Watchdog

/-- The evaluation has to stop, since somebody asked for it or its time is over. -/
def Tripped (w : Watchdog) (now : Nat) : Prop :=
  w.cancelled = true ∨ ∃ time limit, w.deadline = some (time, limit) ∧ time ≤ now

theorem isSome_check {w : Watchdog} {now : Nat} (ht : w.Tripped now) :
    (w.check now).isSome = true := by
  unfold check
  split
  · rfl
  · rename_i hc
    obtain ⟨time, limit, hd, hle⟩ := ht.resolve_left hc
    rw [hd]
    dsimp only
    rw [if_pos hle]
    rfl

/-- Neither requests nor time undo a trip. -/
theorem Tripped.of_asked {w w' : Watchdog} {now now' : Nat} (ht : w.Tripped now)
    (ha : w.Asked w') (hn : now ≤ now') : w'.Tripped now' := by
  rcases ht with hc | ⟨time, limit, hd, hle⟩
  · rcases ha with rfl | rfl
    · exact .inl hc
    · exact .inl (cancelled_cancel hc)
  · exact .inr ⟨time, limit, ha.deadline.trans hd, hle.trans hn⟩

end Watchdog

namespace Guest

/-- What calls without permission can change of the host. -/
inductive Effect where
  | point
  | mark
  | symbols
deriving DecidableEq

namespace Command

/-- The calls of functions of the module that are given an argument. -/
def TakesArgument : Command → Prop
  | gotoChar _ | setMark _ | symbol _ | wrap _ | guestName _ | hostName _ => True
  | _ => False

/-- What a call with an argument changes of the host. -/
def effect? : Command → Option Effect
  | gotoChar _ => some .point
  | setMark _ => some .mark
  | wrap _ => some .symbols
  | _ => none

theorem takesArgument_of_moduleFunction? {name : String} {args : List Value} {c : Command}
    (hc : moduleFunction? name args = some c) (ha : args ≠ []) : c.TakesArgument := by
  unfold moduleFunction? at hc
  split at hc <;> cases hc <;> trivial

end Command

namespace Surroundings

variable {σ : Type} {around : Surroundings σ}

/-- The clock never goes back. -/
def Forward (around : Surroundings σ) : Prop := ∀ time, around.Tracks fun _ s => time ≤ around.now s

/-- The evaluation has to stop. -/
def Tripped (around : Surroundings σ) (s : σ) : Prop := (around.watchdog s).Tripped (around.now s)

/-- A trip is there for good. -/
theorem Lawful.tracks_tripped (hl : around.Lawful) (hf : around.Forward) :
    around.Tracks fun _ s => around.Tripped s where
  host :=
    { intern {m s} name ht :=
        ht.of_asked (hl.intern name s) ((hf _).host.intern (m := m) name le_rfl)
      makeString {m s} text ht :=
        ht.of_asked (hl.makeString text s) ((hf _).host.makeString (m := m) text le_rfl)
      funcall {m s} f ht := ht.of_asked (hl.funcall f s) ((hf _).host.funcall (m := m) f le_rfl)
      point {m s} ht := ht.of_asked (hl.point s) ((hf _).host.point (m := m) le_rfl)
      gotoChar {m s} n ht := ht.of_asked (hl.gotoChar n s) ((hf _).host.gotoChar (m := m) n le_rfl)
      setMark {m s} n ht := ht.of_asked (hl.setMark n s) ((hf _).host.setMark (m := m) n le_rfl)
      pin {m s} h ht := by
        have hclock := (hf (around.now s)).host.copy (m := {h}) h le_rfl (by simp)
        have hpin := ht.of_asked (hl.pin h s) hclock
        dsimp only at hpin
        split <;> rename_i hp <;> rw [hp] at hpin <;> exact hpin
      copy {m s} h ht hm := ht.of_asked (hl.pin h s) ((hf _).host.copy (m := m) h le_rfl hm)
      unpin {m s} h ht := ht.of_asked (hl.unpin h s) ((hf _).host.unpin (m := m) h le_rfl) }
  meanwhile {m s} ht := ht.of_asked (hl.meanwhile s) ((hf _).meanwhile (m := m) le_rfl)

/-- A property of the dictionary and the host that the guest ends by nothing but commands outside
of `C`. -/
structure KeepsFor (around : Surroundings σ) (C : Command → Prop) (J : Bridge → σ → Prop) :
    Prop where
  meanwhile : ∀ b s, J b s → J b (around.meanwhile s)
  pin : ∀ h b s, J b s → J b (around.host.pin h s).2
  unpin : ∀ h b s, J b s → J b (around.host.unpin h s)
  perform : ∀ c (r : Running σ), C c → J r.bridge r.shared →
    J (r.perform around c).2.bridge (r.perform around c).2.shared

/-- Something that can be seen of the host, and that only calls with one effect change. -/
structure Shows (around : Surroundings σ) {β : Type} (view : σ → β) (e : Effect) : Prop where
  setWatchdog : ∀ w s, view (around.setWatchdog w s) = view s
  meanwhile : ∀ s, view (around.meanwhile s) = view s
  pin : ∀ h s, view (around.host.pin h s).2 = view s
  unpin : ∀ h s, view (around.host.unpin h s) = view s
  gotoChar : e ≠ .point → ∀ n s, view (around.host.gotoChar n s).2 = view s
  setMark : e ≠ .mark → ∀ n s, view (around.host.setMark n s).2 = view s
  intern : e ≠ .symbols → ∀ name s, view (around.host.intern name s).2 = view s

namespace KeepsFor

variable {C : Command → Prop} {J : Bridge → σ → Prop} (hk : around.KeepsFor C J)
include hk

theorem give (h : Handle) (r : Running σ) (hr : J r.bridge r.shared) :
    J (r.give around h).bridge (r.give around h).shared := hk.pin h _ _ hr

theorem gives (hs : List Handle) (r : Running σ) (hr : J r.bridge r.shared) :
    J (hs.foldl (fun r h => r.give around h) r).bridge
      (hs.foldl (fun r h => r.give around h) r).shared := by
  induction hs generalizing r with
  | nil => exact hr
  | cons h hs ih => exact ih _ (hk.give h r hr)

theorem drops (hs : List Handle) (b : Bridge) (s : σ) (hj : J b s) :
    J b (hs.foldl (fun s h => Wrapper.drop around.host h s) s) := by
  induction hs generalizing s with
  | nil => exact hj
  | cons h hs ih => exact ih _ (hk.unpin h b s hj)

theorem world (limit : Nat) :
    (Running.world around limit).KeepsFor C fun r => J r.bridge r.shared where
  step r hr := by
    unfold Running.world Running.step
    dsimp only
    split
    · exact hr
    · exact hk.meanwhile _ _ hr
  probe n r hr := by
    unfold Running.world Running.probe
    dsimp only
    split
    · exact hr
    · exact hk.meanwhile _ _ hr
  retain h r hr := by
    unfold Running.world Running.retain
    dsimp only
    split
    · exact hk.give h r hr
    · exact hr
  release h r hr := by
    unfold Running.world Running.release
    dsimp only
    split
    · exact hk.unpin h _ _ hr
    · exact hr
  ask c r hc hr := hk.perform c (r.elapse around) hc (hk.meanwhile _ _ hr)

end KeepsFor

/-- An invariant of the surroundings, whatever wrappers exist, is kept for all commands. -/
theorem Tracks.keepsFor {B : σ → Prop} (ht : around.Tracks fun _ => B) :
    around.KeepsFor (fun _ => True) fun _ => B where
  meanwhile _ _ hb := ht.meanwhile (m := 0) hb
  pin h _ _ hb := ht.host.copy (m := {h}) h hb (by simp)
  unpin h _ _ hb := ht.host.unpin (m := 0) h hb
  perform c _ _ hb := Running.accounts_perform (m := 0) ht c hb

/-- Calls with an argument leave the dictionary alone. -/
theorem keepsFor_dictionary (around : Surroundings σ) (d : Dictionary) :
    around.KeepsFor Command.TakesArgument fun b _ => b.dictionary = d where
  meanwhile _ _ hd := hd
  pin _ _ _ hd := hd
  unpin _ _ _ hd := hd
  perform c r hc hd := by
    cases c with
    | gotoChar n => exact hd
    | setMark n => exact hd
    | symbol name =>
      unfold Running.perform
      dsimp only
      split <;> exact hd
    | wrap name =>
      unfold Running.perform
      dsimp only
      split <;> exact hd
    | guestName name => exact hd
    | hostName name => exact hd
    | _ => exact hc.elim

/-- What can be seen of the host stays the same but for calls with the effect. -/
theorem Shows.keepsFor {β : Type} {view : σ → β} {e : Effect} (hv : around.Shows view e) (x : β) :
    around.KeepsFor (fun c => c.TakesArgument ∧ c.effect? ≠ some e) fun _ s => view s = x where
  meanwhile _ s hx := (hv.meanwhile s).trans hx
  pin h _ s hx := (hv.pin h s).trans hx
  unpin h _ s hx := (hv.unpin h s).trans hx
  perform c r hc hx := by
    obtain ⟨hc, he⟩ := hc
    cases c with
    | gotoChar n => exact (hv.gotoChar (fun h => he (congrArg some h.symm)) n _).trans hx
    | setMark n => exact (hv.setMark (fun h => he (congrArg some h.symm)) n _).trans hx
    | symbol name =>
      unfold Running.perform
      dsimp only
      split
      · exact (hv.pin _ _).trans hx
      · exact hx
    | wrap name =>
      have hintern := (hv.intern (fun h => he (congrArg some h.symm)) name r.shared).trans hx
      have hpin := (hv.pin (around.host.intern name r.shared).1 _).trans hintern
      unfold Running.perform Wrapper.new
      dsimp only
      split <;> rename_i hp <;> rw [hp] at hpin <;> exact hpin
    | guestName name => exact hx
    | hostName name => exact hx
    | _ => exact hc.elim

/-- A poll that finds the evaluation to have to stop is refused. -/
theorem isNone_poll {r : Running σ} (ht : around.Tripped (r.poll around).2.shared) :
    (r.poll around).1.isNone = false := by
  unfold Running.poll at ht ⊢
  simpa using Watchdog.isSome_check ht

/-- Once the evaluation has to stop, the guest is not allowed to go on. -/
theorem Lawful.halts (hl : around.Lawful) (hf : around.Forward) (limit : Nat) :
    (Running.world around limit).Halts fun r => around.Tripped r.shared where
  keeps := Running.keeps_accounts (m := 0) (hl.tracks_tripped hf) limit
  step r ht := by
    unfold Running.world Running.step at ht ⊢
    dsimp only at ht ⊢
    split
    · rfl
    · rw [if_neg ‹_›] at ht
      exact isNone_poll ht
  probe n r ht := by
    unfold Running.world Running.probe at ht ⊢
    dsimp only at ht ⊢
    split
    · rfl
    · rw [if_neg ‹_›] at ht
      exact isNone_poll ht

end Surroundings

end Guest

namespace Session.Stage

theorem clock_point (s : Stage) : s.clock ≤ s.point.2.clock := by
  have hcancel : ∀ s : Stage, s.hookedCancel.clock = s.clock := by
    intro s
    unfold hookedCancel
    split <;> rfl
  have hcollect : ∀ s : Stage, s.hookedCollect.clock = s.clock := by
    intro s
    unfold hookedCollect
    split <;> rfl
  unfold point
  dsimp only
  rw [hcollect, hookedSleep, hcancel]
  exact Nat.le_add_right _ _

theorem clock_pin (h : Handle) (s : Stage) : (s.pin h).2.clock = s.clock := by
  unfold pin
  split <;> rfl

/-- The clock of a session goes on only when the host is asked for point. -/
theorem forward_around (name : String) : (around name).Forward := fun time =>
  { host :=
      { intern := fun _ ht => ht
        makeString := fun _ ht => ht
        funcall := fun _ ht => ht
        point := fun {_ s} ht => le_trans ht (clock_point s)
        gotoChar := fun _ ht => ht
        setMark := fun _ ht => ht
        pin := fun {_ s} h ht => by
          have hclock : time ≤ (s.pin h).2.clock := le_of_le_of_eq ht (clock_pin h s).symm
          rw [show (around name).host.pin h s = s.pin h from rfl]
          split <;> rename_i hp <;> rw [hp] at hclock <;> exact hclock
        copy := fun {_ s} h ht _ => le_of_le_of_eq ht (clock_pin h s).symm
        unpin := fun _ ht => ht }
    meanwhile := fun ht => ht }

/-- Pins concern the heap alone. -/
theorem editor_pin (h : Handle) (s : Stage) :
    (s.pin h).2.editor.buffer = s.editor.buffer ∧
      (s.pin h).2.editor.obarray = s.editor.obarray := by
  unfold pin
  split <;> exact ⟨rfl, rfl⟩

theorem shows_point (name : String) :
    (around name).Shows (fun s => s.editor.buffer.point) .point where
  setWatchdog _ _ := rfl
  meanwhile _ := rfl
  pin h s := congrArg Buffer.point (editor_pin h s).1
  unpin _ _ := rfl
  gotoChar he := absurd rfl he
  setMark _ _ _ := rfl
  intern _ name s := congrArg Buffer.point (s.editor.buffer_intern name)

theorem shows_mark (name : String) :
    (around name).Shows (fun s => s.editor.buffer.mark) .mark where
  setWatchdog _ _ := rfl
  meanwhile _ := rfl
  pin h s := congrArg Buffer.mark (editor_pin h s).1
  unpin _ _ := rfl
  gotoChar _ _ _ := rfl
  setMark he := absurd rfl he
  intern _ name s := congrArg Buffer.mark (s.editor.buffer_intern name)

theorem shows_symbols (name : String) :
    (around name).Shows (fun s => s.editor.obarray) .symbols where
  setWatchdog _ _ := rfl
  meanwhile _ := rfl
  pin h s := (editor_pin h s).2
  unpin _ _ := rfl
  gotoChar _ _ _ := rfl
  setMark _ _ _ := rfl
  intern he := absurd rfl he

end Session.Stage

end EditorScripting
