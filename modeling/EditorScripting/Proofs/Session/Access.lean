import EditorScripting.Proofs.Editor.Access
import EditorScripting.Session.Stage

/-!
What the host answers on the stage about wrapped values. As long as the value of a wrapper is live,
none of the questions that can be asked through the wrapper finds the value reclaimed.
-/
namespace EditorScripting.Session.Stage

open Host

/-- Everything that can be asked through a wrapper of the handle is answered. -/
structure Usable (s : Stage) (h : Handle) : Prop where
  live : s.editor.heap.isLive h = true
  kind : ∃ kind, Wrapper.kind host s h = .ok kind
  name : ∃ name, Wrapper.name host s h = .ok name
  isCallable : ∃ b, Wrapper.isCallable host s h = .ok b
  display : ∃ text, Wrapper.display host s h = .ok text
  /-- A copy of the wrapper has a pin of its own. -/
  copy : (Wrapper.new host h s).1 = .ok ()
  marshal : ∃ value, (Wrapper.marshal host h s).1 = .ok value
  /-- A call may fail, but never at a reclaimed value. -/
  invoke : (Wrapper.invoke host h s).2.editor.heap.Fits →
    ∀ g, (Wrapper.invoke host h s).1 ≠ .error (.reclaimed g)

variable {s : Stage} {h : Handle}

theorem pin_eq_onEditor (hp : s.hooks.pinFails = []) (h : Handle) :
    s.pin h = s.onEditor (·.pin h) := by
  unfold pin
  rw [hp, if_neg List.not_mem_nil]

theorem pin_of_live (hp : s.hooks.pinFails = []) (hl : s.editor.heap.isLive h = true) :
    (Wrapper.new host h s).1 = .ok () :=
  (congrArg (·.1) (pin_eq_onEditor hp h)).trans (Editor.pin_of_live hl)

theorem marshal_of_live (hp : s.hooks.pinFails = []) (hl : s.editor.heap.isLive h = true) :
    ∃ value, (Wrapper.marshal host h s).1 = .ok value := by
  obtain ⟨n, hn⟩ := Editor.integerValue_of_live hl
  obtain ⟨text, ht⟩ := Editor.stringValue_of_live hl
  have hnew := pin_of_live hp hl
  unfold Wrapper.marshal
  split
  · exact ⟨_, rfl⟩
  rw [show host.integerValue s h = .ok n from hn, show host.stringValue s h = .ok text from ht]
  cases n with
  | some n => exact ⟨_, rfl⟩
  | none =>
    cases text with
    | some text => exact ⟨_, rfl⟩
    | none =>
      dsimp only
      generalize Wrapper.new host h s = r at hnew ⊢
      obtain ⟨r | r, s⟩ := r
      · cases hnew
      · exact ⟨_, rfl⟩

/-- Handing a value over makes no object. -/
theorem size_marshal (h : Handle) (s : Stage) :
    (Wrapper.marshal host h s).2.editor.heap.slots.size = s.editor.heap.slots.size := by
  have hpin : (Wrapper.new host h s).2.editor.heap.slots.size = s.editor.heap.slots.size := by
    change (s.pin h).2.editor.heap.slots.size = _
    unfold pin
    split
    · rfl
    · change (s.editor.heap.pin h).2.slots.size = _
      rw [Heap.pin_snd, Heap.size_modifyPins]
  unfold Wrapper.marshal
  split
  · rfl
  split
  · rfl
  · rfl
  split
  · rfl
  · rfl
  split <;> rename_i hn <;> rw [hn] at hpin
  · exact hpin
  · exact hpin

theorem invoke_ne_reclaimed (hp : s.hooks.pinFails = []) (hs : s.editor.Sound)
    (hl : s.editor.heap.isLive h = true) (hf : (Wrapper.invoke host h s).2.editor.heap.Fits)
    (g : Handle) : (Wrapper.invoke host h s).1 ≠ .error (.reclaimed g) := by
  obtain ⟨b, hb⟩ := Editor.isCallable_of_live hs hl
  obtain ⟨text, ht⟩ := Editor.printed_of_live hl
  unfold Wrapper.invoke at hf ⊢
  rw [show Wrapper.isCallable host s h = .ok b from hb] at hf ⊢
  cases b with
  | false =>
    rw [show host.printed s h = .ok text from ht]
    simp
  | true =>
    obtain ⟨r, hr, hlive⟩ := Editor.funcall_of_isCallable hs hb
    have hcall : host.funcall h s = (.ok r, (s.onEditor (·.funcall h)).2) :=
      Prod.ext hr rfl
    rw [hcall] at hf ⊢
    dsimp only at hf ⊢
    unfold Heap.Fits at hf
    rw [size_marshal] at hf
    obtain ⟨value, hv⟩ := marshal_of_live (s := (s.onEditor (·.funcall h)).2) hp (hlive hf)
    rw [hv]
    simp

/-- Whatever is live can be used, unless the host is made to fail at pins. -/
theorem usable_of_live (hp : s.hooks.pinFails = []) (hs : s.editor.Sound)
    (hl : s.editor.heap.isLive h = true) : s.Usable h where
  live := hl
  kind := Editor.typeOf_of_live hl
  name := Editor.symbolName_of_live hl
  isCallable := Editor.isCallable_of_live hs hl
  display := by
    obtain ⟨name, hname⟩ := Editor.symbolName_of_live hl
    obtain ⟨text, ht⟩ := Editor.printed_of_live hl
    unfold Wrapper.display
    rw [show Wrapper.name host s h = .ok name from hname]
    cases name with
    | some name => exact ⟨_, rfl⟩
    | none =>
      rw [show host.printed s h = .ok text from ht]
      exact ⟨_, rfl⟩
  copy := pin_of_live hp hl
  marshal := marshal_of_live hp hl
  invoke := invoke_ne_reclaimed hp hs hl

end EditorScripting.Session.Stage
