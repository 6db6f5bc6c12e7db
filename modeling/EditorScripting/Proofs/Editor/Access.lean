import EditorScripting.Proofs.Editor.Balance

/-!
What an editor answers about live handles. The editor refers to live handles only, so no question
about a live handle ends at a stale one.
-/
namespace EditorScripting.Host.Editor

variable {e : Editor} {h : Handle}

/-- The function that a name has is live. -/
theorem isLive_function (hs : e.Sound) {name : String} {f : Handle}
    (hf : (e.obarray.get? name).bind (·.function) = some f) : e.heap.isLive f = true := by
  obtain ⟨cell, hc, hf⟩ := Option.bind_eq_some_iff.mp hf
  obtain ⟨d, hd, rfl⟩ := Obarray.mem_toList_of_get? hc
  exact hs.live f (mem_roots.mpr (.inr ⟨d, hd, .inr (.inr hf)⟩))

/-- Looking for the primitive behind a live handle meets no stale one. -/
theorem resolve_ne_reclaimed (hs : e.Sound) (hl : e.heap.isLive h = true) (g : Handle) :
    e.resolve h ≠ .error (.reclaimed g) := by
  obtain ⟨v, hv⟩ := Heap.get_of_live hl
  unfold resolve
  rw [hv]
  simp only [bind, Except.bind]
  split
  · simp
  split
  · simp
  split
  · simp
  rename_i f hf
  obtain ⟨w, hw⟩ := Heap.get_of_live (isLive_function hs hf)
  rw [hw]
  dsimp only
  split <;> simp

theorem isCallable_of_live (hs : e.Sound) (hl : e.heap.isLive h = true) :
    ∃ b, e.isCallable h = .ok b := by
  have hne := resolve_ne_reclaimed hs hl
  unfold isCallable
  split
  · exact ⟨true, rfl⟩
  · rename_i g hr
    exact (hne g hr).elim
  · exact ⟨false, rfl⟩

/-- What can be called is called, and the result is live. -/
theorem funcall_of_isCallable (hs : e.Sound) (hc : e.isCallable h = .ok true) :
    ∃ r, (e.funcall h).1 = .ok r ∧
      ((e.funcall h).2.heap.Fits → (e.funcall h).2.heap.isLive r = true) := by
  unfold isCallable at hc
  split at hc
  · rename_i p hp
    unfold funcall
    rw [hp]
    exact ⟨_, rfl, fun hf => isLive_make hf hs⟩
  · cases hc
  · cases hc

theorem typeOf_of_live (hl : e.heap.isLive h = true) : ∃ kind, e.typeOf h = .ok kind := by
  obtain ⟨v, hv⟩ := Heap.get_of_live hl
  exact ⟨v.typeName, by simp [typeOf, hv, Except.map]⟩

theorem symbolName_of_live (hl : e.heap.isLive h = true) : ∃ name, e.symbolName h = .ok name := by
  obtain ⟨v, hv⟩ := Heap.get_of_live hl
  exact ⟨v.symbolName?, by simp [symbolName, hv, Except.map]⟩

theorem printed_of_live (hl : e.heap.isLive h = true) : ∃ text, e.printed h = .ok text := by
  obtain ⟨v, hv⟩ := Heap.get_of_live hl
  exact ⟨v.printed, by simp [printed, hv, Except.map]⟩

theorem integerValue_of_live (hl : e.heap.isLive h = true) : ∃ n, e.integerValue h = .ok n := by
  obtain ⟨v, hv⟩ := Heap.get_of_live hl
  exact ⟨_, by rw [integerValue, hv]; rfl⟩

theorem stringValue_of_live (hl : e.heap.isLive h = true) : ∃ text, e.stringValue h = .ok text := by
  obtain ⟨v, hv⟩ := Heap.get_of_live hl
  exact ⟨_, by rw [stringValue, hv]; rfl⟩

theorem pin_of_live (hl : e.heap.isLive h = true) : (e.pin h).1 = .ok () := by
  simp [Editor.pin, Heap.pin, hl]

end EditorScripting.Host.Editor
