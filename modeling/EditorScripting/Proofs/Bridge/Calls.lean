import EditorScripting.Proofs.Bridge.Marshalling
import EditorScripting.Proofs.Editor.Contents
import EditorScripting.Proofs.Editor.Functions

/-!
Whether a value can be called, calling it, and calling it through a wrapper. The three agree, since
all of them go by the primitive that is found behind the value.
-/
namespace EditorScripting

open Host

namespace Host

namespace Heap

variable {α : Type}

theorem liveCount_alloc_le (heap : Heap α) (v : α) :
    (heap.alloc v).2.liveCount ≤ heap.liveCount + 1 := by
  cases hfree : heap.free with
  | nil =>
    rw [alloc_grow hfree]
    simp [liveCount, List.countP_append]
  | cons index free =>
    unfold alloc liveCount
    simp only [hfree, Array.toList_setIfInBounds]
    by_cases hi : index.toNat < heap.slots.toList.length
    · rw [List.countP_set hi]
      simp only [Option.isSome_some, if_true]
      omega
    · rw [List.set_eq_of_length_le (Nat.le_of_not_lt hi)]
      omega

end Heap

namespace Editor

variable {e : Editor} {h : Handle}

/-! Calls. -/

/-- What a call leaves as it was: all but the heap, where one object may be new. The mark is part of
the buffer. In a heap with more slots than indices, the new object may be put in the place of
another one. -/
structure CallKeeps (e e' : Editor) : Prop where
  buffer : e'.buffer = e.buffer
  obarray : e'.obarray = e.obarray
  nil : e'.nil = e.nil
  liveCount : e'.heap.liveCount ≤ e.heap.liveCount + 1
  pins : e'.heap.Fits → ∀ g, e'.heap.pinCount g = e.heap.pinCount g
  objects : e'.heap.Fits → ∀ g v, e.heap.get g = .ok v → e'.heap.get g = .ok v

/-- A call does to the editor what making some value does, or nothing. -/
theorem funcall_snd (e : Editor) (f : Handle) :
    (e.funcall f).2 = e ∨ ∃ v, (e.funcall f).2 = (e.make v).2 := by
  cases hr : e.resolve f with
  | ok p => exact .inr ⟨e.primitiveValue p, by rw [funcall_of_resolve hr]⟩
  | error err => exact .inl (by rw [funcall_of_error hr])

theorem liveCount_funcall_le (e : Editor) (f : Handle) :
    (e.funcall f).2.heap.liveCount ≤ e.heap.liveCount + 1 := by
  rcases funcall_snd e f with hsame | ⟨v, hmade⟩
  · rw [hsame]
    exact Nat.le_succ _
  · rw [hmade]
    cases v with
    | nil => exact Nat.le_succ _
    | _ => exact Heap.liveCount_alloc_le _ _

theorem callKeeps_funcall (hr : e.heap.Fits → e.Referring) (f : Handle) :
    CallKeeps e (e.funcall f).2 where
  buffer := buffer_funcall e f
  obarray := obarray_funcall e f
  nil := nil_funcall e f
  liveCount := liveCount_funcall_le e f
  pins hf := (grows_funcall e f).pins hf (hr ((grows_funcall e f).fits hf)).sound
  objects hf g v hv := by
    have hkeeps := keeps_funcall e f
    have hthere := hkeeps.object hf (hr (hkeeps.fits hf)) g v (Heap.get_eq_ok_iff.mp hv)
    exact Heap.get_of_get? hthere

/-- The result of a call is there. -/
theorem get?_of_funcall (hr : e.heap.Fits → e.Referring) {f r : Handle}
    (hcall : (e.funcall f).1 = .ok r) (hf : (e.funcall f).2.heap.Fits) :
    ∃ v, (e.funcall f).2.heap.get? r = some v := by
  have hreferring := hr ((keeps_funcall e f).fits hf)
  obtain ⟨p, hp⟩ := funcall_ok_iff.mp ⟨r, hcall⟩
  rw [funcall_of_resolve hp] at hcall hf ⊢
  cases hcall
  exact ⟨_, get?_make hf hreferring⟩

/-! Whether a value can be called. -/

theorem isCallable_true_iff : e.isCallable h = .ok true ↔ ∃ r, (e.funcall h).1 = .ok r := by
  rw [funcall_ok_iff]
  unfold isCallable
  split
  · rename_i p hr
    simp [hr]
  · rename_i hr
    simp [hr]
  · rename_i hr
    simp [hr]

theorem isCallable_of_stale (hl : e.heap.isLive h = false) :
    e.isCallable h = .error (.reclaimed h) ∧ e.funcall h = (.error (.reclaimed h), e) := by
  have hget := Heap.get_of_not_live (Heap.isLive_eq_false_iff.mp hl)
  have hr : e.resolve h = .error (.reclaimed h) := by
    unfold resolve
    rw [hget]
    rfl
  refine ⟨?_, funcall_of_error hr⟩
  unfold isCallable
  rw [hr]

theorem isLive_of_isCallable {b : Bool} (hanswer : e.isCallable h = .ok b) :
    e.heap.isLive h = true := by
  by_contra hl
  rw [Bool.not_eq_true] at hl
  rw [(isCallable_of_stale hl).1] at hanswer
  cases hanswer

/-- A live value that is not called is refused for one of two reasons. -/
theorem Steady.isCallable_of_refused (hs : e.Steady) (hl : e.heap.isLive h = true)
    {err : HostError} (hcall : (e.funcall h).1 = .error err) :
    e.isCallable h = .ok false ∧
      ((∃ text, err = .notCallable text) ∨ ∃ name, err = .void name) := by
  have hr := funcall_error_iff.mp hcall
  have hres := hs.resolution h
  unfold isCallable
  rw [hr] at hres ⊢
  cases hres with
  | stale hstale =>
    rw [hl] at hstale
    cases hstale
  | void hn hc => exact ⟨rfl, .inr ⟨_, rfl⟩⟩
  | other hv hn hp => exact ⟨rfl, .inl ⟨_, rfl⟩⟩

/-- The ways in which a call ends, and what is answered before it. -/
theorem Steady.call_cases (hs : e.Steady) (h : Handle) :
    (e.heap.isLive h = false ∧ e.isCallable h = .error (.reclaimed h) ∧
      (e.funcall h).1 = .error (.reclaimed h)) ∨
    (e.heap.isLive h = true ∧ e.isCallable h = .ok false ∧
      ∃ err, (e.funcall h).1 = .error err ∧
        ((∃ text, err = .notCallable text) ∨ ∃ name, err = .void name)) ∨
    (e.heap.isLive h = true ∧ e.isCallable h = .ok true ∧ ∃ r, (e.funcall h).1 = .ok r) := by
  cases hl : e.heap.isLive h with
  | false =>
    obtain ⟨hanswer, hcall⟩ := isCallable_of_stale hl
    exact .inl ⟨rfl, hanswer, by rw [hcall]⟩
  | true =>
    cases hcall : (e.funcall h).1 with
    | ok r => exact .inr (.inr ⟨rfl, isCallable_true_iff.mpr ⟨r, hcall⟩, r, rfl⟩)
    | error err =>
      obtain ⟨hanswer, hreason⟩ := hs.isCallable_of_refused hl hcall
      exact .inr (.inl ⟨rfl, hanswer, err, rfl, hreason⟩)

end Editor

end Host

namespace Wrapper

variable {e : Editor} {h r : Handle}

/-! Calls through a wrapper. -/

theorem invoke_of_callable (hanswer : e.isCallable h = .ok true)
    (hcall : (e.funcall h).1 = .ok r) :
    invoke Editor.interface h e = marshal Editor.interface r (e.funcall h).2 := by
  have hsplit : e.funcall h = (.ok r, (e.funcall h).2) := Prod.ext hcall rfl
  unfold invoke
  rw [show isCallable Editor.interface e h = .ok true from hanswer]
  dsimp only
  rw [show Editor.interface.funcall h e = (.ok r, (e.funcall h).2) from hsplit]

theorem invoke_of_refused (hanswer : e.isCallable h = .ok false) {text : String}
    (htext : e.printed h = .ok text) :
    invoke Editor.interface h e = (.error (.notCallable text), e) := by
  unfold invoke
  rw [show isCallable Editor.interface e h = .ok false from hanswer]
  dsimp only
  rw [show Editor.interface.printed e h = .ok text from htext]

theorem invoke_of_error {err : HostError} (hanswer : e.isCallable h = .error err) :
    invoke Editor.interface h e = (.error err, e) := by
  unfold invoke
  rw [show isCallable Editor.interface e h = .error err from hanswer]

/-- A result is always handed over, so nothing fails after a call has begun. -/
theorem invoke_snd_of_error (hs : e.Steady) (hr : e.heap.Fits → e.Referring)
    (hf : (e.funcall h).2.heap.Fits) {err : HostError}
    (hi : (invoke Editor.interface h e).1 = .error err) :
    (invoke Editor.interface h e).2 = e := by
  rcases hs.call_cases h with ⟨-, hanswer, -⟩ | ⟨hl, hanswer, -⟩ | ⟨-, hanswer, r, hcall⟩
  · rw [invoke_of_error hanswer]
  · obtain ⟨text, htext⟩ := Editor.printed_of_live hl
    rw [invoke_of_refused hanswer htext]
  · obtain ⟨v, hv⟩ := Editor.get?_of_funcall hr hcall hf
    rw [invoke_of_callable hanswer hcall, marshal_of_live (hs.funcall h) hv] at hi
    cases hi

/-- After any run, the question whether a value can be called, a call of it and a call through a
wrapper agree. The answer is yes if the call succeeds and no if it is refused; both fail alike for
a stale handle, and no other handle is ever reported stale. A wrapper's call hands over the result
of the call, or refuses the value in its printed form. A call that fails changes nothing; one that
succeeds changes only the heap, by one object at most. While slots have indices of their own, it
leaves all pins and objects alone, and a wrapper's call that fails changes nothing either; for a
heap without room see `Heap.isLive_of_clash`. -/
theorem calls_run (buffer : Buffer) (ops : List Editor.Op) :
    let e := Editor.run buffer ops
    ∀ h, let call := e.funcall h
      let invocation := invoke Editor.interface h e
      ((e.isCallable h = .ok true ↔ ∃ r, call.1 = .ok r) ∧
        (e.isCallable h = .ok false ↔
          (∃ text, call.1 = .error (.notCallable text)) ∨ ∃ name, call.1 = .error (.void name)) ∧
        (∀ err, e.isCallable h = .error err ↔ err = .reclaimed h ∧ e.heap.isLive h = false) ∧
        ∀ g, call.1 = .error (.reclaimed g) ↔ g = h ∧ e.heap.isLive h = false) ∧
      ((∀ err, call.1 = .error err → call.2 = e) ∧
        ∀ r, call.1 = .ok r → e.CallKeeps call.2) ∧
      (∀ r, e.isCallable h = .ok true → call.1 = .ok r →
        invocation = marshal Editor.interface r call.2) ∧
      (e.isCallable h = .ok false →
        ∃ text, e.printed h = .ok text ∧ invocation = (.error (.notCallable text), e)) ∧
      (e.heap.isLive h = false → invocation = (.error (.reclaimed h), e)) ∧
      (call.2.heap.Fits → ∀ err, invocation.1 = .error err → invocation.2 = e) := by
  intro e h call invocation
  have hs : e.Steady := Editor.steady_run buffer ops
  have hr : e.heap.Fits → e.Referring := fun hf => Editor.referring_run hf
  refine ⟨?_, ⟨fun err hcall => ?_, fun _ _ => Editor.callKeeps_funcall hr h⟩,
    fun r => invoke_of_callable, fun hanswer => ?_, fun hl => ?_,
    fun hf err => invoke_snd_of_error hs hr hf⟩
  · rcases hs.call_cases h with ⟨hl, hanswer, hcall⟩ | ⟨hl, hanswer, err, hcall, hreason⟩ |
      ⟨hl, hanswer, r, hcall⟩
    · simp [call, hl, hanswer, hcall, eq_comm]
    · rcases hreason with ⟨text, rfl⟩ | ⟨name, rfl⟩
      · simp [call, hl, hanswer, hcall]
      · simp [call, hl, hanswer, hcall]
    · simp [call, hl, hanswer, hcall]
  · have hfailed := Editor.funcall_of_error (Editor.funcall_error_iff.mp hcall)
    exact congrArg Prod.snd hfailed
  · obtain ⟨text, htext⟩ := Editor.printed_of_live (Editor.isLive_of_isCallable hanswer)
    exact ⟨text, htext, invoke_of_refused hanswer htext⟩
  · exact invoke_of_error (Editor.isCallable_of_stale hl).1

/-- A variable is given a string and then an integer, and the string is collected. -/
def assigned : List Editor.Op :=
  [.setVariable "x" (.string "old"), .setVariable "x" (.integer 1), .collect]

/-- The symbol `point` is called; the integer is not, and neither is what is gone. -/
theorem calls_run_assigned :
    let e := Editor.run (.ofText "text" none) assigned
    (∃ r, (e.funcall ⟨3, 0⟩).1 = .ok r) ∧
    (invoke Editor.interface ⟨3, 0⟩ e).1 = .ok (.integer 1) ∧
    (e.funcall ⟨3, 0⟩).2.heap.pinCount ⟨3, 0⟩ = e.heap.pinCount ⟨3, 0⟩ ∧
    e.isCallable ⟨22, 0⟩ = .ok false ∧
    invoke Editor.interface ⟨23, 0⟩ e = (.error (.notCallable "1"), e) ∧
    invoke Editor.interface ⟨21, 0⟩ e = (.error (.reclaimed ⟨21, 0⟩), e) := by
  intro e
  have hrun := calls_run (.ofText "text" none) assigned
  obtain ⟨⟨hpoint, -⟩, ⟨-, hkeeps⟩, hinvoke, -⟩ := hrun ⟨3, 0⟩
  obtain ⟨⟨-, hvoid, -⟩, -⟩ := hrun ⟨22, 0⟩
  obtain ⟨-, -, -, hrefused, -⟩ := hrun ⟨23, 0⟩
  obtain ⟨-, -, -, -, hstale, -⟩ := hrun ⟨21, 0⟩
  have hcallable : e.isCallable ⟨3, 0⟩ = .ok true := by decide +kernel
  have hinteger : e.isCallable ⟨23, 0⟩ = .ok false := by decide +kernel
  have hfits : (e.funcall ⟨3, 0⟩).2.heap.slots.size ≤ UInt32.size := by decide +kernel
  obtain ⟨r, hcall⟩ := hpoint.mp hcallable
  obtain ⟨text, htext, hinvoked⟩ := hrefused hinteger
  have hprinted : e.printed ⟨23, 0⟩ = .ok "1" := by decide +kernel
  have hone : text = "1" := Except.ok.inj (htext.symm.trans hprinted)
  refine ⟨⟨r, hcall⟩, ?_, (hkeeps r hcall).pins hfits _, hvoid.mpr (.inr ⟨"x", ?_⟩),
    hone ▸ hinvoked, hstale (by decide +kernel)⟩
  · rw [hinvoke r hcallable hcall]
    have hresult : (e.funcall ⟨3, 0⟩).1 = .ok ⟨21, 1⟩ := by decide +kernel
    rw [hcall] at hresult
    cases hresult
    decide +kernel
  · decide +kernel

end Wrapper

end EditorScripting
