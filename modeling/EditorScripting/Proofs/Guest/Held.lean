import EditorScripting.Guest.Run
import EditorScripting.Proofs.Script.Asks
import EditorScripting.Proofs.Script.Ownership

/-!
The guest holds the wrappers that its code owns. Whatever the code does, the list of wrappers that
are held changes as its ownership does, so that it copies, drops and names only what is held.
-/
namespace EditorScripting.Guest

open Host Script

namespace Command

/-- The wrappers that a command is about. -/
def wrappers : Command → List Handle
  | .kind h | .name h | .isSymbol h | .isCallable h | .invoke h | .display h => [h]
  | _ => []

theorem wrappers_of_moduleFunction? {name : String} {args : List Value} {c : Command}
    (hc : moduleFunction? name args = some c) : c.wrappers = [] := by
  unfold moduleFunction? at hc
  split at hc <;> cases hc <;> rfl

theorem wrappers_of_method? {name : String} {args : List Value} {c : Command}
    (hc : method? name args = some c) : ∀ h ∈ c.wrappers, h ∈ Value.wrappersOf args := by
  unfold method? at hc
  split at hc <;> cases hc <;> simp [wrappers]

theorem wrappers_of_property? {name : String} {h : Handle} {c : Command}
    (hc : property? name h = some c) : c.wrappers = [h] := by
  unfold property? at hc
  split at hc <;> cases hc <;> rfl

/-- Expressions can ask for nothing about a wrapper that they do not have. -/
theorem lends_environment (limits : Limits) (moduleName : String) :
    (environment limits moduleName).Lends wrappers where
  definitions := rfl
  moduleFunction hc h hh := by simp [wrappers_of_moduleFunction? hc] at hh
  function hc := wrappers_of_method? hc
  property hc g hg := by simpa [wrappers_of_property? hc] using hg
  describe hc g hg := by
    cases hc
    simpa [wrappers] using hg

end Command

namespace Running

variable {σ : Type} (around : Surroundings σ)

theorem held_gives (hs : List Handle) (r : Running σ) :
    ((hs.foldl (fun r h => r.give around h) r).held : Multiset Handle) = hs + r.held := by
  induction hs generalizing r with
  | nil => simp
  | cons h hs ih =>
    rw [List.foldl_cons, ih]
    simp [give, hold, ← Multiset.cons_coe]

theorem wrappers_snapshot (d : Dictionary) :
    (snapshot d).wrappers = (d.entries.map (·.2) : List Handle) := by
  have hentries : ∀ es : List (String × Handle),
      Value.handlesOfEntries (es.map fun e => (e.1, .object e.2)) = es.map (·.2) := by
    intro es
    induction es with
    | nil => rfl
    | cons e es ih => exact congrArg (e.2 :: ·) ih
  exact congrArg _ (hentries d.entries)

/-- The guest holds what an answer comes with, and nothing else that is new. -/
theorem held_perform (c : Command) (r : Running σ) :
    ((r.perform around c).2.held : Multiset Handle) =
      answerWrappers (r.perform around c).1 + r.held := by
  have hbare {e : Except String Value} (he : answerWrappers e = 0) :
      (r.held : Multiset Handle) = answerWrappers e + r.held := by rw [he, zero_add]
  have hanswer {α : Type} {f : α → Value} (hf : ∀ a, (f a).wrappers = 0)
      (e : Except HostError α) : answerWrappers (answer f e) = 0 := by
    cases e with
    | ok a => exact hf a
    | error e => rfl
  cases c with
  | symbols =>
    have hgives := held_gives around (r.bridge.dictionary.entries.map (·.2)) r
    rw [List.foldl_map, ← wrappers_snapshot] at hgives
    exact hgives
  | mark =>
    have hmark : (((around.host.mark r.shared).map Value.int).getD .unit).wrappers = 0 := by
      cases around.host.mark r.shared <;> rfl
    exact hbare hmark
  | symbol name =>
    unfold perform
    dsimp only
    split <;> simp [answerWrappers, give, hold, ← Multiset.cons_coe]
  | wrap name =>
    unfold perform
    dsimp only
    split <;> simp [answerWrappers, hold, ← Multiset.cons_coe]
  | invoke h =>
    unfold perform
    dsimp only
    split <;> simp [answerWrappers, hold, ← Multiset.cons_coe]
  | kind h => exact hbare (hanswer Value.wrappers_string _)
  | name h => exact hbare (hanswer (fun _ => rfl) _)
  | isSymbol h => exact hbare (hanswer (fun _ => rfl) _)
  | isCallable h => exact hbare (hanswer Value.wrappers_bool _)
  | display h => exact hbare (hanswer Value.wrappers_string _)
  | _ => exact hbare rfl

variable {around} {α : Type} {Q : α → Multiset Handle → Prop} {limit : Nat}

/-- Each answer changes what is held as it changes what is owned. -/
theorem owns_next {p : Program Command α} {r : Running σ}
    (hp : p.Owns Command.wrappers Q r.held) :
    (p.next (world around limit) r).1.Owns Command.wrappers Q
      ((p.next (world around limit) r).2.held) := by
  have hstep : (r.step around limit).2.held = r.held := by
    unfold step
    dsimp only
    split <;> rfl
  have hprobe (n : Nat) : (r.probe around limit n).2.held = r.held := by
    unfold probe
    split <;> rfl
  cases p with
  | done a => exact hp
  | step k => exact hstep ▸ hp _
  | probe n k => exact hprobe n ▸ hp _
  | retain h k =>
    have hheld : h ∈ r.held := hp.1
    dsimp only [Program.next, world, retain]
    rw [if_pos hheld]
    exact hp.2
  | release h k =>
    have hheld : h ∈ r.held := hp.1
    dsimp only [Program.next, world, release]
    rw [if_pos hheld]
    exact hp.2
  | ask c k =>
    have hperform := held_perform around c (r.elapse around)
    dsimp only [Program.next, world]
    rw [hperform]
    exact hp.2 _

/-- At every moment of a run, the code that is left owns what the guest holds. -/
theorem owns_of_reaches {p q : Program Command α} {r r' : Running σ}
    (hr : p.Reaches (world around limit) r q r') (hp : p.Owns Command.wrappers Q r.held) :
    q.Owns Command.wrappers Q r'.held :=
  hr.induction (motive := fun p r => p.Owns Command.wrappers Q r.held →
    q.Owns Command.wrappers Q r'.held) id (fun _ _ _ ih hp => ih (owns_next hp)) hp

/-- At the end of a run, the guest holds what is left to it. -/
theorem of_owns {p : Program Command α} {r : Running σ}
    (hp : p.Owns Command.wrappers Q r.held) :
    Q (p.run (world around limit) r).1 (p.run (world around limit) r).2.held :=
  owns_of_reaches (Program.Reaches.run p r) hp

/-- A computation of the evaluator whose bindings and values are held leaves its bindings, and its
value or what it ends early with, to be held. -/
theorem held_of_spends {x : Eval Command α} {need : Multiset Handle} {gives : α → Multiset Handle}
    (hx : Eval.Spends Command.wrappers need x gives) {frame : Frame} (hc : frame.constants = [])
    {r : Running σ} (hm : scopeWrappers frame.scope + need ≤ r.held) :
    let last := (x frame).run (world around limit) r
    scopeWrappers last.1.2.scope + Eval.Left gives 0 last.1.1 ≤ last.2.held := by
  have hown := hx frame hc 0 r.held (by rwa [add_zero])
  exact (add_zero _).ge.trans (of_owns hown).2

end Running

end EditorScripting.Guest
