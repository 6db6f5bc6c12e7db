import EditorScripting.Proofs.Script.Answers
import EditorScripting.Proofs.Script.Wrappers

/-!
Which wrappers a computation owns. It may copy, drop and name in a command only what it owns at that
time. Each primitive step of the evaluator and each way to put computations together has a rule that
says what it takes and what it gives. What it does not account for is left over; it is dropped when
all is done.
-/
namespace EditorScripting.Script

open Host

attribute [local grind =] Multiset.le_iff_count Multiset.count_add

variable {κ α β : Type} {uses : κ → List Handle}

namespace Program

instance : LawfulMonad (Program κ) :=
  .mk' _ (fun p => bind_done p) (fun _ _ => rfl) fun p f g => bind_assoc p f g

/-- The program owns the wrappers `m`: it copies, drops and names in commands only what it owns at
that time, and `Q` holds of its result and of what it owns then. The command `c` names the wrappers
`uses c`. -/
def Owns (uses : κ → List Handle) (Q : α → Multiset Handle → Prop) :
    Program κ α → Multiset Handle → Prop
  | done a, m => Q a m
  | step k, m => ∀ r, (k r).Owns uses Q m
  | probe _ k, m => ∀ r, (k r).Owns uses Q m
  | retain h k, m => h ∈ m ∧ k.Owns uses Q (h ::ₘ m)
  | release h k, m => h ∈ m ∧ k.Owns uses Q (m.erase h)
  | ask c k, m => (∀ h ∈ uses c, h ∈ m) ∧ ∀ r, (k r).Owns uses Q (answerWrappers r + m)

variable {Q : α → Multiset Handle → Prop} {R : β → Multiset Handle → Prop} {m : Multiset Handle}

theorem Owns.imp {Q' : α → Multiset Handle → Prop} {p : Program κ α} (hp : p.Owns uses Q m)
    (h : ∀ a m, Q a m → Q' a m) : p.Owns uses Q' m := by
  induction p generalizing m with
  | done a => exact h a m hp
  | step k ih => exact fun r => ih r (hp r)
  | probe n k ih => exact fun r => ih r (hp r)
  | retain g k ih => exact ⟨hp.1, ih hp.2⟩
  | release g k ih => exact ⟨hp.1, ih hp.2⟩
  | ask c k ih => exact ⟨hp.1, fun r => ih r (hp.2 r)⟩

theorem Owns.bind {p : Program κ α} {f : α → Program κ β} (hp : p.Owns uses Q m)
    (hf : ∀ a m, Q a m → (f a).Owns uses R m) : (p.bind f).Owns uses R m := by
  induction p generalizing m with
  | done a => exact hf a m hp
  | step k ih => exact fun r => ih r (hp r)
  | probe n k ih => exact fun r => ih r (hp r)
  | retain g k ih => exact ⟨hp.1, ih hp.2⟩
  | release g k ih => exact ⟨hp.1, ih hp.2⟩
  | ask c k ih => exact ⟨hp.1, fun r => ih r (hp.2 r)⟩

end Program

namespace Eval

/-- What is owned at the end of a computation: what its value comes with, or the wrappers of an
interrupt with what is given back. -/
def Left (gives : α → Multiset Handle) (back : Multiset Handle) :
    Except Interrupt α → Multiset Handle
  | .ok a => gives a
  | .error i => i.wrappers + back

/-- The computation takes the wrappers `need`, whatever else there is, and gives those that come
with its value; if it ends early it gives `back`. It leaves the bindings alone. -/
def Trades (uses : κ → List Handle) (need : Multiset Handle) (x : Eval κ α)
    (gives : α → Multiset Handle) (back : Multiset Handle) : Prop :=
  ∀ frame keep m, need + keep ≤ m →
    (x frame).Owns uses (fun r m => r.2 = frame ∧ Left gives back r.1 + keep ≤ m) m

/-- The computation uses the wrappers `need` and gives them back. -/
def Borrows (uses : κ → List Handle) (need : Multiset Handle) (x : Eval κ α) : Prop :=
  Trades uses need x (fun _ => need) need

/-- The computation takes the wrappers `need` beside those of the bindings, which it may change, and
gives those that come with its value. -/
def Spends (uses : κ → List Handle) (need : Multiset Handle) (x : Eval κ α)
    (gives : α → Multiset Handle) : Prop :=
  ∀ frame, frame.constants = [] → ∀ keep m, scopeWrappers frame.scope + need + keep ≤ m →
    (x frame).Owns uses (fun r m => r.2.constants = [] ∧
      scopeWrappers r.2.scope + Left gives 0 r.1 + keep ≤ m) m

variable {need back g : Multiset Handle} {gives : α → Multiset Handle}
  {last : β → Multiset Handle} {x : Eval κ α} {f : α → Eval κ β}

namespace Trades

theorem pure {a : α} (h : gives a ≤ need) : Trades uses need (Pure.pure a) gives back :=
  fun _ _ _ hm => ⟨rfl, (add_le_add_left h _).trans hm⟩

theorem throw {i : Interrupt} (h : i.wrappers + back ≤ need) :
    Trades uses need (throw i) gives back := fun _ _ _ hm => ⟨rfl, (add_le_add_left h _).trans hm⟩

theorem fail {e : Fault} {p : Option Position} (he : e.isPlain = true) (h : back ≤ need) :
    Trades uses need (Eval.fail e p) gives back := by
  refine throw ?_
  rwa [Interrupt.wrappers_fault, Fault.wrappers_of_isPlain he, zero_add]

theorem bind (hx : Trades uses need x gives back)
    (hf : ∀ a, Trades uses (gives a) (f a) last back) : Trades uses need (x >>= f) last back :=
  fun frame keep m hm => by
  rw [bind_apply]
  refine (hx frame keep m hm).bind fun r m hr => ?_
  obtain ⟨r | r, frame'⟩ := r <;> obtain ⟨rfl, hleft⟩ := hr
  · exact ⟨rfl, hleft⟩
  · exact hf r _ keep m hleft

/-- A computation may be given more, and asked for less. -/
theorem mono {need' back' : Multiset Handle} {gives' : α → Multiset Handle}
    (hx : Trades uses need x gives back) (hneed : need ≤ need') (hgives : ∀ a, gives' a ≤ gives a)
    (hback : back' ≤ back) : Trades uses need' x gives' back' := fun frame keep m hm =>
  (hx frame keep m ((add_le_add_left hneed _).trans hm)).imp fun r m hr => by
    refine ⟨hr.1, le_trans (add_le_add_left ?_ _) hr.2⟩
    cases r.1 with
    | ok a => exact hgives a
    | error i => exact add_le_add_right hback _

/-- What else there is stays there. -/
theorem beside (hx : Trades uses need x gives back) (g : Multiset Handle) :
    Trades uses (need + g) x (fun a => gives a + g) (back + g) := fun frame keep m hm => by
  refine (hx frame (g + keep) m (by rwa [← add_assoc])).imp fun r m hr => ⟨hr.1, ?_⟩
  obtain ⟨r | r, frame'⟩ := r <;> grind [Left]

/-- One computation after another, of which the first leaves `g` to the second. -/
theorem andThen {need' back' : Multiset Handle} (hx : Trades uses need x gives back)
    (g : Multiset Handle) (hneed : need + g ≤ need') (hback : back' ≤ back + g)
    (hf : ∀ a, Trades uses (gives a + g) (f a) last back') :
    Trades uses need' (x >>= f) last back' :=
  bind ((hx.beside g).mono hneed (fun _ => le_rfl) hback) hf

theorem within {n : Multiset Handle} (hx : Borrows uses n x) (hn : n ≤ need) :
    Borrows uses need x := by
  obtain ⟨rest, rfl⟩ := Multiset.le_iff_exists_add.mp hn
  exact hx.beside rest

/-- A computation that borrows some of the wrappers before another one. -/
theorem borrow {n : Multiset Handle} (hx : Borrows uses n x) (hn : n ≤ need) (hback : back ≤ need)
    (hf : ∀ a, Trades uses need (f a) last back) : Trades uses need (x >>= f) last back :=
  bind (mono (within hx hn) le_rfl (fun _ => le_rfl) hback) hf

/-- A computation that has to do with no wrappers before another one. -/
theorem before (hx : Borrows uses 0 x) (hback : back ≤ need)
    (hf : ∀ a, Trades uses need (f a) last back) : Trades uses need (x >>= f) last back :=
  borrow hx (Multiset.zero_le _) hback hf

/-- A check before a computation. -/
theorem check {c : Prop} [Decidable c] {e : Fault} {p : Option Position} {y : Eval κ β}
    (he : e.isPlain = true) (hback : back ≤ need) (hy : Trades uses need y last back) :
    Trades uses need (do
      if c then Eval.fail e p
      y) last back := by
  dsimp only
  split
  · exact before (fail he le_rfl) hback fun _ => hy
  · exact hy

/-- What the world refuses with comes with no wrappers. -/
theorem refused {r : Refusal} {p : Option Position} (h : back ≤ need) :
    Trades uses need (Eval.fail (Eval.refused r) p) gives back := by
  cases r with
  | tooManyOperations => exact fail rfl h
  | stopped reason => exact throw (by simpa [Eval.refused, Fault.wrappers, Fault.thrownValue?])

theorem tick {p : Position} : Borrows uses 0 (tick p) := by
  have hanswer : Borrows uses 0 (lift (.step .done) : Eval κ _) := fun _ _ _ hm _ => ⟨rfl, hm⟩
  refine hanswer.bind fun r => ?_
  cases r with
  | none => exact pure le_rfl
  | some r => exact refused le_rfl

theorem probe {depth : Nat} : Borrows uses 0 (probe depth : Eval κ _) :=
  fun _ _ _ hm _ => ⟨rfl, hm⟩

theorem afterProbe {depth : Nat} {p : Option Position} {y : Eval κ β} (hback : back ≤ need)
    (hy : Trades uses need y last back) :
    Trades uses need (do
      if let some r := ← Eval.probe depth then Eval.fail (Eval.refused r) p
      y) last back := by
  refine before probe hback fun r => ?_
  cases r with
  | none => exact hy
  | some r => exact before (refused le_rfl) hback fun _ => hy

/-- Copies are made of wrappers that are owned. -/
theorem retain {v : Value} (h : v.wrappers ≤ need) :
    Trades uses need (retain v) (fun _ => v.wrappers + need) back := by
  have hcopies : ∀ hs : List Handle, (∀ h ∈ hs, h ∈ need) → ∀ copied,
      Trades uses (copied + need) (hs.forM fun h => lift (.retain h (.done ())))
        (fun _ => hs + copied + need) back := by
    intro hs
    induction hs with
    | nil =>
      intro _ copied
      exact pure (by simp)
    | cons g hs ih =>
      intro hmem copied
      have hg : g ∈ need := hmem g (by simp)
      have hcopy : Trades uses (copied + need) (lift (.retain g (.done ())) : Eval κ _)
          (fun _ => (g ::ₘ copied) + need) back := by
        intro frame keep m hm
        refine ⟨Multiset.mem_of_le hm (by simp [hg]), rfl, ?_⟩
        simpa [Left, Multiset.cons_add] using hm
      refine hcopy.bind fun _ => ?_
      have hrest : ∀ h ∈ hs, h ∈ need := fun h hh => hmem h (by simp [hh])
      refine (ih hrest (g ::ₘ copied)).mono le_rfl (fun _ => ?_) le_rfl
      simp [← Multiset.cons_coe]
  refine (hcopies v.handles (fun g hg => Multiset.mem_of_le h hg) 0).mono (by simp) (fun _ => ?_)
    le_rfl
  simp [Value.wrappers]

theorem releaseHandles {hs : List Handle} :
    Trades uses hs (releaseHandles hs) (fun _ => 0) back := by
  induction hs with
  | nil => exact pure le_rfl
  | cons h hs ih =>
    have hdrop : Trades uses (h :: hs : List Handle) (lift (.release h (.done ())) : Eval κ _)
        (fun _ => hs) back := by
      intro frame keep m hm
      refine ⟨Multiset.mem_of_le hm (by simp), rfl, ?_⟩
      have herase := Multiset.erase_le_erase h hm
      simpa [Left, ← Multiset.cons_coe, Multiset.cons_add] using herase
    exact hdrop.bind fun _ => ih

theorem release {v : Value} : Trades uses v.wrappers (release v) (fun _ => 0) back :=
  releaseHandles

theorem releases (vs : List Value) :
    Trades uses (Value.wrappersOf vs) (vs.forM Eval.release) (fun _ => 0) back := by
  induction vs with
  | nil => exact pure le_rfl
  | cons v vs ih =>
    exact release.andThen (Value.wrappersOf vs) le_rfl (Multiset.le_add_right _ _) fun _ => by
      rwa [zero_add]

/-- A command names wrappers that are owned, and its value comes with new ones. -/
theorem ask {c : κ} {p : Option Position} (h : ∀ g ∈ uses c, g ∈ need) :
    Trades uses need (ask c p) (fun v => v.wrappers + need) need := by
  have hanswer : Trades uses need (lift (.ask c .done) : Eval κ _)
      (fun r => answerWrappers r + need) need := by
    refine fun frame keep m hm => ⟨fun g hg => Multiset.mem_of_le hm (by simp [h g hg]), ?_⟩
    intro r
    refine ⟨rfl, ?_⟩
    dsimp only [Left]
    rw [add_assoc]
    exact add_le_add_right hm _
  refine hanswer.bind fun r => ?_
  cases r with
  | ok v => exact pure le_rfl
  | error e => exact throw (by simp [answerWrappers, Fault.wrappers, Fault.thrownValue?])

theorem ofExcept {r : Except Fault α} {p : Position} (hr : Plain r)
    (h : ∀ a, r = .ok a → gives a ≤ need) (hback : back ≤ need) :
    Trades uses need (ofExcept p r) gives back := by
  cases r with
  | ok a => exact pure (h a rfl)
  | error e => exact fail (hr e rfl) hback

theorem outcome (hx : Trades uses need x gives back) :
    Trades uses need x.outcome (Left gives back) g := fun frame keep m hm =>
  (hx frame keep m hm).bind fun _ _ hr => hr

/-- How a computation that borrows ended is known, and all is there still. -/
theorem ended (hx : Borrows uses need x) : Borrows uses need x.outcome :=
  (outcome hx).mono le_rfl (fun r => by
    cases r with
    | ok a => exact le_rfl
    | error i => exact Multiset.le_add_left _ _) le_rfl

theorem discard (hx : Trades uses need x (fun _ => g) back) :
    Trades uses need (discard x) (fun _ => g) back := fun frame keep m hm =>
  (hx frame keep m hm).bind fun r m hr => by
    obtain ⟨r | r, frame'⟩ := r <;> exact hr

end Trades

namespace Spends

/-- A computation that leaves the bindings alone. -/
theorem ofTrades (hx : Trades uses need x gives back) : Spends uses need x gives :=
  fun frame hc keep m hm => by
    refine (hx frame (scopeWrappers frame.scope + keep) m (by grind)).imp fun r m hr => ?_
    obtain ⟨r | r, frame'⟩ := r <;> obtain ⟨rfl, hleft⟩ := hr <;> exact ⟨hc, by grind [Left]⟩

theorem pure {a : α} (h : gives a ≤ need) : Spends uses need (Pure.pure a) gives :=
  ofTrades (Trades.pure h : Trades uses need _ gives 0)

theorem throw {i : Interrupt} (h : i.wrappers ≤ need) : Spends uses need (throw i) gives :=
  ofTrades (Trades.throw (by rwa [add_zero]) : Trades uses need _ gives 0)

theorem fail {e : Fault} {p : Option Position} (he : e.isPlain = true) :
    Spends uses need (Eval.fail e p) gives :=
  ofTrades (Trades.fail he (Multiset.zero_le _) : Trades uses need _ gives 0)

theorem bind (hx : Spends uses need x gives) (hf : ∀ a, Spends uses (gives a) (f a) last) :
    Spends uses need (x >>= f) last := fun frame hc keep m hm => by
  rw [bind_apply]
  refine (hx frame hc keep m hm).bind fun r m hr => ?_
  obtain ⟨r | r, frame'⟩ := r
  · exact hr
  · exact hf r frame' hr.1 keep m hr.2

/-- A computation may be given more, and asked for less. -/
theorem mono {need' : Multiset Handle} {gives' : α → Multiset Handle}
    (hx : Spends uses need x gives) (hneed : need ≤ need') (hgives : ∀ a, gives' a ≤ gives a) :
    Spends uses need' x gives' := fun frame hc keep m hm =>
  (hx frame hc keep m (by grind)).imp fun r m hr => by
    refine ⟨hr.1, ?_⟩
    obtain ⟨r | r, frame'⟩ := r
    · exact hr.2
    · have hle := hgives r
      grind [Left]

/-- One computation after another, of which the first leaves `g` to the second. -/
theorem andThen {need' : Multiset Handle} (hx : Spends uses need x gives) (g : Multiset Handle)
    (hneed : need + g ≤ need') (hf : ∀ a, Spends uses (gives a + g) (f a) last) :
    Spends uses need' (x >>= f) last := by
  have hbeside : Spends uses (need + g) x (fun a => gives a + g) := fun frame hc keep m hm => by
    refine (hx frame hc (g + keep) m (by grind)).imp fun r m hr => ⟨hr.1, ?_⟩
    obtain ⟨r | r, frame'⟩ := r <;> grind [Left]
  exact (hbeside.mono hneed fun _ => le_rfl).bind hf

/-- A computation that takes nothing may be given anything. -/
theorem more (hx : Spends uses 0 x gives) : Spends uses need x gives :=
  hx.mono (Multiset.zero_le _) fun _ => le_rfl

/-- What a computation gives is left over if nothing behind it takes it. -/
theorem forgetting (hx : Spends uses need x gives) (hf : ∀ a, Spends uses 0 (f a) last) :
    Spends uses need (x >>= f) last := hx.bind fun a => (hf a).more

/-- A computation that takes nothing, in front of another one. -/
theorem first (hx : Spends uses 0 x gives) (hf : ∀ a, Spends uses (gives a + need) (f a) last) :
    Spends uses need (x >>= f) last := hx.andThen need (zero_add need).le hf

/-- A computation that has to do with no wrappers before another one. -/
theorem before (hx : Borrows uses 0 x) (hf : ∀ a, Spends uses need (f a) last) :
    Spends uses need (x >>= f) last := (ofTrades hx).first fun a => by
  rw [zero_add]
  exact hf a

theorem outcome (hx : Spends uses need x gives) :
    Spends uses need x.outcome (Left gives 0) := fun frame hc keep m hm =>
  (hx frame hc keep m hm).bind fun _ _ hr => hr

theorem discard (hx : Spends uses need x (fun _ => g)) :
    Spends uses need (discard x) (fun _ => g) := fun frame hc keep m hm =>
  (hx frame hc keep m hm).bind fun r m hr => by
    obtain ⟨r | r, frame'⟩ := r <;> exact hr

theorem retain {v : Value} (h : v.wrappers ≤ need) :
    Spends uses need (retain v) (fun _ => v.wrappers + need) :=
  ofTrades (Trades.retain h : Trades uses need _ _ 0)

theorem release {v : Value} : Spends uses v.wrappers (release v) (fun _ => 0) :=
  ofTrades (Trades.release : Trades uses v.wrappers _ _ 0)

theorem releases (vs : List Value) :
    Spends uses (Value.wrappersOf vs) (vs.forM Eval.release) (fun _ => 0) :=
  ofTrades (Trades.releases vs : Trades uses (Value.wrappersOf vs) _ _ 0)

/-! Scopes. -/

theorem define {env : Environment κ} (hd : env.definitions = []) (name : String) (v : Value)
    (constant : Bool) : Spends uses v.wrappers (define env name v constant) (fun _ => 0) :=
  fun frame hc keep m hm => by
    refine ⟨?_, ?_⟩
    · simp [hd, hc]
    · dsimp only [Left]
      rw [scopeWrappers_cons]
      grind

/-- The bindings above a size of the scope are dropped with their values. -/
theorem shrink (size : Nat) : Spends uses 0 (shrink size : Eval κ Unit) (fun _ => 0) := by
  have hdrops : ∀ gone : List Binding, Trades uses (scopeWrappers gone)
      (gone.forM fun b => Eval.release b.value) (fun _ => 0) 0 := by
    intro gone
    induction gone with
    | nil => exact .pure le_rfl
    | cons b gone ih =>
      refine Trades.release.andThen (scopeWrappers gone) le_rfl (Multiset.le_add_right _ _)
        fun _ => ?_
      rwa [zero_add]
  intro frame hc keep m hm
  have hsplit : scopeWrappers frame.scope =
      scopeWrappers (frame.scope.take (frame.scope.length - size)) +
        scopeWrappers (frame.scope.drop (frame.scope.length - size)) := by
    rw [← scopeWrappers_append, List.take_append_drop]
  refine ofTrades (hdrops _) { frame with
    scope := frame.scope.drop (frame.scope.length - size) } hc keep m ?_
  grind

/-- Neither values nor bindings are concerned by how deep in blocks they are. -/
theorem level (n : Nat) : Spends uses 0
    (modify fun frame => { frame with level := n } : Eval κ PUnit) (fun _ => 0) :=
  fun _ hc _ _ hm => ⟨hc, hm⟩

/-- A scope around a computation changes nothing about what it takes and gives. -/
theorem enclosed (hx : Spends uses need x gives) : Spends uses need (enclosed x) gives := by
  intro frame hc
  refine (?_ : Spends uses need (do
    let r ← x.outcome
    Eval.shrink frame.scope.length
    modify fun inner => { inner with level := frame.level }
    match r with
      | .ok a => Pure.pure a
      | .error i => MonadExcept.throw i) gives) { frame with level := frame.level + 1 } hc
  refine hx.outcome.bind fun r => (shrink _).first fun _ => (level _).first fun _ => ?_
  rw [zero_add, zero_add]
  cases r with
  | ok a => exact pure le_rfl
  | error i => exact throw (add_zero _).ge

end Spends

/-- The computation begins with a variable taken out of the bindings: it takes `need`, which may
hold the wrappers of the variable's value, beside those of all other bindings. -/
def Opens (uses : κ → List Handle) (name : String) (b : Binding) (need : Multiset Handle)
    (x : Eval κ α) (gives : α → Multiset Handle) : Prop :=
  ∀ frame, frame.constants = [] → frame.scope.find? (·.name == name) = some b →
    ∀ rest, rest + b.value.wrappers = scopeWrappers frame.scope → ∀ keep m, rest + need + keep ≤ m →
      (x frame).Owns uses (fun r m => r.2.constants = [] ∧
        scopeWrappers r.2.scope + Left gives 0 r.1 + keep ≤ m) m

namespace Opens

variable {name : String} {b : Binding}

theorem mono {need' : Multiset Handle} (hx : Opens uses name b need x gives)
    (h : need ≤ need') : Opens uses name b need' x gives :=
  fun frame hc hb rest hrest keep m hm => hx frame hc hb rest hrest keep m (by grind)

/-- The value is used while it is taken out, and put back if that goes wrong. -/
theorem trade (hx : Trades uses need x gives b.value.wrappers)
    (hf : ∀ a, Opens uses name b (gives a) (f a) last) : Opens uses name b need (x >>= f) last := by
  intro frame hc hb rest hrest keep m hm
  rw [bind_apply]
  refine (hx frame (rest + keep) m (by grind)).bind fun r m hr => ?_
  obtain ⟨r | r, frame'⟩ := r <;> obtain ⟨rfl, hleft⟩ := hr
  · exact ⟨hc, by grind [Left]⟩
  · exact hf r frame' hc hb rest hrest keep m (by grind [Left])

/-- The computation ends with that. -/
theorem ends {result : α → Multiset Handle} (hx : Trades uses need x gives b.value.wrappers)
    (h : ∀ a, b.value.wrappers + result a ≤ gives a) : Opens uses name b need x result := by
  intro frame hc hb rest hrest keep m hm
  refine (hx frame (rest + keep) m (by grind)).imp fun r m hr => ?_
  obtain ⟨r | r, frame'⟩ := r <;> obtain ⟨rfl, hleft⟩ := hr
  · exact ⟨hc, by grind [Left]⟩
  · have hr := h r
    exact ⟨hc, by grind [Left]⟩

/-- The value goes back. -/
theorem close (hy : Spends uses need x gives) :
    Opens uses name b (b.value.wrappers + need) x gives := by
  intro frame hc hb rest hrest keep m hm
  exact hy frame hc keep m (by grind)

/-- Another value takes its place. -/
theorem assign {v : Value} {p : Position} {f : Unit → Eval κ β}
    (hy : ∀ a, Spends uses need (f a) last) :
    Opens uses name b (v.wrappers + need) (assign v (.ref name p) >>= f) last := by
  intro frame hc hb rest hrest keep m hm
  have hstore := scopeWrappers_store (v := v) hb
  rw [← hrest, ← add_assoc] at hstore
  have hplaced := add_right_cancel hstore
  refine hy () { frame with scope := store name v frame.scope } hc keep m ?_
  grind

end Opens

/-- Without constants of functions, only variables of no module are found. -/
theorem look_cases (env : Environment κ) (e : Expr) {frame : Frame} (hc : frame.constants = []) :
    (∃ name p b, e = .ref name p ∧ frame.scope.find? (·.name == name) = some b ∧
      look env e frame = .done (.ok b, frame)) ∨
    ∃ i, i.wrappers = 0 ∧ look env e frame = .done (.error i, frame) := by
  have hfail (f : Fault) (p : Option Position) (hf : f.isPlain = true) :
      ∃ i : Interrupt, i.wrappers = 0 ∧
        (Eval.fail f p : Eval κ Binding) frame = .done (.error i, frame) :=
    ⟨.fault f p, Fault.wrappers_of_isPlain hf, rfl⟩
  cases e with
  | ref name p =>
    unfold look
    dsimp only
    rw [bind_apply, show (get : Eval κ Frame) frame = .done (.ok frame, frame) from rfl]
    dsimp only [Program.bind, followedBy]
    cases hb : frame.scope.find? (·.name == name) with
    | some b => exact .inl ⟨name, p, b, rfl, hb, rfl⟩
    | none =>
      refine .inr (hfail _ _ ?_)
      split <;> rfl
  | moduleRef path name p q =>
    have hlost : ∀ c : Bool, ∃ i : Interrupt, i.wrappers = 0 ∧
        (if c then Eval.fail (.variableNotFound ("::".intercalate (path ++ [name]))) (some p)
          else Eval.fail (.moduleNotFound ("::".intercalate path)) (some p) :
            Eval κ Binding) frame = .done (.error i, frame) := by
      intro c
      cases c
      · exact hfail _ _ rfl
      · exact hfail _ _ rfl
    refine .inr ?_
    unfold look
    dsimp only
    split
    · rw [bind_apply, show (get : Eval κ Frame) frame = .done (.ok frame, frame) from rfl]
      dsimp only [Program.bind, followedBy]
      rw [hc]
      exact hlost _
    · exact hlost _
  | _ => exact .inr (hfail _ _ rfl)

/-- Looking at a variable takes it out of the bindings for what comes next. -/
theorem Spends.look {env : Environment κ} {e : Expr} {f : Binding → Eval κ β}
    (hf : ∀ name p b, e = .ref name p → Opens uses name b (b.value.wrappers + need) (f b) last) :
    Spends uses need (look env e >>= f) last := by
  intro frame hc keep m hm
  rw [bind_apply]
  rcases look_cases env e hc with ⟨name, p, b, he, hb, hlook⟩ | ⟨i, hi, hlook⟩ <;> rw [hlook]
  · obtain ⟨rest, hrest⟩ := Multiset.le_iff_exists_add.mp (wrappers_le_scopeWrappers hb)
    exact hf name p b he frame hc hb rest (by rw [hrest, add_comm]) keep m (by grind)
  · exact ⟨hc, by grind [Left]⟩

end Eval

end EditorScripting.Script
