import EditorScripting.Proofs.Script.Plain
import EditorScripting.Proofs.Script.Visits
import EditorScripting.Script.Eval

/-!
What a computation can end with in a world that stops programs for some reasons only, and what it
may do when the world has not just allowed it to go on. Each primitive step of the evaluator and
each way to put computations together has a rule, so that a fact about the evaluator follows its
definition.
-/
namespace EditorScripting.Script

open Host

/-- An answer of the world that stops a program, if it does, for a reason that satisfies `P`. -/
def Refusal.Permitted (P : Stop → Prop) : Option Refusal → Prop
  | some (.stopped reason) => P reason
  | _ => True

/-- What a program may do at once. -/
inductive Leave where
  /-- The world has to be asked first. -/
  | nothing
  /-- One command may be given. -/
  | command
  /-- The world has just allowed an operation: a command may be given, or a call may begin that
  evaluates its arguments first. -/
  | operation

/-- What a program may do after an answer of the world. -/
def Leave.after : Option Refusal → Leave
  | none => operation
  | some _ => nothing

/-- What is expected of a program and of the world that it runs in. -/
structure Terms (κ : Type) where
  /-- The reasons for which the world may stop the program. -/
  stop : Stop → Prop
  /-- Which parts of programs are calls: the evaluation of some arguments, and what is done with
  them. -/
  call : {α β : Type} → Program κ α → (α → Program κ β) → Prop

namespace Program

variable {κ α β σ : Type} {P : Terms κ} {leave : Leave}

/-- Every result of the program satisfies `Q` while the world stops it for permitted reasons only,
and the program acts right after the world has allowed it to, where `leave` is what it may do at its
beginning. There is one exception. A call that may begin gives its command when its arguments are
there, whatever has happened in between. -/
inductive Answers (P : Terms κ) : {α : Type} → (α → Prop) → Program κ α → Leave → Prop
  | done {α : Type} {Q : α → Prop} {a : α} {leave : Leave} : Q a → Answers P Q (.done a) leave
  | step {α : Type} {Q : α → Prop} {k : Option Refusal → Program κ α} {leave : Leave} :
      (∀ r, Refusal.Permitted P.stop r → Answers P Q (k r) (.after r)) →
      Answers P Q (.step k) leave
  | probe {α : Type} {Q : α → Prop} {n : Nat} {k : Option Refusal → Program κ α} {leave : Leave} :
      (∀ r, Refusal.Permitted P.stop r → Answers P Q (k r) (.after r)) →
      Answers P Q (.probe n k) leave
  | retain {α : Type} {Q : α → Prop} {h : Handle} {k : Program κ α} {leave : Leave} :
      Answers P Q k .nothing → Answers P Q (.retain h k) leave
  | release {α : Type} {Q : α → Prop} {h : Handle} {k : Program κ α} {leave : Leave} :
      Answers P Q k .nothing → Answers P Q (.release h k) leave
  | ask {α : Type} {Q : α → Prop} {c : κ} {k : Except String Value → Program κ α} {leave : Leave} :
      leave ≠ .nothing → (∀ r, Answers P Q (k r) .nothing) → Answers P Q (.ask c k) leave
  | call {α β γ : Type} {Q : α → Prop} {R : β → Prop} {S : γ → Prop} {p : Program κ α}
      {x : Program κ β} {f : β → Program κ γ} {k : γ → Program κ α} :
      P.call x f → p = (x.bind f).bind k → Answers P R x .nothing →
      (∀ b, R b → Answers P S (f b) .command) → (∀ c, S c → Answers P Q (k c) .nothing) →
      Answers P Q p .operation

/-- A program that needs no permission at its beginning may have it. -/
theorem Answers.mono {Q : α → Prop} {p : Program κ α} (hp : p.Answers P Q .nothing) :
    p.Answers P Q leave := by
  cases hp with
  | done h => exact .done h
  | step h => exact .step h
  | probe h => exact .probe h
  | retain h => exact .retain h
  | release h => exact .release h
  | ask hc _ => exact absurd rfl hc

theorem Answers.imp {Q R : α → Prop} {p : Program κ α} (hp : p.Answers P Q leave)
    (h : ∀ a, Q a → R a) : p.Answers P R leave := by
  induction hp with
  | done ha => exact .done (h _ ha)
  | step _ ih => exact .step fun r hr => ih r hr h
  | probe _ ih => exact .probe fun r hr => ih r hr h
  | retain _ ih => exact .retain (ih h)
  | release _ ih => exact .release (ih h)
  | ask hc _ ih => exact .ask hc fun r => ih r h
  | call hcall he hx hf _ _ _ ih => exact .call hcall he hx hf fun c hc => ih c hc h

theorem Answers.bind {Q : α → Prop} {R : β → Prop} {p : Program κ α} {f : α → Program κ β}
    (hp : p.Answers P Q leave) (hf : ∀ a, Q a → (f a).Answers P R .nothing) :
    (p.bind f).Answers P R leave := by
  induction hp with
  | done ha => exact (hf _ ha).mono
  | step _ ih => exact .step fun r hr => ih r hr hf
  | probe _ ih => exact .probe fun r hr => ih r hr hf
  | retain _ ih => exact .retain (ih hf)
  | release _ ih => exact .release (ih hf)
  | ask hc _ ih => exact .ask hc fun r => ih r hf
  | call hcall he hx hcommand _ _ _ ih =>
    -- What comes behind a call is done with its result.
    exact .call hcall (by rw [he, bind_assoc]) hx hcommand fun c hc => ih c hc hf

/-- In a world that keeps an invariant, and stops programs for permitted reasons only while it
holds, a run ends with such a result. -/
theorem Answers.run {Q : α → Prop} {p : Program κ α} (hp : p.Answers P Q leave) {w : World κ σ}
    {I : σ → Prop}
    (hstep : ∀ s, I s → Refusal.Permitted P.stop (w.step s).1 ∧ I (w.step s).2)
    (hprobe : ∀ n s, I s → Refusal.Permitted P.stop (w.probe n s).1 ∧ I (w.probe n s).2)
    (hretain : ∀ h s, I s → I (w.retain h s)) (hrelease : ∀ h s, I s → I (w.release h s))
    (hask : ∀ c s, I s → I (w.ask c s).2) {s : σ} (hs : I s) :
    Q (p.run w s).1 ∧ I (p.run w s).2 := by
  induction hp generalizing s with
  | done ha => exact ⟨ha, hs⟩
  | step _ ih => exact ih _ (hstep s hs).1 (hstep s hs).2
  | probe _ ih => exact ih _ (hprobe _ s hs).1 (hprobe _ s hs).2
  | retain _ ih => exact ih (hretain _ s hs)
  | release _ ih => exact ih (hrelease _ s hs)
  | ask _ _ ih => exact ih _ (hask _ s hs)
  | call _ he _ _ _ ihx ihf ihk =>
    obtain ⟨hb, hi⟩ := ihx hs
    obtain ⟨hc, hi⟩ := ihf _ hb hi
    rw [he, run_bind, run_bind]
    exact ihk _ hc hi

/-- A run ends with such a result if all the refusals that it meets are permitted. -/
theorem Answers.run_visits {Q : α → Prop} {p : Program κ α} (hp : p.Answers P Q leave)
    {w : World κ σ} {s : σ}
    (hstep : ∀ s', p.Visits w s (w.step s').2 → Refusal.Permitted P.stop (w.step s').1)
    (hprobe : ∀ n s', p.Visits w s (w.probe n s').2 → Refusal.Permitted P.stop (w.probe n s').1) :
    Q (p.run w s).1 := by
  induction hp generalizing s with
  | done ha => exact ha
  | step _ ih =>
    have hfirst := hstep s (.step .here)
    exact ih _ hfirst (fun s' hv => hstep s' (.step hv)) fun n s' hv => hprobe n s' (.step hv)
  | probe _ ih =>
    have hfirst := hprobe _ s (.probe .here)
    exact ih _ hfirst (fun s' hv => hstep s' (.probe hv)) fun n s' hv => hprobe n s' (.probe hv)
  | retain _ ih =>
    exact ih (fun s' hv => hstep s' (.retain hv)) fun n s' hv => hprobe n s' (.retain hv)
  | release _ ih =>
    exact ih (fun s' hv => hstep s' (.release hv)) fun n s' hv => hprobe n s' (.release hv)
  | ask _ _ ih =>
    exact ih _ (fun s' hv => hstep s' (.ask hv)) fun n s' hv => hprobe n s' (.ask hv)
  | @call _ _ _ _ _ _ _ x f k _ he _ _ _ ihx ihf ihk =>
    subst he
    have hb := ihx (fun s' hv => hstep s' ((hv.bind f).bind k))
      fun n s' hv => hprobe n s' ((hv.bind f).bind k)
    have hc := ihf _ hb (fun s' hv => hstep s' ((Visits.of_run hv).bind k))
      fun n s' hv => hprobe n s' ((Visits.of_run hv).bind k)
    rw [← run_bind] at hc
    rw [run_bind]
    exact ihk _ hc (fun s' hv => hstep s' (.of_run hv)) fun n s' hv => hprobe n s' (.of_run hv)

end Program

/-- The fault is no stop, or a stop for a permitted reason. -/
def Fault.Permitted (P : Stop → Prop) : Fault → Prop
  | .stopped reason => P reason
  | _ => True

theorem Fault.permitted_of_plain {α : Type} {P : Stop → Prop} {f : Fault}
    (h : Plain (.error f : Except Fault α)) : f.Permitted P := by
  cases f with
  | stopped reason => cases h _ rfl
  | _ => trivial

def Interrupt.Permitted (P : Stop → Prop) : Interrupt → Prop
  | .fault f _ => f.Permitted P
  | _ => True

namespace Eval

variable {κ α β : Type} {P : Terms κ} {leave : Leave} {V : α → Prop} {W : β → Prop}

/-- What follows a computation, as a part of a program. An interrupt is passed on. -/
def followedBy (f : α → Eval κ β) :
    Except Interrupt α × Frame → Program κ (Except Interrupt β × Frame)
  | (.ok a, frame) => f a frame
  | (.error i, frame) => .done (.error i, frame)

theorem bind_apply (x : Eval κ α) (f : α → Eval κ β) (frame : Frame) :
    (x >>= f) frame = (x frame).bind (followedBy f) := by
  refine congrArg (x frame).bind (funext fun r => ?_)
  obtain ⟨r | r, frame⟩ := r <;> rfl

/-- How a computation may end: with a value that satisfies `V`, or early with a permitted
interrupt. -/
def EndsWith (P : Stop → Prop) (V : α → Prop) : Except Interrupt α → Prop
  | .ok a => V a
  | .error i => i.Permitted P

/-- The computation keeps to the terms and ends like that from any bindings. -/
def Returns (leave : Leave) (P : Terms κ) (V : α → Prop) (x : Eval κ α) : Prop :=
  ∀ frame, (x frame).Answers P (fun r => EndsWith P.stop V r.1) leave

/-- The computation keeps to the terms. -/
def Stops (P : Terms κ) (x : Eval κ α) : Prop := Returns .nothing P (fun _ => True) x

/-- The computation keeps to the terms if it begins right after an operation was allowed. -/
def StopsReady (P : Terms κ) (x : Eval κ α) : Prop := Returns .operation P (fun _ => True) x

namespace Returns

theorem pure {a : α} (h : V a) : Returns leave P V (Pure.pure a : Eval κ α) := fun _ => .done h

/-- A computation that needs no permission at its beginning may have it. -/
theorem mono {x : Eval κ α} (hx : Returns .nothing P V x) : Returns leave P V x :=
  fun frame => (hx frame).mono

theorem imp {V' : α → Prop} {x : Eval κ α} (hx : Returns leave P V x) (h : ∀ a, V a → V' a) :
    Returns leave P V' x := fun frame => (hx frame).imp fun r hr => by
  obtain ⟨r | r, frame⟩ := r
  · exact hr
  · exact h r hr

/-- What follows a computation goes on from each of its values. -/
theorem followedBy {f : α → Eval κ β} (hf : ∀ a, V a → Returns leave P W (f a))
    {r : Except Interrupt α × Frame} (hr : EndsWith P.stop V r.1) :
    (Eval.followedBy f r).Answers P (fun r => EndsWith P.stop W r.1) leave := by
  obtain ⟨r | r, frame⟩ := r
  · exact .done hr
  · exact hf r hr frame

theorem bind {x : Eval κ α} {f : α → Eval κ β} (hx : Returns leave P V x)
    (hf : ∀ a, V a → Returns .nothing P W (f a)) : Returns leave P W (x >>= f) := fun frame => by
  rw [bind_apply]
  exact (hx frame).bind fun r hr => followedBy hf hr

/-- A call may give its command as soon as the arguments are there. -/
theorem call {x : Eval κ α} {f : α → Eval κ β} (hc : ∀ frame, P.call (x frame) (Eval.followedBy f))
    (hx : Returns .nothing P V x) (hf : ∀ a, V a → Returns .command P W (f a)) :
    Returns .operation P W (x >>= f) := fun frame => by
  refine .call (k := .done) (hc frame) ?_ (hx frame) (fun _ hr => followedBy hf hr)
    fun _ hr => .done hr
  rw [bind_apply, Program.bind_done]

theorem throw {i : Interrupt} (h : i.Permitted P.stop) :
    Returns leave P V (throw i : Eval κ α) := fun _ => .done h

theorem fail {f : Fault} {p : Option Position} (h : f.Permitted P.stop) :
    Returns leave P V (Eval.fail f p : Eval κ α) := fun _ => .done h

theorem andThen {x : Eval κ α} {f : α → Eval κ β} (hx : Returns leave P (fun _ => True) x)
    (hf : ∀ a, Returns .nothing P W (f a)) : Returns leave P W (x >>= f) := hx.bind fun a _ => hf a

/-- A check before a computation. -/
theorem check {c : Prop} [Decidable c] {f : Fault} {p : Option Position} {x : Eval κ β}
    (hf : f.Permitted P.stop) (hx : Returns .nothing P W x) :
    Returns leave P W (do
      if c then Eval.fail f p
      x) := by
  dsimp only
  split
  · exact andThen (fail hf) fun _ => hx
  · exact hx.mono

theorem any {x : Eval κ α} (hx : Returns leave P V x) : Returns leave P (fun _ => True) x :=
  hx.imp fun _ _ => trivial

theorem discard {x : Eval κ α} (hx : Returns leave P V x) :
    Returns leave P (fun _ => True) (discard x) := fun frame =>
  (hx frame).bind fun r hr => by
    obtain ⟨r | r, frame⟩ := r
    · exact .done hr
    · exact .done trivial

theorem forM {f : α → Eval κ PUnit} (hf : ∀ a, Stops P (f a)) (l : List α) :
    Stops P (l.forM f) := by
  induction l with
  | nil => exact pure trivial
  | cons a l ih => exact andThen (hf a) fun _ => ih

theorem ofExcept {r : Except Fault α} {p : Position} (h : Plain r) :
    Returns leave P (fun _ => True) (Eval.ofExcept p r : Eval κ α) := by
  cases r with
  | ok a => exact pure trivial
  | error f => exact fail (Fault.permitted_of_plain h)

/-- The bindings matter for no rule, so steps that only read or change them never stop. -/
theorem get : Stops P (get : Eval κ Frame) := fun _ => .done trivial

theorem set {frame : Frame} : Stops P (set frame : Eval κ PUnit) := fun _ => .done trivial

theorem modify {f : Frame → Frame} : Stops P (modify f : Eval κ PUnit) := fun _ => .done trivial

/-- How a computation ended is known, so it may be ended in the same way later. -/
theorem outcome {x : Eval κ α} (hx : Returns leave P V x) :
    Returns leave P (EndsWith P.stop V) x.outcome := fun frame =>
  (hx frame).bind fun _ hr => .done hr

theorem retain {v : Value} : Stops P (Eval.retain v : Eval κ PUnit) :=
  forM (f := fun h => lift (.retain h (.done ()))) (fun _ _ => .retain (.done trivial)) v.handles

theorem releaseHandles {hs : List Handle} : Stops P (Eval.releaseHandles hs : Eval κ PUnit) :=
  forM (f := fun h => lift (.release h (.done ()))) (fun _ _ => .release (.done trivial)) hs

theorem release {v : Value} : Stops P (Eval.release v : Eval κ PUnit) := releaseHandles

theorem ask {c : κ} {p : Option Position} (hl : leave ≠ .nothing) :
    Returns leave P (fun _ => True) (Eval.ask c p : Eval κ Value) := by
  refine andThen (fun _ => .ask hl fun _ => .done trivial) fun r => ?_
  cases r with
  | ok v => exact pure trivial
  | error message => exact fail trivial

end Returns

/-- What the world refuses with reaches the script as a fault. -/
theorem permitted_refused {P : Stop → Prop} {r : Refusal} (h : Refusal.Permitted P (some r)) :
    (refused r).Permitted P := by
  cases r with
  | tooManyOperations => trivial
  | stopped reason => exact h

/-- An operation begins only if the world allows it, and what comes next may rely on that. -/
theorem Returns.afterTick {p : Position} {f : Unit → Eval κ β}
    (hf : Returns .operation P W (f ())) : Returns leave P W (tick p >>= f) :=
  fun frame => .step fun r hr => by
    cases r with
    | none => exact hf frame
    | some r => exact .done (permitted_refused hr)

/-- Refusing an operation inside an operation ends a computation with the answer of the world. -/
theorem Returns.afterProbe {depth : Nat} {p : Option Position} {x : Eval κ β}
    (hx : Returns .operation P W x) :
    Returns leave P W (do
      if let some r := ← probe depth then Eval.fail (refused r) p
      x) := fun frame => .probe fun r hr => by
    cases r with
    | none => exact hx frame
    | some r => exact .done (permitted_refused hr)

theorem Returns.tick {p : Position} : Stops P (tick p : Eval κ Unit) := by
  refine bind (V := Refusal.Permitted P.stop) (fun _ => .step fun _ hr => .done hr) fun r hr => ?_
  cases r with
  | none => exact pure trivial
  | some r => exact fail (permitted_refused hr)

end Eval

end EditorScripting.Script
