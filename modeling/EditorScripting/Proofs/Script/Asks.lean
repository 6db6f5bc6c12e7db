import EditorScripting.Proofs.Script.Answers

/-!
The moments of a run, and the commands that a program still gives from each of them on. In a world
that will not allow anything any more, these are the commands of calls that began before, and whose
arguments are being evaluated.
-/
namespace EditorScripting.Script

variable {κ α β σ : Type}

/-- A state in which the world allows nothing, and which is there for good. -/
structure World.Halts (w : World κ σ) (T : σ → Prop) : Prop where
  keeps : w.Keeps T
  step : ∀ s, T (w.step s).2 → (w.step s).1.isNone = false
  probe : ∀ n s, T (w.probe n s).2 → (w.probe n s).1.isNone = false

/-- A property of states that all answers keep but those to commands outside of `C`. -/
structure World.KeepsFor (w : World κ σ) (C : κ → Prop) (I : σ → Prop) : Prop where
  step : ∀ s, I s → I (w.step s).2
  probe : ∀ n s, I s → I (w.probe n s).2
  retain : ∀ h s, I s → I (w.retain h s)
  release : ∀ h s, I s → I (w.release h s)
  ask : ∀ c s, C c → I s → I (w.ask c s).2

/-- A refusal leaves nothing to do at once. -/
theorem Leave.after_of_isNone {r : Option Refusal} (hr : r.isNone = false) :
    after r = nothing := by
  cases r with
  | none => cases hr
  | some r => rfl

namespace Program

/-- A program and its world after one answer. -/
def next (w : World κ σ) : Program κ α → σ → Program κ α × σ
  | done a, s => (done a, s)
  | step k, s => let (r, s) := w.step s; (k r, s)
  | probe n k, s => let (r, s) := w.probe n s; (k r, s)
  | retain h k, s => (k, w.retain h s)
  | release h k, s => (k, w.release h s)
  | ask c k, s => let (r, s) := w.ask c s; (k r, s)

/-- What is left of a program after `n` answers, and its world then. -/
def after (w : World κ σ) : Nat → Program κ α → σ → Program κ α × σ
  | 0, p, s => (p, s)
  | n + 1, p, s => let (p, s) := p.next w s; p.after w n s

/-- At some moment of a run, this is what is left of the program, and its world. -/
def Reaches (w : World κ σ) (p : Program κ α) (s : σ) (q : Program κ α) (s' : σ) : Prop :=
  ∃ n, p.after w n s = (q, s')

/-- The commands that a program gives in a run. -/
def asks (w : World κ σ) : Program κ α → σ → List κ
  | done _, _ => []
  | step k, s => let (r, s) := w.step s; (k r).asks w s
  | probe n k, s => let (r, s) := w.probe n s; (k r).asks w s
  | retain h k, s => k.asks w (w.retain h s)
  | release h k, s => k.asks w (w.release h s)
  | ask c k, s => let (r, s) := w.ask c s; c :: (k r).asks w s

section

variable {w : World κ σ}

theorem run_next (p : Program κ α) (s : σ) :
    (p.next w s).1.run w (p.next w s).2 = p.run w s := by
  cases p <;> rfl

/-- One program after another gives the commands of both. -/
theorem asks_bind (p : Program κ α) (f : α → Program κ β) (s : σ) :
    (p.bind f).asks w s = p.asks w s ++ (f (p.run w s).1).asks w (p.run w s).2 := by
  induction p generalizing s with
  | done => rfl
  | step k ih => exact ih _ _
  | probe n k ih => exact ih _ _
  | retain h k ih => exact ih _
  | release h k ih => exact ih _
  | ask c k ih => exact congrArg (c :: ·) (ih _ _)

theorem asks_next_subset (p : Program κ α) (s : σ) :
    (p.next w s).1.asks w (p.next w s).2 ⊆ p.asks w s := by
  cases p with
  | ask c k => exact List.subset_cons_self c _
  | _ => exact List.Subset.refl _

namespace Reaches

variable {p q : Program κ α} {s s' : σ}

theorem refl : p.Reaches w s p s := ⟨0, rfl⟩

theorem of_next (hr : (p.next w s).1.Reaches w (p.next w s).2 q s') : p.Reaches w s q s' := by
  obtain ⟨n, hn⟩ := hr
  exact ⟨n + 1, hn⟩

theorem eq_or_next (hr : p.Reaches w s q s') :
    (p, s) = (q, s') ∨ (p.next w s).1.Reaches w (p.next w s).2 q s' := by
  obtain ⟨n, hn⟩ := hr
  cases n with
  | zero => exact .inl hn
  | succ n => exact .inr ⟨n, hn⟩

/-- A property of what is left of a program and its world, from the last moment back to the
first. -/
theorem induction {motive : Program κ α → σ → Prop} (hr : p.Reaches w s q s')
    (here : motive q s')
    (next : ∀ p s, (p.next w s).1.Reaches w (p.next w s).2 q s' →
      motive (p.next w s).1 (p.next w s).2 → motive p s) : motive p s := by
  obtain ⟨n, hn⟩ := hr
  induction n generalizing p s with
  | zero =>
    cases hn
    exact here
  | succ n ih => exact next p s ⟨n, hn⟩ (ih hn)

theorem trans {q' : Program κ α} {s'' : σ} (hr : p.Reaches w s q s')
    (hr' : q.Reaches w s' q' s'') : p.Reaches w s q' s'' :=
  Reaches.induction (motive := fun p s => p.Reaches w s q' s'') hr hr' fun _ _ _ ih => of_next ih

/-- From each moment of a run, what is left of the program leads to the same end. -/
theorem run_eq (hr : p.Reaches w s q s') : q.run w s' = p.run w s :=
  hr.induction (motive := fun p s => q.run w s' = p.run w s) rfl fun p s _ ih =>
    ih.trans (run_next p s)

/-- The commands from a moment on are commands of the whole run. -/
theorem asks_subset (hr : p.Reaches w s q s') : q.asks w s' ⊆ p.asks w s :=
  hr.induction (motive := fun p s => q.asks w s' ⊆ p.asks w s) (List.Subset.refl _)
    fun p s _ ih => List.Subset.trans ih (asks_next_subset p s)

/-- The moments of a program are moments of any longer one. -/
theorem bind (hr : p.Reaches w s q s') (f : α → Program κ β) :
    (p.bind f).Reaches w s (q.bind f) s' := by
  refine hr.induction (motive := fun p s => (p.bind f).Reaches w s (q.bind f) s') refl
    fun p s _ ih => ?_
  cases p with
  | done a => exact ih
  | _ => exact of_next ih

theorem run (p : Program κ α) (s : σ) : p.Reaches w s (.done (p.run w s).1) (p.run w s).2 := by
  induction p generalizing s with
  | done a => exact refl
  | step k ih => exact of_next (ih _ _)
  | probe n k ih => exact of_next (ih _ _)
  | retain h k ih => exact of_next (ih _)
  | release h k ih => exact of_next (ih _)
  | ask c k ih => exact of_next (ih _ _)

/-- Each moment of two programs in a row is one of the first, or one of the second. -/
theorem of_bind {f : α → Program κ β} {q : Program κ β} (hr : (p.bind f).Reaches w s q s') :
    (∃ rest, p.Reaches w s rest s' ∧ q = rest.bind f) ∨
      (f (p.run w s).1).Reaches w (p.run w s).2 q s' := by
  obtain ⟨n, hn⟩ := hr
  induction n generalizing p s with
  | zero =>
    cases hn
    exact .inl ⟨p, refl, rfl⟩
  | succ n ih =>
    have hlater (he : (p.bind f).next w s = ((p.next w s).1.bind f, (p.next w s).2)) :
        (∃ rest, p.Reaches w s rest s' ∧ q = rest.bind f) ∨
          (f (p.run w s).1).Reaches w (p.run w s).2 q s' := by
      rw [after, he] at hn
      rcases ih hn with ⟨rest, hrest, hq⟩ | hsecond
      · exact .inl ⟨rest, of_next hrest, hq⟩
      · rw [run_next] at hsecond
        exact .inr hsecond
    cases p with
    | done a => exact .inr ⟨n + 1, hn⟩
    | _ => exact hlater rfl

end Reaches

/-- What all answers keep but those to some commands, a run keeps that gives none of these. -/
theorem run_keepsFor {C : κ → Prop} {I : σ → Prop} (hw : w.KeepsFor C I) {p : Program κ α} {s : σ}
    (hp : ∀ c ∈ p.asks w s, C c) (hs : I s) : I (p.run w s).2 := by
  induction p generalizing s with
  | done a => exact hs
  | step k ih => exact ih _ hp (hw.step s hs)
  | probe n k ih => exact ih _ hp (hw.probe n s hs)
  | retain h k ih => exact ih hp (hw.retain h s hs)
  | release h k ih => exact ih hp (hw.release h s hs)
  | ask c k ih =>
    have hc := hp c List.mem_cons_self
    exact ih _ (fun d hd => hp d (List.mem_cons_of_mem c hd)) (hw.ask c s hc hs)

/-- Terms that allow the world any reason allow any answer. -/
theorem permitted_of_all {P : Terms κ} (hP : ∀ reason, P.stop reason) (r : Option Refusal) :
    Refusal.Permitted P.stop r := by
  rcases r with - | - | reason
  · trivial
  · trivial
  · exact hP reason

/-- The result of a program that keeps to such terms. -/
theorem Answers.result {P : Terms κ} (hP : ∀ reason, P.stop reason) {Q : α → Prop} {leave : Leave}
    {p : Program κ α} (hp : p.Answers P Q leave) (w : World κ σ) (s : σ) : Q (p.run w s).1 :=
  hp.run_visits (fun _ _ => permitted_of_all hP _) fun _ _ _ => permitted_of_all hP _

end

/-- A command belongs to a call that is under way at a moment of a run, when `q` is left of the
program: the call began when the world was not halted, the rest of its arguments is being evaluated,
and then it gives the command. -/
inductive Underway (P : Terms κ) (w : World κ σ) (T : σ → Prop) (p : Program κ α) (s : σ)
    (q : Program κ α) (s' : σ) (c : κ) : Prop
  | intro {β γ : Type} {x rest : Program κ β} {f : β → Program κ γ} {k : γ → Program κ α} {s₀ : σ}
      {g : Except String Value → Program κ γ} (isCall : P.call x f)
      (begun : p.Reaches w s ((x.bind f).bind k) s₀) (before : ¬ T s₀)
      (evaluating : x.Reaches w s₀ rest s') (now : q = (rest.bind f).bind k)
      (gives : f (rest.run w s').1 = .ask c g)

namespace Underway

variable {P : Terms κ} {w : World κ σ} {T : σ → Prop} {p q : Program κ α} {s s' : σ} {c : κ}

/-- A call that is under way in a program is so in any longer one. -/
theorem bind (hu : Underway P w T p s q s' c) (f : α → Program κ β) :
    Underway P w T (p.bind f) s (q.bind f) s' c := by
  obtain ⟨hcall, hbegun, hbefore, hevaluating, rfl, hgives⟩ := hu
  refine .intro hcall ?_ hbefore hevaluating (bind_assoc _ _ _) hgives
  rw [← bind_assoc]
  exact hbegun.bind f

theorem of_reaches {p' : Program κ α} {s₁ : σ} (hr : p.Reaches w s p' s₁)
    (hu : Underway P w T p' s₁ q s' c) : Underway P w T p s q s' c := by
  obtain ⟨hcall, hbegun, hbefore, hevaluating, hnow, hgives⟩ := hu
  exact .intro hcall (hr.trans hbegun) hbefore hevaluating hnow hgives

end Underway

section

variable {w : World κ σ} {T : σ → Prop} (hw : w.Halts T) {P : Terms κ}
  (hP : ∀ reason, P.stop reason) {Q : α → Prop}
include hw hP

/-- A program that keeps to its terms and may do nothing at once gives no commands. -/
theorem Answers.quiet {p : Program κ α} (hp : p.Answers P Q .nothing) {s : σ} (hs : T s) :
    p.asks w s = [] := by
  generalize hl : Leave.nothing = leave at hp
  induction hp generalizing s with
  | done => rfl
  | step _ ih =>
    have ht := hw.keeps.step s hs
    exact ih _ (permitted_of_all hP _) ht (Leave.after_of_isNone (hw.step s ht)).symm
  | @probe _ _ n _ _ _ ih =>
    have ht := hw.keeps.probe n s hs
    exact ih _ (permitted_of_all hP _) ht (Leave.after_of_isNone (hw.probe n s ht)).symm
  | retain _ ih => exact ih (hw.keeps.retain _ s hs) rfl
  | release _ ih => exact ih (hw.keeps.release _ s hs) rfl
  | ask hc _ _ => exact absurd hl.symm hc
  | call => cases hl

/-- At most the first thing that it does is to give a command, if it may do that. -/
theorem Answers.command {p : Program κ α} (hp : p.Answers P Q .command) {s : σ} (hs : T s) {c : κ}
    (hc : c ∈ p.asks w s) :
    ∃ g, p = .ask c g ∧ (p.next w s).1.asks w (p.next w s).2 = [] := by
  have hquiet (h : p.Answers P Q .nothing) : ∃ g, p = .ask c g ∧
      (p.next w s).1.asks w (p.next w s).2 = [] := by
    rw [h.quiet hw hP hs] at hc
    cases hc
  cases hp with
  | done h => exact hquiet (.done h)
  | step h => exact hquiet (.step h)
  | probe h => exact hquiet (.probe h)
  | retain h => exact hquiet (.retain h)
  | release h => exact hquiet (.release h)
  | @ask _ _ d k _ _ h =>
    have hrest : (k (w.ask d s).1).asks w (w.ask d s).2 = [] :=
      (h _).quiet hw hP (hw.keeps.ask d s hs)
    rcases List.mem_cons.mp hc with rfl | hlater
    · exact ⟨k, rfl, hrest⟩
    · rw [hrest] at hlater
      cases hlater

end

/-- Whenever the world comes to a halt in a run, the rest of the program gives only commands of
calls that are under way. -/
def WindsDown (P : Terms κ) (w : World κ σ) (T : σ → Prop) (p : Program κ α) (s : σ) : Prop :=
  ∀ q s' c, p.Reaches w s q s' → T s' → c ∈ q.asks w s' → Underway P w T p s q s' c

namespace WindsDown

variable {P : Terms κ} {w : World κ σ} {T : σ → Prop} {p : Program κ α} {s : σ}

theorem of_quiet (hp : p.asks w s = []) : WindsDown P w T p s := fun q s' c hr _ hc => by
  have hnone := hr.asks_subset hc
  rw [hp] at hnone
  cases hnone

theorem of_next (hs : ¬ T s) (hnext : WindsDown P w T (p.next w s).1 (p.next w s).2) :
    WindsDown P w T p s := fun q s' c hr ht hc => by
  rcases hr.eq_or_next with he | hlater
  · cases he
    exact absurd ht hs
  · exact (hnext q s' c hlater ht hc).of_reaches (.of_next .refl)

section

variable (hw : w.Keeps T)
include hw

/-- A program behind another one gives no commands if it begins after the halt. -/
theorem bind {f : α → Program κ β} (hp : WindsDown P w T p s)
    (hf : WindsDown P w T (f (p.run w s).1) (p.run w s).2)
    (hquiet : T (p.run w s).2 → (f (p.run w s).1).asks w (p.run w s).2 = []) :
    WindsDown P w T (p.bind f) s := by
  intro q s' c hr ht hc
  rcases hr.of_bind with ⟨rest, hrest, rfl⟩ | hlater
  · rw [asks_bind, List.mem_append, hrest.run_eq] at hc
    have hend : T (p.run w s).2 := hrest.run_eq ▸ run_keeps hw rest ht
    rw [hquiet hend] at hc
    exact (hp rest s' c hrest ht (hc.resolve_right List.not_mem_nil)).bind f
  · exact (hf q s' c hlater ht hc).of_reaches ((Reaches.run p s).bind f)

/-- A call that begins before the halt. It may give its command in any case. -/
theorem call {x : Program κ β} {f : β → Program κ α} (hcall : P.call x f) (hs : ¬ T s)
    (hx : WindsDown P w T x s)
    (hf : ¬ T (x.run w s).2 → WindsDown P w T (f (x.run w s).1) (x.run w s).2)
    (hcommand : ∀ c, T (x.run w s).2 → c ∈ (f (x.run w s).1).asks w (x.run w s).2 →
      ∃ g, f (x.run w s).1 = .ask c g ∧ ((f (x.run w s).1).next w (x.run w s).2).1.asks w
        ((f (x.run w s).1).next w (x.run w s).2).2 = []) : WindsDown P w T (x.bind f) s := by
  have hunderway {rest : Program κ β} {s' : σ} {c : κ} {g : Except String Value → Program κ α}
      (hrest : x.Reaches w s rest s') (hg : f (x.run w s).1 = .ask c g) :
      Underway P w T (x.bind f) s (rest.bind f) s' c := by
    refine .intro (k := .done) hcall ?_ hs hrest (bind_done _).symm (hrest.run_eq ▸ hg)
    rw [bind_done]
    exact .refl
  intro q s' c hr ht hc
  rcases hr.of_bind with ⟨rest, hrest, rfl⟩ | hlater
  · rw [asks_bind, List.mem_append, hrest.run_eq] at hc
    rcases hc with hc | hc
    · exact (hx rest s' c hrest ht hc).bind f
    · have hend : T (x.run w s).2 := hrest.run_eq ▸ run_keeps hw rest ht
      obtain ⟨g, hg, -⟩ := hcommand c hend hc
      exact hunderway hrest hg
  · by_cases hend : T (x.run w s).2
    · -- The arguments were there in time, so that the command is the next thing to come.
      obtain ⟨g, hg, hnone⟩ := hcommand c hend (hlater.asks_subset hc)
      rcases hlater.eq_or_next with he | hpast
      · cases he
        exact hunderway (.run x s) hg
      · have hempty := hpast.asks_subset hc
        rw [hnone] at hempty
        cases hempty
    · exact (hf hend q s' c hlater ht hc).of_reaches ((Reaches.run x s).bind f)

end

end WindsDown

section

variable {w : World κ σ} {T : σ → Prop} (hw : w.Halts T) {P : Terms κ}
  (hP : ∀ reason, P.stop reason) {Q : α → Prop} {p : Program κ α} {leave : Leave} {s : σ}
include hw hP

/-- It is enough to look at what begins before the halt. -/
theorem WindsDown.of_answers (hp : p.Answers P Q leave) (hl : T s → leave = .nothing)
    (hbefore : ¬ T s → WindsDown P w T p s) : WindsDown P w T p s := by
  by_cases hs : T s
  · rw [hl hs] at hp
    exact .of_quiet (hp.quiet hw hP hs)
  · exact hbefore hs

/-- A program that keeps to its terms winds down. -/
theorem Answers.windsDown (hp : p.Answers P Q leave) (hl : T s → leave = .nothing) :
    WindsDown P w T p s := by
  refine .of_answers hw hP hp hl fun hs => ?_
  clear hl
  induction hp generalizing s with
  | done => exact .of_quiet rfl
  | step h ih =>
    refine .of_next hs (.of_answers hw hP (h _ (permitted_of_all hP _)) (fun ht => ?_)
      (ih _ (permitted_of_all hP _)))
    exact Leave.after_of_isNone (hw.step s ht)
  | @probe _ _ n _ _ h ih =>
    refine .of_next hs (.of_answers hw hP (h _ (permitted_of_all hP _)) (fun ht => ?_)
      (ih _ (permitted_of_all hP _)))
    exact Leave.after_of_isNone (hw.probe n s ht)
  | retain h ih => exact .of_next hs (.of_answers hw hP h (fun _ => rfl) ih)
  | release h ih => exact .of_next hs (.of_answers hw hP h (fun _ => rfl) ih)
  | ask _ h ih => exact .of_next hs (.of_answers hw hP (h _) (fun _ => rfl) (ih _))
  | @call _ _ _ _ _ _ _ x f k hcall he hx hf hk ihx ihf ihk =>
    have hb := hx.result hP w s
    have hc := (hf _ hb).result hP w (x.run w s).2
    rw [← run_bind] at hc
    have hnode : WindsDown P w T (x.bind f) s :=
      .call hw.keeps hcall hs (ihx hs) (ihf _ hb) fun c hend hc => (hf _ hb).command hw hP hend hc
    rw [he]
    refine .bind hw.keeps hnode ?_ fun hend => (hk _ hc).quiet hw hP hend
    exact .of_answers hw hP (hk _ hc) (fun _ => rfl) (ihk _ hc)

end

end Program

end EditorScripting.Script
