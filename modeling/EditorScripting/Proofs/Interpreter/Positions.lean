import EditorScripting.Guest.Standalone
import EditorScripting.Proofs.Buffer.Moves
import EditorScripting.Proofs.Interpreter.AfterTrip
import EditorScripting.Proofs.Interpreter.Tracks

/-!
Point and mark while the host and guest code move them by turns. Whatever an evaluation comes to, it
does no more to the buffer than moves, so point and mark are in the text at every moment of it and
at its end.
-/
namespace EditorScripting

open Host Script Guest

variable {σ : Type}

namespace Guest.Surroundings

/-- The host keeps a buffer, in which its functions for point and mark move. Whatever else it does,
and whatever happens elsewhere, does no more to the buffer than moves. -/
structure Edits (around : Surroundings σ) (buffer : σ → Buffer) : Prop where
  gotoChar : ∀ n s, (around.host.gotoChar n s).1 = ((buffer s).gotoChar n).1 ∧
    buffer (around.host.gotoChar n s).2 = ((buffer s).gotoChar n).2
  setMark : ∀ n s, (around.host.setMark n s).1 = ((buffer s).setMark n).1 ∧
    buffer (around.host.setMark n s).2 = ((buffer s).setMark n).2
  setWatchdog : ∀ w s, buffer (around.setWatchdog w s) = buffer s
  meanwhile : ∀ s, (buffer s).Leads (buffer (around.meanwhile s))
  intern : ∀ name s, (buffer s).Leads (buffer (around.host.intern name s).2)
  makeString : ∀ text s, (buffer s).Leads (buffer (around.host.makeString text s).2)
  pin : ∀ h s, (buffer s).Leads (buffer (around.host.pin h s).2)
  unpin : ∀ h s, (buffer s).Leads (buffer (around.host.unpin h s))
  funcall : ∀ f s, (buffer s).Leads (buffer (around.host.funcall f s).2)
  point : ∀ s, (buffer s).Leads (buffer (around.host.point s).2)

variable {around : Surroundings σ} {buffer : σ → Buffer}

theorem Edits.wentTo (he : around.Edits buffer) (n : Int) (s : σ) :
    (buffer s).WentTo n (around.host.gotoChar n s).1 (buffer (around.host.gotoChar n s).2) := by
  obtain ⟨hanswer, hbuffer⟩ := he.gotoChar n s
  rw [hanswer, hbuffer]
  exact (buffer s).wentTo_gotoChar n

theorem Edits.markedAt (he : around.Edits buffer) (n : Int) (s : σ) :
    (buffer s).MarkedAt n (around.host.setMark n s).1 (buffer (around.host.setMark n s).2) := by
  obtain ⟨hanswer, hbuffer⟩ := he.setMark n s
  rw [hanswer, hbuffer]
  exact (buffer s).markedAt_setMark n

/-- That a buffer comes from another one by moves is an invariant of the surroundings. -/
theorem Edits.tracks (he : around.Edits buffer) (b : Buffer) :
    around.Tracks fun _ s => b.Leads (buffer s) where
  host :=
    { intern name hb := hb.trans (he.intern name _)
      makeString text hb := hb.trans (he.makeString text _)
      funcall f hb := hb.trans (he.funcall f _)
      point hb := hb.trans (he.point _)
      gotoChar n hb := hb.trans ((he.gotoChar n _).2 ▸ .gotoChar _ n)
      setMark n hb := hb.trans ((he.setMark n _).2 ▸ .setMark _ n)
      pin {_ s} h hb := by
        have hpin := hb.trans (he.pin h s)
        split <;> rename_i hp <;> rw [hp] at hpin <;> exact hpin
      copy h hb _ := hb.trans (he.pin h _)
      unpin h hb := hb.trans (he.unpin h _) }
  meanwhile hb := hb.trans (he.meanwhile _)

end Guest.Surroundings

/-- An editor by itself, whatever happens to it meanwhile. -/
theorem Guest.Standalone.edits_amid {meanwhile : Standalone → Standalone}
    (hm : ∀ s : Standalone, s.editor.buffer.Leads (meanwhile s).editor.buffer) :
    (Standalone.amid meanwhile).Edits fun s : Standalone => s.editor.buffer where
  gotoChar _ _ := ⟨rfl, rfl⟩
  setMark _ _ := ⟨rfl, rfl⟩
  setWatchdog _ _ := rfl
  meanwhile := hm
  intern name s := .of_eq (s.editor.buffer_intern name)
  makeString _ _ := .of_eq rfl
  pin _ _ := .of_eq rfl
  unpin _ _ := .of_eq rfl
  funcall f s := .of_eq (s.editor.buffer_funcall f)
  point _ := .of_eq rfl

namespace Session.Stage

theorem buffer_point (s : Stage) : s.point.2.editor.buffer = s.editor.buffer := by
  have hcancel (s : Stage) : s.hookedCancel.editor.buffer = s.editor.buffer := by
    unfold hookedCancel
    split <;> rfl
  have hcollect (s : Stage) : s.hookedCollect.editor.buffer = s.editor.buffer := by
    unfold hookedCollect
    split <;> rfl
  unfold point
  dsimp only
  rw [hcollect, hookedSleep, hcancel]

/-- On the stage of a session hooks may stop an evaluation, and leave the buffer alone. -/
theorem edits_around (name : String) : (around name).Edits fun s => s.editor.buffer where
  gotoChar _ _ := ⟨rfl, rfl⟩
  setMark _ _ := ⟨rfl, rfl⟩
  setWatchdog _ _ := rfl
  meanwhile _ := .of_eq rfl
  intern name s := .of_eq (s.editor.buffer_intern name)
  makeString _ _ := .of_eq rfl
  pin h s := .of_eq (editor_pin h s).1
  unpin _ _ := .of_eq rfl
  funcall f s := .of_eq (s.editor.buffer_funcall f)
  point s := .of_eq s.buffer_point

end Session.Stage

namespace Interpreter

variable {around : Surroundings σ} {buffer : σ → Buffer} {i : Interpreter} {source : String}
  {s : σ} {r : Running σ}

/-- What the programs keep from some moment on holds when they have come to an end. -/
theorem keeps_outcome {I : Running σ → Prop} (hw : (world around i).Keeps I)
    (hcount : ∀ r, I r → I { r with operations := 0 }) {phase : Phase}
    {p : Program Command (Except Failed Value)} {r₀ : Running σ}
    (hp : phase.start around i source s = some (p, r₀)) (hv : p.Visits (world around i) r₀ r)
    (hr : I r) : I (outcome around i source s).2 := by
  obtain ⟨q, hq⟩ := hv.rest
  have hend : I (p.run (world around i) r₀).2 := hq ▸ Program.run_keeps hw q hr
  have hrun : phase.run around i source s = some (p.run (world around i) r₀) :=
    congrArg (Option.map _) hp
  generalize p.run (world around i) r₀ = ended at hend hrun
  obtain ⟨result, last⟩ := ended
  cases phase with
  | conversion =>
    rw [outcome_of_conversion hrun]
    exact hend
  | expression =>
    rcases outcome_cases around i source s with
      ⟨f, hc, -⟩ | ⟨f, r', hr', ho⟩ | ⟨v, r', f, hr', -, ho⟩ | ⟨v, r', hr', ho⟩
    · obtain ⟨body, hbody, -⟩ := expressionStart_eq_some_iff.mp hp
      rw [hc] at hbody
      cases hbody
    · rw [ho]
      cases hrun.symm.trans hr'
      exact hend
    · rw [ho]
      cases hrun.symm.trans hr'
      exact hend
    · rw [ho]
      obtain ⟨⟨p', r₁⟩, hp', he⟩ := Option.map_eq_some_iff.mp hr'
      obtain ⟨v', r₂, body, hrun', -, hstart⟩ := conversionStart_eq_some_iff.mp hp'
      cases hrun.symm.trans hrun'
      have hconversion : I r₁ := by
        cases hstart
        exact hcount _ hend
      have hlast := Program.run_keeps hw p' hconversion
      rw [show p'.run (world around i) r₁ = (v, r') from he] at hlast
      exact hlast

section

variable (he : around.Edits buffer)
include he

/-- Nothing but moves happens to the buffer until any moment of an evaluation. -/
theorem leads_during (hr : During around i source s r) : (buffer s).Leads (buffer r.shared) := by
  have hfresh : (buffer s).Leads (buffer (fresh around i s).shared) :=
    .of_eq (he.setWatchdog _ s)
  exact accounts_during (m := bindingHandles i.globals) (he.tracks (buffer s)) hfresh
    (fun _ hh => by simpa using hh) hr

theorem leads_drops (b : Buffer) (hs : List Handle) (hb : b.Leads (buffer s)) :
    b.Leads (buffer (hs.foldl (fun s h => Wrapper.drop around.host h s) s)) :=
  Wrapper.tracks_drops (m := 0) (he.tracks b).host.new hb

/-- Nothing but moves happens to the buffer from any moment of an evaluation on. -/
theorem leads_of_during (hr : During around i source s r) :
    (buffer r.shared).Leads (buffer (i.evaluate around source s).2.2) := by
  let b := buffer r.shared
  have ht := he.tracks b
  have hkeeps : (world around i).Keeps fun r => b.Leads (buffer r.shared) :=
    Running.keeps_accounts (m := 0) ht i.settings.maxOperations.toNat
  have hgives (hs : List Handle) (r : Running σ) (hr : b.Leads (buffer r.shared)) :
      b.Leads (buffer (hs.foldl (fun r h => r.give around h) r).shared) := by
    induction hs generalizing r with
    | nil => exact hr
    | cons h hs ih => exact ih (r.give around h) (hr.trans (he.pin h r.shared))
  suffices hend : b.Leads (buffer ((outcome around i source s).2.releaseAll around).shared) by
    rw [evaluate_eq]
    exact hend.trans (.of_eq (he.setWatchdog _ _))
  cases hr with
  | @equipping hs rest hsplit =>
    refine leads_drops he b _ ?_
    refine (keeps_phases around i source s hkeeps (fun _ hr => hr) ?_).2
    unfold equipped
    rw [hsplit, List.foldl_append]
    exact hgives rest _ (.refl _)
  | running hp hv =>
    exact leads_drops he b _ (keeps_outcome hkeeps (fun _ hr => hr) hp hv (.refl _))
  | @releasing hs rest hsplit =>
    unfold Running.releaseAll
    rw [hsplit, List.foldl_append]
    exact leads_drops he b rest (.refl _)

theorem leads_evaluate (i : Interpreter) (source : String) (s : σ) :
    (buffer s).Leads (buffer (i.evaluate around source s).2.2) :=
  have hstart : During around i source s (fresh around i s) := .equipping (List.nil_append _).symm
  (leads_during he hstart).trans (leads_of_during he hstart)

theorem leads_evaluateExpression (i : Interpreter) (h : Handle) (s : σ) :
    (buffer s).Leads (buffer (i.evaluateExpression around h s).2.2) :=
  evaluateExpression_keeps around i s h (Q := fun _ t => (buffer s).Leads (buffer t))
    (fun _ => .refl _) (fun source => leads_evaluate he i source s)
    (fun text _ t hb => hb.trans (he.makeString text t))

end

/-- What happens to a host with a buffer: calls of its functions for point and mark, evaluations by
any interpreters, and anything else that does no more to the buffer than moves. -/
inductive Deed (around : Surroundings σ) (buffer : σ → Buffer)
  | gotoChar (n : Int)
  | setMark (n : Int)
  | evaluate (i : Interpreter) (source : String)
  | evaluateExpression (i : Interpreter) (h : Handle)
  | elsewhere (f : σ → σ) (hf : ∀ s, (buffer s).Leads (buffer (f s)))

namespace Deed

def apply (s : σ) : Deed around buffer → σ
  | gotoChar n => (around.host.gotoChar n s).2
  | setMark n => (around.host.setMark n s).2
  | evaluate i source => (i.evaluate around source s).2.2
  | evaluateExpression i h => (i.evaluateExpression around h s).2.2
  | elsewhere f _ => f s

def run (s : σ) (deeds : List (Deed around buffer)) : σ := deeds.foldl apply s

theorem leads (he : around.Edits buffer) (d : Deed around buffer) (s : σ) :
    (buffer s).Leads (buffer (d.apply s)) := by
  cases d with
  | gotoChar n => exact (he.gotoChar n s).2 ▸ .gotoChar _ n
  | setMark n => exact (he.setMark n s).2 ▸ .setMark _ n
  | evaluate i source => exact leads_evaluate he i source s
  | evaluateExpression i h => exact leads_evaluateExpression he i h s
  | elsewhere f hf => exact hf s

theorem leads_run (he : around.Edits buffer) (s : σ) (deeds : List (Deed around buffer)) :
    (buffer s).Leads (buffer (run s deeds)) := by
  induction deeds generalizing s with
  | nil => exact .refl _
  | cons d deeds ih => exact (d.leads he s).trans (ih (d.apply s))

theorem run_append (s : σ) (deeds more : List (Deed around buffer)) :
    run s (deeds ++ more) = run (run s deeds) more := List.foldl_append

end Deed

/-- Point and mark stay in the text. Whatever sequence of calls and evaluations a new buffer goes
through, and at every moment of an evaluation, whatever it comes to, point and mark are positions of
the text, a mark that was set is still set, and the text and its path are the ones it was made with.
A call of the host, or of the module's functions by guest code in any state, answers the position
that it stores, which is its argument or else the nearer end of the text, and changes nothing else
of the buffer. -/
theorem positions_in_text (he : around.Edits buffer) {text : String} {path : Option String}
    (hs : buffer s = .ofText text path) (deeds : List (Deed around buffer)) :
    let reached := Deed.run s deeds
    let Kept := fun b : Buffer => b.Placed ∧ b.text = text ∧ b.path = path
    (Kept (buffer reached) ∧
      ∀ before, before <+: deeds → (buffer (Deed.run s before)).mark.isSome →
        (buffer reached).mark.isSome) ∧
    (∀ i source r, During around i source reached r →
      Kept (buffer r.shared) ∧
      ((buffer reached).mark.isSome → (buffer r.shared).mark.isSome) ∧
      ((buffer r.shared).mark.isSome →
        (buffer (i.evaluate around source reached).2.2).mark.isSome)) ∧
    (∀ n, (buffer reached).WentTo n (around.host.gotoChar n reached).1
        (buffer (around.host.gotoChar n reached).2) ∧
      (buffer reached).MarkedAt n (around.host.setMark n reached).1
        (buffer (around.host.setMark n reached).2)) ∧
    ∀ (r : Running σ) n,
      (∃ c answer r', Command.moduleFunction? "goto_char" [.int n] = some c ∧
        r.perform around c = (.ok (.int answer), r') ∧
        (buffer r.shared).WentTo n answer (buffer r'.shared)) ∧
      ∃ c answer r', Command.moduleFunction? "set_mark" [.int n] = some c ∧
        r.perform around c = (.ok (.int answer), r') ∧
        (buffer r.shared).MarkedAt n answer (buffer r'.shared) := by
  intro reached Kept
  have hkept {b : Buffer} (hl : (buffer s).Leads b) : Kept b := by
    rw [hs] at hl
    exact ⟨hl.placed (Buffer.placed_ofText text path), hl.text, hl.path⟩
  have hreached : (buffer s).Leads (buffer reached) := Deed.leads_run he s deeds
  refine ⟨⟨hkept hreached, ?_⟩, ?_, fun n => ⟨he.wentTo n reached, he.markedAt n reached⟩, ?_⟩
  · rintro before ⟨rest, rfl⟩ hm
    have hrest := Deed.leads_run he (Deed.run s before) rest
    rw [← Deed.run_append] at hrest
    exact hrest.mark_isSome hm
  · intro i source r hr
    have hbefore := leads_during he hr
    exact ⟨hkept (hreached.trans hbefore), hbefore.mark_isSome,
      (leads_of_during he hr).mark_isSome⟩
  · intro r n
    exact ⟨⟨_, _, _, rfl, rfl, he.wentTo n r.shared⟩, ⟨_, _, _, rfl, rfl, he.markedAt n r.shared⟩⟩

/-- The mark is set before the text, and an expression that goes behind the text is asked to stop
there. -/
def astray : List (Deed (Session.Stage.around "main") fun s : Session.Stage => s.editor.buffer) :=
  [.setMark (-5), .evaluate usual "emacs::goto_char(99) + emacs::point() + 1"]

theorem run_astray :
    (Deed.run hurried astray).cancelResults = [true] ∧
      (Deed.run hurried astray).editor.buffer.point = 6 := by
  have hrun : Deed.run hurried astray =
      (usual.evaluate (Session.Stage.around "main") "emacs::goto_char(99) + emacs::point() + 1"
        (Session.Stage.host.setMark (-5) hurried).2).2.2 := rfl
  rw [hrun]
  unfold evaluate evaluateArmed runExpression
  rw [show usual.settings = .default from rfl, environment_default]
  decide +kernel

theorem positions_in_text_astray :
    ((Session.Stage.around "main").Edits fun s : Session.Stage => s.editor.buffer) ∧
    hurried.editor.buffer = .ofText "hello" none ∧
    let reached := Deed.run hurried astray
    reached.cancelResults = [true] ∧ reached.editor.buffer.Placed ∧
    reached.editor.buffer.text = "hello" ∧ reached.editor.buffer.mark.isSome = true ∧
    reached.editor.buffer.point = 6 ∧ (Session.Stage.host.gotoChar 4 reached).1 = 4 := by
  have he := Session.Stage.edits_around "main"
  have hs : hurried.editor.buffer = .ofText "hello" none := rfl
  obtain ⟨⟨⟨hplaced, htext, -⟩, hset⟩, -, hcalls, -⟩ := positions_in_text he hs astray
  have hmark := hset [.setMark (-5)] ⟨_, rfl⟩ rfl
  have hsize : (Deed.run hurried astray).editor.buffer.pointMax = 6 := by
    unfold Buffer.pointMax Buffer.size
    rw [htext]
    decide
  obtain ⟨⟨position, hnearest, hanswer, -⟩, -⟩ := hcalls 4
  have hfour : (position : Int) = 4 := hnearest.inside (by decide) (by rw [hsize]; decide)
  exact ⟨he, hs, run_astray.1, hplaced, htext, hmark, run_astray.2, hanswer.trans hfour⟩

end Interpreter

end EditorScripting
