import EditorScripting.Proofs.Interpreter.Tracks
import EditorScripting.Proofs.Session.Access
import EditorScripting.Session.Basic

/-!
Which wrappers exist in a session, and what each of its steps does to them.
-/
namespace EditorScripting

open Host Script Guest

namespace Session

namespace Stage

/-- The host pins what it is asked to pin, and pins are as the account `m` says. -/
def Balanced (m : Multiset Handle) (s : Stage) : Prop :=
  s.hooks.pinFails = [] ∧ s.editor.Balanced m

variable {m : Multiset Handle} {s : Stage}

theorem Balanced.onEditor {α : Type} {f : Editor → α × Editor} (hb : s.Balanced m)
    (hg : s.editor.Grows (f s.editor).2) : (s.onEditor f).2.Balanced m :=
  ⟨hb.1, hb.2.of_grows hg⟩

theorem balanced_setWatchdog (name : String) (w : Watchdog) (hb : s.Balanced m) :
    (s.setWatchdog name w).Balanced m := hb

theorem balanced_cancel (name : String) (hb : s.Balanced m) : (s.cancel name).2.Balanced m := hb

theorem balanced_hookedCancel (hb : s.Balanced m) : s.hookedCancel.Balanced m := by
  unfold hookedCancel
  split
  · exact ⟨hb.1, hb.2⟩
  · exact hb

theorem balanced_hookedSleep (hb : s.Balanced m) : s.hookedSleep.Balanced m := by
  unfold hookedSleep
  -- The sum of times is taken apart by its numerals otherwise.
  generalize s.clock + s.hooks.sleepOnPoint * 1000000 = clock
  exact ⟨hb.1, hb.2⟩

theorem balanced_hookedCollect (hb : s.Balanced m) : s.hookedCollect.Balanced m := by
  unfold hookedCollect
  split
  · exact ⟨hb.1, hb.2.collect⟩
  · exact hb

/-- The hooks of the host may collect garbage, and change no pins. -/
theorem balanced_point (hb : s.Balanced m) : s.point.2.Balanced m := by
  have hcalls : ({ s with pointCalls := s.pointCalls + 1 } : Stage).Balanced m := ⟨hb.1, hb.2⟩
  exact balanced_hookedCollect (balanced_hookedSleep (balanced_hookedCancel hcalls))

theorem balanced_pin (h : Handle) (hb : s.Balanced m) :
    match s.pin h with
    | (.ok _, s) => s.Balanced (h ::ₘ m)
    | (.error _, s) => s.Balanced m := by
  have hpin := hb.2.pin h
  rw [pin_eq_onEditor hb.1]
  unfold onEditor
  dsimp only
  generalize s.editor.pin h = r at hpin ⊢
  obtain ⟨r | r, e⟩ := r
  · exact ⟨hb.1, hpin⟩
  · exact ⟨hb.1, hpin⟩

theorem balanced_copy (h : Handle) (hb : s.Balanced m) (hm : h ∈ m) :
    (s.pin h).2.Balanced (h ::ₘ m) := by
  rw [pin_eq_onEditor hb.1]
  exact ⟨hb.1, hb.2.pin_of_mem hm⟩

theorem tracks : host.Tracks Balanced where
  intern name hb := hb.onEditor (Editor.grows_intern _ name)
  makeString text hb := hb.onEditor (Editor.grows_makeString _ text)
  funcall f hb := hb.onEditor (Editor.grows_funcall _ f)
  point hb := balanced_point hb
  gotoChar n hb := ⟨hb.1, hb.2.of_grows (Editor.grows_gotoChar _ n)⟩
  setMark n hb := ⟨hb.1, hb.2.of_grows (Editor.grows_setMark _ n)⟩
  pin {m s} h hb := by
    have hpin := balanced_pin h hb
    rw [show host.pin h s = s.pin h from rfl]
    generalize s.pin h = r at hpin ⊢
    obtain ⟨r | r, s⟩ := r
    · exact hpin
    · exact hpin
  copy h hb hm := balanced_copy h hb hm
  unpin h hb := ⟨hb.1, hb.2.unpin⟩

theorem tracks_around (name : String) : (around name).Tracks Balanced where
  host := tracks
  meanwhile hb := hb

end Stage

/-- The wrappers that exist in a session while none of its interpreters evaluates: those that are
kept by name, those of the reports and those that the interpreters own. -/
def wrappers (s : Session) : Multiset Handle :=
  Table.contents (fun h => [h]) s.objects +
    (Table.contents Report.handles s.reports + Table.contents Interpreter.handles s.interpreters)

/-- The wrappers that an interpreter does not own. -/
def wrappersBeside (s : Session) (name : String) : Multiset Handle :=
  wrappers { s with interpreters := s.interpreters.erase name }

section

variable (s : Session) (name : String)

theorem wrappers_insert_object (h : Handle) :
    wrappers { s with objects := s.objects.insert name h } +
        ((s.objects[name]?.map fun h => [h]).getD [] : List Handle) =
      ([h] : List Handle) + s.wrappers := by
  unfold wrappers
  rw [add_right_comm, Table.contents_insert_add, add_assoc]

theorem wrappers_insert_report (r : Report) :
    wrappers { s with reports := s.reports.insert name r } +
        ((s.reports[name]?.map Report.handles).getD [] : List Handle) =
      r.handles + s.wrappers := by
  unfold wrappers
  rw [add_assoc, add_right_comm (Table.contents Report.handles _ : Multiset Handle),
    Table.contents_insert_add, add_assoc, add_left_comm]

theorem wrappers_insert_interpreter (stage : Stage) (i : Interpreter) :
    wrappers { s with stage, interpreters := s.interpreters.insert name i } =
      i.handles + s.wrappersBeside name := by
  unfold wrappersBeside wrappers
  rw [Table.contents_insert, add_left_comm (Table.contents Report.handles _ : Multiset Handle),
    add_left_comm]

variable {s name}

theorem wrappers_of_object {h : Handle} (hh : s.objects[name]? = some h) :
    s.wrappers = h ::ₘ wrappers { s with objects := s.objects.erase name } := by
  unfold wrappers
  rw [Table.contents_of_getElem? _ hh, Multiset.coe_singleton, Multiset.singleton_add,
    Multiset.cons_add]

theorem wrappers_of_report {r : Report} (hr : s.reports[name]? = some r) :
    s.wrappers = r.handles + wrappers { s with reports := s.reports.erase name } := by
  unfold wrappers
  rw [Table.contents_of_getElem? _ hr, add_assoc (r.handles : Multiset Handle), add_left_comm]

theorem wrappers_of_interpreter {i : Interpreter} (hi : s.interpreters[name]? = some i) :
    s.wrappers = i.handles + s.wrappersBeside name := by
  unfold wrappersBeside wrappers
  rw [Table.contents_of_getElem? _ hi, add_left_comm (Table.contents Report.handles _ :
    Multiset Handle), add_left_comm]

theorem wrappersBeside_of_none (hi : s.interpreters[name]? = none) :
    s.wrappersBeside name = s.wrappers := by
  unfold wrappersBeside wrappers
  rw [Table.contents_erase_of_none _ hi]

end

/-- The pins of the editor are those of the wrappers and, besides them, those in the account `m`. -/
def Accounted (m : Multiset Handle) (s : Session) : Prop := s.stage.Balanced (s.wrappers + m)

section

variable {m : Multiset Handle} {s : Session}

/-- What new wrappers replace is ready to be dropped. -/
theorem Accounted.replace {new old w : Multiset Handle} (hs : s.Accounted (new + m))
    (hw : w + old = new + s.wrappers) : s.stage.Balanced (old + (w + m)) := by
  have hsum : old + (w + m) = s.wrappers + (new + m) := by
    rw [← add_assoc, add_comm old, hw, add_comm new, add_assoc]
  rw [hsum]
  exact hs

theorem accounted_onEditor {α : Type} {f : Editor → α × Editor} (hs : s.Accounted m)
    (hg : s.editor.Grows (f s.editor).2) : (s.onEditor f).2.Accounted m :=
  Stage.Balanced.onEditor hs hg

/-! Wrappers that the session keeps. -/

theorem accounted_keepObject (name : String) {h : Handle} (hs : s.Accounted (h ::ₘ m)) :
    (s.keepObject name h).Accounted m := by
  have hold := Accounted.replace hs (wrappers_insert_object s name h)
  unfold keepObject
  dsimp only
  split
  · rename_i g hg
    rw [hg] at hold
    exact Wrapper.tracks_drops Stage.tracks.new hold
  · rename_i hnone
    rw [hnone] at hold
    simpa [Accounted] using hold

theorem accounted_wrap (h : Handle) (name : String) (hs : s.Accounted m) :
    (s.wrap h name).2.Accounted m := by
  have hpin := Stage.tracks.pin h hs
  have hnew : s.onStage (Wrapper.new Stage.host h) =
      ((Stage.host.pin h s.stage).1, { s with stage := (Stage.host.pin h s.stage).2 }) := rfl
  unfold wrap
  rw [hnew]
  generalize Stage.host.pin h s.stage = r at hpin ⊢
  obtain ⟨r | r, stage⟩ := r
  · exact hpin
  · rw [← Multiset.add_cons] at hpin
    exact accounted_keepObject (s := { s with stage }) name hpin

theorem accounted_copyObject {h : Handle} (name : String) (hs : s.Accounted m)
    (hm : h ∈ s.wrappers) : (s.copyObject h name).Accounted m := by
  have hcopy := Stage.tracks.copy h hs (Multiset.mem_add.mpr (.inl hm))
  refine accounted_keepObject name ?_
  rw [← Multiset.add_cons] at hcopy
  exact hcopy

theorem accounted_dropObject (name : String) (hs : s.Accounted m) :
    (s.dropObject name).2.Accounted m := by
  unfold dropObject
  split
  · rename_i h hh
    unfold Accounted at hs
    rw [wrappers_of_object hh, Multiset.cons_add] at hs
    exact Stage.tracks.unpin h hs
  · exact hs

/-- A wrapper in a result is dropped at once. -/
theorem accounted_discardMarshalled {r : Except HostError Marshalled}
    (hs : s.stage.Balanced (Marshalled.handles r + (s.wrappers + m))) :
    (s.discardMarshalled r).Accounted m := by
  unfold discardMarshalled
  split
  · exact Wrapper.tracks_drops Stage.tracks.new hs
  · rename_i hnone
    have hempty : Marshalled.handles r = [] := by
      unfold Marshalled.handles
      split
      · exact (hnone _ rfl).elim
      · rfl
    unfold Accounted
    simpa [hempty] using hs

theorem accounted_invoke (h : Handle) (hs : s.Accounted m) : (s.invoke h).2.Accounted m := by
  have hinvoke := Wrapper.tracks_invoke Stage.tracks h hs
  exact accounted_discardMarshalled (s := (s.onStage (Wrapper.invoke Stage.host h)).2) hinvoke

theorem accounted_marshal (h : Handle) (hs : s.Accounted m) : (s.marshal h).2.Accounted m := by
  have hmarshal := Wrapper.tracks_marshal Stage.tracks h hs
  exact accounted_discardMarshalled (s := (s.onStage (Wrapper.marshal Stage.host h)).2) hmarshal

/-! Reports. -/

theorem accounted_keepReport (name : String) {r : Report} (hs : s.Accounted (r.handles + m)) :
    (s.keepReport name r).Accounted m := by
  have hold := Accounted.replace hs (wrappers_insert_report s name r)
  unfold keepReport
  dsimp only
  split
  · rename_i r hr
    rw [hr] at hold
    exact Report.tracks_drop Stage.tracks.new hold
  · rename_i hnone
    rw [hnone] at hold
    simpa [Accounted] using hold

theorem accounted_dropReport (name : String) (hs : s.Accounted m) :
    (s.dropReport name).2.Accounted m := by
  unfold dropReport
  split
  · rename_i r hr
    unfold Accounted at hs
    rw [wrappers_of_report hr, add_assoc] at hs
    exact Report.tracks_drop Stage.tracks.new hs
  · exact hs

/-! Interpreters. -/

theorem accounted_dropInterpreter {name : String} {i : Interpreter}
    (hs : s.Accounted (i.handles + m)) : (s.dropInterpreter name i).Accounted m := by
  unfold Accounted at hs
  rw [add_left_comm] at hs
  exact Stage.balanced_setWatchdog name .idle
    (Interpreter.tracks_drop (Stage.tracks_around name).host hs)

theorem accounted_stop (name : String) (hs : s.Accounted m) : (s.stop name).2.Accounted m := by
  unfold stop
  split
  · rename_i i hi
    refine accounted_dropInterpreter ?_
    unfold Accounted at hs
    rw [wrappers_of_interpreter hi, add_assoc, add_left_comm] at hs
    exact hs
  · exact hs

theorem accounted_start (name : String) (settings : Settings) (hs : s.Accounted m) :
    (s.start name settings).2.Accounted m := by
  unfold start
  split
  · exact hs
  · rename_i i hi
    have hinsert := wrappers_insert_interpreter s name s.stage i
    rw [Interpreter.handles_start hi, Multiset.coe_nil, zero_add] at hinsert
    unfold Accounted at hs
    dsimp only
    split
    · rename_i old hold
      refine accounted_dropInterpreter ?_
      rw [wrappers_of_interpreter hold, add_assoc, add_left_comm] at hs
      unfold Accounted
      rw [hinsert]
      exact hs
    · rename_i hnone
      rw [← wrappersBeside_of_none hnone] at hs
      unfold Accounted
      rw [hinsert]
      exact hs

/-- If the work of an interpreter respects the account of its own wrappers, so does the session.
The work may hand out wrappers in its result. -/
theorem accounted_withInterpreter {α : Type} {name : String}
    {f : Interpreter → Stage → α × Interpreter × Stage} (out : α → List Handle)
    (hf : ∀ {m : Multiset Handle} i stage, stage.Balanced (i.handles + m) →
      (f i stage).2.2.Balanced ((f i stage).2.1.handles + (out (f i stage).1 + m)))
    {r : α × Session} (hr : s.withInterpreter name f = some r) (hs : s.Accounted m) :
    r.2.Accounted (out r.1 + m) := by
  obtain ⟨i, hi, rfl⟩ := Option.map_eq_some_iff.mp hr
  unfold Accounted at hs ⊢
  rw [wrappers_of_interpreter hi, add_assoc] at hs
  have hwork := hf i s.stage hs
  dsimp only
  generalize f i s.stage = w at hwork ⊢
  obtain ⟨a, j, stage⟩ := w
  rw [wrappers_insert_interpreter, add_assoc, add_left_comm (s.wrappersBeside name)]
  exact hwork

variable {name : String}

theorem accounted_evaluate {source : String} {r : Except Failure String × Session}
    (hr : s.evaluate name source = some r) (hs : s.Accounted m) : r.2.Accounted m := by
  have h := accounted_withInterpreter (fun _ => []) (fun i stage hb => by
    simpa using Interpreter.tracks_evaluate (Stage.tracks_around name)
      (fun w => Stage.balanced_setWatchdog name w) hb) hr hs
  simpa using h

theorem accounted_evaluateExpression {h : Handle} {r : Handle × Session}
    (hr : s.evaluateExpression name h = some r) (hs : s.Accounted m) : r.2.Accounted m := by
  have hwork := accounted_withInterpreter (fun _ => []) (fun i stage hb => by
    simpa using Interpreter.tracks_evaluateExpression (Stage.tracks_around name)
      (fun w => Stage.balanced_setWatchdog name w) h hb) hr hs
  simpa using hwork

theorem accounted_refresh {keep : Option String} {r : Report × Session}
    (hr : s.refresh name keep = some r) (hs : s.Accounted m) : r.2.Accounted m := by
  obtain ⟨w, hw, rfl⟩ := Option.map_eq_some_iff.mp hr
  have hwork := accounted_withInterpreter Report.handles (fun i stage hb =>
    Interpreter.tracks_refresh (Stage.tracks_around name).host hb) hw hs
  obtain ⟨report, s⟩ := w
  cases keep with
  | some k => exact accounted_keepReport k hwork
  | none =>
    unfold Accounted at hwork
    rw [add_left_comm] at hwork
    exact Report.tracks_drop Stage.tracks.new hwork

theorem accounted_lookUp {symbol : String} {r : Option (Handle × Except HostError String) × Session}
    (hr : s.lookUp name symbol = some r) (hs : s.Accounted m) : r.2.Accounted m := by
  have hwork := accounted_withInterpreter (fun _ => []) (fun {m} i stage hb => ?_) hr hs
  · simpa using hwork
  · rw [Multiset.coe_nil, zero_add]
    split
    · exact hb
    · rename_i h hd
      refine Stage.tracks.unpin h (Stage.tracks.copy h hb ?_)
      have hh := Dictionary.mem_handles_of_find? hd
      simp [Interpreter.handles, hh]

theorem accounted_mapKeys {r : List String × Session} (hr : s.mapKeys name = some r)
    (hs : s.Accounted m) : r.2.Accounted m := by
  have hwork := accounted_withInterpreter (fun _ => []) (fun {m} i stage hb => ?_) hr hs
  · simpa using hwork
  · rw [Multiset.coe_nil, zero_add]
    refine Wrapper.tracks_drops Stage.tracks.new (Wrapper.tracks_copies Stage.tracks hb fun h hh => ?_)
    have hd : h ∈ i.dictionary.handles := hh
    simp [Interpreter.handles, hd]

/-- A global variable may be given what is wrapped already. -/
theorem accounted_defineGlobal {key : String} {v : Value} {r : Unit × Session}
    (hr : s.defineGlobal name key v = some r) (hv : ∀ h ∈ v.handles, h ∈ s.wrappers)
    (hs : s.Accounted m) : r.2.Accounted m := by
  obtain ⟨i, hi, rfl⟩ := Option.map_eq_some_iff.mp hr
  have hcopies := Wrapper.tracks_copies Stage.tracks hs fun h hh =>
    Multiset.mem_add.mpr (.inl (hv h hh))
  rw [wrappers_of_interpreter hi, add_assoc] at hcopies
  have hdefine := Interpreter.tracks_defineGlobal (Stage.tracks_around name).host key v
    hcopies
  unfold Accounted
  dsimp only
  generalize i.defineGlobal (Stage.around name) key v _ = w at hdefine ⊢
  obtain ⟨j, stage⟩ := w
  rw [wrappers_insert_interpreter, add_assoc]
  exact hdefine

theorem accounted_drain {r : List Diagnostic × Session} (hr : s.drain name = some r)
    (hs : s.Accounted m) : r.2.Accounted m := by
  have hwork := accounted_withInterpreter (fun _ => []) (fun i stage hb => by
    simpa [Interpreter.handles_withDiagnostics] using hb) hr hs
  simpa using hwork

theorem accounted_cancel (hs : s.Accounted m) : (s.cancel name).2.Accounted m :=
  Stage.balanced_cancel name hs

end

end Session

end EditorScripting
