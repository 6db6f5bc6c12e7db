import Mathlib.Algebra.Order.Sub.Basic
import Mathlib.Data.List.Induction
import Mathlib.Data.Multiset.OrderedMonoid
import EditorScripting.Proofs.Bridge.Tracks
import EditorScripting.Session.Stage

/-!
The pins that wrappers take and give back, on a host that may refuse any pin. A new wrapper exists
only with a pin of its own. A copy exists even if its pin was refused, and gives one back like any
other wrapper when it is dropped. So what has been given back exceeds what has been taken as soon as
more copies were refused a pin than there are wrappers left.
-/
namespace EditorScripting

namespace Host

/-- A host and the calls made to it: pins that it granted, pins that it refused and unpins, one
entry for each call. -/
structure Counted (σ : Type) where
  state : σ
  pinned : Multiset Handle
  refused : Multiset Handle
  unpinned : Multiset Handle

variable {σ : Type}

/-- Any operation of the host but pins and unpins. -/
def Counted.uncounted {α : Type} (f : σ → α × σ) (c : Counted σ) : α × Counted σ :=
  let (a, state) := f c.state
  (a, { c with state })

namespace Interface

/-- The same host, with its calls written down. -/
def counting (host : Interface σ) : Interface (Counted σ) where
  globalSymbols c := host.globalSymbols c.state
  intern name := Counted.uncounted (host.intern name)
  nil c := host.nil c.state
  makeString text := Counted.uncounted (host.makeString text)
  typeOf c := host.typeOf c.state
  symbolName c := host.symbolName c.state
  stringValue c := host.stringValue c.state
  integerValue c := host.integerValue c.state
  printed c := host.printed c.state
  pin h c :=
    match host.pin h c.state with
    | (.ok r, state) => (.ok r, { c with state, pinned := h ::ₘ c.pinned })
    | (.error e, state) => (.error e, { c with state, refused := h ::ₘ c.refused })
  unpin h c := { c with state := host.unpin h c.state, unpinned := h ::ₘ c.unpinned }
  isCallable c := host.isCallable c.state
  funcall f := Counted.uncounted (host.funcall f)
  point := Counted.uncounted host.point
  pointMin c := host.pointMin c.state
  pointMax c := host.pointMax c.state
  mark c := host.mark c.state
  gotoChar n := Counted.uncounted (host.gotoChar n)
  setMark n := Counted.uncounted (host.setMark n)

/-- The same host, but it claims to have granted the pins that it refused. Nobody who only copies and
drops wrappers notices, since copies do not look at the answer. -/
def obliging (host : Interface σ) : Interface σ :=
  { host with pin := fun h s => (.ok (), (host.pin h s).2) }

/-- Each of the wrappers `m` stands for a pin that was taken and not given back, apart from some that
are bare. -/
def Taken (bare : Multiset Handle) (m : Multiset Handle) (c : Counted σ) : Prop :=
  c.pinned + bare = c.unpinned + m

theorem tracksNew_counting (host : Interface σ) (bare : Multiset Handle) :
    host.counting.TracksNew (Taken bare) where
  pin {m c} h hb := by
    unfold Taken at hb
    unfold counting Taken
    dsimp only
    split <;> rename_i hp <;> split at hp <;> cases hp
    · rw [Multiset.cons_add, hb, Multiset.add_cons]
    · exact hb
  unpin {m c} h hb := by
    unfold Taken at hb
    unfold counting Taken
    dsimp only
    rw [hb, Multiset.add_cons, Multiset.cons_add]

/-- The same, if every pin refused since `refused` is one more that a wrapper goes without. -/
def Claimed (refused bare : Multiset Handle) (m : Multiset Handle) (c : Counted σ) : Prop :=
  refused ≤ c.refused ∧ c.pinned + (bare + (c.refused - refused)) = c.unpinned + m

theorem claimed_pin (host : Interface σ) {refused bare m : Multiset Handle} {c : Counted σ}
    (h : Handle) (hc : Claimed refused bare m c) :
    Claimed refused bare (h ::ₘ m) (host.counting.pin h c).2 := by
  obtain ⟨hle, heq⟩ := hc
  unfold counting Claimed
  dsimp only
  split
  · refine ⟨hle, ?_⟩
    rw [Multiset.cons_add, heq, Multiset.add_cons]
  · refine ⟨hle.trans (Multiset.le_cons_self _ h), ?_⟩
    dsimp only
    rw [Multiset.cons_sub_of_le h hle, Multiset.add_cons, Multiset.add_cons, heq,
      Multiset.add_cons]

theorem tracks_obliging (host : Interface σ) (refused bare : Multiset Handle) :
    host.counting.obliging.Tracks (Claimed refused bare) where
  intern _ hc := hc
  makeString _ hc := hc
  funcall _ hc := hc
  point hc := hc
  gotoChar _ hc := hc
  setMark _ hc := hc
  pin h hc := claimed_pin host h hc
  copy h hc _ := claimed_pin host h hc
  unpin {m c} h hc := by
    obtain ⟨hle, heq⟩ := hc
    refine ⟨hle, ?_⟩
    unfold obliging counting
    dsimp only
    rw [heq, Multiset.add_cons, Multiset.cons_add]

end Interface

end Host

open Host

/-- Everything that exists on the side of the guest and its caller: wrappers that the caller keeps,
reports and the dictionary. -/
structure Holdings (σ : Type) where
  host : Counted σ
  kept : List Handle
  reports : List Report
  dictionary : Dictionary
  /-- The copies so far whose pin was refused. -/
  bare : Multiset Handle

namespace Holdings

variable {σ : Type}

/-- All wrappers that exist. -/
def wrappers (l : Holdings σ) : Multiset Handle :=
  l.kept + (l.reports.flatMap Report.handles + l.dictionary.handles)

/-- What can happen to wrappers and to the host. -/
inductive Act (σ : Type) where
  /-- The host does something by itself. -/
  | elsewhere (f : σ → σ)
  | new (h : Handle)
  /-- A wrapper is copied, wherever it is kept. -/
  | copy (h : Handle)
  | drop (h : Handle)
  | scan (reserved : String)
  | install (report : Nat)
  /-- A wrapper is looked up under a name, and the copy is kept. -/
  | get (name : String)
  /-- All wrappers of the dictionary are copied into a map, which is kept. -/
  | snapshot
  | dropReport (report : Nat)
  | clear

/-- The holdings after some wrappers were copied, be it with or without a pin. -/
def copied (l : Holdings σ) (host : Counted σ) : Holdings σ :=
  { l with host, bare := l.bare + (host.refused - l.host.refused) }

variable (host : Interface σ)

def after (l : Holdings σ) : Act σ → Holdings σ
  | .elsewhere f => { l with host := { l.host with state := f l.host.state } }
  | .new h =>
    match Wrapper.new host.counting h l.host with
    | (.ok _, c) => { l with host := c, kept := h :: l.kept }
    | (.error _, c) => { l with host := c }
  | .copy h =>
    if h ∈ l.wrappers then
      { l.copied (Wrapper.copy host.counting h l.host) with kept := h :: l.kept }
    else l
  | .drop h =>
    if h ∈ l.kept then
      { l with host := Wrapper.drop host.counting h l.host, kept := l.kept.erase h }
    else l
  | .scan reserved =>
    let (report, c) := Bridge.scan host.counting reserved l.host
    { l with host := c, reports := report :: l.reports }
  | .install i =>
    match l.reports[i]? with
    | some report =>
      let (dictionary, c) := Bridge.install host.counting report l.dictionary l.host
      { l.copied c with dictionary }
    | none => l
  | .get name =>
    match l.dictionary.find? name with
    | some h => { l.copied (Wrapper.copy host.counting h l.host) with kept := h :: l.kept }
    | none => l
  | .snapshot =>
    let hs := l.dictionary.handles
    { l.copied (hs.foldl (fun c h => Wrapper.copy host.counting h c) l.host) with
      kept := hs ++ l.kept }
  | .dropReport i =>
    match l.reports[i]? with
    | some report =>
      { l with host := report.drop host.counting l.host, reports := l.reports.eraseIdx i }
    | none => l
  | .clear => { l with host := l.dictionary.clear host.counting l.host, dictionary := ∅ }

/-- What exists after a run that starts with nothing. -/
def run (s : σ) (acts : List (Act σ)) : Holdings σ :=
  acts.foldl (after host) ⟨⟨s, 0, 0, 0⟩, [], [], ∅, 0⟩

/-- Each wrapper stands for a pin that was taken and not given back, if copies without a pin are
counted as if they had one. -/
def Balanced (l : Holdings σ) : Prop := l.host.pinned + l.bare = l.host.unpinned + l.wrappers

variable {host} {l : Holdings σ}

theorem balanced_copied {c : Counted σ} {m : Multiset Handle}
    (hc : Interface.Claimed l.host.refused l.bare m c) :
    (l.copied c).host.pinned + (l.copied c).bare = (l.copied c).host.unpinned + m := hc.2

/-- Nothing has been refused since this very moment. -/
theorem Balanced.claimed (hl : l.Balanced) :
    Interface.Claimed l.host.refused l.bare l.wrappers l.host :=
  ⟨le_refl _, by rw [tsub_self, add_zero]; exact hl⟩

theorem balanced_new (h : Handle) (hl : l.Balanced) : (l.after host (.new h)).Balanced := by
  have hpin := (host.tracksNew_counting l.bare).pin h hl
  unfold after Wrapper.new
  dsimp only
  generalize host.counting.pin h l.host = r at hpin ⊢
  obtain ⟨r | r, c⟩ := r
  · exact hpin
  · unfold Balanced wrappers
    rw [← Multiset.cons_coe, Multiset.cons_add]
    exact hpin

/-- One more copy that the caller keeps. -/
theorem balanced_copy (h : Handle) (hl : l.Balanced) :
    Balanced { l.copied (Wrapper.copy host.counting h l.host) with kept := h :: l.kept } := by
  have hcopy := balanced_copied (host.claimed_pin h hl.claimed)
  unfold Balanced wrappers
  rw [← Multiset.cons_coe, Multiset.cons_add]
  exact hcopy

theorem balanced_drop {h : Handle} (hl : l.Balanced) (hm : h ∈ l.kept) :
    Balanced { l with host := Wrapper.drop host.counting h l.host, kept := l.kept.erase h } := by
  have hkept : (l.kept : Multiset Handle) = h ::ₘ l.kept.erase h :=
    Multiset.coe_eq_coe.mpr (List.perm_cons_erase hm)
  unfold Balanced wrappers at hl
  rw [hkept, Multiset.cons_add] at hl
  exact (host.tracksNew_counting l.bare).unpin h hl

theorem balanced_scan (reserved : String) (hl : l.Balanced) :
    (l.after host (.scan reserved)).Balanced := by
  have hscan := Bridge.tracks_scan (host.tracksNew_counting l.bare) reserved hl
  unfold after
  dsimp only
  unfold Balanced wrappers
  rw [List.flatMap_cons, ← Multiset.coe_add, add_assoc, add_left_comm (l.kept : Multiset Handle)]
  exact hscan

/-- A report apart from all other wrappers, whatever the dictionary holds. -/
theorem wrappers_of_report {i : Nat} {report : Report} (hr : l.reports[i]? = some report)
    (dictionary : Dictionary) : wrappers { l with dictionary } = dictionary.handles +
      (report.handles + (l.kept + (l.reports.eraseIdx i).flatMap Report.handles)) := by
  obtain ⟨hlt, rfl⟩ := List.getElem?_eq_some_iff.mp hr
  have hreports : (l.reports.flatMap Report.handles : Multiset Handle) =
      l.reports[i].handles + (l.reports.eraseIdx i).flatMap Report.handles := by
    rw [Multiset.coe_add]
    exact Multiset.coe_eq_coe.mpr
      ((List.getElem_cons_eraseIdx_perm hlt).symm.flatMap_right _)
  unfold wrappers
  dsimp only
  rw [hreports]
  ac_rfl

theorem balanced_install (i : Nat) (hl : l.Balanced) : (l.after host (.install i)).Balanced := by
  unfold after
  dsimp only
  split
  next report hr =>
    have hclaimed := hl.claimed
    rw [wrappers_of_report hr l.dictionary] at hclaimed
    have hcopied := balanced_copied (Bridge.tracks_install (host.tracks_obliging _ _) hclaimed)
    rw [← wrappers_of_report hr] at hcopied
    exact hcopied
  next => exact hl

theorem balanced_get (name : String) (hl : l.Balanced) : (l.after host (.get name)).Balanced := by
  unfold after
  dsimp only
  split
  next h _ => exact balanced_copy h hl
  next => exact hl

theorem balanced_snapshot (hl : l.Balanced) : (l.after host .snapshot).Balanced := by
  have hmem : ∀ h ∈ l.dictionary.handles, h ∈ l.wrappers := fun h hh =>
    Multiset.mem_add.mpr (.inr (Multiset.mem_add.mpr (.inr hh)))
  have hcopied := balanced_copied
    (Wrapper.tracks_copies (host.tracks_obliging _ _) hl.claimed hmem)
  unfold after Balanced wrappers
  dsimp only
  rw [← Multiset.coe_add, add_assoc (l.dictionary.handles : Multiset Handle)]
  exact hcopied

theorem balanced_dropReport (i : Nat) (hl : l.Balanced) :
    (l.after host (.dropReport i)).Balanced := by
  unfold after
  dsimp only
  split
  next report hr =>
    have hsplit : l.wrappers = report.handles + (l.kept +
        ((l.reports.eraseIdx i).flatMap Report.handles + l.dictionary.handles)) := by
      rw [wrappers_of_report hr l.dictionary]
      ac_rfl
    unfold Balanced at hl
    rw [hsplit] at hl
    exact Report.tracks_drop (host.tracksNew_counting l.bare) hl
  next => exact hl

theorem balanced_clear (hl : l.Balanced) : (l.after host .clear).Balanced := by
  have hsplit : l.wrappers =
      l.dictionary.handles + (l.kept + (l.reports.flatMap Report.handles : Multiset Handle)) := by
    unfold wrappers
    ac_rfl
  unfold Balanced at hl
  rw [hsplit] at hl
  have hclear := Dictionary.tracks_clear (host.tracksNew_counting l.bare) hl
  have hempty : Dictionary.handles ∅ = [] := rfl
  unfold after Balanced wrappers
  dsimp only
  rw [hempty, Multiset.coe_nil, add_zero]
  exact hclear

theorem balanced_after (hl : l.Balanced) (a : Act σ) : (l.after host a).Balanced := by
  cases a with
  | elsewhere f => exact hl
  | new h => exact balanced_new h hl
  | copy h =>
    unfold after
    dsimp only
    split
    · exact balanced_copy h hl
    · exact hl
  | drop h =>
    unfold after
    dsimp only
    split
    next hm => exact balanced_drop hl hm
    next => exact hl
  | scan reserved => exact balanced_scan reserved hl
  | install i => exact balanced_install i hl
  | get name => exact balanced_get name hl
  | snapshot => exact balanced_snapshot hl
  | dropReport i => exact balanced_dropReport i hl
  | clear => exact balanced_clear hl

theorem run_concat (host : Interface σ) (s : σ) (acts : List (Act σ)) (a : Act σ) :
    run host s (acts ++ [a]) = (run host s acts).after host a := by
  unfold run
  rw [List.foldl_append]
  rfl

theorem balanced_run (host : Interface σ) (s : σ) (acts : List (Act σ)) :
    (run host s acts).Balanced := by
  induction acts using List.reverseRecOn with
  | nil => rfl
  | append_singleton acts a ih =>
    rw [run_concat]
    exact balanced_after ih a

/-- A value has been unpinned more often than pinned exactly if more copies of its wrapper were
refused a pin than wrappers of it exist. -/
theorem unpins_le_pins_iff (host : Interface σ) (s : σ) (acts : List (Act σ)) (h : Handle) :
    (run host s acts).host.unpinned.count h ≤ (run host s acts).host.pinned.count h ↔
      (run host s acts).bare.count h ≤ (run host s acts).wrappers.count h := by
  have hcount := congrArg (Multiset.count h) (balanced_run host s acts)
  rw [Multiset.count_add, Multiset.count_add] at hcount
  omega

/-! An editor that refuses the pin of a copy. Once one of the two wrappers is dropped, the other one
holds a value that nobody pins. -/

/-- A string is made and wrapped. Its next pin is refused. -/
def refusal : List (Act Session.Stage) :=
  [.elsewhere fun s => (s.onEditor (·.makeString "kept")).2, .new ⟨21, 0⟩,
    .elsewhere fun s => s.withHooks { s.hooks with pinFails := [⟨21, 0⟩] },
    .copy ⟨21, 0⟩, .drop ⟨21, 0⟩]

/-- An editor with nothing in its buffer. -/
def quiet : Session.Stage := .ofEditor (.ofBuffer (.ofText "" none))

/-- The editor collects garbage. -/
def collection : Act Session.Stage := .elsewhere fun s => (s.onEditor (·.collect)).2

theorem unpins_exceed_pins :
    ((run Session.Stage.host quiet (refusal ++ [collection])).wrappers = {⟨21, 0⟩} ∧
      (run Session.Stage.host quiet (refusal ++ [collection])).host.state.editor.heap.isLive
        ⟨21, 0⟩ = false) ∧
    (run Session.Stage.host quiet (refusal ++ [.drop ⟨21, 0⟩])).host.pinned.count ⟨21, 0⟩ = 1 ∧
    (run Session.Stage.host quiet (refusal ++ [.drop ⟨21, 0⟩])).host.unpinned.count ⟨21, 0⟩ = 2 := by
  decide +kernel

end Holdings

end EditorScripting
