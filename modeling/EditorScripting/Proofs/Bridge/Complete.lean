import EditorScripting.Proofs.Bridge.Reserved
import EditorScripting.Proofs.Editor.References

/-!
A refresh leaves nothing out, and each element of the table of symbols is dealt with by itself.
Every element adds one skip or one entry to the report, which is put together from what the elements
add, in the order of the table; so without one of them, its own part is missing and nothing else.
-/
namespace EditorScripting

open Host

namespace Host.Interface

variable {σ : Type}

/-- The host with another table of symbols. -/
def withTable (host : Interface σ) (table : List Handle) : Interface σ :=
  { host with globalSymbols := fun _ => table }

/-- What the host says of a value that a refresh comes to is the same in two states. -/
structure SameAnswers (host : Interface σ) (s s' : σ) : Prop where
  name : ∀ h, host.symbolName s' h = host.symbolName s h
  kind : ∀ h, host.typeOf s' h = host.typeOf s h
  pin : ∀ h, (host.pin h s').1 = (host.pin h s).1

/-- Pins have no influence on what the host says of its values. -/
structure PinsAside (host : Interface σ) : Prop where
  pin : ∀ h s, host.SameAnswers s (host.pin h s).2
  unpin : ∀ h s, host.SameAnswers s (host.unpin h s)

variable {host : Interface σ} {s s' s'' : σ}

theorem SameAnswers.refl (host : Interface σ) (s : σ) : host.SameAnswers s s :=
  ⟨fun _ => rfl, fun _ => rfl, fun _ => rfl⟩

theorem SameAnswers.trans (h : host.SameAnswers s s') (h' : host.SameAnswers s' s'') :
    host.SameAnswers s s'' :=
  ⟨fun g => (h'.name g).trans (h.name g), fun g => (h'.kind g).trans (h.kind g),
    fun g => (h'.pin g).trans (h.pin g)⟩

end Host.Interface

namespace Host.Editor

/-- Pins are no part of what the editor says of its values. -/
theorem sameAnswers_modifyPins (e : Editor) (h : Handle) (f : Nat → Nat) :
    Editor.interface.SameAnswers e { e with heap := e.heap.modifyPins h f } := by
  have hget : ∀ g, (e.heap.modifyPins h f).get g = e.heap.get g := by
    intro g
    rw [Heap.get, Heap.get?_modifyPins, Heap.get]
  refine ⟨fun g => congrArg (Except.map _) (hget g), fun g => congrArg (Except.map _) (hget g),
    fun g => ?_⟩
  change ((e.heap.modifyPins h f).pin g).1 = (e.heap.pin g).1
  rw [Heap.pin, Heap.isLive_modifyPins, Heap.pin]
  split <;> rfl

theorem pinsAside : Editor.interface.PinsAside where
  pin h e := by
    have hpin : (Editor.interface.pin h e).2 = _ := Editor.pin_snd e h
    rw [hpin]
    exact e.sameAnswers_modifyPins h _
  unpin h e := e.sameAnswers_modifyPins h _

end Host.Editor

namespace Session.Stage

/-- The hooks say which pins are refused, and they are no part of the editor. -/
theorem sameAnswers_of_editor {s : Stage} {e : Editor}
    (he : Editor.interface.SameAnswers s.editor e) :
    Stage.host.SameAnswers s { s with editor := e } := by
  refine ⟨he.name, he.kind, fun g => ?_⟩
  change (Stage.pin g { s with editor := e }).1 = (Stage.pin g s).1
  unfold Stage.pin
  split
  · rfl
  · exact he.pin g

theorem pinsAside : Stage.host.PinsAside where
  pin h s := by
    change Stage.host.SameAnswers s (Stage.pin h s).2
    unfold Stage.pin
    split
    · exact .refl _ s
    · exact sameAnswers_of_editor (Editor.pinsAside.pin h s.editor)
  unpin h s := sameAnswers_of_editor (Editor.pinsAside.unpin h s.editor)

end Session.Stage

namespace Report

/-- One report after the other. -/
def append (r r' : Report) : Report := ⟨r.entries ++ r'.entries, r.skipped + r'.skipped⟩

/-- Some reports one after the other. -/
def join (reports : List Report) : Report := reports.foldr append empty

theorem extend_eq_append (reserved : String) (r : Report)
    (found : List (String × Except Failure Handle)) :
    r.extend reserved found = r.append (empty.extend reserved found) := by
  simp [extend, empty, append]

theorem extend_eq_join (reserved : String) (found : List (String × Except Failure Handle)) :
    empty.extend reserved found = join (found.map fun x => empty.extend reserved [x]) := by
  induction found with
  | nil => rfl
  | cons x found ih =>
    have hfirst : empty.extend reserved (x :: found) =
        (empty.extend reserved [x]).extend reserved found :=
      extend_append reserved empty [x] found
    rw [hfirst, extend_eq_append, ih]
    rfl

/-- Each entry is a wrapper or a failure. -/
theorem installed_add_failures (r : Report) :
    r.installed + r.failures.length = r.entries.length := by
  unfold installed failures
  induction r.entries with
  | nil => rfl
  | cons x entries ih =>
    obtain ⟨name, f | h⟩ := x
    · simp only [List.countP_cons, List.filterMap_cons, List.length_cons, ← ih]
      simp [Except.isOk, Except.toBool, Nat.add_assoc]
    · simp only [List.countP_cons, List.filterMap_cons, List.length_cons, ← ih]
      simp [Except.isOk, Except.toBool]
      omega

end Report

namespace Visit

variable {σ : Type} (host : Interface σ)

/-- The rule for a visited element. A symbol is listed under its name, with its wrapper or with the
reason why the host refuses the pin; what is no symbol, or is stale, is listed by its handle. -/
inductive Listed (v : Visit σ) : String × Except Failure Handle → Prop
  | wrapped {name : String} (hname : host.symbolName v.state v.handle = .ok (some name))
      (hpin : (host.pin v.handle v.state).1 = .ok ()) : Listed v (name, .ok v.handle)
  | refused {name : String} {e : HostError}
      (hname : host.symbolName v.state v.handle = .ok (some name))
      (hpin : (host.pin v.handle v.state).1 = .error e) : Listed v (name, .error (.host e))
  | noSymbol {kind : String} (hname : host.symbolName v.state v.handle = .ok none)
      (hkind : host.typeOf v.state v.handle = .ok kind) :
      Listed v (v.handle.text, .error (.wrongType "symbol" kind))
  | noKind {e : HostError} (hname : host.symbolName v.state v.handle = .ok none)
      (hkind : host.typeOf v.state v.handle = .error e) :
      Listed v (v.handle.text, .error (.wrongType "symbol" "unknown"))
  | stale (hname : host.symbolName v.state v.handle = .error (.reclaimed v.handle)) :
      Listed v (v.handle.text, .error (.host (.reclaimed v.handle)))
  | unreadable {e : HostError} (hname : host.symbolName v.state v.handle = .error e)
      (hother : e ≠ .reclaimed v.handle) : Listed v (v.handle.text, .error (.host e))

/-- What a visit adds to the report. -/
def contribution (reserved : String) (v : Visit σ) : Report :=
  (Bridge.visit host reserved .empty v.handle v.state).1

variable {host} {v : Visit σ}

theorem listed_outcome (host : Interface σ) (v : Visit σ) : v.Listed host (v.outcome host) := by
  cases hname : host.symbolName v.state v.handle with
  | error e =>
    have houtcome : v.outcome host = (v.handle.text, .error (.host e)) := by
      rw [outcome, Bridge.wrapSymbol, hname]
    rw [houtcome]
    by_cases hstale : e = .reclaimed v.handle
    · rw [hstale]
      exact .stale (hname.trans (congrArg _ hstale))
    · exact .unreadable hname hstale
  | ok name =>
    cases name with
    | some name =>
      have hb : v.bears host name = true := bears_iff.mpr hname
      cases hpin : (host.pin v.handle v.state).1 with
      | ok u =>
        rw [outcome_of_granted hb (by rw [granted, hpin]; rfl)]
        exact .wrapped hname hpin
      | error e =>
        rw [outcome_of_refused hb hpin]
        exact .refused hname hpin
    | none =>
      cases hkind : host.typeOf v.state v.handle with
      | ok kind =>
        have houtcome : v.outcome host =
            (v.handle.text, .error (.wrongType "symbol" kind)) := by
          rw [outcome, Bridge.wrapSymbol, hname, hkind]
        rw [houtcome]
        exact .noSymbol hname hkind
      | error e =>
        have houtcome : v.outcome host =
            (v.handle.text, .error (.wrongType "symbol" "unknown")) := by
          rw [outcome, Bridge.wrapSymbol, hname, hkind]
        rw [houtcome]
        exact .noKind hname hkind

/-- The rule leaves no choice. -/
theorem Listed.unique {x y : String × Except Failure Handle} (hx : v.Listed host x)
    (hy : v.Listed host y) : x = y := by
  cases hx <;> cases hy <;> simp_all

theorem listed_iff {x : String × Except Failure Handle} :
    v.Listed host x ↔ v.outcome host = x :=
  ⟨(listed_outcome host v).unique, fun h => h ▸ listed_outcome host v⟩

theorem contribution_eq (reserved : String) :
    v.contribution host reserved = Report.empty.extend reserved [v.outcome host] :=
  Bridge.visit_fst host reserved .empty v.handle v.state

/-- A wrapper of the reserved symbol is a skip, and all else is an entry. -/
theorem contribution_cases (host : Interface σ) (v : Visit σ) (reserved : String) :
    (v.outcome host = (reserved, .ok v.handle) ∧ v.contribution host reserved = ⟨[], 1⟩) ∨
    (v.outcome host ≠ (reserved, .ok v.handle) ∧
      v.contribution host reserved = ⟨[v.outcome host], 0⟩) := by
  rw [contribution_eq]
  have hlisted := listed_outcome host v
  generalize v.outcome host = x at hlisted ⊢
  cases hlisted with
  | wrapped hname hpin =>
    rename_i name
    by_cases hreserved : name = reserved
    · simp [hreserved, Report.extend, Report.empty, Report.skips]
    · simp [hreserved, Report.extend, Report.empty, Report.skips]
  | _ => simp [Report.extend, Report.empty, Report.skips]

theorem contribution_size (host : Interface σ) (v : Visit σ) (reserved : String) :
    (v.contribution host reserved).skipped +
      (v.contribution host reserved).entries.length = 1 := by
  obtain ⟨-, h⟩ | ⟨-, h⟩ := contribution_cases host v reserved <;> rw [h] <;> rfl

/-- The rule asks for nothing but the answers of the host. -/
theorem Listed.of_sameAnswers {s s' : σ} (hs : host.SameAnswers s s') {h : Handle}
    {x : String × Except Failure Handle} (hx : Listed host ⟨h, s'⟩ x) : Listed host ⟨h, s⟩ x := by
  cases hx with
  | wrapped hname hpin =>
    exact .wrapped ((hs.name h).symm.trans hname) ((hs.pin h).symm.trans hpin)
  | refused hname hpin =>
    exact .refused ((hs.name h).symm.trans hname) ((hs.pin h).symm.trans hpin)
  | noSymbol hname hkind =>
    exact .noSymbol ((hs.name h).symm.trans hname) ((hs.kind h).symm.trans hkind)
  | noKind hname hkind =>
    exact .noKind ((hs.name h).symm.trans hname) ((hs.kind h).symm.trans hkind)
  | stale hname => exact .stale ((hs.name h).symm.trans hname)
  | unreadable hname hother => exact .unreadable ((hs.name h).symm.trans hname) hother

theorem contribution_congr {s s' : σ} (hs : host.SameAnswers s s') (reserved : String)
    (h : Handle) :
    contribution host reserved ⟨h, s'⟩ = contribution host reserved ⟨h, s⟩ := by
  have hlisted : Listed host ⟨h, s⟩ (outcome host ⟨h, s'⟩) :=
    (listed_outcome host ⟨h, s'⟩).of_sameAnswers hs
  rw [contribution_eq, contribution_eq, listed_iff.mp hlisted]

end Visit

namespace Bridge

variable {σ : Type} (host : Interface σ)

theorem visits_handles (reserved : String) (amid : Nat → σ → σ) (hs : List Handle) (s : σ) :
    (visits host reserved amid hs s).map (·.handle) = hs := by
  induction hs generalizing amid s with
  | nil => rfl
  | cons h hs ih =>
    rw [visits, List.map_cons, ih]

theorem report_eq_join (amid : Nat → σ → σ) (b : Bridge) (s : σ) :
    (refreshAmid host amid b s).1 =
      .join ((visitsOf host amid b s).map (·.contribution host b.reservedName)) := by
  rw [report_eq_outcomes, Report.extend_eq_join, List.map_map]
  refine congrArg Report.join (List.map_congr_left fun v _ => ?_)
  exact (Visit.contribution_eq b.reservedName).symm

/-- The skips and the entries together are as many as the visits. -/
theorem join_size (reserved : String) (visited : List (Visit σ)) :
    (Report.join (visited.map (·.contribution host reserved))).skipped +
      (Report.join (visited.map (·.contribution host reserved))).entries.length =
      visited.length := by
  induction visited with
  | nil => rfl
  | cons v visited ih =>
    have hone := v.contribution_size host reserved
    simp only [Report.join, List.map_cons, List.foldr_cons, Report.append, List.length_append,
      List.length_cons] at ih ⊢
    omega

/-- What the host does by itself before each visit if visit number `i` is left out: what that visit
did to the host is now done by the host. -/
def leaveOut (reserved : String) : (Nat → σ → σ) → List Handle → Nat → Nat → σ → σ
  | amid, [], _, k => amid k
  | amid, h :: _, 0, 0 => fun s => amid 1 (visit host reserved .empty h (amid 0 s)).2
  | amid, _ :: _, 0, k + 1 => amid (k + 2)
  | amid, _ :: _, _ + 1, 0 => amid 0
  | amid, _ :: hs, i + 1, k + 1 => leaveOut reserved (fun k => amid (k + 1)) hs i k

/-- The other elements are visited as before. -/
theorem visits_leaveOut (reserved : String) (amid : Nat → σ → σ) (hs : List Handle) (i : Nat)
    (s : σ) :
    visits host reserved (leaveOut host reserved amid hs i) (hs.eraseIdx i) s =
      (visits host reserved amid hs s).eraseIdx i := by
  induction hs generalizing amid i s with
  | nil => rfl
  | cons h hs ih =>
    cases i with
    | zero => cases hs <;> rfl
    | succ i =>
      rw [List.eraseIdx_cons_succ, visits, visits, List.eraseIdx_cons_succ, ← ih]
      rfl

theorem visits_withTable (table : List Handle) (reserved : String) (amid : Nat → σ → σ)
    (hs : List Handle) (s : σ) :
    visits (host.withTable table) reserved amid hs s = visits host reserved amid hs s := by
  induction hs generalizing amid s with
  | nil => rfl
  | cons h hs ih =>
    rw [visits, visits, ih]
    rfl

/-- Where pins have no influence, each element adds what it would add if it stood alone. -/
theorem contributions_of_pinsAside {host : Interface σ} (hp : host.PinsAside) (reserved : String)
    {s s' : σ} (hs : host.SameAnswers s s') (table : List Handle) :
    (visits host reserved (fun _ => id) table s').map (·.contribution host reserved) =
      table.map fun h => Visit.contribution host reserved ⟨h, s⟩ := by
  induction table generalizing s' with
  | nil => rfl
  | cons h table ih =>
    have hvisit : host.SameAnswers s (visit host reserved .empty h s').2 :=
      keeps_visit (fun g _ hs => hs.trans (hp.pin g _)) (fun g _ hs => hs.trans (hp.unpin g _))
        reserved .empty h hs
    rw [visits, List.map_cons, List.map_cons, ← ih hvisit]
    exact congrArg (· :: _) (Visit.contribution_congr hs reserved h)

/-- The table is visited element by element, and what they add, a skip or an entry each, makes up
the report, so that none is missing. Wrappers and failures make up the entries, and one diagnostic
is recorded for each failure, in the order of the failures. If an element is left out of the table,
its own part of the report is missing and nothing else, as long as the host comes into the same
states; this is so by itself where pins have no influence on what the host says. -/
theorem refresh_complete (amid : Nat → σ → σ) (b : Bridge) (s : σ) :
    let table := host.globalSymbols s
    let visited := visitsOf host amid b s
    let part := fun v : Visit σ => v.contribution host b.reservedName
    let report := (refreshAmid host amid b s).1
    let after := (refreshAmid host amid b s).2.1
    visited.map (·.handle) = table ∧
    report = .join (visited.map part) ∧
    (∀ v ∈ visited, (∀ x, v.Listed host x ↔ v.outcome host = x) ∧
      ((v.outcome host = (b.reservedName, .ok v.handle) ∧ part v = ⟨[], 1⟩) ∨
        (v.outcome host ≠ (b.reservedName, .ok v.handle) ∧ part v = ⟨[v.outcome host], 0⟩))) ∧
    report.skipped + report.entries.length = table.length ∧
    report.installed + report.failures.length = report.entries.length ∧
    after.diagnostics = (report.failures.map fun (name, f) =>
      (⟨"installing symbol", name ++ ": " ++ f.message⟩ : Diagnostic)).foldl .record
        b.diagnostics ∧
    (∀ i, (refreshAmid (host.withTable (table.eraseIdx i))
        (leaveOut host b.reservedName amid table i) b s).1 =
      .join ((visited.eraseIdx i).map part)) ∧
    (host.PinsAside → ∀ other, (b.refresh (host.withTable other) s).1 =
      .join (other.map fun h => part ⟨h, s⟩)) := by
  intro table visited part report after
  have hhandles : visited.map (·.handle) = table := visits_handles host b.reservedName amid table s
  have hreport : report = .join (visited.map part) := report_eq_join host amid b s
  have hlength : visited.length = table.length := by
    rw [← hhandles, List.length_map]
  refine ⟨hhandles, hreport, fun v _ => ⟨fun x => Visit.listed_iff,
    v.contribution_cases host b.reservedName⟩, ?_, report.installed_add_failures, ?_, ?_, ?_⟩
  · rw [hreport, join_size, hlength]
  · rw [List.foldl_map]
    rfl
  · intro i
    have hvisits : visitsOf (host.withTable (table.eraseIdx i))
        (leaveOut host b.reservedName amid table i) b s = visited.eraseIdx i :=
      (visits_withTable host _ b.reservedName _ _ s).trans
        (visits_leaveOut host b.reservedName amid table i s)
    rw [report_eq_join, hvisits]
    rfl
  · intro hp other
    have hvisits : visitsOf (host.withTable other) (fun _ => id) b s =
        visits host b.reservedName (fun _ => id) other s :=
      visits_withTable host other b.reservedName _ _ s
    rw [refresh_eq_refreshAmid, report_eq_join, hvisits]
    exact congrArg Report.join
      (contributions_of_pinsAside hp b.reservedName (.refl host s) other)

/-- An editor with the reserved symbol, a symbol that cannot be pinned, and a string. -/
def crowded : Session.Stage :=
  let e := ((Editor.ofBuffer (.ofText "" none)).intern "refresh").2
  let e := ((e.intern "x").2.makeString "kept").2
  (Session.Stage.ofEditor e).withHooks ⟨[], [⟨22, 0⟩], none, 0, false⟩

/-- All kinds of elements in one table, with the string and without it. -/
theorem refresh_complete_crowded :
    let b : Bridge := ⟨"refresh", ∅, .empty 16⟩
    let table : List Handle := [⟨22, 0⟩, ⟨23, 0⟩, ⟨21, 0⟩, ⟨99, 0⟩, ⟨22, 0⟩, ⟨0, 0⟩]
    let refused : String × Except Failure Handle :=
      ("x", .error (.host (.reclaimed ⟨22, 0⟩)))
    let stale : String × Except Failure Handle :=
      ("#<object 99.0>", .error (.host (.reclaimed ⟨99, 0⟩)))
    let text : String × Except Failure Handle :=
      ("#<object 23.0>", .error (.wrongType "symbol" "string"))
    Session.Stage.host.PinsAside ∧
    (b.refresh (Session.Stage.host.withTable table) crowded).1 =
      ⟨[refused, text, stale, refused, ("nil", .ok ⟨0, 0⟩)], 1⟩ ∧
    (b.refresh (Session.Stage.host.withTable (table.eraseIdx 1)) crowded).1 =
      ⟨[refused, stale, refused, ("nil", .ok ⟨0, 0⟩)], 1⟩ := by
  intro b table refused stale text
  obtain ⟨-, -, -, -, -, -, -, halone⟩ :=
    refresh_complete Session.Stage.host (fun _ => id) b crowded
  have hparts := halone Session.Stage.pinsAside
  refine ⟨Session.Stage.pinsAside, (hparts table).trans ?_, (hparts _).trans ?_⟩
  · exact congrArg₂ Report.mk (by decide +kernel) (by decide +kernel)
  · exact congrArg₂ Report.mk (by decide +kernel) (by decide +kernel)

end Bridge

end EditorScripting
