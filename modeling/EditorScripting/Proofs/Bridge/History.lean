import Mathlib.Data.List.Induction
import EditorScripting.Proofs.Bridge.Walk

/-!
What a dictionary holds after any history of refreshes: under each name the wrapper that was made
last. A name is never given up, whatever becomes of its symbol.
-/
namespace EditorScripting

open Host

namespace Report

/-- The wrapper that an entry of a report holds for a name. -/
def wrapperOf (name : String) : String × Except Failure Handle → Option Handle
  | (other, .ok h) => if other = name then some h else none
  | (_, .error _) => none

theorem wrapperOf_eq_some_iff {name : String} {e : String × Except Failure Handle} {h : Handle} :
    wrapperOf name e = some h ↔ e = (name, .ok h) := by
  obtain ⟨other, f | g⟩ := e <;> simp [wrapperOf]

theorem wrapperOf_eq_none_iff {name : String} {e : String × Except Failure Handle} :
    wrapperOf name e = none ↔ ∀ h, e ≠ (name, .ok h) := by
  simp [Option.eq_none_iff_forall_ne_some, wrapperOf_eq_some_iff]

/-- The wrapper of a name that comes last. -/
def lastOf (name : String) (entries : List (String × Except Failure Handle)) : Option Handle :=
  entries.reverse.findSome? (wrapperOf name)

theorem lastOf_append (name : String) (entries more : List (String × Except Failure Handle)) :
    lastOf name (entries ++ more) = (lastOf name more).or (lastOf name entries) := by
  simp [lastOf, List.findSome?_append]

theorem lastOf_eq_none_iff {name : String} {entries : List (String × Except Failure Handle)} :
    lastOf name entries = none ↔ ∀ h, (name, .ok h) ∉ entries := by
  simp only [lastOf, List.findSome?_eq_none_iff, List.mem_reverse, wrapperOf_eq_none_iff]
  exact ⟨fun hnone h hmem => hnone _ hmem h rfl, fun hnone e he h heq => hnone h (heq ▸ he)⟩

/-- The last wrapper of a name is followed by no other one. -/
theorem lastOf_eq_some_iff {name : String} {entries : List (String × Except Failure Handle)}
    {h : Handle} : lastOf name entries = some h ↔
      ∃ before after, entries = before ++ (name, .ok h) :: after ∧ ∀ g, (name, .ok g) ∉ after := by
  constructor
  · intro hlast
    obtain ⟨later, e, sooner, hsplit, he, hnone⟩ := List.findSome?_eq_some_iff.mp hlast
    have hentries := congrArg List.reverse hsplit
    rw [wrapperOf_eq_some_iff.mp he] at hentries
    refine ⟨sooner.reverse, later.reverse, by simpa using hentries, ?_⟩
    intro g hg
    exact wrapperOf_eq_none_iff.mp (hnone _ (List.mem_reverse.mp hg)) g rfl
  · rintro ⟨before, after, rfl, hafter⟩
    have hnone : lastOf name after = none := lastOf_eq_none_iff.mpr hafter
    have hhead : lastOf name [(name, .ok h)] = some h := by simp [lastOf, wrapperOf]
    rw [List.append_cons, lastOf_append, hnone, Option.none_or, lastOf_append, hhead,
      Option.some_or]

/-- If all wrappers of a name are the same, that one is the last. -/
theorem lastOf_of_mem {name : String} {entries : List (String × Except Failure Handle)} {h : Handle}
    (hmem : (name, .ok h) ∈ entries) (hsame : ∀ g, (name, .ok g) ∈ entries → g = h) :
    lastOf name entries = some h := by
  cases hlast : lastOf name entries with
  | none => exact absurd hmem (lastOf_eq_none_iff.mp hlast h)
  | some g =>
    obtain ⟨before, after, hentries, -⟩ := lastOf_eq_some_iff.mp hlast
    rw [hsame g (by simp [hentries])]

/-- Over several reports, the last report with a wrapper of the name counts. -/
theorem lastOf_flatMap_eq_some_iff {name : String} {reports : List Report} {h : Handle} :
    lastOf name (reports.flatMap entries) = some h ↔
      ∃ older r newer, reports = older ++ r :: newer ∧ lastOf name r.entries = some h ∧
        ∀ r ∈ newer, lastOf name r.entries = none := by
  have hfold : lastOf name (reports.flatMap entries) =
      reports.reverse.findSome? fun r => lastOf name r.entries := by
    induction reports using List.reverseRecOn with
    | nil => rfl
    | append_singleton reports r ih =>
      rw [List.flatMap_append, List.flatMap_singleton, lastOf_append, ih, List.reverse_append]
      cases hr : lastOf name r.entries <;> simp [hr]
  rw [hfold]
  constructor
  · intro hlast
    obtain ⟨later, r, sooner, hsplit, hr, hnone⟩ := List.findSome?_eq_some_iff.mp hlast
    refine ⟨sooner.reverse, r, later.reverse, ?_, hr, ?_⟩
    · simpa using congrArg List.reverse hsplit
    · intro r hr
      exact hnone r (List.mem_reverse.mp hr)
  · rintro ⟨older, r, newer, rfl, hr, hnone⟩
    refine List.findSome?_eq_some_iff.mpr ⟨newer.reverse, r, older.reverse, by simp, hr, ?_⟩
    intro r hr
    exact hnone r (List.mem_reverse.mp hr)

end Report

variable {σ : Type} (host : Interface σ)

/-- The last wrapper of each name replaces what was installed under it. All other names keep what
they have. -/
theorem Bridge.getElem?_install (r : Report) (d : Dictionary) (s : σ) (name : String) :
    (install host r d s).1[name]? = (Report.lastOf name r.entries).or d[name]? := by
  unfold install Report.wrappers
  induction r.entries using List.reverseRecOn with
  | nil => simp [Report.lastOf]
  | append_singleton entries e ih =>
    rw [Report.lastOf_append, List.filterMap_append, List.foldl_append, Option.or_assoc, ← ih]
    obtain ⟨other, f | g⟩ := e
    · simp [Report.lastOf, Report.wrapperOf]
    · by_cases hname : other = name
      · simp [Report.lastOf, Report.wrapperOf, Dictionary.install, hname]
      · simp [Report.lastOf, Report.wrapperOf, Dictionary.install, hname,
          Std.TreeMap.getElem?_insert]

theorem Bridge.getElem?_refresh (b : Bridge) (s : σ) (name : String) :
    (b.refresh host s).2.1.dictionary[name]? =
      (Report.lastOf name (b.refresh host s).1.entries).or b.dictionary[name]? :=
  getElem?_install host _ _ _ name

/-- A bridge and its host, with the reports of all refreshes so far, the oldest first. -/
structure History (σ : Type) where
  bridge : Bridge
  state : σ
  reports : List Report

namespace History

inductive Event (σ : Type) where
  /-- The host does something by itself. -/
  | elsewhere (f : σ → σ)
  /-- A refresh. The host does something by itself before each symbol is visited. -/
  | refresh (amid : Nat → σ → σ)

def after (l : History σ) : Event σ → History σ
  | .elsewhere f => { l with state := f l.state }
  | .refresh amid =>
    let (report, bridge, state) := l.bridge.refreshAmid host amid l.state
    ⟨bridge, state, l.reports ++ [report]⟩

/-- What becomes of a new bridge. -/
def run (reserved : String) (diagnostics : Diagnostics) (s : σ) (events : List (Event σ)) :
    History σ :=
  events.foldl (after host) ⟨⟨reserved, ∅, diagnostics⟩, s, []⟩

/-- All that was reported so far, in its order. -/
def entries (l : History σ) : List (String × Except Failure Handle) :=
  l.reports.flatMap Report.entries

/-- The dictionary holds the last wrapper of each name, and no report lists the reserved one. -/
structure Current (reserved : String) (l : History σ) : Prop where
  reservedName : l.bridge.reservedName = reserved
  dictionary : ∀ name : String, l.bridge.dictionary[name]? = Report.lastOf name l.entries
  reserved : ∀ r ∈ l.reports, ∀ h, (reserved, .ok h) ∉ r.entries

theorem current_after {reserved : String} {l : History σ} (hl : l.Current reserved) (e : Event σ) :
    (l.after host e).Current reserved := by
  cases e with
  | elsewhere f => exact ⟨hl.reservedName, hl.dictionary, hl.reserved⟩
  | refresh amid =>
    refine ⟨hl.reservedName, ?_, ?_⟩
    · intro name
      unfold after Bridge.refreshAmid entries
      dsimp only
      rw [Bridge.getElem?_install, List.flatMap_append, List.flatMap_singleton,
        Report.lastOf_append, hl.dictionary]
      rfl
    · intro r hr
      rcases List.mem_append.mp hr with hr | hr
      · exact hl.reserved r hr
      · rw [List.mem_singleton.mp hr, Bridge.walk_fst, hl.reservedName]
        exact Report.not_mem_extend reserved _

theorem run_concat (reserved : String) (diagnostics : Diagnostics) (s : σ)
    (events : List (Event σ)) (e : Event σ) :
    run host reserved diagnostics s (events ++ [e]) =
      (run host reserved diagnostics s events).after host e := by
  unfold run
  rw [List.foldl_append]
  rfl

theorem current_run (reserved : String) (diagnostics : Diagnostics) (s : σ)
    (events : List (Event σ)) : (run host reserved diagnostics s events).Current reserved := by
  induction events using List.reverseRecOn with
  | nil => exact ⟨rfl, fun _ => rfl, fun _ hr => absurd hr List.not_mem_nil⟩
  | append_singleton events e ih =>
    rw [run_concat]
    exact current_after host ih e

/-- Reports are only ever added. -/
theorem reports_run_append (reserved : String) (diagnostics : Diagnostics) (s : σ)
    (events more : List (Event σ)) : ∃ newer,
      (run host reserved diagnostics s (events ++ more)).reports =
        (run host reserved diagnostics s events).reports ++ newer := by
  induction more using List.reverseRecOn with
  | nil => exact ⟨[], by simp⟩
  | append_singleton more e ih =>
    obtain ⟨newer, hnewer⟩ := ih
    rw [← List.append_assoc, run_concat]
    cases e with
    | elsewhere f => exact ⟨newer, hnewer⟩
    | refresh amid => exact ⟨newer ++ [_], by rw [← List.append_assoc, ← hnewer]; rfl⟩

/-- After any refreshes and any changes of the host, also in the middle of a refresh, a name is
bound if a wrapper was ever made under it, and it is bound to the last one: of the latest refresh
that made one, and there of the last symbol with that name. Refreshes that make no wrapper of a name
leave it as it was. The reserved name is not bound. -/
theorem dictionary_run (reserved : String) (diagnostics : Diagnostics) (s : σ)
    (events : List (Event σ)) :
    let l := run host reserved diagnostics s events
    (∀ name : String, name ∈ l.bridge.dictionary ↔
      ∃ r ∈ l.reports, ∃ h, (name, .ok h) ∈ r.entries) ∧
    (∀ (name : String) h, l.bridge.dictionary[name]? = some h ↔
      ∃ older r newer before after, l.reports = older ++ r :: newer ∧
        r.entries = before ++ (name, .ok h) :: after ∧ (∀ g, (name, .ok g) ∉ after) ∧
          ∀ r ∈ newer, ∀ g, (name, .ok g) ∉ r.entries) ∧
    (∀ more, ∃ newer, (run host reserved diagnostics s (events ++ more)).reports =
        l.reports ++ newer ∧
      ∀ name : String, (∀ r ∈ newer, ∀ g, (name, .ok g) ∉ r.entries) →
        (run host reserved diagnostics s (events ++ more)).bridge.dictionary[name]? =
          l.bridge.dictionary[name]?) ∧
    l.bridge.dictionary[reserved]? = none := by
  intro l
  have hl : l.Current reserved := current_run host reserved diagnostics s events
  refine ⟨?_, ?_, ?_, ?_⟩
  · intro name
    have hbound : name ∈ l.bridge.dictionary ↔ Report.lastOf name l.entries ≠ none := by
      rw [← hl.dictionary]
      simp
    rw [hbound, Ne, Report.lastOf_eq_none_iff]
    constructor
    · intro hsome
      obtain ⟨h, hmem⟩ := not_forall_not.mp hsome
      obtain ⟨r, hr, hentry⟩ := List.mem_flatMap.mp hmem
      exact ⟨r, hr, h, hentry⟩
    · rintro ⟨r, hr, h, hentry⟩ hnone
      exact hnone h (List.mem_flatMap.mpr ⟨r, hr, hentry⟩)
  · intro name h
    rw [hl.dictionary, entries, Report.lastOf_flatMap_eq_some_iff]
    simp only [Report.lastOf_eq_some_iff, Report.lastOf_eq_none_iff]
    constructor
    · rintro ⟨older, r, newer, hreports, ⟨before, after, hentries, hafter⟩, hnewer⟩
      exact ⟨older, r, newer, before, after, hreports, hentries, hafter, hnewer⟩
    · rintro ⟨older, r, newer, before, after, hreports, hentries, hafter, hnewer⟩
      exact ⟨older, r, newer, hreports, ⟨before, after, hentries, hafter⟩, hnewer⟩
  · intro more
    obtain ⟨newer, hnewer⟩ := reports_run_append host reserved diagnostics s events more
    refine ⟨newer, hnewer, ?_⟩
    intro name hnone
    have hmore := current_run host reserved diagnostics s (events ++ more)
    rw [hmore.dictionary, hl.dictionary, entries, hnewer, List.flatMap_append,
      Report.lastOf_append, Report.lastOf_eq_none_iff.mpr ?_, Option.none_or]
    · rfl
    · intro h hmem
      obtain ⟨r, hr, hentry⟩ := List.mem_flatMap.mp hmem
      exact hnone r hr h hentry
  · rw [hl.dictionary, Report.lastOf_eq_none_iff]
    intro h hmem
    obtain ⟨r, hr, hentry⟩ := List.mem_flatMap.mp hmem
    exact hl.reserved r hr h hentry

end History

end EditorScripting
