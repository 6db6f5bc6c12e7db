import EditorScripting.Proofs.Bridge.Walk
import EditorScripting.Session.Stage

/-!
The reserved symbol in a refresh. Every symbol is wrapped before its name is looked at, so the
reserved one is visited like any other: it is counted as skipped if the host grants its pin, and
listed as a failure if the host refuses it.
-/
namespace EditorScripting

open Host

/-- A symbol in the state in which a walk comes to it. -/
structure Visit (σ : Type) where
  handle : Handle
  state : σ

namespace Visit

variable {σ : Type} (host : Interface σ)

/-- The name under which the visited symbol is listed, with its wrapper or its failure. -/
def outcome (v : Visit σ) : String × Except Failure Handle :=
  (Bridge.wrapSymbol host v.handle v.state).1

/-- The visited symbol prints as `name`. -/
def bears (name : String) (v : Visit σ) : Bool :=
  match host.symbolName v.state v.handle with
  | .ok (some given) => given = name
  | _ => false

/-- The host pins the visited symbol. -/
def granted (v : Visit σ) : Bool := (host.pin v.handle v.state).1.isOk

/-- What is visited has no name, and is listed by its handle. -/
def Nameless (v : Visit σ) : Prop := ∀ name, v.bears host name = false

variable {host} {v : Visit σ} {name : String}

theorem bears_iff : v.bears host name = true ↔
    host.symbolName v.state v.handle = .ok (some name) := by
  unfold bears
  split
  · rename_i given hs
    simp [hs]
  · rename_i hs
    simpa using hs name

theorem bears_inj {other : String} (h : v.bears host name = true)
    (ho : v.bears host other = true) : other = name := by
  rw [bears_iff] at h ho
  rw [h] at ho
  cases ho
  rfl

theorem outcome_of_granted (hb : v.bears host name = true) (hg : v.granted host = true) :
    v.outcome host = (name, .ok v.handle) := by
  unfold granted at hg
  unfold outcome Bridge.wrapSymbol Wrapper.new
  rw [bears_iff.mp hb]
  generalize host.pin v.handle v.state = p at hg ⊢
  obtain ⟨e | u, s⟩ := p
  · cases hg
  · rfl

theorem outcome_of_refused {e : HostError} (hb : v.bears host name = true)
    (hp : (host.pin v.handle v.state).1 = .error e) :
    v.outcome host = (name, .error (.host e)) := by
  unfold outcome Bridge.wrapSymbol Wrapper.new
  rw [bears_iff.mp hb]
  generalize host.pin v.handle v.state = p at hp ⊢
  obtain ⟨f | u, s⟩ := p <;> cases hp
  rfl

theorem outcome_of_nameless (hn : v.Nameless host) :
    ∃ f, v.outcome host = (v.handle.text, .error f) := by
  unfold outcome Bridge.wrapSymbol
  split
  · rename_i given hs
    have hb : v.bears host given = true := bears_iff.mpr hs
    rw [hn given] at hb
    cases hb
  · exact ⟨_, rfl⟩
  · exact ⟨_, rfl⟩

/-- A visit meets a symbol that is pinned, a symbol whose pin is refused, or what has no name. -/
theorem granted_or_refused_or_nameless (host : Interface σ) (v : Visit σ) :
    (∃ name, v.bears host name = true ∧ v.granted host = true) ∨
      (∃ name e, v.bears host name = true ∧ (host.pin v.handle v.state).1 = .error e ∧
        v.granted host = false) ∨ v.Nameless host := by
  by_cases hn : ∃ name, v.bears host name = true
  · obtain ⟨name, hb⟩ := hn
    cases hp : (host.pin v.handle v.state).1 with
    | ok u => exact .inl ⟨name, hb, by rw [granted, hp]; rfl⟩
    | error e => exact .inr (.inl ⟨name, e, hb, rfl, by rw [granted, hp]; rfl⟩)
  · refine .inr (.inr fun name => ?_)
    simpa using fun h => hn ⟨name, h⟩

/-- A walk skips just the symbols with the reserved name that it could pin. -/
theorem skips_outcome (host : Interface σ) (v : Visit σ) (reserved : String) :
    Report.skips reserved (v.outcome host) = (v.bears host reserved && v.granted host) := by
  rcases granted_or_refused_or_nameless host v with
    ⟨name, hb, hg⟩ | ⟨name, e, hb, hp, hg⟩ | hn
  · rw [outcome_of_granted hb hg, hg, Bool.and_true, Bool.eq_iff_iff]
    simp only [Report.skips, decide_eq_true_eq]
    constructor
    · rintro rfl
      exact hb
    · intro h
      exact bears_inj h hb
  · rw [outcome_of_refused hb hp, hg, Bool.and_false]
    rfl
  · obtain ⟨f, hf⟩ := outcome_of_nameless hn
    rw [hf, hn reserved]
    rfl

/-- A failure is listed under a name if the symbol has that name and its pin was refused, or if it
goes by its handle. -/
theorem outcome_eq_error_iff {f : Failure} :
    v.outcome host = (name, .error f) ↔
      (v.bears host name = true ∧
        ∃ e, (host.pin v.handle v.state).1 = .error e ∧ f = .host e) ∨
      (v.Nameless host ∧ v.outcome host = (v.handle.text, .error f) ∧ v.handle.text = name) := by
  constructor
  · intro h
    rcases granted_or_refused_or_nameless host v with
      ⟨given, hb, hg⟩ | ⟨given, e, hb, hp, -⟩ | hn
    · rw [outcome_of_granted hb hg] at h
      cases h
    · rw [outcome_of_refused hb hp] at h
      cases h
      exact .inl ⟨hb, e, hp, rfl⟩
    · obtain ⟨g, hg⟩ := outcome_of_nameless hn
      rw [hg] at h ⊢
      cases h
      exact .inr ⟨hn, rfl, rfl⟩
  · rintro (⟨hb, e, hp, rfl⟩ | ⟨-, ho, rfl⟩)
    · exact outcome_of_refused hb hp
    · exact ho

end Visit

theorem Report.mem_failures_iff {r : Report} {name : String} {f : Failure} :
    (name, f) ∈ r.failures ↔ (name, .error f) ∈ r.entries := by
  rw [Report.failures, List.mem_filterMap]
  constructor
  · rintro ⟨⟨given, g | h⟩, hm, hx⟩ <;> cases hx
    exact hm
  · intro hm
    exact ⟨_, hm, rfl⟩

namespace Bridge

variable {σ : Type} (host : Interface σ)

/-- The visits of a walk, each in the state that the visits before it and the host have left. -/
def visits (reserved : String) : (Nat → σ → σ) → List Handle → σ → List (Visit σ)
  | _, [], _ => []
  | amid, h :: hs, s =>
    ⟨h, amid 0 s⟩ ::
      visits reserved (fun k => amid (k + 1)) hs (visit host reserved .empty h (amid 0 s)).2

theorem found_eq_outcomes (reserved : String) (amid : Nat → σ → σ) (hs : List Handle) (s : σ) :
    found host reserved amid hs s =
      (visits host reserved amid hs s).map (·.outcome host) := by
  induction hs generalizing amid s with
  | nil => rfl
  | cons h hs ih =>
    unfold found visits
    rw [ih, List.map_cons]
    rfl

/-- The visits of a refresh. -/
def visitsOf (amid : Nat → σ → σ) (b : Bridge) (s : σ) : List (Visit σ) :=
  visits host b.reservedName amid (host.globalSymbols s) s

theorem report_eq_outcomes (amid : Nat → σ → σ) (b : Bridge) (s : σ) :
    (refreshAmid host amid b s).1 =
      Report.empty.extend b.reservedName ((visitsOf host amid b s).map (·.outcome host)) := by
  rw [visitsOf, ← found_eq_outcomes, ← walk_fst]
  rfl

theorem mem_entries_iff_visit (amid : Nat → σ → σ) (b : Bridge) (s : σ)
    (x : String × Except Failure Handle) :
    x ∈ (refreshAmid host amid b s).1.entries ↔
      Report.skips b.reservedName x = false ∧ ∃ v ∈ visitsOf host amid b s, v.outcome host = x := by
  rw [report_eq_outcomes]
  simp [Report.extend, Report.empty, and_comm]

theorem skipped_eq_countP (amid : Nat → σ → σ) (b : Bridge) (s : σ) :
    (refreshAmid host amid b s).1.skipped =
      (visitsOf host amid b s).countP fun v => v.bears host b.reservedName && v.granted host := by
  rw [report_eq_outcomes]
  simp only [Report.extend, Report.empty, Nat.zero_add, List.countP_map]
  exact congrArg (List.countP · _) (funext fun v => Visit.skips_outcome host v b.reservedName)

/-- Every visit that is listed under the reserved name met a symbol of that name and could pin
it. -/
def ReservedGranted (amid : Nat → σ → σ) (b : Bridge) (s : σ) : Prop :=
  ∀ v ∈ visitsOf host amid b s, (v.outcome host).1 = b.reservedName →
    v.bears host b.reservedName = true ∧ v.granted host = true

theorem not_listed_iff (amid : Nat → σ → σ) (b : Bridge) (s : σ) :
    (∀ x ∈ (refreshAmid host amid b s).1.entries, x.1 ≠ b.reservedName) ↔
      ReservedGranted host amid b s := by
  constructor
  · intro h v hv hname
    cases hskip : Report.skips b.reservedName (v.outcome host) with
    | true => rwa [Visit.skips_outcome, Bool.and_eq_true] at hskip
    | false =>
      have hm := (mem_entries_iff_visit host amid b s _).mpr ⟨hskip, v, hv, rfl⟩
      exact absurd hname (h _ hm)
  · intro h x hx hname
    obtain ⟨hs, v, hv, rfl⟩ := (mem_entries_iff_visit host amid b s x).mp hx
    obtain ⟨hb, hg⟩ := h v hv hname
    rw [Visit.skips_outcome, hb, hg] at hs
    cases hs

/-- If the host grants every pin of the reserved symbol, each of its visits is skipped. -/
theorem ReservedGranted.skipped {amid : Nat → σ → σ} {b : Bridge} {s : σ}
    (h : ReservedGranted host amid b s) :
    (refreshAmid host amid b s).1.skipped =
      (visitsOf host amid b s).countP (·.bears host b.reservedName) := by
  rw [skipped_eq_countP]
  refine List.countP_congr fun v hv => ?_
  rw [Bool.and_eq_true]
  constructor
  · exact And.left
  · intro hb
    have hname : (v.outcome host).1 = b.reservedName := by
      cases hp : (host.pin v.handle v.state).1 with
      | ok u => rw [Visit.outcome_of_granted hb (by rw [Visit.granted, hp]; rfl)]
      | error e => rw [Visit.outcome_of_refused hb hp]
    exact h v hv hname

/-- A refresh skips the symbols of the reserved name that it could pin, and lists a failure under
that name for each other one. So the reserved name is skipped throughout, and neither listed nor
filed, exactly if every pin of it was granted and nothing else goes by it. -/
theorem refresh_reserved (amid : Nat → σ → σ) (b : Bridge) (s : σ) :
    let visited := visitsOf host amid b s
    let report := (refreshAmid host amid b s).1
    let after := (refreshAmid host amid b s).2.1
    report.skipped = visited.countP (fun v => v.bears host b.reservedName && v.granted host) ∧
    (∀ h, (b.reservedName, .ok h) ∉ report.entries) ∧
    (∀ f, (b.reservedName, .error f) ∈ report.entries ↔ ∃ v ∈ visited,
      (v.bears host b.reservedName = true ∧
        ∃ e, (host.pin v.handle v.state).1 = .error e ∧ f = .host e) ∨
      (v.Nameless host ∧ v.outcome host = (v.handle.text, .error f) ∧
        v.handle.text = b.reservedName)) ∧
    after.diagnostics =
      (report.failures.map fun (name, f) => diagnostic name f).foldl .record b.diagnostics ∧
    ((report.skipped = visited.countP (·.bears host b.reservedName) ∧
        (∀ x ∈ report.entries, x.1 ≠ b.reservedName) ∧
        ∀ x ∈ report.failures, x.1 ≠ b.reservedName) ↔
      ReservedGranted host amid b s) := by
  intro visited report after
  have hlisted := not_listed_iff host amid b s
  have hentries := mem_entries_iff_visit host amid b s
  refine ⟨skipped_eq_countP host amid b s, ?_, ?_, ?_, ?_⟩
  · intro h hm
    have hs := ((hentries _).mp hm).1
    simp [Report.skips] at hs
  · intro f
    rw [hentries]
    simp only [Report.skips, true_and]
    exact exists_congr fun v => and_congr_right fun _ => Visit.outcome_eq_error_iff
  · rw [List.foldl_map]
    rfl
  · constructor
    · rintro ⟨-, h, -⟩
      exact hlisted.mp h
    · intro h
      refine ⟨h.skipped, hlisted.mpr h, ?_⟩
      rintro ⟨name, f⟩ hx
      exact hlisted.mpr h _ (Report.mem_failures_iff.mp hx)

/-- An editor whose host refuses to pin the reserved symbol. -/
def refusing : Session.Stage :=
  let e := ((Editor.ofBuffer (.ofText "" none)).intern "refresh").2
  (Session.Stage.ofEditor e).withHooks ⟨[], [⟨21, 0⟩], none, 0, false⟩

/-- The reserved symbol is in the table, but it is listed and filed instead of skipped. -/
theorem reserved_listed_when_refused :
    let b : Bridge := ⟨"refresh", ∅, .empty 16⟩
    let report := (b.refresh Session.Stage.host refusing).1
    let after := (b.refresh Session.Stage.host refusing).2.1
    ⟨21, 0⟩ ∈ Session.Stage.host.globalSymbols refusing ∧
    Visit.bears Session.Stage.host "refresh" ⟨⟨21, 0⟩, refusing⟩ = true ∧
    report.skipped = 0 ∧
    report.failures = [("refresh", .host (.reclaimed ⟨21, 0⟩))] ∧
    after.diagnostics.entries =
      [⟨"installing symbol", "refresh: object #<object 21.0> has been reclaimed"⟩] := by
  intro b report after
  exact ⟨by decide +kernel, by decide +kernel, by decide +kernel, by decide +kernel,
    by decide +kernel⟩

end Bridge

end EditorScripting
