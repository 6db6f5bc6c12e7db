import EditorScripting.Bridge.Refresh

/-!
What a walk over the host's symbols reports: each symbol in the order of the walk, with its wrapper
or with the reason why it has none. Only wrappers of the reserved symbol are left out and counted.
The host may change by itself before each visit.
-/
namespace EditorScripting

open Host

namespace Report

/-- A wrapper of the reserved symbol is not listed. -/
def skips (reserved : String) : String × Except Failure Handle → Bool
  | (name, .ok _) => name = reserved
  | (_, .error _) => false

/-- A report that goes on with what else was found. -/
def extend (reserved : String) (r : Report) (found : List (String × Except Failure Handle)) :
    Report :=
  ⟨r.entries ++ found.filter (! skips reserved ·), r.skipped + found.countP (skips reserved)⟩

theorem extend_nil (reserved : String) (r : Report) : r.extend reserved [] = r := by
  simp [extend]

theorem extend_append (reserved : String) (r : Report)
    (found more : List (String × Except Failure Handle)) :
    r.extend reserved (found ++ more) = (r.extend reserved found).extend reserved more := by
  simp [extend, Nat.add_assoc]

/-- No wrapper is listed under the reserved name. -/
theorem not_mem_extend (reserved : String) (found : List (String × Except Failure Handle))
    (h : Handle) : (reserved, .ok h) ∉ (empty.extend reserved found).entries := by
  simp [extend, empty, skips]

end Report

namespace Bridge

variable {σ : Type} (host : Interface σ)

/-- Visits symbols one after the other. Just before visit number `k`, the host does `amid k` by
itself. -/
def walk (reserved : String) : (Nat → σ → σ) → List Handle → Report → σ → Report × σ
  | _, [], r, s => (r, s)
  | amid, h :: hs, r, s =>
    let (r, s) := visit host reserved r h (amid 0 s)
    walk reserved (fun k => amid (k + 1)) hs r s

/-- A refresh in the course of which the host also does something by itself. -/
def refreshAmid (amid : Nat → σ → σ) (b : Bridge) (s : σ) : Report × Bridge × σ :=
  let (r, s) := walk host b.reservedName amid (host.globalSymbols s) .empty s
  let (dictionary, s) := install host r b.dictionary s
  let diagnostics :=
    r.failures.foldl (fun d (name, f) => d.record (diagnostic name f)) b.diagnostics
  (r, { b with dictionary, diagnostics }, s)

theorem scan_eq_walk (reserved : String) (s : σ) :
    scan host reserved s =
      walk host reserved (fun _ => id) (host.globalSymbols s) .empty s := by
  unfold scan
  generalize host.globalSymbols s = hs
  generalize Report.empty = r
  induction hs generalizing r s with
  | nil => rfl
  | cons h hs ih => exact ih _ _

theorem refresh_eq_refreshAmid (b : Bridge) (s : σ) :
    b.refresh host s = refreshAmid host (fun _ => id) b s := by
  unfold refresh refreshAmid
  rw [scan_eq_walk]

/-- What a walk finds: for each symbol its name and the wrapper, or what went wrong. -/
def found (reserved : String) :
    (Nat → σ → σ) → List Handle → σ → List (String × Except Failure Handle)
  | _, [], _ => []
  | amid, h :: hs, s =>
    (wrapSymbol host h (amid 0 s)).1 ::
      found reserved (fun k => amid (k + 1)) hs (visit host reserved .empty h (amid 0 s)).2

theorem visit_fst (reserved : String) (r : Report) (h : Handle) (s : σ) :
    (visit host reserved r h s).1 = r.extend reserved [(wrapSymbol host h s).1] := by
  unfold visit Report.extend
  generalize wrapSymbol host h s = w
  obtain ⟨⟨name, f | g⟩, s⟩ := w
  · simp [Report.skips]
  · by_cases hname : name = reserved <;> simp [Report.skips, hname]

theorem visit_snd (reserved : String) (r : Report) (h : Handle) (s : σ) :
    (visit host reserved r h s).2 = (visit host reserved .empty h s).2 := by
  unfold visit
  generalize wrapSymbol host h s = w
  obtain ⟨⟨name, f | g⟩, s⟩ := w
  · rfl
  · dsimp only
    split <;> rfl

/-- A walk reports all that it finds, in its order, but for the wrappers of the reserved symbol. -/
theorem walk_fst (reserved : String) (amid : Nat → σ → σ) (hs : List Handle) (r : Report) (s : σ) :
    (walk host reserved amid hs r s).1 = r.extend reserved (found host reserved amid hs s) := by
  induction hs generalizing amid r s with
  | nil => exact (r.extend_nil reserved).symm
  | cons h hs ih =>
    unfold walk found
    dsimp only
    rw [ih, visit_fst, visit_snd, ← Report.extend_append, List.singleton_append]

/-! A refresh does nothing to the host but pin and unpin. -/

section

variable {host} {P : σ → Prop} (hpin : ∀ h s, P s → P (host.pin h s).2)
  (hunpin : ∀ h s, P s → P (host.unpin h s))
include hpin

theorem keeps_wrapSymbol {s : σ} (h : Handle) (hs : P s) : P (wrapSymbol host h s).2 := by
  have hp := hpin h s hs
  unfold wrapSymbol Wrapper.new
  split
  · split <;> rename_i he <;> rw [he] at hp <;> exact hp
  · exact hs
  · exact hs

include hunpin

theorem keeps_visit {s : σ} (reserved : String) (r : Report) (h : Handle) (hs : P s) :
    P (visit host reserved r h s).2 := by
  have hwrap := keeps_wrapSymbol hpin h hs
  unfold visit
  split <;> rename_i hw <;> rw [hw] at hwrap
  · split
    · exact hunpin _ _ hwrap
    · exact hwrap
  · exact hwrap

theorem keeps_walk {amid : Nat → σ → σ} (hamid : ∀ k s, P s → P (amid k s)) (reserved : String)
    {hs : List Handle} {r : Report} {s : σ} (hp : P s) :
    P (walk host reserved amid hs r s).2 := by
  induction hs generalizing amid r s with
  | nil => exact hp
  | cons h hs ih =>
    exact ih (fun k => hamid (k + 1)) (keeps_visit hpin hunpin reserved r h (hamid 0 s hp))

theorem keeps_install {r : Report} {d : Dictionary} {s : σ} (hs : P s) :
    P (install host r d s).2 := by
  unfold install
  induction r.wrappers generalizing d s with
  | nil => exact hs
  | cons w ws ih =>
    refine ih ?_
    have hcopy : P (Wrapper.copy host w.2 s) := hpin _ _ hs
    split
    · exact hunpin _ _ hcopy
    · exact hcopy

theorem keeps_refresh {b : Bridge} {s : σ} (hs : P s) : P (b.refresh host s).2.2 := by
  rw [refresh_eq_refreshAmid]
  exact keeps_install hpin hunpin (keeps_walk hpin hunpin (fun _ _ h => h) _ hs)

omit hpin in
theorem keeps_drop {r : Report} {s : σ} (hs : P s) : P (r.drop host s) := by
  unfold Report.drop
  induction r.wrappers generalizing s with
  | nil => exact hs
  | cons w ws ih => exact ih (hunpin w.2 s hs)

end

end Bridge

end EditorScripting
