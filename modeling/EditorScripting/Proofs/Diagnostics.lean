import Mathlib.Data.List.DropRight
import EditorScripting.Diagnostics

/-!
The stream of failures keeps the newest entries. It is used through clones, which have the entries
in common and each a copy of the capacity; whichever of them is used, the entries are the last ones
that were recorded through any of them since the stream was drained.
-/
namespace EditorScripting.Diagnostics

/-- What a clone can be asked for. -/
inductive Use
  | clone
  | record (entry : Diagnostic)
  | recordFailure (f : Failure)
  | entries
  | isEmpty
  | drain

namespace Use

/-- The entry that a use records. -/
def recorded? : Use → Option Diagnostic
  | .record entry => some entry
  | .recordFailure f => some ⟨f.operation, f.message⟩
  | _ => none

def drains : Use → Bool
  | .drain => true
  | _ => false

end Use

/-- One stream with its clones, of which only the copies of the capacity are their own. -/
structure Cloned where
  entries : List Diagnostic
  original : Nat
  clones : List Nat

namespace Cloned

def ofCapacity (capacity : Nat) : Cloned :=
  ⟨(empty capacity).entries, (empty capacity).capacity, []⟩

/-- The stream that a clone holds. A number without a clone stands for the original. -/
def through (s : Cloned) (clone : Nat) : Diagnostics :=
  ⟨s.entries, s.clones.getD clone s.original⟩

/-- What a clone makes of the stream is seen by all. -/
def put (s : Cloned) (d : Diagnostics) : Cloned := { s with entries := d.entries }

def use (s : Cloned) (clone : Nat) : Use → Cloned
  | .clone => { s with clones := s.clones ++ [(s.through clone).capacity] }
  | .record entry => s.put ((s.through clone).record entry)
  | .recordFailure f => s.put ((s.through clone).recordFailure f)
  | .entries | .isEmpty => s
  | .drain => s.put (s.through clone).drain.2

/-- A new stream after some uses, each through a clone. -/
def run (capacity : Nat) (uses : List (Nat × Use)) : Cloned :=
  uses.foldl (fun s u => s.use u.1 u.2) (ofCapacity capacity)

theorem run_concat (capacity : Nat) (uses : List (Nat × Use)) (u : Nat × Use) :
    run capacity (uses ++ [u]) = (run capacity uses).use u.1 u.2 :=
  List.foldl_concat ..

end Cloned

/-- What was recorded since the last drain, oldest first, through whichever clones. -/
def sinceDrain (uses : List (Nat × Use)) : List Diagnostic :=
  (uses.rtakeWhile fun u => !u.2.drains).filterMap fun u => u.2.recorded?

theorem sinceDrain_concat (uses : List (Nat × Use)) (u : Nat × Use) :
    sinceDrain (uses ++ [u]) =
      if u.2.drains then [] else sinceDrain uses ++ u.2.recorded?.toList := by
  rw [sinceDrain, List.rtakeWhile_concat]
  cases hd : u.2.drains with
  | true => simp
  | false =>
    have hone : [u].filterMap (fun u => u.2.recorded?) = u.2.recorded?.toList := by
      cases he : u.2.recorded? <;> simp [he]
    simp [sinceDrain, List.filterMap_append, hone]

theorem rtake_length_le {α : Type} (l : List α) (n : Nat) : (l.rtake n).length ≤ n := by
  rw [List.rtake, List.length_drop]
  omega

theorem rtake_min_length {α : Type} (l : List α) (n : Nat) :
    l.rtake (min n l.length) = l.rtake n := by
  have hdrop : l.length - min n l.length = l.length - n := by omega
  rw [List.rtake, List.rtake, hdrop]

theorem rtake_eq_nil_iff {α : Type} {l : List α} {n : Nat} (hn : 0 < n) :
    l.rtake n = [] ↔ l = [] := by
  rw [List.rtake, List.drop_eq_nil_iff, ← List.length_eq_zero_iff]
  omega

/-- A full stream gives up its oldest entry for a new one. -/
theorem entries_record {capacity : Nat} (hpos : 0 < capacity) (past : List Diagnostic)
    (entry : Diagnostic) :
    (record ⟨past.rtake capacity, capacity⟩ entry).entries = (past ++ [entry]).rtake capacity := by
  obtain ⟨n, rfl⟩ := Nat.exists_eq_succ_of_ne_zero hpos.ne'
  rw [List.rtake_concat_succ]
  have hlength : (past.rtake (n + 1)).length = past.length - (past.length - (n + 1)) := by
    rw [List.rtake, List.length_drop]
  have hkept : (if (past.rtake (n + 1)).length = n + 1 then (past.rtake (n + 1)).tail
      else past.rtake (n + 1)) = past.rtake n := by
    split_ifs with hfull
    · have hnext : past.length - (n + 1) + 1 = past.length - n := by omega
      rw [List.rtake, List.tail_drop, hnext, List.rtake]
    · have hall : past.length - (n + 1) = past.length - n := by omega
      rw [List.rtake, hall, List.rtake]
  exact congrArg (· ++ [entry]) hkept

/-- The stream keeps the newest entries of a past, and all clones know its capacity. -/
structure Keeps (capacity : Nat) (past : List Diagnostic) (s : Cloned) : Prop where
  entries : s.entries = past.rtake capacity
  capacity : ∀ clone, (s.through clone).capacity = capacity

namespace Keeps

variable {capacity : Nat} {past : List Diagnostic} {s : Cloned}

theorem through (hs : Keeps capacity past s) (clone : Nat) :
    s.through clone = ⟨past.rtake capacity, capacity⟩ := by
  rw [← hs.entries, ← hs.capacity clone]
  rfl

theorem clone (hs : Keeps capacity past s) (clone : Nat) :
    Keeps capacity past (s.use clone .clone) := by
  refine ⟨hs.entries, fun other => ?_⟩
  have horiginal : s.original = capacity := by
    have hcapacity := hs.capacity s.clones.length
    simpa [Cloned.through] using hcapacity
  have hcopy : (s.through clone).capacity = capacity := hs.capacity clone
  have hother := hs.capacity other
  simp only [Cloned.use, Cloned.through, List.getD_eq_getElem?_getD] at hcopy hother ⊢
  rw [hcopy, List.getElem?_append]
  split_ifs with hlt
  · exact hother
  · cases hnew : [capacity][other - s.clones.length]? with
    | none => exact horiginal
    | some x => exact List.mem_singleton.mp (List.mem_of_getElem? hnew)

theorem put (hs : Keeps capacity past s) {past' : List Diagnostic} {d : Diagnostics}
    (hd : d.entries = past'.rtake capacity) : Keeps capacity past' (s.put d) :=
  ⟨hd, hs.capacity⟩

theorem record (hs : Keeps capacity past s) (hpos : 0 < capacity) (clone : Nat)
    (entry : Diagnostic) :
    Keeps capacity (past ++ [entry]) (s.put ((s.through clone).record entry)) := by
  rw [hs.through clone]
  exact hs.put (entries_record hpos past entry)

theorem use {uses : List (Nat × Use)} (hs : Keeps capacity (sinceDrain uses) s)
    (hpos : 0 < capacity) (u : Nat × Use) :
    Keeps capacity (sinceDrain (uses ++ [u])) (s.use u.1 u.2) := by
  obtain ⟨clone, action⟩ := u
  rw [sinceDrain_concat]
  cases action with
  | clone => simpa [Use.drains, Use.recorded?] using hs.clone clone
  | record entry => exact hs.record hpos clone entry
  | recordFailure f => exact hs.record hpos clone ⟨f.operation, f.message⟩
  | entries => simpa [Use.drains, Use.recorded?, Cloned.use] using hs
  | isEmpty => simpa [Use.drains, Use.recorded?, Cloned.use] using hs
  | drain => exact hs.put (by simp [Use.drains, drain])

end Keeps

theorem keeps_run (capacity : Nat) (uses : List (Nat × Use)) :
    Keeps (max capacity 1) (sinceDrain uses) (Cloned.run capacity uses) := by
  induction uses using List.reverseRecOn with
  | nil => exact ⟨by simp [Cloned.run, Cloned.ofCapacity, empty, sinceDrain], fun _ => rfl⟩
  | append_singleton uses u ih =>
    rw [Cloned.run_concat]
    exact ih.use (by omega) u

/-- After any uses the entries that a clone sees are the newest of those recorded since the last
drain, as many as the capacity allows; a capacity of zero counts as one. There are never more, and
there are none just if nothing was recorded. A drain returns them all and leaves none for any
clone. -/
theorem entries_newest (capacity : Nat) (uses : List (Nat × Use)) (clone : Nat) :
    let s := Cloned.run capacity uses
    let newest :=
      (sinceDrain uses).rtake (min (max capacity 1) (sinceDrain uses).length)
    (s.through clone).entries = newest ∧
    (s.through clone).capacity = max capacity 1 ∧
    (s.through clone).entries.length ≤ max capacity 1 ∧
    ((s.through clone).isEmpty = true ↔ sinceDrain uses = []) ∧
    (s.through clone).drain.1 = newest ∧
    ∀ other, ((s.use clone .drain).through other).entries = [] := by
  intro s newest
  have hpos : 0 < max capacity 1 := by omega
  have hkeeps : Keeps (max capacity 1) (sinceDrain uses) s := keeps_run capacity uses
  have hnewest : (s.through clone).entries = newest :=
    hkeeps.entries.trans (rtake_min_length _ _).symm
  have hlength : (s.through clone).entries.length ≤ max capacity 1 := by
    rw [hkeeps.through clone]
    exact rtake_length_le _ _
  have hempty : (s.through clone).isEmpty = true ↔ sinceDrain uses = [] := by
    rw [hkeeps.through clone, isEmpty, List.isEmpty_iff, rtake_eq_nil_iff hpos]
  exact ⟨hnewest, hkeeps.capacity clone, hlength, hempty, hnewest, fun _ => rfl⟩

end EditorScripting.Diagnostics
