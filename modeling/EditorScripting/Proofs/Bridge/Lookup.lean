import EditorScripting.Proofs.Bridge.Coverage
import EditorScripting.Proofs.Identifier.RoundTrip

/-!
Looking an installed symbol up. A text is tried as a host name first and as a guest identifier
second. So a symbol is always found by its host name, and by its identifier unless another symbol
is installed whose host name is spelled like that identifier. Only names with underscores are.
-/
namespace EditorScripting

open Host Identifier

namespace Identifier

theorem decode_of_no_underscore {cs : List Char} (h : '_' ∉ cs) : decode cs = cs := by
  induction cs with
  | nil => exact decode_nil
  | cons c r ih =>
    obtain ⟨hc, hr⟩ := not_or.mp (mt List.mem_cons.mpr h)
    rw [decode_word (Ne.symm hc), ih hr]

theorem toHostName_of_no_underscore {cs : List Char} (h : '_' ∉ cs) : toHostName cs = cs := by
  rcases toHostName_cases cs with hall | ⟨d, t, hcs, -, -⟩
  · rw [hall, decode_of_no_underscore h]
  · exact absurd (hcs ▸ List.mem_cons_self) h

/-- The identifier of a name that comes back is the name itself, or it has an underscore. -/
theorem underscore_mem_guestName {name : String} (hback : hostName (guestName name) = name)
    (hne : guestName name ≠ name) : '_' ∈ (guestName name).toList := by
  by_contra hu
  have hsame : hostName (guestName name) = guestName name := by
    rw [← String.toList_inj, hostName, String.toList_ofList, toHostName_of_no_underscore hu]
  exact hne (hsame.symm.trans hback)

end Identifier

namespace Dictionary

variable {d : Dictionary} {name : String} {h : Handle}

theorem find?_of_bound (hb : d[name]? = some h) : d.find? name = some h := by
  simp [find?, hb]

theorem find?_of_unbound (hn : d[name]? = none) : d.find? name = d[hostName name]? := by
  simp [find?, hn]

/-- By the identifier of a name that comes back, the wrapper of the name is found unless a host name
is spelled like the identifier. -/
theorem find?_guestName (hb : d[name]? = some h) (hback : hostName (guestName name) = name) :
    d.find? (guestName name) = some ((d[guestName name]?).getD h) := by
  cases hg : d[guestName name]? with
  | none =>
    have hsecond := find?_of_unbound hg
    rw [hback, hb] at hsecond
    exact hsecond
  | some g => exact find?_of_bound hg

theorem find?_guestName_eq_iff (hb : d[name]? = some h)
    (hback : hostName (guestName name) = name) :
    d.find? (guestName name) = some h ↔ ∀ g, d[guestName name]? = some g → g = h := by
  rw [find?_guestName hb hback]
  cases hg : d[guestName name]? with
  | none => simp
  | some g => simp

end Dictionary

namespace History

variable {σ : Type} (host : Interface σ)

/-- What is installed has been reported by a refresh. -/
theorem Current.reported {reserved name : String} {l : History σ} {h : Handle}
    (hl : l.Current reserved) (hb : l.bridge.dictionary[name]? = some h) :
    ∃ r ∈ l.reports, (name, .ok h) ∈ r.entries := by
  rw [hl.dictionary] at hb
  obtain ⟨before, after, hentries, -⟩ := Report.lastOf_eq_some_iff.mp hb
  have hm : (name, .ok h) ∈ l.entries := by simp [hentries]
  exact List.mem_flatMap.mp hm

/-- After any refreshes and any changes of the host, an installed symbol is found by its host name.
If the name comes back from its identifier, then the symbol is found by the identifier too, unless
another wrapper is installed under the identifier itself: then that one is found, since host names
go first. This takes a refresh that found a symbol with an underscore in its name, spelled like the
identifier of a different name. -/
theorem lookup_run (reserved : String) (diagnostics : Diagnostics) (s : σ)
    (events : List (Event σ)) :
    let l := run host reserved diagnostics s events
    let d := l.bridge.dictionary
    ∀ (name : String) h, d[name]? = some h →
      d.find? name = some h ∧
      (hostName (guestName name) = name →
        (d.find? (guestName name) = some h ↔ ∀ g, d[guestName name]? = some g → g = h) ∧
        ∀ g, d[guestName name]? = some g →
          d.find? (guestName name) = some g ∧
          (guestName name ≠ name → '_' ∈ (guestName name).toList ∧
            ∃ r ∈ l.reports, (guestName name, .ok g) ∈ r.entries)) := by
  intro l d name h hb
  have hl : l.Current reserved := current_run host reserved diagnostics s events
  refine ⟨Dictionary.find?_of_bound hb, fun hback => ?_⟩
  refine ⟨Dictionary.find?_guestName_eq_iff hb hback, fun g hg => ?_⟩
  refine ⟨Dictionary.find?_of_bound hg, fun hne => ?_⟩
  exact ⟨underscore_mem_guestName hback hne, hl.reported hg⟩

/-- A refresh that finds the symbols `a-b` and `a_b`. -/
def twins : History Editor :=
  run Editor.interface "refresh" (.empty 16)
    (Editor.run (.ofText "" none) [.intern "a-b", .intern "a_b"]) [.refresh fun _ => id]

/-- Both forms of `fill-column` lead to one wrapper; `a-b` is found by its host name. -/
theorem lookup_run_twins :
    hostName (guestName "fill-column") = "fill-column" ∧
    twins.bridge.dictionary.find? "fill-column" = some ⟨17, 0⟩ ∧
    twins.bridge.dictionary.find? "fill_column" = some ⟨17, 0⟩ ∧
    twins.bridge.dictionary.find? "a-b" = some ⟨21, 0⟩ := by
  have hfill : twins.bridge.dictionary["fill-column"]? = some ⟨17, 0⟩ := by decide +kernel
  have hback : hostName (guestName "fill-column") = "fill-column" := by decide +kernel
  have hfree : twins.bridge.dictionary[guestName "fill-column"]? = none := by decide +kernel
  have hab : twins.bridge.dictionary["a-b"]? = some ⟨21, 0⟩ := by decide +kernel
  have hrun := lookup_run Editor.interface "refresh" (.empty 16)
    (Editor.run (.ofText "" none) [.intern "a-b", .intern "a_b"]) [.refresh fun _ => id]
  obtain ⟨hfirst, hsecond⟩ := hrun "fill-column" _ hfill
  obtain ⟨hiff, -⟩ := hsecond hback
  have hguest : guestName "fill-column" = "fill_column" := by decide +kernel
  refine ⟨hback, hfirst, hguest ▸ hiff.mpr fun g hg => ?_, (hrun "a-b" _ hab).1⟩
  rw [show (run Editor.interface _ _ _ _).bridge.dictionary[guestName "fill-column"]? = none
    from hfree] at hg
  cases hg

/-- The identifier of `a-b` leads to the wrapper of `a_b`, although `a-b` comes back from it. -/
theorem identifier_leads_elsewhere :
    hostName (guestName "a-b") = "a-b" ∧
    twins.bridge.dictionary["a-b"]? = some ⟨21, 0⟩ ∧
    twins.bridge.dictionary.find? (guestName "a-b") = some ⟨22, 0⟩ ∧
    twins.bridge.dictionary.find? (guestName "a-b") ≠ twins.bridge.dictionary["a-b"]? :=
  ⟨by decide +kernel, by decide +kernel, by decide +kernel, by decide +kernel⟩

end History

end EditorScripting
