import EditorScripting.Proofs.Settings.Members
import EditorScripting.Repl.Command

/-!
Settings survive being written and read, whatever their names and numbers are.
-/
namespace EditorScripting.Settings

open Json

/-- The members that are written for settings. -/
def members (s : Settings) : List (String × List Char) := Field.all.map fun f => (f.key, f.text s)

theorem memberNames_members (s : Settings) : memberNames s.members = Field.all.map Field.key := by
  rw [memberNames, members, List.map_map]
  rfl

theorem key_mem_memberNames (s : Settings) (f : Field) :
    f.key ∈ memberNames s.members ∧ (memberNames s.members).count f.key ≤ 1 := by
  rw [memberNames_members]
  cases f <;> decide

/-- Written settings are an object in the grammar, and blanks may follow. -/
theorem isObject_pretty (s : Settings) {b : List Char} (hb : Blank b) :
    IsObject s.members (s.pretty.toList ++ b) := by
  have hvalue : ∀ m ∈ s.members, IsPart .value m.2 := by
    intro m hm
    obtain ⟨f, -, rfl⟩ := List.mem_map.mp hm
    exact isPart_of_denotes (s.admits_text f).denotes
  rw [pretty, String.toList_ofList]
  exact isObject_prettyObject (List.cons_ne_nil _ _) hvalue hb

theorem ofJson_of_toList_eq {s : Settings} {text : String} {b : List Char} (hb : Blank b)
    (h : text.toList = s.pretty.toList ++ b) : ofJson text = .ok s := by
  have hobject : IsObject s.members text.toList := by
    rw [h]
    exact s.isObject_pretty hb
  have hvalid (f : Field) (v : List Char) (hv : (f.key, v) ∈ s.members) :
      f.Admits v (s.held f) := by
    obtain ⟨g, -, hg⟩ := List.mem_map.mp hv
    obtain ⟨hkey, rfl⟩ := Prod.mk.inj hg
    rw [← Field.key_injective hkey]
    exact s.admits_text g
  obtain ⟨s', hs', hheld⟩ := exists_ofJson hobject hvalid fun f => (s.key_mem_memberNames f).2
  have heq : s' = s := held_injective <| funext fun f => by
    rw [hheld f, if_pos (s.key_mem_memberNames f).1]
  rw [hs', heq]

/-- Settings survive being written. The text is an object with a member for each field, in their
order, whose value means what the field holds, and reading it gives the settings back, also from
what the program prints when it is asked for them. -/
theorem ofJson_pretty (s : Settings) :
    IsObject s.members s.pretty.toList ∧ (∀ f : Field, f.Admits (f.text s) (s.held f)) ∧
    ofJson s.pretty = .ok s ∧ ofJson (Repl.lineText [s.pretty]) = .ok s ∧
    ∀ before after file path config input,
      ofJson (Repl.run (before ++ "--print-config" :: after) file path config input).output =
        .ok (Repl.configure path config).1 := by
  have hprinted (s : Settings) : ofJson (Repl.lineText [s.pretty]) = .ok s := by
    have hline : Blank ['\n'] := by simp [Blank]
    have htext : Repl.lineText [s.pretty] = s.pretty ++ "\n" := by
      simp [Repl.lineText, String.join]
    exact ofJson_of_toList_eq hline (by rw [htext, String.toList_append]; rfl)
  have hobject := s.isObject_pretty .nil
  rw [List.append_nil] at hobject
  refine ⟨hobject, s.admits_text, ofJson_of_toList_eq .nil (List.append_nil _).symm, hprinted s, ?_⟩
  intro before after file path config input
  have htask : Repl.Task.ofArguments (before ++ "--print-config" :: after) = .printConfig :=
    if_pos (by simp)
  have houtput : (Repl.run (before ++ "--print-config" :: after) file path config input).output =
      Repl.lineText [(Repl.configure path config).1.pretty] := by
    unfold Repl.run
    dsimp only
    rw [htask]
  rw [houtput]
  exact hprinted _

end EditorScripting.Settings
