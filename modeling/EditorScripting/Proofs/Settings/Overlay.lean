import EditorScripting.Proofs.Settings.Members

/-!
Settings from the members of an object. Each field that is given once has the value that it is given
and any other field its default, in whatever order the members stand and whatever stands between
them. A field that is given twice is refused.
-/
namespace EditorScripting.Settings

open Json

variable {members : List (String × List Char)}

/-- The members give some of the fields, each of them once and with a valid value. Members with
other names may be among them. -/
structure Gives (members : List (String × List Char)) (given : Field → Option Datum) : Prop where
  once : ∀ f : Field, (memberNames members).count f.key ≤ 1
  valid : ∀ (f : Field) v, (f.key, v) ∈ members → ∃ x, given f = some x ∧ f.Admits v x
  only : ∀ f : Field, (given f).isSome → f.key ∈ memberNames members

theorem Gives.perm {members' : List (String × List Char)} {given : Field → Option Datum}
    (h : Gives members given) (hp : members'.Perm members) : Gives members' given where
  once f := ((hp.map Prod.fst).count_eq f.key).trans_le (h.once f)
  valid f v hv := h.valid f v (hp.mem_iff.mp hv)
  only f hf := (hp.map Prod.fst).mem_iff.mpr (h.only f hf)

theorem Gives.exists_ofJson {given : Field → Option Datum} {text : String}
    (hg : Gives members given) (h : IsObject members text.toList) :
    ∃ s, ofJson text = .ok s ∧ ∀ f, s.held f = (given f).getD (default.held f) := by
  have hvalid (f : Field) (v : List Char) (hv : (f.key, v) ∈ members) :
      f.Admits v ((given f).getD (default.held f)) := by
    obtain ⟨x, hx, hadmits⟩ := hg.valid f v hv
    rwa [hx]
  obtain ⟨s, hs, hheld⟩ := Settings.exists_ofJson h hvalid hg.once
  refine ⟨s, hs, fun f => (hheld f).trans ?_⟩
  have honly := hg.only f
  cases hx : given f with
  | none => exact ite_self _
  | some x =>
    rw [hx] at honly
    exact if_pos (honly rfl)

/-- Settings overlay the defaults. Of the members of an object, in any order and with any others in
between, a field that is given once holds what it is given, and a field that is not given holds its
default; for the timeout, null means that there is none. A field that is given twice, whatever its
values and those of the other members, is refused. -/
theorem ofJson_overlays {text : String} (h : IsObject members text.toList) :
    (∀ given, Gives members given → ∃ s, ofJson text = .ok s ∧
      (∀ f, s.held f = (given f).getD (default.held f)) ∧
      ∀ members' text', members'.Perm members → IsObject members' text'.toList →
        ofJson text' = .ok s) ∧
    ∀ f : Field, 1 < (memberNames members).count f.key → ∃ p, ofJson text = .error p := by
  refine ⟨fun given hg => ?_, fun f hf => exists_error_ofJson h hf⟩
  obtain ⟨s, hs, hheld⟩ := hg.exists_ofJson h
  refine ⟨s, hs, hheld, fun members' text' hp h' => ?_⟩
  obtain ⟨s', hs', hheld'⟩ := (hg.perm hp).exists_ofJson h'
  have heq : s' = s := held_injective (funext fun f => (hheld' f).trans (hheld f).symm)
  rw [hs', heq]

/-- A value that no field asks for, with half of a surrogate pair in it. -/
def strayValue : List Char := "[null, \x7b\"\\ud800\":-1.5E3\x7d]".toList

theorem isPart_strayValue : IsPart .value strayValue := by
  have hunit : IsUnit 0xd800 ['\x5c', 'u', 'd', '8', '0', '0'] :=
    .mk (k := 13) (l := 8) (m := 0) (n := 0) (.inl rfl) (.inl rfl) (.inl rfl) (.inl rfl)
  have hname : IsString "\"\\ud800\"".toList := ⟨[_], by simpa using .unit hunit, rfl⟩
  have hdigits {c : Char} (hc : Text.isDigit c = true) : IsDigits [c] :=
    ⟨List.cons_ne_nil _ _, List.forall_mem_singleton.mpr hc⟩
  have hnumber : IsMagnitude "1.5E3".toList :=
    ⟨['1'], ['.', '5'], ['E', '3'], ⟨hdigits rfl, by decide⟩, .inr ⟨['5'], hdigits rfl, rfl⟩,
      .inr ⟨'E', [], ['3'], by decide, by decide, hdigits rfl, rfl⟩, rfl⟩
  have hnull : IsPart .element ['n', 'u', 'l', 'l'] := .element .nil (.word List.mem_cons_self) .nil
  have hspace : Blank [' '] := by simp [Blank]
  have hmember := IsPart.member .nil hname .nil (.element .nil (.negative hnumber) .nil)
  have hobject : IsPart .element _ := .element hspace (.object (.lastMember hmember)) .nil
  exact .array (.elements hnull (.lastElement hobject))

def shuffled : List (String × List Char) :=
  [("timeout_ms", "null".toList), ("zoom", strayValue), ("module_name", "\"\\u00e9\"".toList),
    ("max_map_size", ['7'])]

def shuffledText : String :=
  "\x7b\"timeout_ms\":null,\"zoom\": [null, \x7b\"\\ud800\":-1.5E3\x7d],\n" ++
    "\"module_name\" :\"\\u00e9\",\"max_map_size\":7\x7d"

theorem isStringOf_accented : IsStringOf "é" "\"\\u00e9\"".toList := by
  have hunit : IsUnit 0xe9 ['\x5c', 'u', '0', '0', 'e', '9'] :=
    .mk (k := 0) (l := 0) (m := 14) (n := 9) (.inl rfl) (.inl rfl) (.inl rfl) (.inl rfl)
  exact ⟨[_], .cons (.unit hunit) .nil, rfl⟩

theorem isObject_shuffled : IsObject shuffled shuffledText.toList := by
  have hspace : Blank [' '] := by simp [Blank]
  have hline : Blank ['\n'] := by simp [Blank]
  have hseven : IsPart .value (natural 7) := .number (isMagnitude_natural 7)
  have htimeout := IsMember.mk .nil (isStringOf_quoted "timeout_ms") .nil .nil
    (.word List.mem_cons_self) .nil
  have hzoom := IsMember.mk .nil (isStringOf_quoted "zoom") .nil hspace isPart_strayValue .nil
  have hname := IsMember.mk hline (isStringOf_quoted "module_name") hspace .nil
    (.string isStringOf_accented.isString) .nil
  have hmap := IsMember.mk .nil (isStringOf_quoted "max_map_size") .nil .nil hseven .nil
  exact .members .nil (.cons htimeout (.cons hzoom (.cons hname (.last hmap)))) .nil

/-- One field twice, the second time with a value that it does not take. -/
def repeated : List (String × List Char) :=
  [("max_map_size", ['7']), ("max_map_size", "null".toList)]

theorem isObject_repeated :
    IsObject repeated "\x7b\"max_map_size\":7,\"max_map_size\":null\x7d".toList := by
  have hseven : IsPart .value (natural 7) := .number (isMagnitude_natural 7)
  have hnull : IsPart .value "null".toList := .word List.mem_cons_self
  have hfirst := IsMember.mk .nil (isStringOf_quoted "max_map_size") .nil .nil hseven .nil
  have hsecond := IsMember.mk .nil (isStringOf_quoted "max_map_size") .nil .nil hnull .nil
  exact .members .nil (.cons hfirst (.last hsecond)) .nil

theorem ofJson_overlays_shuffled :
    IsObject shuffled shuffledText.toList ∧
    (∃ s, ofJson shuffledText = .ok s ∧
      ofJson (String.ofList (prettyObject shuffled.reverse)) = .ok s ∧
      s.held .timeoutMs = .nothing ∧ s.held .moduleName = .text "é" ∧
      s.held .maxMapSize = .number 7 ∧ s.held .reservedName = .text "refresh" ∧
      s.held .maxFnDepth = .number 64) ∧
    ∃ p, ofJson "\x7b\"max_map_size\":7,\"max_map_size\":null\x7d" = .error p := by
  let given : Field → Option Datum
    | .timeoutMs => some .nothing
    | .moduleName => some (.text "é")
    | .maxMapSize => some (.number 7)
    | _ => none
  have hvalid (f : Field) (v : List Char) (hv : (f.key, v) ∈ shuffled) :
      ∃ x, given f = some x ∧ f.Admits v x := by
    simp only [shuffled, List.mem_cons, List.not_mem_nil, or_false, Prod.mk.injEq] at hv
    rcases hv with ⟨hf, rfl⟩ | ⟨hf, -⟩ | ⟨hf, rfl⟩ | ⟨hf, rfl⟩
    · obtain rfl : f = .timeoutMs := Field.key_injective hf
      exact ⟨_, rfl, rfl, .null⟩
    · have hzoom : f.key ≠ "zoom" := by cases f <;> decide
      exact absurd hf hzoom
    · obtain rfl : f = .moduleName := Field.key_injective hf
      exact ⟨_, rfl, .inl rfl, .text isStringOf_accented⟩
    · obtain rfl : f = .maxMapSize := Field.key_injective hf
      exact ⟨_, rfl, ⟨nofun, nofun⟩, .number 7⟩
  have hgives : Gives shuffled given :=
    { once f := by cases f <;> decide
      valid := hvalid
      only f hf := by cases f <;> first | decide | cases hf }
  obtain ⟨s, hs, hheld, hperm⟩ := (ofJson_overlays isObject_shuffled).1 given hgives
  have hreverse : IsObject shuffled.reverse (prettyObject shuffled.reverse ++ []) :=
    isObject_prettyObject (by decide)
      (fun m hm => isObject_shuffled.value m (List.mem_reverse.mp hm)) .nil
  rw [List.append_nil, ← String.toList_ofList (l := prettyObject _)] at hreverse
  have htwice := (ofJson_overlays isObject_repeated).2 .maxMapSize (by decide)
  exact ⟨isObject_shuffled, ⟨s, hs, hperm _ _ (List.reverse_perm _) hreverse, hheld _, hheld _,
    hheld _, hheld _, hheld _⟩, htwice⟩

end EditorScripting.Settings
