import EditorScripting.Proofs.Configuration.Calls

/-!
What settings a history of scripts ends with. Each script contributes the changes of its completed
calls, and a text or file that cannot be read contributes none. If the scripts consist of calls with
integers of 64 bits, every field holds what the last completed call has written to it.
-/
namespace EditorScripting.Configuration

open Script Text

/-- A text that consists of calls, if it can be read as a script. -/
def OfCalls (source : String) : Prop :=
  ∀ script, parseScript limits source = .ok script →
    ∃ calls : List Call, (∀ k ∈ calls, k.Plain) ∧ script = ⟨[], calls.map Call.stmt⟩

/-- The input is such a text, or a file that holds one if it holds a text. -/
def Input.Plain : Input → Prop
  | script source => OfCalls source
  | file _ bytes | defaultFile _ bytes => ∀ source, bytes = some source.toUTF8 → OfCalls source

/-- No script can be read from the text. -/
def Malformed (source : String) : Prop := ∃ complaint, parseScript limits source = .error complaint

/-- There is nothing to run: the file or the text cannot be read. -/
def Input.Unusable : Input → Prop
  | script source => Malformed source
  | file _ bytes => ∀ source, bytes = some source.toUTF8 → Malformed source
  | defaultFile _ bytes => bytes ≠ none ∧ ∀ source, bytes = some source.toUTF8 → Malformed source

/-- What a file holds is a text exactly if it is the encoding of that text. -/
theorem decode_eq_ok_iff {bytes : Option ByteArray} {source : String} :
    decode bytes = .ok source ↔ bytes = some source.toUTF8 := by
  cases bytes with
  | none => exact ⟨nofun, nofun⟩
  | some bytes =>
    unfold decode String.fromUTF8?
    dsimp only
    by_cases hvalid : bytes.IsValidUTF8
    · rw [dif_pos hvalid]
      constructor
      · intro h
        cases h
        rfl
      · intro h
        cases h
        rfl
    · rw [dif_neg hvalid]
      refine ⟨nofun, fun h => ?_⟩
      cases h
      exact absurd source.isValidUTF8 hvalid

theorem loadFile_toUTF8 (c : Configuration) (path source : String) :
    c.loadFile path (some source.toUTF8) = c.eval source := by
  rw [loadFile, decode_eq_ok_iff.mpr rfl]

theorem scriptEffect_malformed {source : String} (h : Malformed source) :
    ∃ f, scriptEffect source = (.error f, []) := by
  obtain ⟨complaint, hs⟩ := h
  rw [scriptEffect, hs]
  exact ⟨_, rfl⟩

theorem fileEffect_unusable {bytes : Option ByteArray}
    (h : ∀ source, bytes = some source.toUTF8 → Malformed source) (path : String) :
    ∃ f, fileEffect path bytes = (.error f, []) := by
  unfold fileEffect
  cases hd : decode bytes with
  | ok source => exact scriptEffect_malformed (h source (decode_eq_ok_iff.mp hd))
  | error why => exact ⟨_, rfl⟩

theorem Input.effect_unusable {i : Input} (h : i.Unusable) : ∃ f, i.effect = (.error f, []) := by
  cases i with
  | script source => exact scriptEffect_malformed h
  | file path bytes => exact fileEffect_unusable h path
  | defaultFile path bytes =>
    obtain ⟨hsome, h⟩ := h
    cases bytes with
    | none => exact absurd rfl hsome
    | some bytes => exact fileEffect_unusable h path

theorem scriptEffect_fits {source : String} (h : OfCalls source) :
    ∀ change ∈ (scriptEffect source).2, change.Fits := by
  cases hs : parseScript limits source with
  | error complaint =>
    obtain ⟨f, he⟩ := scriptEffect_malformed ⟨complaint, hs⟩
    rw [he]
    exact nofun
  | ok script =>
    obtain ⟨calls, hk, rfl⟩ := h script hs
    rw [scriptEffect_calls hs hk]
    exact fits_of_mem_perform hk 0

theorem fileEffect_fits {bytes : Option ByteArray}
    (h : ∀ source, bytes = some source.toUTF8 → OfCalls source) (path : String) :
    ∀ change ∈ (fileEffect path bytes).2, change.Fits := by
  unfold fileEffect
  cases hd : decode bytes with
  | ok source => exact scriptEffect_fits (h source (decode_eq_ok_iff.mp hd))
  | error why => exact nofun

theorem Input.effect_fits {i : Input} (h : i.Plain) : ∀ change ∈ i.effect.2, change.Fits := by
  cases i with
  | script source => exact scriptEffect_fits h
  | file path bytes => exact fileEffect_fits h path
  | defaultFile path bytes =>
    cases bytes with
    | none => exact nofun
    | some bytes => exact fileEffect_fits h path

/-- The settings after a history are the default ones after the changes of all completed calls. A
script of calls completes the calls up to its first failure, each of which writes its own field;
what cannot be read changes nothing; and a file has the effect of the text in it. -/
theorem history_of_inputs (inputs : List Input) :
    initial.history inputs =
      (inputs.map (·.effect.1), ⟨(inputs.flatMap (·.effect.2)).foldl Change.apply .default⟩) ∧
    (initial.history inputs).2.settings.DepthsBounded ∧
    ((∀ i ∈ inputs, i.Plain) →
      (initial.history inputs).2.settings.held =
        (inputs.flatMap (·.effect.2)).foldl
          (fun held change => Function.update held change.field change.written)
          Settings.default.held ∧
      1 ≤ (initial.history inputs).2.settings.diagnosticsCapacity.toNat) ∧
    (∀ (source : String) (calls : List Call),
      parseScript limits source = .ok ⟨[], calls.map Call.stmt⟩ → (∀ k ∈ calls, k.Plain) →
      scriptEffect source =
        ((perform 0 calls).2.elim (.ok ()) fun f => .error (.configuration f.message),
          (perform 0 calls).1)) ∧
    (∀ i : Input, i.Unusable → ∀ c : Configuration, ∃ f, i.run c = (.error f, c)) ∧
    ∀ (c : Configuration) (path source : String),
      c.loadFile path (some source.toUTF8) = c.eval source := by
  refine ⟨history_eq initial inputs, depthsBounded_history inputs, fun h => ?_,
    fun _ _ => scriptEffect_calls, fun i hi c => ?_, loadFile_toUTF8⟩
  · have hfits : ∀ change ∈ inputs.flatMap (·.effect.2), change.Fits := by
      intro change hchange
      obtain ⟨i, hi, hchange⟩ := List.mem_flatMap.mp hchange
      exact Input.effect_fits (h i hi) change hchange
    rw [history_eq]
    exact ⟨Change.held_foldl hfits .default,
      Settings.one_le_capacity_foldl (by decide) hfits⟩
  · obtain ⟨f, he⟩ := Input.effect_unusable hi
    rw [i.run_eq, he]
    exact ⟨f, rfl⟩

/-- Calls of which the second one fails. -/
def failing : List Call :=
  [⟨"set_max_fn_depth", [(.int 100000, ⟨1, 18⟩)], ⟨1, 1⟩⟩,
    ⟨"set_timeout_ms", [(.string "soon", ⟨2, 16⟩)], ⟨2, 1⟩⟩, ⟨"disable_timeout", [], ⟨3, 1⟩⟩]

def failingSource : String :=
  "set_max_fn_depth(100000);\nset_timeout_ms(\"soon\");\ndisable_timeout();"

theorem parse_failingSource :
    parseScript limits failingSource = .ok ⟨[], failing.map Call.stmt⟩ := by
  with_unfolding_all rfl

theorem plain_failing : ∀ k ∈ failing, k.Plain := by
  have hfits : Change.Fits (.maxFnDepth 100000) := by
    intro n hn
    cases hn
    decide
  intro k hk
  simp only [failing, List.mem_cons, List.not_mem_nil, or_false] at hk
  rcases hk with rfl | rfl | rfl
  · exact ⟨rfl, fun c hc => Option.some.inj hc ▸ hfits⟩
  · exact ⟨rfl, nofun⟩
  · exact ⟨rfl, fun c hc => Option.some.inj hc ▸ nofun⟩

/-- A script that fails at its second call, after a file that is missing. -/
theorem history_of_inputs_failing :
    (∀ i ∈ [Input.file "init" none, .script failingSource], i.Plain) ∧
    initial.history [.file "init" none, .script failingSource] =
      ([.error (.configuration "failed to read init: No such file or directory (os error 2)"),
        .error (.configuration ("Function not found: " ++
          "set_timeout_ms (&str | ImmutableString | String) (line 2, position 1)"))],
        ⟨{ Settings.default with maxFnDepth := 1024 }⟩) ∧
    1 ≤ (initial.history
      [.file "init" none, .script failingSource]).2.settings.diagnosticsCapacity.toNat := by
  obtain ⟨hend, -, hplain, hcalls, -⟩ :=
    history_of_inputs [.file "init" none, .script failingSource]
  have heffect := hcalls failingSource failing parse_failingSource plain_failing
  have hinputs : ∀ i ∈ [Input.file "init" none, .script failingSource], i.Plain := by
    intro i hi
    simp only [List.mem_cons, List.not_mem_nil, or_false] at hi
    rcases hi with rfl | rfl
    · exact nofun
    · intro script hs
      cases parse_failingSource.symm.trans hs
      exact ⟨failing, plain_failing, rfl⟩
  refine ⟨hinputs, ?_, (hplain hinputs).2⟩
  rw [hend]
  simp only [List.map_cons, List.map_nil, List.flatMap_cons, List.flatMap_nil, Input.effect,
    heffect]
  rfl

end EditorScripting.Configuration
