import EditorScripting.Proofs.Settings.Fields

/-!
Settings from the members of an object, one member after the other. What is read is kept track of by
the fields that were seen, none of which may come again.
-/
namespace EditorScripting

open Json

variable {members : List (String × List Char)} {m : String × List Char} {seen seen' : List Field}
  {b t r : List Char} {c : Char} {s s' : Settings} {n : Nat}

/-- The names of members in their order. -/
def memberNames (members : List (String × List Char)) : List String := members.map Prod.fst

namespace Settings

/-! ### One member -/

/-- What a member comes to. A field that was seen before is refused, and another name than a field's
is skipped with its value. -/
theorem exists_run_readMember (h : IsMember m t) (hc : c ∈ Reader.closers) (seen : List Field)
    (s : Settings) (r : List Char) :
    ∃ b₁ b₂, Blank b₁ ∧ Blank b₂ ∧ (readMember seen s).run (t ++ c :: r) =
      match Field.ofKey? m.1 with
      | none => .ok ((seen, s), b₂ ++ c :: r)
      | some f =>
        if f ∈ seen then .error .unfitting
        else (do return (f :: seen, ← f.read s) : Reader (List Field × Settings)).run
          (b₁ ++ (m.2 ++ (b₂ ++ c :: r))) := by
  cases h with
  | @mk b name b' b₁ v b₂ text hb hn hb' hb₁ hv hb₂ =>
    refine ⟨b₁, b₂, hb₁, hb₂, ?_⟩
    obtain ⟨q, rfl⟩ := Json.exists_of_isString hn.isString
    have htext : b ++ ('\x22' :: q ++ (b' ++ ':' :: (b₁ ++ (v ++ b₂)))) ++ c :: r =
        b ++ '\x22' :: (q ++ (b' ++ ':' :: (b₁ ++ (v ++ (b₂ ++ c :: r))))) := by simp
    rw [htext, readMember, Reader.run_bind_of_ok (Reader.run_token hb rfl _),
      Reader.run_bind_of_ok (Reader.run_stringBody hn _)]
    cases Field.ofKey? text with
    | none =>
      have hskip := run_skip hv hb₁ (Reader.stops_of_mem hb₂ hc r)
      rw [Reader.run_bind_of_ok (Reader.run_token hb' rfl _), Reader.run_bind_of_ok hskip]
      rfl
    | some f =>
      dsimp only
      split
      · rfl
      · rw [Reader.run_bind_of_ok (Reader.run_token hb' rfl _)]

/-- Valid values of fields that were not seen before are read into their fields. -/
theorem exists_readMember_ok (h : IsMember m t) (hc : c ∈ Reader.closers) {given : Field → Datum}
    (hvalid : ∀ f, f.key = m.1 → f.Admits m.2 (given f) ∧ f ∉ seen) (s : Settings)
    (r : List Char) :
    ∃ seen' s' b, Blank b ∧
      (readMember seen s).run (t ++ c :: r) = .ok ((seen', s'), b ++ c :: r) ∧
      (∀ f, f ∈ seen' → f ∈ seen ∨ f.key = m.1) ∧
      ∀ f, s'.held f = if f.key = m.1 then given f else s.held f := by
  obtain ⟨b₁, b₂, hb₁, hb₂, hrun⟩ := exists_run_readMember h hc seen s r
  rw [hrun]
  cases hkey : Field.ofKey? m.1 with
  | none =>
    have hne (f : Field) : f.key ≠ m.1 := fun hf => by
      rw [Field.ofKey?_eq_some_iff.mpr hf] at hkey
      cases hkey
    exact ⟨seen, s, b₂, hb₂, rfl, fun f hf => .inl hf, fun f => (if_neg (hne f)).symm⟩
  | some f =>
    have hf : f.key = m.1 := Field.ofKey?_eq_some_iff.mp hkey
    obtain ⟨hadmits, hnew⟩ := hvalid f hf
    obtain ⟨s', hread, hheld⟩ := Field.exists_read hadmits hb₁ (Reader.stops_of_mem hb₂ hc r) s
    refine ⟨f :: seen, s', b₂, hb₂, ?_, ?_, ?_⟩
    · dsimp only
      rw [if_neg hnew]
      exact run_return hread _
    · intro g hg
      rcases List.mem_cons.mp hg with rfl | hg
      · exact .inr hf
      · exact .inl hg
    · intro g
      rw [hheld]
      by_cases hg : g = f
      · subst hg
        rw [Function.update_self, if_pos hf]
      · have hne : g.key ≠ m.1 := fun hm => hg (Field.key_injective (hm.trans hf.symm))
        rw [Function.update_of_ne hg, if_neg hne]

/-- If a member is read at all, it is read up to its end, and it is none of a field that was seen
before. -/
theorem readMember_cases (h : IsMember m t) (hc : c ∈ Reader.closers) (seen : List Field)
    (s : Settings) (r : List Char) :
    (∃ p, (readMember seen s).run (t ++ c :: r) = .error p) ∨
    ∃ seen' s' b, Blank b ∧
      (readMember seen s).run (t ++ c :: r) = .ok ((seen', s'), b ++ c :: r) ∧
      (∀ f ∈ seen, f ∈ seen' ∧ f.key ≠ m.1) ∧ ∀ f, f.key = m.1 → f ∈ seen' := by
  obtain ⟨b₁, b₂, hb₁, hb₂, hrun⟩ := exists_run_readMember h hc seen s r
  rw [hrun]
  cases hkey : Field.ofKey? m.1 with
  | none =>
    have hne (f : Field) : f.key ≠ m.1 := fun hf => by
      rw [Field.ofKey?_eq_some_iff.mpr hf] at hkey
      cases hkey
    exact .inr ⟨seen, s, b₂, hb₂, rfl, fun f hf => ⟨hf, hne f⟩, fun f hf => absurd hf (hne f)⟩
  | some f =>
    have hf : f.key = m.1 := Field.ofKey?_eq_some_iff.mp hkey
    dsimp only
    split
    · exact .inl ⟨_, rfl⟩
    rename_i hnew
    cases hread : (f.read s).run (b₁ ++ (m.2 ++ (b₂ ++ c :: r))) with
    | error p => exact .inl ⟨p, Reader.run_bind_of_error hread⟩
    | ok a =>
      obtain ⟨s', r'⟩ := a
      obtain rfl := Field.eq_of_read h.value hb₁ (Reader.stops_of_mem hb₂ hc r) hread
      refine .inr ⟨f :: seen, s', b₂, hb₂, run_return hread _, fun g hg => ?_, fun g hg => ?_⟩
      · refine ⟨List.mem_cons_of_mem f hg, fun hm => hnew ?_⟩
        rw [Field.key_injective (hf.trans hm.symm)]
        exact hg
      · rw [Field.key_injective (hg.trans hf.symm)]
        exact List.mem_cons_self

/-! ### All members -/

/-- What comes behind a member decides whether there is another one. -/
theorem readMembers_behind (hb : Blank b)
    (h : (readMember seen s).run t = .ok ((seen', s'), b ++ c :: r)) (hc : c ∈ Reader.closers) :
    (readMembers (n + 1) seen s).run t =
      if c = '\x7d' then .ok (s', r)
      else if c = ',' then (readMembers n seen' s').run r
      else .error .malformed := by
  have hneed := Reader.run_need hb (Reader.isSpace_of_mem_closers hc) r
  rw [readMembers, Reader.run_bind_of_ok h]
  dsimp only
  rw [Reader.run_bind_of_ok hneed]
  split
  · rfl
  · split <;> rfl

/-- Members that give each field at most once, and valid values, are read into their fields. -/
theorem exists_run_readMembers (h : IsMembers members t) {given : Field → Datum}
    (hvalid : ∀ (f : Field) v, (f.key, v) ∈ members → f.Admits v (given f))
    (honce : ∀ f : Field, (memberNames members).count f.key ≤ 1)
    (hseen : ∀ f ∈ seen, f.key ∉ memberNames members) (hn : members.length ≤ n) (s : Settings)
    (r : List Char) :
    ∃ s', (readMembers n seen s).run (t ++ '\x7d' :: r) = .ok (s', r) ∧
      ∀ f : Field, s'.held f = if f.key ∈ memberNames members then given f else s.held f := by
  induction h generalizing n seen s with
  | @last m t h =>
    obtain ⟨n, rfl⟩ : ∃ k, n = k + 1 := ⟨n - 1, by rw [List.length_singleton] at hn; omega⟩
    have hmember (f : Field) (hf : f.key = m.1) : f.Admits m.2 (given f) ∧ f ∉ seen :=
      ⟨hvalid f m.2 (by simp [hf]), fun hs => hseen f hs (by simp [memberNames, hf])⟩
    obtain ⟨seen', s', b, hb, hrun, -, hheld⟩ :=
      exists_readMember_ok h (c := '\x7d') (by decide) hmember s r
    refine ⟨s', readMembers_behind hb hrun (by decide), fun f => ?_⟩
    rw [hheld f, memberNames, List.map_singleton]
    simp only [List.mem_singleton]
  | @cons m ms t q h hr ih =>
    obtain ⟨n, rfl⟩ : ∃ k, n = k + 1 := ⟨n - 1, by rw [List.length_cons] at hn; omega⟩
    have hnames : memberNames (m :: ms) = m.1 :: memberNames ms := rfl
    rw [hnames] at honce hseen
    have hmember (f : Field) (hf : f.key = m.1) : f.Admits m.2 (given f) ∧ f ∉ seen :=
      ⟨hvalid f m.2 (by simp [hf]), fun hs => hseen f hs (by simp [hf])⟩
    obtain ⟨seen', s₁, b, hb, hrun, hseen', hheld⟩ :=
      exists_readMember_ok h (c := ',') (by decide) hmember s (q ++ '\x7d' :: r)
    have honce' (f : Field) : (memberNames ms).count f.key ≤ 1 :=
      Nat.le_trans List.count_le_count_cons (honce f)
    have hrest (f : Field) (hf : f ∈ seen') : f.key ∉ memberNames ms := by
      rcases hseen' f hf with hf | hf
      · exact fun hm => hseen f hf (List.mem_cons_of_mem _ hm)
      · have hcount := honce f
        rw [hf, List.count_cons_self] at hcount
        rw [hf]
        exact List.count_eq_zero.mp (by omega)
    obtain ⟨s', hrun', hheld'⟩ := ih (fun f v hv => hvalid f v (List.mem_cons_of_mem m hv)) honce'
      hrest (Nat.le_of_succ_le_succ hn) s₁
    refine ⟨s', ?_, fun f => ?_⟩
    · rw [List.append_assoc, List.cons_append, readMembers_behind hb hrun (by decide)]
      exact hrun'
    · rw [hheld' f, hheld f, hnames]
      by_cases hm : f.key ∈ memberNames ms
      · rw [if_pos hm, if_pos (List.mem_cons_of_mem _ hm)]
      · simp only [List.mem_cons, hm, or_false, if_false]

/-- How often a field occurs, before and from here on, does not change by a member that is read. -/
theorem two_le_rest {rest : List String} {name : String} {f : Field}
    (hseen : ∀ f ∈ seen, f ∈ seen' ∧ f.key ≠ name) (hname : ∀ f : Field, f.key = name → f ∈ seen')
    (htwice : 2 ≤ (name :: rest).count f.key + if f ∈ seen then 1 else 0) :
    2 ≤ rest.count f.key + if f ∈ seen' then 1 else 0 := by
  by_cases hf : f.key = name
  · have hnew : f ∉ seen := fun h => (hseen f h).2 hf
    rw [← hf, List.count_cons_self, if_neg hnew] at htwice
    rw [if_pos (hname f hf)]
    omega
  · rw [List.count_cons_of_ne (Ne.symm hf)] at htwice
    by_cases hs : f ∈ seen
    · rw [if_pos hs] at htwice
      rw [if_pos (hseen f hs).1]
      exact htwice
    · rw [if_neg hs] at htwice
      omega

/-- A field that was seen before and is given, or is given twice, is refused. -/
theorem exists_error_readMembers (h : IsMembers members t) {f : Field}
    (htwice : 2 ≤ (memberNames members).count f.key + if f ∈ seen then 1 else 0) (n : Nat)
    (s : Settings) (r : List Char) :
    ∃ p, (readMembers n seen s).run (t ++ '\x7d' :: r) = .error p := by
  induction h generalizing n seen s with
  | @last m t h =>
    cases n with
    | zero => exact ⟨_, rfl⟩
    | succ n =>
      rcases readMember_cases h (c := '\x7d') (by decide) seen s r with
        ⟨p, hp⟩ | ⟨seen', s', b, -, -, hseen, hname⟩
      · exact ⟨p, Reader.run_bind_of_error hp⟩
      · have hnone : 2 ≤ ([] : List String).count f.key + if f ∈ seen' then 1 else 0 :=
          two_le_rest hseen hname htwice
        rw [List.count_nil] at hnone
        split at hnone <;> omega
  | @cons m ms t q h hr ih =>
    cases n with
    | zero => exact ⟨_, rfl⟩
    | succ n =>
      rw [List.append_assoc, List.cons_append]
      rcases readMember_cases h (c := ',') (by decide) seen s (q ++ '\x7d' :: r) with
        ⟨p, hp⟩ | ⟨seen', s', b, hb, hrun, hseen, hname⟩
      · exact ⟨p, Reader.run_bind_of_error hp⟩
      · rw [readMembers_behind hb hrun (by decide)]
        exact ih (two_le_rest hseen hname htwice) n s'

/-! ### Whole texts -/

theorem readMembers_blank (hb : Blank b) (n : Nat) (seen : List Field) (s : Settings)
    (r : List Char) : (readMembers n seen s).run (b ++ r) = (readMembers n seen s).run r := by
  cases n with
  | zero => rfl
  | succ n =>
    rw [readMembers, Reader.run_bind, Reader.run_bind, readMember, Reader.run_bind, Reader.run_bind,
      Reader.token, Reader.run_bind, Reader.run_bind, Reader.need_blank hb]

theorem length_le_count (h : IsMembers members t) : members.length ≤ t.count ':' := by
  have hone {m : String × List Char} {t : List Char} (h : IsMember m t) : 1 ≤ t.count ':' := by
    cases h
    exact List.one_le_count_iff.mpr (by simp)
  induction h with
  | last h => exact hone h
  | cons h _ ih =>
    have hfirst := hone h
    rw [List.length_cons, List.count_append, List.count_cons_of_ne (by decide)]
    omega

/-- An object with members is read as its members, with fuel for all of them. -/
theorem exists_run_read (h : IsMembers members t) (hb : Blank b) (r : List Char) :
    ∃ n, members.length ≤ n ∧ read.run (b ++ '\x7b' :: (t ++ '\x7d' :: r)) =
      (readMembers n [] default).run (t ++ '\x7d' :: r) := by
  have hlength := length_le_count h
  obtain ⟨b', c, q, rfl, hb', hspace, hclosers⟩ := h.isPart.exists_head
  have hc : c ≠ '\x7d' := fun hc => hclosers (hc ▸ (by decide))
  have hnone : b'.count ':' = 0 :=
    List.count_eq_zero.mpr fun hm => absurd (Reader.isSpace_of_blank hb' hm) (by decide)
  have hcount : (c :: q).count ':' ≤ (c :: q).length := List.count_le_length
  rw [List.count_append, hnone, Nat.zero_add] at hlength
  refine ⟨(c :: q ++ '\x7d' :: r).length + 1, ?_, ?_⟩
  · rw [List.length_append]
    omega
  · rw [List.append_assoc, readMembers_blank hb', List.cons_append, read,
      Reader.run_bind_of_ok (Reader.run_need hb rfl _), if_neg (by decide), if_pos rfl,
      Reader.run_bind_of_ok (Reader.run_advance _ _),
      Reader.run_bind_of_ok (Reader.run_need hb' hspace _), if_neg hc,
      Reader.run_bind_of_ok (Reader.run_get _)]

/-- Settings from an object that gives each field at most once and valid values. -/
theorem exists_ofJson {text : String} (h : IsObject members text.toList) {given : Field → Datum}
    (hvalid : ∀ (f : Field) v, (f.key, v) ∈ members → f.Admits v (given f))
    (honce : ∀ f : Field, (memberNames members).count f.key ≤ 1) :
    ∃ s, ofJson text = .ok s ∧
      ∀ f : Field, s.held f = if f.key ∈ memberNames members then given f else default.held f := by
  generalize htext : text.toList = t at h
  cases h with
  | empty hb hb' hb'' =>
    refine ⟨default, Reader.whole_eq_ok ?_ hb'', fun f => (if_neg List.not_mem_nil).symm⟩
    rw [htext, read, Reader.run_bind_of_ok (Reader.run_need hb rfl _), if_neg (by decide),
      if_pos rfl, Reader.run_bind_of_ok (Reader.run_advance _ _),
      Reader.run_bind_of_ok (Reader.run_need hb' rfl _), if_pos rfl]
    rfl
  | members hb h hb' =>
    obtain ⟨n, hn, hread⟩ := exists_run_read h hb _
    obtain ⟨s, hrun, hheld⟩ := exists_run_readMembers h hvalid honce
      (fun _ hf => absurd hf List.not_mem_nil) hn default _
    exact ⟨s, Reader.whole_eq_ok (by rw [htext, hread, hrun]) hb', hheld⟩

theorem exists_error_ofJson {text : String} (h : IsObject members text.toList) {f : Field}
    (htwice : 1 < (memberNames members).count f.key) : ∃ p, ofJson text = .error p := by
  generalize htext : text.toList = t at h
  cases h with
  | empty hb hb' hb'' => cases htwice
  | members hb h hb' =>
    obtain ⟨n, hn, hread⟩ := exists_run_read h hb _
    obtain ⟨p, hrun⟩ := exists_error_readMembers h (Nat.le_add_right_of_le htwice) n default _
    exact ⟨p, Reader.whole_eq_error (by rw [htext, hread, hrun])⟩

end Settings

end EditorScripting
