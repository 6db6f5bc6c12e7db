import EditorScripting.Proofs.Json.Numbers
import EditorScripting.Proofs.Json.Strings

/-!
What readers take off the text for the values of the grammar. Any value is skipped to its end, and a
reader that wants a certain kind of value reads it to its end or fails.
-/
namespace EditorScripting.Json

open Text Reader

variable {α : Type} {b s s' t r : List Char} {c d : Char} {n : Nat}

namespace Reader

/-! ### What is around a value -/

/-- Characters behind a value and its blanks. -/
def closers : List Char := [',', ']', '\x7d']

theorem stops_of_mem (hb : Blank b) (hc : c ∈ closers) (s : List Char) : Stops (b ++ c :: s) := by
  intro d hd
  cases b with
  | nil =>
    cases hd
    simp only [closers, List.mem_cons, List.not_mem_nil, or_false] at hc
    rcases hc with rfl | rfl | rfl <;> exact ⟨rfl, by decide⟩
  | cons d' b =>
    cases hd
    have hblank := hb d List.mem_cons_self
    simp only [List.mem_cons, List.not_mem_nil, or_false] at hblank
    rcases hblank with rfl | rfl | rfl | rfl <;> exact ⟨rfl, by decide⟩

theorem isSpace_of_mem_closers (hc : c ∈ closers) : isSpace c = false := by
  simp only [closers, List.mem_cons, List.not_mem_nil, or_false] at hc
  rcases hc with rfl | rfl | rfl <;> rfl

theorem skipValue_blank (hb : Blank b) (n : Nat) (s : List Char) :
    (skipValue n).run (b ++ s) = (skipValue n).run s := by
  cases n with
  | zero => rfl
  | succ n => rw [skipValue, run_bind, run_bind, need_blank hb]

theorem skipItems_blank (hb : Blank b) (n : Nat) (s : List Char) :
    (skipItems n).run (b ++ s) = (skipItems n).run s := by
  cases n with
  | zero => rfl
  | succ n => rw [skipItems, run_bind, run_bind, skipValue_blank hb]

theorem skipMembers_blank (hb : Blank b) (n : Nat) (s : List Char) :
    (skipMembers n).run (b ++ s) = (skipMembers n).run s := by
  cases n with
  | zero => rfl
  | succ n => rw [skipMembers, run_bind, run_bind, token, run_bind, run_bind, need_blank hb]

end Reader

/-! ### Skipping -/

/-- How a part of a text is skipped. -/
def Part.Skips : Part → List Char → Prop
  | value, t => ∀ n s, 2 * t.length ≤ n → Stops s → (skipValue (n + 1)).run (t ++ s) = .ok ((), s)
  | element, t => ∀ n c s, 2 * t.length ≤ n → c ∈ closers →
    ∃ b, Blank b ∧ (skipValue (n + 1)).run (t ++ c :: s) = .ok ((), b ++ c :: s)
  | elements, t =>
    ∀ n s, 2 * t.length < n → (skipItems (n + 1)).run (t ++ ']' :: s) = .ok ((), s)
  | member, t => ∀ n c s (rest : Reader Unit), 2 * t.length ≤ n → c ∈ closers →
    ∃ b, Blank b ∧
      (do token '\x22'; skipString; token ':'; skipValue (n + 1); rest : Reader Unit).run
        (t ++ c :: s) = rest.run (b ++ c :: s)
  | members, t =>
    ∀ n s, 2 * t.length < n → (skipMembers (n + 1)).run (t ++ '\x7d' :: s) = .ok ((), s)

theorem not_space_of_isDigit (hc : isDigit c = true) : isSpace c = false ∧ c ∉ closers := by
  have hne {d : Char} (hd : isDigit d = false) : c ≠ d := ne_of_isDigit hc hd
  simp [isSpace, closers, hne (d := ' ') rfl, hne (d := '\n') rfl, hne (d := '\t') rfl,
    hne (d := '\r') rfl, hne (d := ',') rfl, hne (d := ']') rfl, hne (d := '\x7d') rfl]

/-- The first character of a value tells its kind to a reader that wants a certain one. -/
theorem IsPart.exists_first (h : IsPart .value t) :
    ∃ c r, t = c :: r ∧ isSpace c = false ∧ c ∉ closers ∧ (c = '\x22' → IsString t) ∧
      (isDigit c = true → IsMagnitude t) ∧ (c = 'n' → t = ['n', 'u', 'l', 'l']) := by
  have hother {c : Char} {r : List Char} (hc : c ∈ ['t', 'f', '-', '[', '\x7b']) :
      ∃ d r', c :: r = d :: r' ∧ isSpace d = false ∧ d ∉ closers ∧
        (d = '\x22' → IsString (c :: r)) ∧ (isDigit d = true → IsMagnitude (c :: r)) ∧
        (d = 'n' → c :: r = ['n', 'u', 'l', 'l']) := by
    simp only [List.mem_cons, List.not_mem_nil, or_false] at hc
    rcases hc with rfl | rfl | rfl | rfl | rfl <;>
      exact ⟨_, r, rfl, rfl, by decide, (absurd · (by decide)), (absurd · (by decide)),
        (absurd · (by decide))⟩
  cases h with
  | word h =>
    simp only [words, List.mem_cons, List.not_mem_nil, or_false] at h
    rcases h with rfl | rfl | rfl
    · exact ⟨_, _, rfl, rfl, by decide, (absurd · (by decide)), (absurd · (by decide)),
        fun _ => rfl⟩
    · exact hother (by decide)
    · exact hother (by decide)
  | number h =>
    obtain ⟨c, r, rfl, hc⟩ := exists_of_isMagnitude h
    obtain ⟨hspace, hclosers⟩ := not_space_of_isDigit hc
    exact ⟨c, r, rfl, hspace, hclosers, (absurd · (ne_of_isDigit hc rfl)), fun _ => h,
      (absurd · (ne_of_isDigit hc rfl))⟩
  | string h =>
    obtain ⟨r, rfl⟩ := exists_of_isString h
    exact ⟨_, r, rfl, rfl, by decide, fun _ => h, (absurd · (by decide)), (absurd · (by decide))⟩
  | negative | emptyArray | array | emptyObject | object => exact hother (by decide)

/-- A part begins, behind its blanks, with a character that ends nothing. -/
theorem IsPart.exists_head {part : Part} (h : IsPart part t) :
    ∃ b c r, t = b ++ c :: r ∧ Blank b ∧ isSpace c = false ∧ c ∉ closers := by
  have hvalue {v : List Char} (hv : IsPart .value v) :
      ∃ b c r, v = b ++ c :: r ∧ Blank b ∧ isSpace c = false ∧ c ∉ closers := by
    obtain ⟨c, r, rfl, hspace, hclosers, -⟩ := hv.exists_first
    exact ⟨[], c, r, rfl, .nil, hspace, hclosers⟩
  induction h with
  | word h => exact hvalue (.word h)
  | number h => exact hvalue (.number h)
  | string h => exact hvalue (.string h)
  | negative | emptyArray | array | emptyObject | object =>
    exact ⟨[], _, _, rfl, .nil, rfl, by decide⟩
  | element hb h hb' =>
    obtain ⟨c, r, rfl, hspace, hclosers, -⟩ := h.exists_first
    exact ⟨_, c, _, rfl, hb, hspace, hclosers⟩
  | lastElement h ih | lastMember h ih => exact ih
  | elements h hr ih ihr | members h hr ih ihr =>
    obtain ⟨b, c, r, rfl, hb, hc⟩ := ih
    exact ⟨b, c, _, by rw [List.append_assoc, List.cons_append], hb, hc⟩
  | member hb hn hb' h ih =>
    obtain ⟨r, rfl⟩ := exists_of_isString hn
    exact ⟨_, _, _, rfl, hb, rfl, by decide⟩

theorem skipValue_number (ht : IsMagnitude t) (n : Nat) (hs : Stops s) :
    (skipValue (n + 1)).run (t ++ s) = .ok ((), s) := by
  have hskip := run_skipNumber ht hs
  obtain ⟨c, r, rfl, hc⟩ := exists_of_isMagnitude ht
  rw [List.cons_append] at hskip ⊢
  rw [skipValue, run_bind_of_ok (run_need_cons (not_space_of_isDigit hc).1 _)]
  split
  case h_8 => rw [if_pos hc, hskip]
  all_goals exact absurd hc (by decide)

/-- Behind an opening bracket blanks may come to the closing one. -/
theorem run_closed (hb : Blank b) (hd : d ∈ closers) (p : Reader Unit) (s : List Char) :
    (do if (← need) = d then advance else p : Reader Unit).run (b ++ d :: s) = .ok ((), s) := by
  rw [run_bind_of_ok (run_need hb (isSpace_of_mem_closers hd) _), if_pos rfl]
  exact run_advance d s

/-- Behind an opening bracket what is not closed is looked at as contents. -/
theorem run_opened {part : Part} (h : IsPart part t) (hd : d ∈ closers) {p : Reader Unit}
    (hp : ∀ b s, Blank b → p.run (b ++ s) = p.run s) (s : List Char) :
    (do if (← need) = d then advance else p : Reader Unit).run (t ++ s) = p.run (t ++ s) := by
  obtain ⟨b, c, r, rfl, hb, hc, hclosers⟩ := h.exists_head
  have hne : c ≠ d := fun h => hclosers (h ▸ hd)
  rw [List.append_assoc, List.cons_append, run_bind_of_ok (run_need hb hc _), if_neg hne, hp b _ hb]

theorem IsPart.skips {part : Part} (h : IsPart part t) : part.Skips t := by
  induction h with
  | word h =>
    intro n s _ _
    simp only [words, List.mem_cons, List.not_mem_nil, or_false] at h
    rcases h with rfl | rfl | rfl <;> exact run_expect _ s
  | number h =>
    intro n s _ hs
    exact skipValue_number h n hs
  | negative h =>
    intro n s _ hs
    exact run_skipNumber h hs
  | string h =>
    intro n s _ _
    obtain ⟨r, rfl⟩ := exists_of_isString h
    exact run_skipString h s
  | emptyArray hb =>
    intro n s _ _
    rw [List.cons_append, List.append_assoc]
    exact run_closed hb (by decide) (skipItems n) s
  | emptyObject hb =>
    intro n s _ _
    rw [List.cons_append, List.append_assoc]
    exact run_closed hb (by decide) (skipMembers n) s
  | @array t h ih =>
    intro n s hn _
    rw [List.length_cons, List.length_append, List.length_singleton] at hn
    obtain ⟨n, rfl⟩ : ∃ m, n = m + 1 := ⟨n - 1, by omega⟩
    rw [List.cons_append, List.append_assoc]
    have hopened := run_opened h (d := ']') (by decide) (fun b s hb => skipItems_blank hb (n + 1) s)
      (']' :: s)
    exact hopened.trans (ih n s (by omega))
  | @object t h ih =>
    intro n s hn _
    rw [List.length_cons, List.length_append, List.length_singleton] at hn
    obtain ⟨n, rfl⟩ : ∃ m, n = m + 1 := ⟨n - 1, by omega⟩
    rw [List.cons_append, List.append_assoc]
    have hopened := run_opened h (d := '\x7d') (by decide)
      (fun b s hb => skipMembers_blank hb (n + 1) s) ('\x7d' :: s)
    exact hopened.trans (ih n s (by omega))
  | element hb h hb' ih =>
    intro n c s hn hc
    rw [List.length_append, List.length_append] at hn
    refine ⟨_, hb', ?_⟩
    rw [List.append_assoc, List.append_assoc, skipValue_blank hb]
    exact ih n _ (by omega) (stops_of_mem hb' hc s)
  | lastElement h ih =>
    intro n s hn
    obtain ⟨n, rfl⟩ : ∃ m, n = m + 1 := ⟨n - 1, by omega⟩
    obtain ⟨b, hb, hrun⟩ := ih n ']' s (by omega) (by decide)
    rw [skipItems, run_bind_of_ok hrun, run_bind_of_ok (run_need hb rfl _)]
    rfl
  | @elements t r h hr ih ihr =>
    intro n s hn
    obtain ⟨n, rfl⟩ : ∃ m, n = m + 1 := ⟨n - 1, by omega⟩
    rw [List.length_append, List.length_cons] at hn
    obtain ⟨b, hb, hrun⟩ := ih n ',' (r ++ ']' :: s) (by omega) (by decide)
    rw [List.append_assoc, List.cons_append, skipItems, run_bind_of_ok hrun,
      run_bind_of_ok (run_need hb rfl _)]
    exact ihr n s (by omega)
  | @member b name b' t hb hn hb' h ih =>
    intro n c s rest hlength hc
    simp only [List.length_append, List.length_cons] at hlength
    obtain ⟨b₂, hb₂, hrun⟩ := ih n c s (by omega) hc
    obtain ⟨r, rfl⟩ := exists_of_isString hn
    refine ⟨b₂, hb₂, ?_⟩
    have htext : b ++ ('\x22' :: r ++ (b' ++ ':' :: t)) ++ c :: s =
        b ++ '\x22' :: (r ++ (b' ++ ':' :: (t ++ c :: s))) := by simp
    rw [htext, run_bind_of_ok (run_token hb rfl _), run_bind_of_ok (run_skipString hn _),
      run_bind_of_ok (run_token hb' rfl _), run_bind_of_ok hrun]
  | lastMember h ih =>
    intro n s hn
    obtain ⟨n, rfl⟩ : ∃ m, n = m + 1 := ⟨n - 1, by omega⟩
    rw [skipMembers]
    obtain ⟨b, hb, hrun⟩ := ih n '\x7d' s _ (by omega) (by decide)
    rw [hrun, run_bind_of_ok (run_need hb rfl _)]
    rfl
  | @members t r h hr ih ihr =>
    intro n s hn
    obtain ⟨n, rfl⟩ : ∃ m, n = m + 1 := ⟨n - 1, by omega⟩
    rw [List.length_append, List.length_cons] at hn
    rw [List.append_assoc, List.cons_append, skipMembers]
    obtain ⟨b, hb, hrun⟩ := ih n ',' (r ++ '\x7d' :: s) _ (by omega) (by decide)
    rw [hrun, run_bind_of_ok (run_need hb rfl _)]
    exact ihr n s (by omega)

/-- A value in a text is skipped with what it contains. -/
theorem run_skip (h : IsPart .value t) (hb : Blank b) (hs : Stops s) :
    skip.run (b ++ (t ++ s)) = .ok ((), s) := by
  have hfuel : 2 * t.length ≤ 2 * (b ++ (t ++ s)).length + 1 := by
    rw [List.length_append, List.length_append]
    omega
  rw [skip, run_bind_of_ok (run_get _), skipValue_blank hb]
  exact h.skips _ s hfuel hs

/-! ### Reading -/

namespace Reader

variable {text : String}

/-- A reader that never reads anything. -/
def Fails (p : Reader α) : Prop := ∀ s r, p.run s ≠ .ok r

theorem fails_fail (p : Problem) : Fails (fail p : Reader α) := fun _ _ h => nomatch h

theorem Fails.bind {β : Type} {f : α → Reader β} (h : ∀ a, Fails (f a)) (p : Reader α) :
    Fails (p >>= f) := by
  intro s r hr
  obtain ⟨a, s', -, ha⟩ := exists_of_run_bind hr
  exact h a s' r ha

theorem fails_refuse : Fails (refuse : Reader α) := by
  unfold refuse
  refine .bind (fun c => ?_) _
  dsimp only
  -- whatever the first character is, the last step is to fail
  split
  case h_8 => split <;> exact .bind (fun _ => fails_fail _) _
  all_goals first | exact fails_fail _ | exact .bind (fun _ => fails_fail _) _

/-! #### Strings -/

theorem string_run (hb : Blank b) (hc : isSpace c = false) (s : List Char) :
    string.run (b ++ c :: s) = if c = '\x22' then stringBody.run s else refuse.run (c :: s) := by
  rw [string, run_bind_of_ok (run_need hb hc _)]
  split <;> rfl

theorem run_string (h : IsStringOf text t) (hb : Blank b) (s : List Char) :
    string.run (b ++ (t ++ s)) = .ok (text, s) := by
  obtain ⟨r, rfl⟩ := exists_of_isString h.isString
  rw [List.cons_append, string_run hb rfl, if_pos rfl, run_stringBody h]

/-- A reader of strings that reads a value reads it up to its end. -/
theorem eq_of_string (h : IsPart .value t) (hb : Blank b)
    (hr : string.run (b ++ (t ++ s)) = .ok (text, s')) : s' = s := by
  obtain ⟨c, r, rfl, hspace, -, hstring, -⟩ := h.exists_first
  rw [List.cons_append, string_run hb hspace] at hr
  split at hr
  · rename_i hquote
    subst hquote
    exact eq_of_stringBody (hstring rfl) hr
  · exact absurd hr (fails_refuse _ _)

/-! #### Unsigned integers -/

theorem unsigned_run (hb : Blank b) (hc : isSpace c = false) (s : List Char) :
    unsigned.run (b ++ c :: s) = if isDigit c then (do
        match ← number false with
        | .natural n => return UInt64.ofNat n
        | _ => fail .unfitting : Reader UInt64).run (c :: s)
      else refuse.run (c :: s) := by
  rw [unsigned, run_bind_of_ok (run_need hb hc _)]
  split <;> rfl

theorem run_unsigned (u : UInt64) (hb : Blank b) (hs : Stops s) :
    unsigned.run (b ++ (natural u.toNat ++ s)) = .ok (u, s) := by
  have hnumber := run_number_natural u.toNat_lt hs
  obtain ⟨c, r, hr, hc⟩ := exists_of_isMagnitude (isMagnitude_natural u.toNat)
  rw [hr, List.cons_append] at hnumber ⊢
  rw [unsigned_run hb (not_space_of_isDigit hc).1, if_pos hc, run_bind_of_ok hnumber]
  change Except.ok (UInt64.ofNat u.toNat, s) = _
  rw [UInt64.ofNat_toNat]

theorem eq_of_unsigned {u : UInt64} (h : IsPart .value t) (hb : Blank b) (hs : Stops s)
    (hr : unsigned.run (b ++ (t ++ s)) = .ok (u, s')) : s' = s := by
  obtain ⟨c, r, rfl, hspace, -, -, hnumber, -⟩ := h.exists_first
  rw [List.cons_append, unsigned_run hb hspace] at hr
  split at hr
  · obtain ⟨k, s₁, hk, hr⟩ := exists_of_run_bind hr
    obtain rfl := eq_of_number (hnumber ‹_›) hs hk
    cases k with
    | natural n =>
      cases hr
      rfl
    | negative => cases hr
    | float => cases hr
  · exact absurd hr (fails_refuse _ _)

/-! #### Null or else an unsigned integer -/

theorem nullable_run (p : Reader α) (hb : Blank b) (hc : isSpace c = false) (s : List Char) :
    (nullable p).run (b ++ c :: s) = if c = 'n' then
        (do expect ['n', 'u', 'l', 'l']; return none : Reader (Option α)).run (c :: s)
      else (return some (← p) : Reader (Option α)).run (c :: s) := by
  have hdrop : (b ++ c :: s).dropWhile isSpace = c :: s := by
    rw [dropWhile_blank hb, List.dropWhile_cons_of_neg (by simp [hc])]
  rw [nullable, run_bind_of_ok (run_next _), hdrop, List.head?_cons]
  by_cases hn : c = 'n'
  · rw [if_pos hn, if_pos (congrArg some hn)]
  · rw [if_neg hn, if_neg fun h => hn (Option.some.inj h)]

theorem run_nullable_null (p : Reader α) (hb : Blank b) (s : List Char) :
    (nullable p).run (b ++ (['n', 'u', 'l', 'l'] ++ s)) = .ok (none, s) :=
  (nullable_run p hb rfl _).trans rfl

theorem run_nullable_unsigned (u : UInt64) (hb : Blank b) (hs : Stops s) :
    (nullable unsigned).run (b ++ (natural u.toNat ++ s)) = .ok (some u, s) := by
  have hread := run_unsigned u .nil hs
  obtain ⟨c, r, hr, hc⟩ := exists_of_isMagnitude (isMagnitude_natural u.toNat)
  rw [List.nil_append, hr, List.cons_append] at hread
  rw [hr, List.cons_append, nullable_run _ hb (not_space_of_isDigit hc).1,
    if_neg (ne_of_isDigit hc rfl), run_bind_of_ok hread]
  rfl

theorem eq_of_nullable {u : Option UInt64} (h : IsPart .value t) (hb : Blank b) (hs : Stops s)
    (hr : (nullable unsigned).run (b ++ (t ++ s)) = .ok (u, s')) : s' = s := by
  obtain ⟨c, r, rfl, hspace, -, -, -, hnull⟩ := h.exists_first
  rw [List.cons_append, nullable_run _ hb hspace] at hr
  split at hr
  · rename_i hn
    rw [← List.cons_append, hnull hn, run_bind_of_ok (run_expect _ s)] at hr
    cases hr
    rfl
  · obtain ⟨k, s₁, hk, hr⟩ := exists_of_run_bind hr
    cases hr
    exact eq_of_unsigned h .nil hs hk

/-! ### Whole texts -/

theorem whole_eq_ok {p : Reader α} {a : α} (h : p.run text.toList = .ok (a, b)) (hb : Blank b) :
    whole p text = .ok a := by
  have hdrop : b.dropWhile isSpace = [] := by
    have hnil := dropWhile_blank hb []
    rwa [List.append_nil] at hnil
  unfold whole
  rw [run_bind_of_ok h, run_bind_of_ok (run_next _), hdrop]
  rfl

theorem whole_eq_error {p : Reader α} {e : Problem} (h : p.run text.toList = .error e) :
    whole p text = .error e := by
  unfold whole
  rw [run_bind_of_error h]
  rfl

end Reader

end EditorScripting.Json
