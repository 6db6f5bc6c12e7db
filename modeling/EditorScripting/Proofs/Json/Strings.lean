import Mathlib.Tactic.IntervalCases
import EditorScripting.Proofs.Json.Tokens

/-!
Strings are read or skipped up to their closing quotes. Readers go from piece to piece, and where a
pair of surrogates is read, two pieces are one character.
-/
namespace EditorScripting.Json.Reader

variable {s s' t : List Char} {c : Char} {n : Nat}

theorem hexValue?_of_isHexDigit (h : IsHexDigit c n) : hexValue? c = some n ∧ c.utf8Size = 1 := by
  have hn : n < 16 := by
    rcases h with h | h <;> exact (List.getElem?_eq_some_iff.mp h).1
  interval_cases n <;> rcases h with h | h <;> cases h <;> exact ⟨rfl, rfl⟩

theorem run_codeUnit (h : IsUnit n ('\x5c' :: 'u' :: t)) (s : List Char) :
    codeUnit.run (t ++ s) = .ok (n, s) := by
  cases h with
  | @mk a b c d k l m n ha hb hc hd =>
    obtain ⟨hk, hsa⟩ := hexValue?_of_isHexDigit ha
    obtain ⟨hl, hsb⟩ := hexValue?_of_isHexDigit hb
    obtain ⟨hm, hsc⟩ := hexValue?_of_isHexDigit hc
    obtain ⟨hn, hsd⟩ := hexValue?_of_isHexDigit hd
    have htake : ([a, b, c, d] ++ s).take 4 = [a, b, c, d] := rfl
    have hsize : ¬(String.ofList [a, b, c, d]).utf8ByteSize < 4 := by simp [hsa, hsb, hsc, hsd]
    have hvalues : [a, b, c, d].mapM hexValue? = some [k, l, m, n] := by simp [hk, hl, hm, hn]
    rw [codeUnit, run_bind_of_ok (run_get _), htake, if_neg hsize, hvalues]
    rfl

theorem run_skipEscape (h : IsPiece ('\x5c' :: t)) (s : List Char) :
    skipEscape.run (t ++ s) = .ok ((), s) := by
  cases h with
  | plain hc => exact absurd rfl hc.2.2
  | @short e c h =>
    obtain ⟨hu, hmem⟩ := mem_shortEscapes h
    rw [skipEscape, List.singleton_append, run_bind_of_ok (run_peek_cons _ _),
      run_bind_of_ok (run_advance e s), if_neg hu, if_pos hmem]
    rfl
  | unit h =>
    obtain ⟨r, hr⟩ := exists_of_isUnit h
    obtain rfl := (List.cons.inj hr).2
    rw [skipEscape, List.cons_append, run_bind_of_ok (run_peek_cons _ _),
      run_bind_of_ok (run_advance 'u' _), if_pos rfl, run_discard (run_codeUnit h s)]

theorem run_escape_short {e : Char} (h : (e, c) ∈ shortEscapes) (s : List Char) :
    escape.run (e :: s) = .ok (c, s) := by
  have hall : ∀ m ∈ shortEscapes, escape.run (m.1 :: s) = .ok (m.2, s) := by
    unfold shortEscapes
    repeat' refine List.forall_mem_cons.mpr ⟨rfl, ?_⟩
    exact nofun
  exact hall _ h

/-- What an escape comes to after its first unit. -/
theorem run_escape_unit (h : IsUnit n ('\x5c' :: 'u' :: t)) (s : List Char) :
    escape.run ('u' :: (t ++ s)) =
      if 0xdc00 ≤ n ∧ n ≤ 0xdfff then .error .malformed
      else if 0xd800 ≤ n ∧ n ≤ 0xdbff then (pairWith n).run s
      else .ok (Char.ofNat n, s) := by
  change (codeUnit >>= fun u =>
    if 0xdc00 ≤ u ∧ u ≤ 0xdfff then fail .malformed
    else if 0xd800 ≤ u ∧ u ≤ 0xdbff then pairWith u
    else return Char.ofNat u).run (t ++ s) = _
  rw [run_bind_of_ok (run_codeUnit h s)]
  split
  · rfl
  · split <;> rfl

theorem run_pairWith (h : IsUnit n t) (high : Nat) (s : List Char) :
    (pairWith high).run (t ++ s) =
      if 0xdc00 ≤ n ∧ n ≤ 0xdfff then
        .ok (Char.ofNat (0x10000 + (high - 0xd800) * 0x400 + (n - 0xdc00)), s)
      else .error .malformed := by
  obtain ⟨r, rfl⟩ := exists_of_isUnit h
  have hexpect : (expect ['\x5c', 'u']).run ('\x5c' :: 'u' :: (r ++ s)) = .ok ((), r ++ s) :=
    run_expect ['\x5c', 'u'] (r ++ s)
  rw [pairWith, List.cons_append, List.cons_append, run_bind_of_ok hexpect,
    run_bind_of_ok (run_codeUnit h s)]
  split <;> rfl

/-- The character that an escape spells is read. -/
theorem run_escape (h : Spells c ('\x5c' :: t)) (s : List Char) :
    escape.run (t ++ s) = .ok (c, s) := by
  generalize ht : '\x5c' :: t = whole at h
  cases h with
  | plain hc =>
    cases ht
    exact absurd rfl hc.2.2
  | short h =>
    cases ht
    exact run_escape_short h s
  | unit h =>
    obtain ⟨r, rfl⟩ := exists_of_isUnit h
    cases ht
    have hvalid : c.toNat < 0xd800 ∨ 0xdfff < c.toNat ∧ c.toNat < 0x110000 := c.valid
    have hlow : ¬(0xdc00 ≤ c.toNat ∧ c.toNat ≤ 0xdfff) := by omega
    have hhigh : ¬(0xd800 ≤ c.toNat ∧ c.toNat ≤ 0xdbff) := by omega
    rw [List.cons_append, run_escape_unit h s, if_neg hlow, if_neg hhigh, Char.ofNat_toNat]
  | @pair _ high low t₁ t₂ h h' hhigh hlow hc =>
    obtain ⟨r, rfl⟩ := exists_of_isUnit h
    cases ht
    have hcode : Char.ofNat (0x10000 + (0xd800 + high - 0xd800) * 0x400 + (0xdc00 + low - 0xdc00)) =
        c := by
      rw [Nat.add_sub_cancel_left, Nat.add_sub_cancel_left, Nat.add_assoc, ← hc, Char.ofNat_toNat]
    have htext : ('u' :: r).append t₂ ++ s = 'u' :: (r ++ (t₂ ++ s)) := List.append_assoc _ t₂ s
    rw [htext, run_escape_unit h, if_neg (by omega),
      if_pos (by omega), run_pairWith h', if_pos (by omega), hcode]

/-- Pieces and the closing quote, and what is behind it. -/
def closing (ps : List (List Char)) (s : List Char) : List Char := ps.flatten ++ '\x22' :: s

theorem closing_cons (q : List Char) (ps : List (List Char)) (s : List Char) :
    closing (q :: ps) s = q ++ closing ps s := by
  rw [closing, List.flatten_cons, List.append_assoc, closing]

/-- If the second half of a pair is read, it was one of the pieces. -/
theorem exists_of_pairWith {ps : List (List Char)} (hps : ∀ q ∈ ps, IsPiece q)
    (h : (pairWith n).run (closing ps s) = .ok (c, s')) : ∃ qs, qs <:+ ps ∧ s' = closing qs s := by
  cases ps with
  | nil =>
    obtain ⟨_, _, hexpect, -⟩ := exists_of_run_bind h
    rw [closing, List.flatten_nil, List.nil_append, run_expect_cons, if_neg (by decide)] at hexpect
    cases hexpect
  | cons q ps =>
    rw [closing_cons] at h
    cases hps q List.mem_cons_self with
    | @plain d hd =>
      obtain ⟨_, _, hexpect, -⟩ := exists_of_run_bind h
      rw [List.singleton_append, run_expect_cons, if_neg (Ne.symm hd.2.2)] at hexpect
      cases hexpect
    | @short e d he =>
      obtain ⟨_, _, hexpect, -⟩ := exists_of_run_bind h
      rw [List.cons_append, List.singleton_append, run_expect_cons, if_pos rfl, run_expect_cons,
        if_neg (Ne.symm (mem_shortEscapes he).1)] at hexpect
      cases hexpect
    | unit hu =>
      rw [run_pairWith hu] at h
      split at h
      · obtain ⟨-, rfl⟩ := Prod.mk.inj (Except.ok.inj h)
        exact ⟨ps, List.suffix_cons q ps, rfl⟩
      · cases h

/-- An escape that is read among pieces ends with one of them. -/
theorem exists_of_escape {ps : List (List Char)} (ht : IsPiece ('\x5c' :: t))
    (hps : ∀ q ∈ ps, IsPiece q) (h : escape.run (t ++ closing ps s) = .ok (c, s')) :
    ∃ qs, qs <:+ ps ∧ s' = closing qs s := by
  cases ht with
  | plain hc => exact absurd rfl hc.2.2
  | short he =>
    rw [List.singleton_append, run_escape_short he] at h
    cases h
    exact ⟨ps, List.suffix_refl ps, rfl⟩
  | unit hu =>
    obtain ⟨r, hr⟩ := exists_of_isUnit hu
    obtain rfl := (List.cons.inj hr).2
    rw [List.cons_append, run_escape_unit hu] at h
    split at h
    · cases h
    · split at h
      · exact exists_of_pairWith hps h
      · cases h
        exact ⟨ps, List.suffix_refl ps, rfl⟩

theorem characters_quote (onEscape : Reader Char) (n : Nat) (s : List Char) :
    (characters onEscape (n + 1)).run ('\x22' :: s) = .ok ([], s) := rfl

theorem characters_plain (onEscape : Reader Char) (n : Nat) (hc : Plain c) (s : List Char) :
    (characters onEscape (n + 1)).run (c :: s) =
      (return c :: (← characters onEscape n) : Reader (List Char)).run s := by
  obtain ⟨hspace, hquote, hslash⟩ := hc
  rw [characters, run_bind_of_ok (run_peek_cons _ _),
    run_bind_of_ok (run_advance c s), if_neg hquote, if_neg hslash, if_neg (Char.not_lt.mpr hspace)]

theorem characters_escape (onEscape : Reader Char) (n : Nat) (s : List Char) :
    (characters onEscape (n + 1)).run ('\x5c' :: s) =
      (do let d ← onEscape; return d :: (← characters onEscape n) : Reader (List Char)).run s := rfl

theorem characters_spelled {cs : List Char} {ts : List (List Char)} (h : List.Forall₂ Spells cs ts)
    (hn : ts.length < n) (s : List Char) :
    (characters escape n).run (closing ts s) = .ok (cs, s) := by
  induction h generalizing n with
  | nil =>
    obtain ⟨n, rfl⟩ := Nat.exists_eq_add_of_lt hn
    exact characters_quote escape _ s
  | @cons c t cs ts hc _ ih =>
    obtain ⟨n, rfl⟩ := Nat.exists_eq_add_of_lt hn
    have hrest : (characters escape (ts.length + 1 + n)).run (closing ts s) = .ok (cs, s) :=
      ih (by omega)
    rw [List.length_cons, closing_cons]
    rcases spells_cases hc with ⟨hplain, rfl⟩ | ⟨r, rfl⟩
    · rw [List.singleton_append, characters_plain escape _ hplain, run_bind_of_ok hrest]
      rfl
    · rw [List.cons_append, characters_escape, run_bind_of_ok (run_escape hc _),
        run_bind_of_ok hrest]
      rfl

theorem characters_skipped {ps : List (List Char)} (hps : ∀ q ∈ ps, IsPiece q)
    (hn : ps.length < n) (s : List Char) :
    ∃ cs, (characters (do skipEscape; return ' ') n).run (closing ps s) = .ok (cs, s) := by
  induction ps generalizing n with
  | nil =>
    obtain ⟨n, rfl⟩ := Nat.exists_eq_add_of_lt hn
    exact ⟨[], characters_quote _ _ s⟩
  | cons q ps ih =>
    obtain ⟨n, rfl⟩ := Nat.exists_eq_add_of_lt hn
    obtain ⟨hq, hrest⟩ := List.forall_mem_cons.mp hps
    obtain ⟨cs, hcs⟩ := ih hrest (n := ps.length + 1 + n) (by omega)
    rw [List.length_cons, closing_cons]
    rcases isPiece_cases hq with ⟨c, hc, rfl⟩ | ⟨t, rfl⟩
    · rw [List.singleton_append, characters_plain _ _ hc, run_bind_of_ok hcs]
      exact ⟨_, rfl⟩
    · have hskip : (do skipEscape; return ' ' : Reader Char).run (t ++ closing ps s) =
          .ok (' ', closing ps s) := by
        rw [run_bind_of_ok (run_skipEscape hq _)]
        rfl
      rw [List.cons_append, characters_escape, run_bind_of_ok hskip, run_bind_of_ok hcs]
      exact ⟨_, rfl⟩

/-- If the pieces are read at all, they are read up to the quote behind them. -/
theorem eq_of_characters {cs : List Char} {ps : List (List Char)} (hps : ∀ q ∈ ps, IsPiece q)
    (h : (characters escape n).run (closing ps s) = .ok (cs, s')) : s' = s := by
  induction n generalizing ps cs with
  | zero => cases h
  | succ n ih =>
    cases ps with
    | nil =>
      cases h
      rfl
    | cons q ps =>
      obtain ⟨hq, hrest⟩ := List.forall_mem_cons.mp hps
      rw [closing_cons] at h
      rcases isPiece_cases hq with ⟨c, hc, rfl⟩ | ⟨t, rfl⟩
      · rw [List.singleton_append, characters_plain _ _ hc] at h
        obtain ⟨ds, t, hds, hret⟩ := exists_of_run_bind h
        cases hret
        exact ih hrest hds
      · rw [List.cons_append, characters_escape] at h
        obtain ⟨d, t', hd, h⟩ := exists_of_run_bind h
        obtain ⟨qs, hqs, rfl⟩ := exists_of_escape hq hrest hd
        obtain ⟨ds, t, hds, hret⟩ := exists_of_run_bind h
        cases hret
        exact ih (fun q hq => hrest q (hqs.subset hq)) hds

/-- There is fuel for all pieces, since none of them is empty. -/
theorem length_lt_closing {ps : List (List Char)} (hps : ∀ q ∈ ps, q ≠ []) (s : List Char) :
    ps.length < (closing ps s).length + 1 := by
  have hlength : ps.length ≤ ps.flatten.length := by
    induction ps with
    | nil => exact Nat.zero_le _
    | cons q ps ih =>
      obtain ⟨hq, hrest⟩ := List.forall_mem_cons.mp hps
      have hpos : 0 < q.length := List.length_pos_iff.mpr hq
      have hflatten := ih hrest
      rw [List.length_cons, List.flatten_cons, List.length_append]
      omega
  rw [closing, List.length_append]
  omega

theorem closing_nil_eq (ps : List (List Char)) (s : List Char) :
    ps.flatten ++ ['\x22'] ++ s = closing ps s := by
  rw [List.append_assoc, closing, List.singleton_append]

theorem run_stringBody {text : String} (h : IsStringOf text ('\x22' :: t)) (s : List Char) :
    stringBody.run (t ++ s) = .ok (text, s) := by
  obtain ⟨ts, hts, heq⟩ := h
  obtain rfl := (List.cons.inj heq).2
  rw [closing_nil_eq, stringBody, run_bind_of_ok (run_get _),
    run_bind_of_ok (characters_spelled hts (length_lt_closing (ne_nil_of_spelled hts) s) s),
    String.ofList_toList]
  rfl

theorem run_skipString (h : IsString ('\x22' :: t)) (s : List Char) :
    skipString.run (t ++ s) = .ok ((), s) := by
  obtain ⟨ps, hps, heq⟩ := h
  obtain rfl := (List.cons.inj heq).2
  have hfuel := length_lt_closing (fun q hq => ne_nil_of_isPiece (hps q hq)) s
  obtain ⟨cs, hcs⟩ := characters_skipped hps hfuel s
  rw [closing_nil_eq, skipString, run_bind_of_ok (run_get _), run_discard hcs]

theorem eq_of_stringBody {text : String} (h : IsString ('\x22' :: t))
    (hr : stringBody.run (t ++ s) = .ok (text, s')) : s' = s := by
  obtain ⟨ps, hps, heq⟩ := h
  obtain rfl := (List.cons.inj heq).2
  rw [closing_nil_eq, stringBody, run_bind_of_ok (run_get _)] at hr
  obtain ⟨cs, t, hcs, hret⟩ := exists_of_run_bind hr
  cases hret
  exact eq_of_characters hps hcs

end EditorScripting.Json.Reader
