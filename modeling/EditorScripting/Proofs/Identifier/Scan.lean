import EditorScripting.Proofs.Identifier.RoundTrip

/-!
The decoder as a scan over the positions of a text. A read outside of the text interrupts the scan,
and so does the end of its turns before the end of the text. No text does either: each turn reads
positions of the text only and moves on to a later one, and what is written is the decoded name.
-/
namespace EditorScripting.Identifier

open Text

/-- Why a scan gives no name: it has read the positions from `start` to `stop`, which are not all in
the text, or its turns are over before it has come to the end. -/
inductive Interruption where
  | outside (start stop : Nat)
  | unfinished
deriving DecidableEq, Repr

def charAt (cs : List Char) (i : Nat) : Except Interruption Char :=
  match cs[i]? with
  | some c => .ok c
  | none => .error (.outside i (i + 1))

/-- The characters from one position up to another one. -/
def stretch (cs : List Char) (start stop : Nat) : Except Interruption (List Char) :=
  if start ≤ stop ∧ stop ≤ cs.length then .ok ((cs.drop start).take (stop - start))
  else .error (.outside start stop)

/-- Reads an escape whose opening underscore is at `start`, and returns the character with the
position after the closing underscore. Only the two tests for a single character may look past the
end of the text. -/
def escapeAt (cs : List Char) (start : Nat) : Except Interruption (Option (Char × Nat)) := do
  if cs[start + 1]? ≠ some 'u' then
    return none
  let behind ← stretch cs (start + 2) cs.length
  let count := (behind.takeWhile isHexDigit).length
  let stop := start + 2 + count
  if count = 0 ∨ cs[stop]? ≠ some '_' then
    return none
  let digits ← stretch cs (start + 2) stop
  return (decodeDigits? digits).map (·, stop + 1)

/-- One turn of the scan: the character that it writes, and the position of the next turn. -/
def turn (cs : List Char) (i : Nat) : Except Interruption (Char × Nat) := do
  let c ← charAt cs i
  if c = '_' then
    match ← escapeAt cs i with
    | some found => return found
    | none => return ('-', i + 1)
  else
    return (c, i + 1)

/-- The scan from a position on, with what is written so far, in a limited number of turns. -/
def scan (cs : List Char) (turns i : Nat) (written : List Char) :
    Except Interruption (List Char) :=
  if i < cs.length then
    match turns with
    | 0 => .error .unfinished
    | turns + 1 => do
      let (c, next) ← turn cs i
      scan cs turns next (written ++ [c])
  else .ok written

/-- Where the scan begins: an underscore that protects a digit is not read. -/
def firstPosition : List Char → Nat
  | '_' :: d :: _ => if isDigit d then 1 else 0
  | _ => 0

theorem charAt_eq {cs : List Char} {i : Nat} (h : i < cs.length) : charAt cs i = .ok cs[i] := by
  rw [charAt, List.getElem?_eq_getElem h]

theorem stretch_eq {cs : List Char} {start stop : Nat} (h : start ≤ stop) (h' : stop ≤ cs.length) :
    stretch cs start stop = .ok ((cs.drop start).take (stop - start)) := by
  rw [stretch, if_pos ⟨h, h'⟩]

/-! The run of characters of one class at the start of a text, by its length. -/

theorem take_length_takeWhile (p : Char → Bool) (cs : List Char) :
    cs.take (cs.takeWhile p).length = cs.takeWhile p :=
  (List.prefix_iff_eq_take.mp (List.takeWhile_prefix p)).symm

theorem getElem?_length_takeWhile (p : Char → Bool) (cs : List Char) :
    cs[(cs.takeWhile p).length]? = (cs.dropWhile p).head? := by
  calc
    cs[(cs.takeWhile p).length]? =
        (cs.takeWhile p ++ cs.dropWhile p)[(cs.takeWhile p).length]? := by
      rw [List.takeWhile_append_dropWhile]
    _ = (cs.dropWhile p).head? := by
      rw [List.getElem?_append_right le_rfl, Nat.sub_self, List.head?_eq_getElem?]

theorem length_takeWhile_add_dropWhile (p : Char → Bool) (cs : List Char) :
    (cs.takeWhile p).length + (cs.dropWhile p).length = cs.length := by
  rw [← List.length_append, List.takeWhile_append_dropWhile]

/-! An escape at a position, and the escape that the text behind its underscore starts with. -/

theorem escape?_u (r : List Char) :
    escape? ('u' :: r) =
      if (r.dropWhile isHexDigit).head? = some '_' then
        (decodeDigits? (r.takeWhile isHexDigit)).map (·, (r.dropWhile isHexDigit).tail)
      else none := by
  rw [escape?]
  split
  · rename_i rest hrest
    simp [hrest]
  · rename_i hno
    rw [if_neg]
    intro hhead
    obtain ⟨rest, hrest⟩ := List.head?_eq_some_iff.mp hhead
    exact hno rest hrest

theorem escape?_drop_of_ne {cs : List Char} {i : Nat} (h : cs[i]? ≠ some 'u') :
    escape? (cs.drop i) = none := by
  unfold escape?
  split
  · rename_i r hr
    rw [← List.head?_drop, hr] at h
    exact absurd rfl h
  · rfl

/-- No read of an escape is outside of the text, and the position behind the escape is that of the
text that is left. -/
theorem escapeAt_eq (cs : List Char) (start : Nat) :
    escapeAt cs start =
      .ok ((escape? (cs.drop (start + 1))).map fun p => (p.1, cs.length - p.2.length)) := by
  unfold escapeAt
  by_cases hu : cs[start + 1]? = some 'u'
  · obtain ⟨hin, hget⟩ := List.getElem?_eq_some_iff.mp hu
    obtain ⟨r, hr⟩ : ∃ r, cs.drop (start + 2) = r := ⟨_, rfl⟩
    have hdrop : cs.drop (start + 1) = 'u' :: r := by
      rw [List.drop_eq_getElem_cons hin, hget, hr]
    have hlen : r.length = cs.length - (start + 2) := by rw [← hr, List.length_drop]
    have hrun := length_takeWhile_add_dropWhile isHexDigit r
    -- the `u` is in the text, so both stretches behind it are
    have hbehind : stretch cs (start + 2) cs.length = .ok r := by
      rw [stretch_eq hin le_rfl, hr, ← hlen, List.take_length]
    have hdigits : stretch cs (start + 2) (start + 2 + (r.takeWhile isHexDigit).length) =
        .ok (r.takeWhile isHexDigit) := by
      rw [stretch_eq (by omega) (by omega), hr, Nat.add_sub_cancel_left, take_length_takeWhile]
    have hstop : cs[start + 2 + (r.takeWhile isHexDigit).length]? =
        (r.dropWhile isHexDigit).head? := by
      rw [← List.getElem?_drop, hr, getElem?_length_takeWhile]
    rw [hdrop, escape?_u, hbehind, if_neg (not_not_intro hu)]
    simp only [bind, Except.bind, pure, Except.pure, hstop, hdigits]
    by_cases hclose : (r.dropWhile isHexDigit).head? = some '_'
    · obtain ⟨rest, hrest⟩ := List.head?_eq_some_iff.mp hclose
      have hnext : cs.length - rest.length =
          start + 2 + (r.takeWhile isHexDigit).length + 1 := by
        rw [hrest, List.length_cons] at hrun
        omega
      by_cases hempty : (r.takeWhile isHexDigit).length = 0
      · rw [if_pos (.inl hempty), if_pos hclose, List.length_eq_zero_iff.mp hempty]
        rfl
      · rw [if_neg (not_or.mpr ⟨hempty, not_not_intro hclose⟩), if_pos hclose, hrest]
        simp only [List.tail_cons, Option.map_map, Function.comp_def, hnext]
    · rw [if_pos (.inr hclose), if_neg hclose]
      rfl
  · rw [if_pos hu, escape?_drop_of_ne hu]
    rfl

theorem drop_behind_escape {cs rest : List Char} {start : Nat} {c : Char}
    (h : escape? (cs.drop (start + 1)) = some (c, rest)) :
    start < cs.length - rest.length ∧ cs.drop (cs.length - rest.length) = rest := by
  obtain ⟨digits, hdrop, -⟩ := escape?_eq_some_iff.mp h
  have hlen := congrArg List.length hdrop
  simp only [List.length_drop, List.length_append, List.length_cons] at hlen
  have hsuffix : rest <:+ cs.drop (start + 1) := ⟨'u' :: digits ++ ['_'], by simp [hdrop]⟩
  have hrest := List.suffix_iff_eq_drop.mp (hsuffix.trans (List.drop_suffix (start + 1) cs))
  exact ⟨by omega, hrest.symm⟩

/-! What one turn does, and from it what the whole scan does. -/

/-- A turn in the text succeeds, moves on without leaving the text, and writes the next character
that the decoder gives. -/
theorem exists_turn {cs : List Char} {i : Nat} (h : i < cs.length) :
    ∃ c next, turn cs i = .ok (c, next) ∧ i < next ∧ next ≤ cs.length ∧
      decode (cs.drop i) = c :: decode (cs.drop next) := by
  have hdrop := List.drop_eq_getElem_cons h
  by_cases hu : cs[i] = '_'
  · rw [hu] at hdrop
    cases he : escape? (cs.drop (i + 1)) with
    | none =>
      refine ⟨'-', i + 1, ?_, by omega, by omega, by rw [hdrop, decode_dash he]⟩
      simp [turn, charAt_eq h, hu, escapeAt_eq, he, bind, Except.bind, pure, Except.pure]
    | some found =>
      obtain ⟨c, rest⟩ := found
      obtain ⟨hlt, hrest⟩ := drop_behind_escape he
      refine ⟨c, cs.length - rest.length, ?_, hlt, by omega, ?_⟩
      · simp [turn, charAt_eq h, hu, escapeAt_eq, he, bind, Except.bind, pure, Except.pure]
      · rw [hdrop, decode_escape he, hrest]
  · refine ⟨cs[i], i + 1, ?_, by omega, by omega, by rw [hdrop, decode_word hu]⟩
    simp [turn, charAt_eq h, hu, bind, Except.bind, pure, Except.pure]

/-- From any position on the scan comes to the end, in no more turns than there are characters. -/
theorem scan_eq {cs : List Char} {turns i : Nat} (written : List Char) (hi : i ≤ cs.length)
    (hturns : cs.length - i ≤ turns) :
    scan cs turns i written = .ok (written ++ decode (cs.drop i)) := by
  induction turns generalizing i written with
  | zero =>
    have hend : i = cs.length := by omega
    rw [scan, if_neg (by omega), hend, List.drop_length, decode_nil, List.append_nil]
  | succ turns ih =>
    by_cases hin : i < cs.length
    · obtain ⟨c, next, hturn, hlt, hle, hdecode⟩ := exists_turn hin
      rw [scan, if_pos hin, hturn]
      change scan cs turns next (written ++ [c]) = _
      -- `next` is later than `i`, so one turn less is enough for what is left
      rw [ih (written ++ [c]) hle (by omega), hdecode, List.append_assoc, List.singleton_append]
    · have hend : i = cs.length := by omega
      rw [scan, if_neg hin, hend, List.drop_length, decode_nil, List.append_nil]

theorem firstPosition_le (cs : List Char) : firstPosition cs ≤ cs.length := by
  unfold firstPosition
  split
  · split <;> simp
  · exact Nat.zero_le _

theorem toHostName_eq (cs : List Char) : toHostName cs = decode (cs.drop (firstPosition cs)) := by
  unfold toHostName
  split
  · rename_i d r
    change (if isDigit d = true then decode (d :: r) else decode ('_' :: d :: r)) =
      decode (List.drop (if isDigit d = true then 1 else 0) ('_' :: d :: r))
    split_ifs
    · rfl
    · rfl
  · rename_i hno
    have hzero : firstPosition cs = 0 := by
      unfold firstPosition
      split
      · exact (hno _ _ rfl).elim
      · rfl
    rw [hzero, List.drop_zero]

theorem length_decode_le (cs : List Char) : (decode cs).length ≤ cs.length := by
  induction cs using decode.induct with
  | case1 => simp [decode_nil]
  | case2 r d rest h _ ih =>
    have hshort := escape?_length h
    rw [decode_escape h, List.length_cons, List.length_cons]
    omega
  | case3 r h ih =>
    rw [decode_dash h, List.length_cons, List.length_cons]
    omega
  | case4 c r hc ih =>
    rw [decode_word hc, List.length_cons, List.length_cons]
    omega

theorem length_toHostName_le (cs : List Char) : (toHostName cs).length ≤ cs.length := by
  calc
    (toHostName cs).length ≤ (cs.drop (firstPosition cs)).length := by
      rw [toHostName_eq]
      exact length_decode_le _
    _ ≤ cs.length := by
      rw [List.length_drop]
      exact Nat.sub_le _ _

/-- The decoder is total over every text. Its reads of an escape stay in the text wherever they
start, and an escape that is found ends behind its start and in the text; its scan reads no position
outside of the text and ends, with the host name as its result; and that name is no longer than the
text and has no underscore. -/
theorem hostName_scanned (name : String) :
    (∀ start, ∃ found, escapeAt name.toList start = .ok found ∧
        ∀ c next, found = some (c, next) → start < next ∧ next ≤ name.length) ∧
      scan name.toList name.length (firstPosition name.toList) [] = .ok (hostName name).toList ∧
      (hostName name).length ≤ name.length ∧ '_' ∉ (hostName name).toList := by
  have hname : (hostName name).toList = toHostName name.toList := by
    rw [hostName, String.toList_ofList]
  have hlen : name.toList.length = name.length := String.length_toList
  refine ⟨?_, ?_, ?_, ?_⟩
  · intro start
    refine ⟨_, escapeAt_eq name.toList start, ?_⟩
    intro c next hfound
    obtain ⟨⟨d, rest⟩, he, hpair⟩ := Option.map_eq_some_iff.mp hfound
    obtain ⟨rfl, rfl⟩ := Prod.mk.inj hpair
    exact ⟨(drop_behind_escape he).1, by omega⟩
  · rw [scan_eq [] (firstPosition_le _) (by omega), List.nil_append, hname, toHostName_eq]
  · rw [← String.length_toList, hname, ← hlen]
    exact length_toHostName_le _
  · rw [hname]
    exact underscore_not_mem_toHostName _

/-- A protected digit, an escape, the code of a surrogate, and an escape that the text breaks off. -/
theorem hostName_scanned_malformed :
    escapeAt "_1_u2a__ud800_u2".toList 2 = .ok (some ('*', 7)) ∧
      7 ≤ "_1_u2a__ud800_u2".length ∧
      scan "_1_u2a__ud800_u2".toList "_1_u2a__ud800_u2".length 1 [] = .ok "1*-ud800-u2".toList ∧
      hostName "_1_u2a__ud800_u2" = "1*-ud800-u2" := by
  have hname : hostName "_1_u2a__ud800_u2" = "1*-ud800-u2" := by decide +kernel
  have hfound : escapeAt "_1_u2a__ud800_u2".toList 2 = .ok (some ('*', 7)) := by decide +kernel
  have hfirst : firstPosition "_1_u2a__ud800_u2".toList = 1 := by decide
  obtain ⟨hescapes, hscan, -, -⟩ := hostName_scanned "_1_u2a__ud800_u2"
  obtain ⟨found, hread, hbounds⟩ := hescapes 2
  have hsame : found = some ('*', 7) := Except.ok.inj (hread.symm.trans hfound)
  rw [hfirst, hname] at hscan
  exact ⟨hfound, (hbounds '*' 7 hsame).2, hscan, hname⟩

end EditorScripting.Identifier
