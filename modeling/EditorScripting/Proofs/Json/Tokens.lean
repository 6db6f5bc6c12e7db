import EditorScripting.Json.Reader
import EditorScripting.Proofs.Json.Grammar

/-!
Steps of readers: what one takes off the text, alone or before another one, and how blanks are
passed.
-/
namespace EditorScripting.Json.Reader

variable {α β : Type} {p : Reader α} {f : α → Reader β} {a : α} {b s s' : List Char} {c : Char}

theorem run_bind (p : Reader α) (f : α → Reader β) (s : List Char) :
    (p >>= f).run s = match p.run s with
      | .ok (a, s) => (f a).run s
      | .error e => .error e := by
  rw [StateT.run_bind]
  cases p.run s <;> rfl

theorem run_bind_of_ok (h : p.run s = .ok (a, s')) : (p >>= f).run s = (f a).run s' := by
  rw [run_bind, h]

theorem run_bind_of_error {e : Problem} (h : p.run s = .error e) : (p >>= f).run s = .error e := by
  rw [run_bind, h]

/-- What two readers read in turn, each of them has read. -/
theorem exists_of_run_bind {r : β × List Char} (h : (p >>= f).run s = .ok r) :
    ∃ a s', p.run s = .ok (a, s') ∧ (f a).run s' = .ok r := by
  rw [run_bind] at h
  split at h
  · exact ⟨_, _, ‹_›, h⟩
  · cases h

theorem run_get (s : List Char) : (get : Reader (List Char)).run s = .ok (s, s) := rfl

theorem run_peek (s : List Char) : peek.run s = .ok (s.head?, s) := rfl

theorem run_peek_cons (c : Char) (s : List Char) : peek.run (c :: s) = .ok (some c, c :: s) := rfl

theorem run_advance (c : Char) (s : List Char) : advance.run (c :: s) = .ok ((), s) := rfl

theorem run_discard (h : p.run s = .ok (a, s')) : (discard p).run s = .ok ((), s') := by
  rw [show discard p = (fun _ => ()) <$> p from rfl, StateT.run_map, h]
  rfl

/-! ### Blanks and single characters -/

theorem isSpace_of_blank (hb : Blank b) (hc : c ∈ b) : isSpace c = true := by
  have hmem := hb c hc
  simp only [List.mem_cons, List.not_mem_nil, or_false] at hmem
  rcases hmem with rfl | rfl | rfl | rfl <;> rfl

theorem dropWhile_blank (hb : Blank b) (s : List Char) :
    (b ++ s).dropWhile isSpace = s.dropWhile isSpace :=
  List.dropWhile_append_of_pos fun _ hc => isSpace_of_blank hb hc

theorem run_next (s : List Char) :
    next.run s = .ok ((s.dropWhile isSpace).head?, s.dropWhile isSpace) := rfl

theorem run_need_cons (hc : isSpace c = false) (s : List Char) :
    need.run (c :: s) = .ok (c, c :: s) := by
  have hdrop : (c :: s).dropWhile isSpace = c :: s := List.dropWhile_cons_of_neg (by simp [hc])
  rw [need, run_bind_of_ok (run_next _), hdrop]
  rfl

/-- Blanks make no difference to what looks behind them. -/
theorem need_blank (hb : Blank b) (s : List Char) : need.run (b ++ s) = need.run s := by
  rw [need, run_bind_of_ok (run_next _), run_bind_of_ok (run_next _), dropWhile_blank hb]

theorem run_need (hb : Blank b) (hc : isSpace c = false) (s : List Char) :
    need.run (b ++ c :: s) = .ok (c, c :: s) := by
  rw [need_blank hb, run_need_cons hc]

theorem run_token (hb : Blank b) (hc : isSpace c = false) (s : List Char) :
    (token c).run (b ++ c :: s) = .ok ((), s) := by
  rw [token, run_bind_of_ok (run_need hb hc s), if_pos rfl]
  rfl

theorem run_expect_cons (c d : Char) (t s : List Char) :
    (expect (c :: t)).run (d :: s) = if c = d then (expect t).run s else .error .malformed := by
  rw [expect, run_bind_of_ok (run_peek_cons _ _)]
  dsimp only
  split <;> rfl

theorem run_expect (t s : List Char) : (expect t).run (t ++ s) = .ok ((), s) := by
  induction t with
  | nil => rfl
  | cons c t ih => rw [List.cons_append, run_expect_cons, if_pos rfl, ih]

end EditorScripting.Json.Reader
