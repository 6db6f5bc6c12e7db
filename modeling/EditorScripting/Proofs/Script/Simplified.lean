import EditorScripting.Proofs.Script.Bare
import EditorScripting.Script.Fold

/-!
Simplified code. Literals are made from literals and from the values of constants, so code without
wrappers stays so.
-/
namespace EditorScripting.Script

open Host

namespace Fold

open Value (wrappersOf wrappersOfEntries)

/-- The constants hold no wrappers. -/
def Known.Bare (known : Known) : Prop := ∀ name v, (name, some v) ∈ known → v.wrappers = 0

theorem Known.Bare.cons {known : Known} (hk : known.Bare) (name : String) {v : Option Value}
    (hv : ∀ w ∈ v, w.wrappers = 0) : Known.Bare ((name, v) :: known) := by
  intro other w hw
  rcases List.mem_cons.mp hw with he | hold
  · cases he
    exact hv w rfl
  · exact hk other w hold

/-- Names without values in front of it. -/
theorem Known.Bare.append {known : Known} (hk : known.Bare) (names : List String) :
    Known.Bare (names.map (·, none) ++ known) := by
  intro other w hw
  rcases List.mem_append.mp hw with hnew | hold
  · obtain ⟨name, -, he⟩ := List.mem_map.mp hnew
    cases he
  · exact hk other w hold

/-! Literals. -/

theorem wrappers_of_literal? {e : Expr} {v : Value} (he : e.Bare) (hv : e.literal? = some v) :
    v.wrappers = 0 := by
  cases e <;> cases hv
  exact he

theorem wrappersOf_of_literals? {es : List Expr} {vs : List Value} (he : Expr.AllBare es)
    (hv : literals? es = some vs) : wrappersOf vs = 0 := by
  induction es generalizing vs with
  | nil =>
    cases hv
    rfl
  | cons e es ih =>
    unfold literals? at hv
    rw [List.mapM_cons] at hv
    obtain ⟨v, hfirst, hv⟩ := Option.bind_eq_some_iff.mp hv
    obtain ⟨ws, hrest, hv⟩ := Option.bind_eq_some_iff.mp hv
    cases hv
    rw [Value.wrappersOf_cons, wrappers_of_literal? he.1 hfirst, ih he.2 hrest, zero_add]

theorem wrappersOfEntries_of_literalEntries? {es : List (String × Expr)}
    {vs : List (String × Value)} (he : Expr.EntriesBare es) (hv : literalEntries? es = some vs) :
    wrappersOfEntries vs = 0 := by
  induction es generalizing vs with
  | nil =>
    cases hv
    rfl
  | cons e es ih =>
    obtain ⟨v, hfirst, hv⟩ := Option.bind_eq_some_iff.mp hv
    obtain ⟨ws, hrest, hv⟩ := Option.bind_eq_some_iff.mp hv
    cases hv
    have hle := Value.wrappersOfEntries_insertEntry_le e.1 v ws
    rw [wrappers_of_literal? he.1 hfirst, ih he.2 hrest, zero_add] at hle
    exact Multiset.le_zero.mp hle

theorem bare_joinPieces {es : List Expr} (he : Expr.AllBare es) : Expr.AllBare (joinPieces es) := by
  induction es with
  | nil => exact he
  | cons e es ih =>
    have hrest := ih he.2
    unfold joinPieces
    split
    · exact hrest
    · exact hrest
    · rename_i hjoined
      rw [hjoined] at hrest
      exact ⟨rfl, hrest.2⟩
    · exact ⟨he.1, hrest⟩

theorem bare_template {parts : List Expr} (hp : Expr.AllBare parts) (p : Position) :
    (template parts p).Bare := by
  unfold template
  split
  · exact Value.wrappers_string _
  · exact bare_joinPieces hp

theorem wrappers_of_item? {items : List Value} {i : Int} {v : Value} (hi : wrappersOf items = 0)
    (hv : item? items i = some v) : v.wrappers = 0 := by
  unfold item? at hv
  extract_lets i at hv
  split at hv
  · exact Multiset.le_zero.mp (hi ▸ Value.wrappers_le_of_getElem? hv)
  · cases hv

theorem bare_element? {root e : Expr} {l : Link} (hr : root.Bare) (he : element? root l = some e) :
    e.Bare := by
  have hentry : ∀ {entries : List (String × Value)} (key : String) (p : Position),
      (Value.map entries).wrappers = 0 → (element?.value entries p key).Bare := fun key p hm =>
    Multiset.le_zero.mp (hm ▸ Value.wrappers_entry_le key _)
  unfold element? at he
  split at he
  · obtain ⟨v, hv, rfl⟩ := Option.map_eq_some_iff.mp he
    exact wrappers_of_item? hr hv
  · obtain ⟨c, -, rfl⟩ := Option.map_eq_some_iff.mp he
    exact Value.wrappers_char c
  · cases he
    exact hentry _ _ hr
  · cases he
    exact hentry _ _ hr
  · cases he
    exact Value.wrappers_string _
  · cases he

theorem bare_binary (limits : Limits) (op : Operator) {l r : Expr} (hl : l.Bare) (hr : r.Bare)
    (p : Position) : (binary limits op l r p).Bare := by
  unfold binary
  split
  · split
    · rename_i hv
      split
      · rename_i hw
        rw [Limits.eq_of_check hw]
        exact wrappers_onSimple? hv
      · exact ⟨hl, hr⟩
    · exact ⟨hl, hr⟩
  · exact ⟨hl, hr⟩

theorem bare_decisive (isNeutral decides : Value → Bool) {es : List Expr}
    (he : Expr.AllBare es) : Expr.AllBare (decisive isNeutral decides es) := by
  induction es with
  | nil => exact he
  | cons e es ih =>
    have hrest := ih he.2
    unfold decisive
    split
    · split
      · exact hrest
      split
      · exact ⟨he.1, trivial⟩
      · exact ⟨he.1, hrest⟩
    · exact ⟨he.1, hrest⟩

theorem bare_joined {otherwise : Value} {join : List Expr → Position → Expr} {es : List Expr}
    (hvalue : otherwise.wrappers = 0) (hjoin : ∀ es p, Expr.AllBare es → (join es p).Bare)
    (he : Expr.AllBare es) (p : Position) : (joined otherwise join p es).Bare := by
  unfold joined
  split
  · exact hvalue
  · exact he.1
  · exact hjoin _ _ he

theorem bare_allOf {es : List Expr} (he : Expr.AllBare es) (p : Position) :
    (allOf es p).Bare := by
  refine bare_joined rfl (fun _ _ h => ?_) (bare_decisive _ _ he) p
  exact h

theorem bare_anyOf {es : List Expr} (he : Expr.AllBare es) (p : Position) :
    (anyOf es p).Bare := by
  refine bare_joined rfl (fun _ _ h => ?_) (bare_decisive _ _ he) p
  exact h

theorem bare_firstOf {es : List Expr} (he : Expr.AllBare es) (p : Position) :
    (firstOf es p).Bare := by
  refine bare_joined rfl (fun _ _ h => ?_) (bare_decisive _ _ he) p
  exact h

/-! Blocks. -/

theorem bare_opened {body : List Stmt} (hb : Stmt.AllBare body) : Stmt.AllBare (opened body) := by
  fun_induction opened body with
  | case1 => exact hb
  | case2 s body p r _ ih => exact ⟨hb.1, ih hb.2⟩
  | case3 s body p r _ ih => exact Stmt.allBare_append.mpr ⟨hb.1, ih hb.2⟩
  | case4 s r _ ih => exact ⟨hb.1, ih hb.2⟩

theorem bare_reachable {body : List Stmt} (hb : Stmt.AllBare body) :
    Stmt.AllBare (reachable body) := by
  fun_induction reachable body with
  | case1 => exact hb
  | case2 s r hs => exact ⟨hb.1, trivial⟩
  | case3 s r hs ih => exact ⟨hb.1, ih hb.2⟩

theorem bare_prune (keepLast : Bool) {body : List Stmt} (hb : Stmt.AllBare body) :
    Stmt.AllBare (prune keepLast body) := by
  fun_induction prune keepLast body with
  | case1 => exact hb
  | case2 s hs => exact trivial
  | case3 s hs => exact hb
  | case4 s r _ hs ih => exact ih hb.2
  | case5 s r _ hs ih => exact ⟨hb.1, ih hb.2⟩

theorem bare_dropWhile (q : Stmt → Bool) {body : List Stmt} (hb : Stmt.AllBare body) :
    Stmt.AllBare (body.dropWhile q) :=
  Stmt.allBare_iff.mpr fun s hs => Stmt.allBare_iff.mp hb s ((List.dropWhile_suffix _).subset hs)

theorem bare_trimmed {body : List Stmt} (hb : Stmt.AllBare body) : Stmt.AllBare (trimmed body) := by
  fun_induction trimmed body with
  | case1 => exact hb
  | case2 => exact ⟨hb.1, bare_dropWhile _ hb.2⟩
  | case3 => exact ⟨trivial, hb.2⟩
  | case4 s r _ hs hr ih => exact ih hb.2
  | case5 => exact hb

theorem bare_returning {body : List Stmt} (hb : Stmt.AllBare body) :
    Stmt.AllBare (returning body) := by
  unfold returning
  split
  · exact hb
  · split
    · exact ⟨trivial, hb.2⟩
    · exact hb.2
  · exact hb

theorem bare_tidy (keepLast : Bool) {body : List Stmt} (hb : Stmt.AllBare body) :
    Stmt.AllBare (tidy keepLast body) := by
  have hpruned := Stmt.allBare_reverse.mpr (bare_prune keepLast (bare_reachable (bare_opened hb)))
  unfold tidy
  refine Stmt.allBare_reverse.mpr ?_
  split
  · exact bare_trimmed hpruned
  · exact bare_dropWhile _ hpruned

theorem bare_block {body : List Stmt} (hb : Stmt.AllBare body) (p : Position) :
    (block body p).Bare := by
  unfold block
  split
  · exact Value.wrappers_unit
  · split
    · exact hb
    · exact hb.1
  · exact hb

theorem bare_branch (keepLast : Bool) {c : Expr} {yes no : List Stmt} (hc : c.Bare)
    (hy : Stmt.AllBare yes) (hn : Stmt.AllBare no) (p : Position) :
    Stmt.AllBare (branch keepLast c yes no p) := by
  unfold branch
  split
  · exact ⟨hy, trivial⟩
  · exact ⟨hn, trivial⟩
  · split
    · exact ⟨hc, trivial, trivial⟩
    · exact ⟨hc, trivial⟩
  · exact ⟨⟨hc, hy, hn⟩, trivial⟩

theorem bare_assignment {target value : Expr} (op : Option Operator) (ht : target.Bare)
    (hv : value.Bare) (p : Position) : (assignment target op value p).Bare := by
  unfold assignment
  split
  · split
    · exact ⟨ht, hv.2⟩
    · exact ⟨ht, hv⟩
  · exact ⟨ht, hv⟩

/-! The whole of a script. -/

/-- A statement that defines a constant makes its value known. -/
theorem Known.Bare.after {known : Known} (hk : known.Bare) {now : List Stmt} :
    Stmt.AllBare now → Known.Bare (match now with
      | [.define name (.const v _) true _] => (name, some v) :: known
      | [.define name _ _ _] => (name, none) :: known
      | _ => known) := by
  intro hn
  split
  · exact hk.cons _ fun _ hw => Option.some.inj hw ▸ hn.1
  · exact hk.cons _ nofun
  · exact hk

section

variable (limits : Limits)

mutual

theorem bare_expr {known : Known} (hk : known.Bare) : (e : Expr) → e.Bare →
    (expr limits known e).Bare
  | .const v p, he => by rwa [expr]
  | .template parts p, he => by
    rw [expr]
    exact bare_template (bare_exprs hk parts he) p
  | .array items p, he => by
    have hitems := bare_exprs hk items he
    rw [expr]
    split
    · rename_i hv
      exact wrappersOf_of_literals? hitems hv
    · exact hitems
  | .map entries p, he => by
    have hentries := bare_fields hk entries he
    rw [expr]
    split
    · rename_i hv
      exact wrappersOfEntries_of_literalEntries? hentries hv
    · exact hentries
  | .ref name p, he => by
    rw [expr]
    split
    · rename_i hv
      exact hk _ _ (List.mem_of_find?_eq_some hv)
    · exact he
  | .moduleRef path name s p, he => by rwa [expr]
  | .call name args p, he => by
    have hargs := bare_exprs hk args he
    unfold expr
    split
    · exact Value.wrappers_string _
    · exact hargs
  | .moduleCall path name args s p, he => by
    rw [expr]
    exact bare_exprs hk args he
  | .negate e p, he => by
    rw [expr]
    exact bare_expr hk e he
  | .affirm e p, he => by
    rw [expr]
    exact bare_expr hk e he
  | .invert e p, he => by
    rw [expr]
    exact bare_expr hk e he
  | .binary op l r p, he => by
    rw [expr]
    exact bare_binary limits op (bare_expr hk l he.1) (bare_expr hk r he.2) p
  | .allOf es p, he => by
    rw [expr]
    exact bare_allOf (bare_exprs hk es he) p
  | .anyOf es p, he => by
    rw [expr]
    exact bare_anyOf (bare_exprs hk es he) p
  | .firstOf es p, he => by
    rw [expr]
    exact bare_firstOf (bare_exprs hk es he) p
  | .member c i p, he => by
    rw [expr]
    exact ⟨bare_expr hk c he.1, bare_expr hk i he.2⟩
  | .chain root ls, he => by
    have hroot := bare_expr hk root he.1
    have hlinks := bare_links hk ls he.2
    unfold expr
    split <;> rename_i heq <;> cases heq
    · exact ⟨trivial, hlinks⟩
    · rw [links] at hlinks
      extract_lets root' l'
      cases he : element? root' l' with
      | some e => exact bare_element? hroot he
      | none => exact ⟨hroot, hlinks⟩
    · exact ⟨hroot, hlinks⟩
  | .block body p, he => by
    rw [expr]
    exact bare_block (bare_tidy true (bare_stmts true hk body he)) p

theorem bare_exprs {known : Known} (hk : known.Bare) : (es : List Expr) → Expr.AllBare es →
    Expr.AllBare (exprs limits known es)
  | [], _ => by
    rw [exprs]
    trivial
  | e :: r, he => by
    rw [exprs]
    exact ⟨bare_expr hk e he.1, bare_exprs hk r he.2⟩

theorem bare_fields {known : Known} (hk : known.Bare) : (es : List (String × Expr)) →
    Expr.EntriesBare es → Expr.EntriesBare (fields limits known es)
  | [], _ => by
    rw [fields]
    trivial
  | (k, e) :: r, he => by
    rw [fields]
    exact ⟨bare_expr hk e he.1, bare_fields hk r he.2⟩

theorem bare_link {known : Known} (hk : known.Bare) : (l : Link) → l.Bare →
    (link limits known l).Bare
  | .property name p j, hl => by rwa [link]
  | .method name args p j, hl => by
    rw [link]
    exact bare_exprs hk args hl
  | .index key j, hl => by
    rw [link]
    exact bare_expr hk key hl

theorem bare_links {known : Known} (hk : known.Bare) : (ls : List Link) → Link.AllBare ls →
    Link.AllBare (links limits known ls)
  | [], _ => by
    rw [links]
    trivial
  | l :: r, hl => by
    rw [links]
    exact ⟨bare_link hk l hl.1, bare_links hk r hl.2⟩

theorem bare_target {known : Known} (hk : known.Bare) : (e : Expr) → e.Bare →
    (target limits known e).Bare
  | .chain root ls, he => by
    rw [target]
    exact ⟨he.1, bare_links hk ls he.2⟩
  | .const .., he | .template .., he | .array .., he | .map .., he | .ref .., he
  | .moduleRef .., he | .call .., he | .moduleCall .., he | .negate .., he | .affirm .., he
  | .invert .., he | .binary .., he | .allOf .., he | .anyOf .., he | .firstOf .., he
  | .member .., he | .block .., he => by
    rw [target]
    · exact he
    · simp

theorem bare_stmt (keepLast : Bool) {known : Known} (hk : known.Bare) : (s : Stmt) → s.Bare →
    Stmt.AllBare (stmt limits keepLast known s)
  | .expr e, hs => by
    have he := bare_expr hk e hs
    rw [stmt]
    split
    · rename_i hblock
      rw [hblock] at he
      exact ⟨he, trivial⟩
    · exact ⟨he, trivial⟩
  | .define name e constant p, hs => by
    rw [stmt]
    exact ⟨bare_expr hk e hs, trivial⟩
  | .assign e op v p, hs => by
    rw [stmt]
    exact ⟨bare_assignment op (bare_target hk e hs.1) (bare_expr hk v hs.2) p, trivial⟩
  | .branch c yes no p, hs => by
    rw [stmt]
    exact bare_branch keepLast (bare_expr hk c hs.1)
      (bare_tidy keepLast (bare_stmts keepLast hk yes hs.2.1))
      (bare_tidy keepLast (bare_stmts keepLast hk no hs.2.2)) p
  | .loop none body p q, hs => by
    rw [stmt]
    exact ⟨bare_tidy false (bare_stmts false hk body hs), trivial⟩
  | .loop (some c) body p q, hs => by
    have hc := bare_expr hk c hs.1
    have hb := bare_tidy false (bare_stmts false hk body hs.2)
    rw [stmt]
    split
    · exact ⟨trivial, trivial⟩
    · exact ⟨hb, trivial⟩
    · exact ⟨⟨hc, hb⟩, trivial⟩
  | .each name counter source body p, hs => by
    have hinner : Known.Bare ((name, none) :: (counter.toList.map (·, none) ++ known)) :=
      (hk.append _).cons _ nofun
    rw [stmt]
    exact ⟨⟨bare_expr hk source hs.1, bare_tidy false (bare_stmts false hinner body hs.2)⟩, trivial⟩
  | .leave none p, _ => by
    rw [stmt]
    exact ⟨trivial, trivial⟩
  | .leave (some e) p, hs => by
    rw [stmt]
    exact ⟨bare_expr hk e hs, trivial⟩
  | .skip p, _ => by
    rw [stmt]
    exact ⟨trivial, trivial⟩
  | .give none p, _ => by
    rw [stmt]
    exact ⟨trivial, trivial⟩
  | .give (some e) p, hs => by
    rw [stmt]
    exact ⟨bare_expr hk e hs, trivial⟩
  | .throw none p, _ => by
    rw [stmt]
    exact ⟨trivial, trivial⟩
  | .throw (some e) p, hs => by
    rw [stmt]
    exact ⟨bare_expr hk e hs, trivial⟩
  | .attempt body name handler p, hs => by
    have hb := bare_tidy false (bare_stmts false hk body hs.1)
    have hh := bare_tidy false (bare_stmts false (hk.append name.toList) handler hs.2)
    rw [stmt]
    split
    · exact ⟨hb, trivial⟩
    · exact ⟨⟨hb, hh⟩, trivial⟩
  | .block body p, hs => by
    rw [stmt]
    exact ⟨bare_tidy keepLast (bare_stmts keepLast hk body hs), trivial⟩

theorem bare_stmts (keepLast : Bool) {known : Known} (hk : known.Bare) : (body : List Stmt) →
    Stmt.AllBare body → Stmt.AllBare (stmts limits keepLast known body)
  | [], _ => by
    rw [stmts]
    trivial
  | s :: r, hb => by
    have hnow := bare_stmt keepLast hk s hb.1
    rw [stmts]
    exact Stmt.allBare_append.mpr ⟨hnow, bare_stmts keepLast (hk.after hnow) r hb.2⟩

end

end

end Fold

/-- The simplified body of a script. -/
theorem Listing.bare_simplifiedBody {limits : Limits} {known : Fold.Known} (hk : known.Bare)
    (isPrivate : Bool) {body : List Stmt} (hb : Stmt.AllBare body) :
    Stmt.AllBare (simplifiedBody limits known isPrivate body) := by
  have hpruned := Stmt.allBare_reverse.mpr (Fold.bare_prune true (Fold.bare_reachable
    (Fold.bare_opened (Fold.bare_stmts limits true hk body hb))))
  unfold simplifiedBody
  refine Stmt.allBare_reverse.mpr (Fold.bare_returning ?_)
  split
  · exact Fold.bare_trimmed hpruned
  · exact hpruned

end EditorScripting.Script
