import EditorScripting.Proofs.Script.Bare
import EditorScripting.Script.Parser

/-!
What the parser reads. A text can write no wrapper down: the literals in the code that is read from
it hold none.
-/
namespace EditorScripting.Script.Parser

variable {α β : Type} {P : α → Prop} {Q : β → Prop}

/-- What is read has the property, if anything is. -/
def Reads (P : α → Prop) (p : Parse α) : Prop := ∀ s a s', p.run s = .ok (a, s') → P a

namespace Reads

theorem pure {a : α} (h : P a) : Reads P (Pure.pure a) := fun _ _ _ hr => by
  cases hr
  exact h

theorem fail {c : Complaint} {p : Position} : Reads P (fail c p) := fun _ _ _ hr => by
  cases hr

theorem bind {p : Parse α} {f : α → Parse β} (hp : Reads P p) (hf : ∀ a, P a → Reads Q (f a)) :
    Reads Q (p >>= f) := fun s b s' hr => by
  rw [StateT.run_bind] at hr
  cases ha : p.run s with
  | error e =>
    rw [ha] at hr
    cases hr
  | ok r =>
    rw [ha] at hr
    exact hf r.1 (hp s r.1 r.2 ha) r.2 b s' hr

/-- It does not matter what has been read before. -/
theorem andThen {p : Parse α} {f : α → Parse β} (hf : ∀ a, Reads Q (f a)) : Reads Q (p >>= f) :=
  bind (P := fun _ => True) (fun _ _ _ _ => trivial) fun a _ => hf a

theorem inScope {p : Parse α} (hp : Reads P p) : Reads P (inScope p) :=
  andThen fun _ => hp.bind fun _ ha => andThen fun _ => .pure ha

end Reads

theorem bare_chained {root : Expr} {links : List Link} (hr : root.Bare)
    (hl : Link.AllBare links) : (chained root links).Bare := by
  unfold chained
  split
  · exact hr
  · exact ⟨hr, hl⟩
  · rename_i inner found _ _
    extract_lets isIndex
    have hfound : Link.AllBare found := hr.2
    have hindices : Link.AllBare (found.takeWhile isIndex).reverse :=
      Link.allBare_reverse.mpr (Link.allBare_iff.mpr fun l hl =>
        Link.allBare_iff.mp hfound l (List.takeWhile_subset _ hl))
    have hrest : Link.AllBare (found.dropWhile isIndex) :=
      Link.allBare_iff.mpr fun l hl =>
        Link.allBare_iff.mp hfound l ((List.dropWhile_suffix _).subset hl)
    split
    · exact ⟨hr, hl⟩
    · exact ⟨hr.1, Link.allBare_append.mpr ⟨hfound, hl⟩⟩
    · rename_i hfirst _
      rw [hfirst] at hindices
      refine ⟨hr.1, Link.allBare_append.mpr ⟨Link.allBare_reverse.mpr hindices.2, ?_⟩⟩
      exact ⟨⟨hindices.1, hrest⟩, hl⟩
    · exact ⟨hr, hl⟩
  · exact ⟨hr, hl⟩

theorem bare_joined {operands? : Expr → Option (List Expr × Position)}
    {join : List Expr → Position → Expr}
    (hoperands : ∀ e es p, e.Bare → operands? e = some (es, p) → Expr.AllBare es)
    (hjoin : ∀ es p, Expr.AllBare es → (join es p).Bare) {left right : Expr} (hl : left.Bare)
    (hr : right.Bare) (p : Position) : (joined operands? join left right p).Bare := by
  unfold joined
  split
  · rename_i es q he
    exact hjoin _ _ (Expr.allBare_append.mpr ⟨hoperands _ _ _ hl he, hr, trivial⟩)
  · exact hjoin _ _ ⟨hl, hr, trivial⟩

theorem bare_conjunction {left right : Expr} (hl : left.Bare) (hr : right.Bare) (p : Position) :
    (conjunction left right p).Bare := by
  refine bare_joined (fun e es q he h => ?_) (fun _ _ (h : Expr.AllBare _) => ?_) hl hr p
  · split at h <;> cases h
    exact he
  · exact h

theorem bare_disjunction {left right : Expr} (hl : left.Bare) (hr : right.Bare) (p : Position) :
    (disjunction left right p).Bare := by
  refine bare_joined (fun e es q he h => ?_) (fun _ _ (h : Expr.AllBare _) => ?_) hl hr p
  · split at h <;> cases h
    exact he
  · exact h

theorem bare_fallback {left right : Expr} (hl : left.Bare) (hr : right.Bare) (p : Position) :
    (fallback left right p).Bare := by
  refine bare_joined (fun e es q he h => ?_) (fun _ _ (h : Expr.AllBare _) => ?_) hl hr p
  · split at h <;> cases h
    exact he
  · exact h

theorem reads_ensureBool {e : Expr} (he : e.Bare) : Reads Expr.Bare (ensureBool e) := by
  unfold ensureBool
  split
  · exact .fail
  · exact .pure he

theorem reads_ensureIterable {e : Expr} (he : e.Bare) : Reads Expr.Bare (ensureIterable e) := by
  unfold ensureIterable
  split
  · exact .fail
  · exact .pure he

/-- What leaves a loop or a function takes a value along. -/
theorem bare_ends {value : Option Expr} (hv : ∀ e ∈ value, e.Bare) (p : Position) :
    (Stmt.leave value p).Bare ∧ (Stmt.give value p).Bare ∧ (Stmt.throw value p).Bare := by
  cases value with
  | none => exact ⟨trivial, trivial, trivial⟩
  | some e => exact ⟨hv e rfl, hv e rfl, hv e rfl⟩

/-- With `n` levels of fuel, the parser reads code without wrappers. -/
structure AllRead (n : Nat) : Prop where
  expression : ∀ c level, Reads Expr.Bare (expression n c level)
  unary : ∀ c level, Reads Expr.Bare (unary n c level)
  binary : ∀ c level last strength {left}, left.Bare →
    Reads Expr.Bare (binary n c level last strength left)
  primary : ∀ c level, Reads Expr.Bare (primary n c level)
  operand : ∀ c level, Reads Expr.Bare (operand n c level)
  named : ∀ c level path name start p, Reads Expr.Bare (named n c level path name start p)
  links : ∀ c level root done, Link.AllBare done →
    Reads Link.AllBare (links n c level root done)
  member : ∀ c level joint, Reads Link.AllBare (member n c level joint)
  arguments : ∀ c level name p, Reads Expr.AllBare (arguments n c level name p)
  moreArguments : ∀ c level name done, Expr.AllBare done →
    Reads Expr.AllBare (moreArguments n c level name done)
  indices : ∀ c level container joint done, Link.AllBare done →
    Reads Link.AllBare (indices n c level container joint done)
  items : ∀ c level p done count, Expr.AllBare done →
    Reads Expr.AllBare (items n c level p done count)
  entries : ∀ c level p done count, Expr.EntriesBare done →
    Reads Expr.EntriesBare (entries n c level p done count)
  pieces : ∀ c level p done, Expr.AllBare done → Reads Expr.AllBare (pieces n c level p done)
  conditional : ∀ c level outer, Reads Stmt.Bare (conditional n c level outer)
  loop : ∀ c level, Reads Stmt.Bare (loop n c level)
  block : ∀ c level construct, Reads (fun b => Stmt.AllBare b.1) (block n c level construct)
  statements : ∀ c level done, Stmt.AllBare done →
    Reads Stmt.AllBare (statements n c level done)
  simpleStatement : ∀ c level, Reads Stmt.Bare (simpleStatement n c level)
  statement : ∀ c level, Reads (fun s => ∀ t ∈ s, t.Bare) (statement n c level)
  result : ∀ c level p, Reads (fun e => ∀ f ∈ e, f.Bare) (result n c level p)
  variableDefinition : ∀ c level constant, Reads Stmt.Bare (variableDefinition n c level constant)
  loopOver : ∀ c level p, Reads Stmt.Bare (loopOver n c level p)

theorem allRead_zero : AllRead 0 := by
  constructor <;> intros <;>
    simp only [expression, unary, binary, primary, operand, named, links, member, arguments,
      moreArguments, indices, items, entries, pieces, conditional, loop, block, statements,
      simpleStatement, statement, result, variableDefinition, loopOver] <;>
    exact .fail

namespace AllRead

variable {n : Nat} (h : AllRead n)
include h

theorem expression_succ (c : Context) (level : Nat) :
    Reads Expr.Bare (Parser.expression (n + 1) c level) := by
  rw [Parser.expression]
  exact .andThen fun _ => .andThen fun _ => (h.unary _ _).bind fun _ he => h.binary _ _ _ _ he

theorem unary_succ (c : Context) (level : Nat) :
    Reads Expr.Bare (Parser.unary (n + 1) c level) := by
  rw [Parser.unary]
  refine .andThen fun l => ?_
  split
  · refine .andThen fun _ => .andThen fun _ => (h.unary _ _).bind fun e he => ?_
    split
    · split <;> exact .pure rfl
    · exact .pure rfl
    · exact .pure he
  split
  · refine .andThen fun _ => .andThen fun _ => (h.unary _ _).bind fun e he => ?_
    split <;> exact .pure he
  split
  · exact .andThen fun _ => .andThen fun _ => (h.unary _ _).bind fun e he => .pure he
  split
  · exact .pure rfl
  · exact h.primary _ _

theorem binary_succ (c : Context) (level : Nat) (last : Position) (strength : Nat) {left : Expr}
    (hl : left.Bare) : Reads Expr.Bare (Parser.binary (n + 1) c level last strength left) := by
  rw [Parser.binary]
  refine .andThen fun l => .andThen fun s => ?_
  extract_lets rightward isRange
  split
  · exact .pure hl
  split
  · exact .pure hl
  rename_i op _
  refine .andThen fun _ => ?_
  -- the right operand may go on with operators that bind more strongly before it is combined
  extract_lets combine follow
  have hcombine : ∀ right, right.Bare → Reads Expr.Bare (combine right) := by
    intro right hr
    refine .andThen fun level => ?_
    have hrest : ∀ e : Expr, e.Bare → Reads Expr.Bare (do
        let e ← Pure.pure e
        Parser.binary n c level l.position strength e) := fun e he =>
      (Reads.pure he).bind fun _ he => h.binary _ _ _ _ he
    extract_lets rest
    cases op with
    | plain op => exact hrest _ ⟨hl, hr⟩
    | both =>
      exact (reads_ensureBool hr).bind fun _ hr => (reads_ensureBool hl).bind fun _ hl =>
        hrest _ (bare_conjunction hl hr _)
    | either =>
      exact (reads_ensureBool hr).bind fun _ hr => (reads_ensureBool hl).bind fun _ hl =>
        hrest _ (bare_disjunction hl hr _)
    | orElse => exact hrest _ (bare_fallback hl hr _)
    | member => exact hrest _ ⟨hr, hl⟩
    | notMember => exact hrest _ ⟨hr, hl⟩
  have hfollow : ∀ right, right.Bare → Reads Expr.Bare (follow right) := by
    intro right hr
    refine .andThen fun _ => .andThen fun next => ?_
    split
    · exact .andThen fun _ => (h.binary _ _ _ _ hr).bind hcombine
    · exact (Reads.pure hr).bind hcombine
  refine .andThen fun _ => ?_
  split
  · have hlast : Expr.Bare (.const (.int maxInt) l.position) := rfl
    exact (Reads.pure hlast).bind hfollow
  · exact (h.unary _ _).bind hfollow

theorem primary_succ (c : Context) (level : Nat) :
    Reads Expr.Bare (Parser.primary (n + 1) c level) := by
  rw [Parser.primary]
  exact (h.operand _ _).bind fun e he => (h.links _ _ _ [] trivial).bind fun _ hl =>
    .pure (bare_chained he hl)

theorem operand_succ (c : Context) (level : Nat) :
    Reads Expr.Bare (Parser.operand (n + 1) c level) := by
  have hliteral (v : Value) (p : Position) (hv : v.wrappers = 0) : Reads Expr.Bare (do
      discard advance
      return .const v p) := .andThen fun _ => .pure hv
  have hloop (p : Position) : Reads Expr.Bare (do
      return .block [← Parser.loop n c (← deeper c level p)] p) :=
    .andThen fun _ => (h.loop _ _).bind fun _ hs => .pure ⟨hs, trivial⟩
  rw [Parser.operand]
  refine .andThen fun l => ?_
  dsimp only
  split
  · exact .fail
  -- literals
  · exact hliteral _ _ rfl
  · exact hliteral _ _ rfl
  · exact hliteral _ _ rfl
  · exact hliteral _ _ rfl
  · exact hliteral _ _ rfl
  · exact hliteral _ _ rfl
  · exact hliteral _ _ rfl
  -- something between brackets
  · refine .andThen fun _ => .andThen fun _ => .andThen fun closed => ?_
    split
    · exact .pure rfl
    · exact (h.expression _ _).bind fun _ he => .andThen fun _ => .pure he
  · exact .andThen fun _ => .andThen fun _ => (h.items _ _ _ [] _ trivial).bind fun _ hi => .pure hi
  · exact .andThen fun _ => .andThen fun _ => (h.entries _ _ _ [] _ trivial).bind fun _ he =>
      .pure he
  · refine .andThen fun _ => .andThen fun _ => (h.pieces _ _ _ _ ?_).bind fun _ hp => .pure hp
    split
    · trivial
    · exact ⟨rfl, trivial⟩
  -- statements that have a value
  · exact .andThen fun _ => (h.conditional _ _ _).bind fun _ hs => .pure ⟨hs, trivial⟩
  · split
    · exact .fail
    · exact hloop _
  · split
    · exact .fail
    · exact hloop _
  · split
    · exact .fail
    · exact hloop _
  · split
    · exact .fail
    · exact .andThen fun _ => (h.block _ _ _).bind fun _ hb => .pure hb
  -- names
  · exact .andThen fun _ => .andThen fun _ => .fail
  · exact .andThen fun _ => h.named _ _ _ _ _ _
  · refine .andThen fun _ => .andThen fun _ => ?_
    split
    · exact h.named _ _ _ _ _ _
    split
    · split
      · exact .pure trivial
      · exact .fail
    · exact .fail
  · exact .fail
  · exact .fail

theorem named_succ (c : Context) (level : Nat) (path : List String) (name : String)
    (start p : Position) : Reads Expr.Bare (Parser.named (n + 1) c level path name start p) := by
  rw [Parser.named]
  refine .andThen fun l => ?_
  split
  · exact .andThen fun _ => .andThen fun _ => h.named _ _ _ _ _ _
  · refine (h.arguments _ _ _ _).bind fun _ ha => .pure ?_
    split <;> exact ha
  · refine (h.arguments _ _ _ _).bind fun _ ha => .pure ?_
    split <;> exact ha
  · split
    · exact (h.arguments _ _ _ _).bind fun _ ha => .pure ha
    · refine .andThen fun _ => .andThen fun _ => ?_
      dsimp only
      split <;> exact .fail
  · refine .pure ?_
    split <;> trivial

theorem links_succ (c : Context) (level : Nat) (root : Option Expr) {done : List Link}
    (hd : Link.AllBare done) :
    Reads Link.AllBare (Parser.links (n + 1) c level root done) := by
  have hmore : ∀ found, Link.AllBare found →
      Reads Link.AllBare (Parser.links n c level none (done ++ found)) :=
    fun _ hl => h.links _ _ _ _ (Link.allBare_append.mpr ⟨hd, hl⟩)
  rw [Parser.links]
  refine .andThen fun l => ?_
  dsimp only
  split
  · exact .andThen fun _ => (h.member _ _ _).bind hmore
  · exact .andThen fun _ => (h.member _ _ _).bind hmore
  · exact .andThen fun _ => .andThen fun _ => (h.indices _ _ _ _ [] trivial).bind hmore
  · exact .andThen fun _ => .andThen fun _ => (h.indices _ _ _ _ [] trivial).bind hmore
  · exact .pure hd

theorem member_succ (c : Context) (level : Nat) (joint : Joint) :
    Reads Link.AllBare (Parser.member (n + 1) c level joint) := by
  rw [Parser.member]
  refine .andThen fun l => ?_
  extract_lets p name rest
  have hmethod : ∀ level args, Expr.AllBare args →
      Reads Link.AllBare (Parser.links n c level none [.method name args p joint]) :=
    fun _ _ ha => h.links _ _ _ _ ⟨ha, trivial⟩
  have hrest : ∀ u, Reads Link.AllBare (rest u) := by
    intro u
    refine .andThen fun level => .andThen fun _ => .andThen fun _ => ?_
    split
    · exact (h.arguments _ _ _ _).bind fun _ ha => hmethod _ _ ha
    · exact (h.arguments _ _ _ _).bind fun _ ha => hmethod _ _ ha
    · refine (h.arguments _ _ _ _).bind fun _ ha => (hmethod _ _ ha).bind fun _ hl => ?_
      split
      · exact .fail
      · exact .pure hl
    · exact .fail
    · exact .fail
    · exact h.links _ _ _ [.property name p joint] ⟨trivial, trivial⟩
  split
  · exact hrest ()
  · split
    · exact .andThen hrest
    · exact hrest ()
  · exact .andThen hrest

theorem arguments_succ (c : Context) (level : Nat) (name : String) (p : Position) :
    Reads Expr.AllBare (Parser.arguments (n + 1) c level name p) := by
  rw [Parser.arguments]
  refine .andThen fun _ => ?_
  extract_lets rest
  have hrest : ∀ u, Reads Expr.AllBare (rest u) := by
    intro u
    refine .andThen fun _ => ?_
    split
    · exact .pure trivial
    refine .andThen fun _ => .andThen fun l => ?_
    split
    · exact .fail
    · exact .fail
    refine .andThen fun _ => ?_
    split
    · exact .pure trivial
    · exact .andThen fun _ => h.moreArguments _ _ _ [] trivial
  split
  · refine .andThen fun l => ?_
    split
    · exact hrest ()
    · exact .andThen hrest
  · exact hrest ()

theorem moreArguments_succ (c : Context) (level : Nat) (name : String) {done : List Expr}
    (hd : Expr.AllBare done) :
    Reads Expr.AllBare (Parser.moreArguments (n + 1) c level name done) := by
  rw [Parser.moreArguments]
  refine .andThen fun _ => ?_
  extract_lets rest
  have hrest : ∀ done, Expr.AllBare done → Reads Expr.AllBare (rest done) := by
    intro done hd
    refine .andThen fun l => .andThen fun _ => ?_
    split
    · exact .pure (Expr.allBare_reverse.mpr hd)
    refine .andThen fun _ => ?_
    split
    · exact h.moreArguments _ _ _ _ hd
    split <;> exact .fail
  split
  · exact (Reads.pure hd).bind hrest
  · exact (h.expression _ _).bind fun _ he => (Reads.pure ⟨he, hd⟩).bind hrest

theorem indices_succ (c : Context) (level : Nat) (container : Option Expr) (joint : Joint)
    {done : List Link} (hd : Link.AllBare done) :
    Reads Link.AllBare (Parser.indices (n + 1) c level container joint done) := by
  rw [Parser.indices]
  refine .andThen fun _ => (h.expression _ _).bind fun key hk => ?_
  split
  · exact .fail
  refine .andThen fun _ => .andThen fun l => ?_
  split
  · exact .andThen fun _ => .andThen fun _ => h.indices _ _ _ _ _ ⟨hk, hd⟩
  · exact .pure (Link.allBare_reverse.mpr ⟨hk, hd⟩)

theorem items_succ (c : Context) (level : Nat) (p : Position) {done : List Expr} (count : Nat)
    (hd : Expr.AllBare done) :
    Reads Expr.AllBare (Parser.items (n + 1) c level p done count) := by
  rw [Parser.items]
  refine .andThen fun l => ?_
  split
  · exact .fail
  refine .andThen fun closed => ?_
  split
  · exact .pure (Expr.allBare_reverse.mpr hd)
  split
  · exact .fail
  refine .andThen fun _ => (h.expression _ _).bind fun e he => .andThen fun m => ?_
  split
  · exact .andThen fun _ => h.items _ _ _ _ _ ⟨he, hd⟩
  · exact h.items _ _ _ _ _ ⟨he, hd⟩
  · exact .fail
  · exact .fail
  · exact .fail

theorem entries_succ (c : Context) (level : Nat) (p : Position) {done : List (String × Expr)}
    (count : Nat) (hd : Expr.EntriesBare done) :
    Reads Expr.EntriesBare (Parser.entries (n + 1) c level p done count) := by
  rw [Parser.entries]
  refine .andThen fun l => ?_
  extract_lets named
  have hnamed : ∀ name, Reads Expr.EntriesBare (named name) := by
    intro name
    dsimp -zeta only [named]
    extract_lets entry within distinct
    have hentry : ∀ u, Reads Expr.EntriesBare (entry u) := by
      intro u
      refine .andThen fun _ => (h.expression _ _).bind fun e he => .andThen fun m => ?_
      have hmore := h.entries c level p ((name, e) :: done) (count + 1) ⟨he, hd⟩
      split
      · exact .andThen fun _ => hmore
      · exact hmore
      · exact .fail
      · exact .fail
      · exact .fail
    have hwithin : ∀ u, Reads Expr.EntriesBare (within u) := by
      intro u
      dsimp only [within]
      split
      · exact .andThen fun _ => .andThen hentry
      · exact hentry ()
    have hdistinct : ∀ u, Reads Expr.EntriesBare (distinct u) := by
      intro u
      refine .andThen fun m => ?_
      split
      · exact hwithin ()
      · exact .andThen hwithin
      · exact .andThen hwithin
    split
    · exact .andThen hdistinct
    · exact hdistinct ()
  split
  · exact .pure (Expr.entriesBare_reverse.mpr hd)
  · exact .fail
  · exact hnamed _
  · exact hnamed _
  · exact .fail
  · exact .fail
  · split
    · exact .fail
    split <;> exact .fail
  · split <;> exact .fail

theorem pieces_succ (c : Context) (level : Nat) (p : Position) {done : List Expr}
    (hd : Expr.AllBare done) :
    Reads Expr.AllBare (Parser.pieces (n + 1) c level p done) := by
  rw [Parser.pieces]
  refine (h.block _ _ _).bind fun b hb => ?_
  have hblock : Expr.AllBare (done ++ [.block b.1 b.2]) :=
    Expr.allBare_append.mpr ⟨hd, hb, trivial⟩
  have htext (s : String) (q : Position) : Expr.AllBare (if s.isEmpty then done ++ [.block b.1 b.2]
      else done ++ [.block b.1 b.2] ++ [.const (.string s) q]) := by
    split
    · exact hblock
    · exact Expr.allBare_append.mpr ⟨hblock, rfl, trivial⟩
  refine .andThen fun l => ?_
  split
  · exact .pure (htext _ _)
  · exact h.pieces _ _ _ _ (htext _ _)
  · exact .fail
  · exact .fail

theorem conditional_succ (c : Context) (level : Nat) (outer : Position) :
    Reads Stmt.Bare (Parser.conditional (n + 1) c level outer) := by
  rw [Parser.conditional]
  refine .andThen fun level => .andThen fun l => .andThen fun _ => ?_
  refine (h.expression _ _).bind fun e he => (reads_ensureBool he).bind fun condition hc => ?_
  refine .andThen fun _ => (h.block _ _ _).bind fun yes hy => .andThen fun _ => ?_
  split
  · refine .andThen fun _ => .andThen fun _ => ?_
    split
    · exact (h.conditional _ _ _).bind fun _ hno => .pure ⟨hc, hy, hno, trivial⟩
    · exact (h.block _ _ _).bind fun _ hno => .pure ⟨hc, hy, hno⟩
  · exact .pure ⟨hc, hy, trivial⟩

theorem loop_succ (c : Context) (level : Nat) :
    Reads Stmt.Bare (Parser.loop (n + 1) c level) := by
  rw [Parser.loop]
  refine .andThen fun l => .andThen fun level => .andThen fun _ => ?_
  split
  · exact h.loopOver _ _ _
  split
  · refine .andThen fun _ => (h.expression _ _).bind fun e he => ?_
    refine (reads_ensureBool he).bind fun condition hc => .andThen fun _ => ?_
    exact (h.block _ _ _).bind fun _ hb => .pure ⟨hc, hb⟩
  · exact (h.block _ _ _).bind fun _ hb => .pure hb

theorem block_succ (c : Context) (level : Nat) (construct : Position) :
    Reads (fun b => Stmt.AllBare b.1) (Parser.block (n + 1) c level construct) := by
  rw [Parser.block]
  refine .andThen fun p => .andThen fun level => ?_
  split
  · refine (h.simpleStatement _ _).bind fun s hs => .andThen fun l => ?_
    split
    · exact .pure ⟨hs, trivial⟩
    · exact .fail
    · exact .fail
  · exact (Reads.inScope (h.statements _ _ [] trivial)).bind fun _ hb => .pure hb

theorem statements_succ (c : Context) (level : Nat) {done : List Stmt}
    (hd : Stmt.AllBare done) :
    Reads Stmt.AllBare (Parser.statements (n + 1) c level done) := by
  rw [Parser.statements]
  refine .andThen fun l => .andThen fun _ => ?_
  split
  · exact .pure (Stmt.allBare_reverse.mpr hd)
  split
  · exact .fail
  refine (h.statement _ _).bind fun s hs => ?_
  split
  · exact h.statements _ _ _ hd
  have hmore := h.statements c level (_ :: done) ⟨hs _ rfl, hd⟩
  refine .andThen fun m => ?_
  split
  · exact hmore
  refine .andThen fun _ => ?_
  split
  · exact hmore
  split
  · exact hmore
  split <;> exact .fail

theorem simpleStatement_succ (c : Context) (level : Nat) :
    Reads Stmt.Bare (Parser.simpleStatement (n + 1) c level) := by
  rw [Parser.simpleStatement]
  refine (h.expression _ _).bind fun target ht => .andThen fun l => ?_
  split
  · exact .pure ht
  · exact .andThen fun _ => (h.expression _ _).bind fun value hv => .andThen fun _ =>
      .pure ⟨ht, hv⟩

theorem result_succ (c : Context) (level : Nat) (p : Position) :
    Reads (fun e => ∀ f ∈ e, f.Bare) (Parser.result (n + 1) c level p) := by
  rw [Parser.result]
  refine .andThen fun l => ?_
  split
  · exact .pure fun _ hf => (Option.not_mem_none _ hf).elim
  · exact .andThen fun _ => (h.expression _ _).bind fun e he => .pure fun f hf =>
      Option.some.inj hf ▸ he

theorem variableDefinition_succ (c : Context) (level : Nat) (constant : Bool) :
    Reads Stmt.Bare (Parser.variableDefinition (n + 1) c level constant) := by
  rw [Parser.variableDefinition]
  refine .andThen fun l => .andThen fun name => .andThen fun _ => ?_
  extract_lets rest
  have hrest : ∀ value, value.Bare → Reads Stmt.Bare (rest value) := fun value hv =>
    .andThen fun _ => .pure hv
  split
  · exact .andThen fun _ => (h.expression _ _).bind hrest
  · exact (Reads.pure (P := Expr.Bare) (show Expr.Bare (.const .unit .nowhere) from rfl)).bind hrest

theorem loopOver_succ (c : Context) (level : Nat) (p : Position) :
    Reads Stmt.Bare (Parser.loopOver (n + 1) c level p) := by
  rw [Parser.loopOver]
  refine .andThen fun _ => ?_
  extract_lets rest
  have hrest : ∀ names, Reads Stmt.Bare (rest names) := by
    rintro ⟨name, counter⟩
    refine .andThen fun l => ?_
    dsimp only
    split
    · refine .andThen fun _ => (h.expression _ _).bind fun e he => ?_
      refine (reads_ensureIterable he).bind fun source hs => .inScope ?_
      exact .andThen fun _ => .andThen fun _ => (h.block _ _ _).bind fun _ hb => .pure ⟨hs, hb⟩
    · exact .fail
    · exact .fail
  split
  · refine .andThen fun first => .andThen fun _ => .andThen fun second => ?_
    dsimp -zeta only
    extract_lets distinct
    have hdistinct : ∀ u, Reads Stmt.Bare (distinct u) := fun u =>
      .andThen fun _ => .andThen hrest
    split
    · exact .andThen hdistinct
    · exact hdistinct ()
  · exact .andThen fun _ => .andThen hrest

theorem statement_succ (c : Context) (level : Nat) :
    Reads (fun s => ∀ t ∈ s, t.Bare) (Parser.statement (n + 1) c level) := by
  have hnone : Reads (fun s => ∀ t ∈ s, t.Bare) (pure (none : Option Stmt) : Parse _) :=
    .pure fun _ ht => (Option.not_mem_none _ ht).elim
  have hone {s : Stmt} (hs : s.Bare) : Reads (fun s => ∀ t ∈ s, t.Bare) (pure (some s) : Parse _) :=
    .pure fun _ ht => Option.some.inj ht ▸ hs
  have hsome {s : Parse Stmt} (hs : Reads Stmt.Bare s) :
      Reads (fun s => ∀ t ∈ s, t.Bare) (do return some (← s)) :=
    hs.bind fun _ hs => hone hs
  rw [Parser.statement]
  refine .andThen fun l => ?_
  extract_lets p
  split
  · exact hnone
  · exact .andThen fun _ => hnone
  · exact .andThen fun _ => (h.block _ _ _).bind fun _ hb => hone hb
  · split
    · exact .fail
    · exact .andThen fun _ => .andThen fun _ => .andThen fun _ => hnone
  · exact .andThen fun _ => hsome (h.conditional _ _ _)
  · exact .andThen fun _ => hsome (h.loop _ _)
  · exact .andThen fun _ => hsome (h.loop _ _)
  · exact .andThen fun _ => hsome (h.loop _ _)
  · exact .andThen fun _ => hsome (h.variableDefinition _ _ _)
  · exact .andThen fun _ => hsome (h.variableDefinition _ _ _)
  · split
    · exact .andThen fun _ => (h.result _ _ _).bind fun _ he => hone (bare_ends he p).1
    · exact .fail
  · refine .andThen fun _ => ?_
    split
    · exact hone trivial
    · exact .fail
  · exact .andThen fun _ => (h.result _ _ _).bind fun _ he => hone (bare_ends he p).2.1
  · exact .andThen fun _ => (h.result _ _ _).bind fun _ he => hone (bare_ends he p).2.2
  · refine .andThen fun _ => .andThen fun _ => .andThen fun _ => ?_
    refine (h.block _ _ _).bind fun body hb => .andThen fun _ => ?_
    dsimp -zeta only
    split
    · exact .andThen fun _ => .fail
    refine .inScope (.andThen fun _ => ?_)
    extract_lets rest
    have hrest : ∀ name, Reads (fun s => ∀ t ∈ s, t.Bare) (rest name) := fun name =>
      (h.block _ _ _).bind fun _ hh => hone ⟨hb, hh⟩
    split
    · exact .andThen fun _ => .andThen fun _ => .andThen fun _ => .andThen hrest
    · exact .andThen hrest
  · exact .andThen fun _ => hsome (h.simpleStatement _ _)

theorem succ : AllRead (n + 1) where
  expression := h.expression_succ
  unary := h.unary_succ
  binary c level last strength _ := h.binary_succ c level last strength
  primary := h.primary_succ
  operand := h.operand_succ
  named := h.named_succ
  links c level root _ := h.links_succ c level root
  member := h.member_succ
  arguments := h.arguments_succ
  moreArguments c level name _ := h.moreArguments_succ c level name
  indices c level container joint _ := h.indices_succ c level container joint
  items c level p _ := h.items_succ c level p
  entries c level p _ := h.entries_succ c level p
  pieces c level p _ := h.pieces_succ c level p
  conditional := h.conditional_succ
  loop := h.loop_succ
  block := h.block_succ
  statements c level _ := h.statements_succ c level
  simpleStatement := h.simpleStatement_succ
  statement := h.statement_succ
  result := h.result_succ
  variableDefinition := h.variableDefinition_succ
  loopOver := h.loopOver_succ

end AllRead

theorem allRead (n : Nat) : AllRead n := by
  induction n with
  | zero => exact allRead_zero
  | succ n ih => exact ih.succ

end Parser

/-- The literals in an expression that is read from a text hold no wrappers. -/
theorem bare_of_parseExpression {limits : Limits} {constants : List String} {text : String}
    {e : Expr} (he : parseExpression limits constants text = .ok e) : e.Bare := by
  unfold parseExpression at he
  extract_lets tokens c at he
  have hread := (Parser.allRead (Parser.fuelFor tokens)).expression c 0
    ⟨tokens, constants.map (·, true), []⟩
  generalize StateT.run (Parser.expression (Parser.fuelFor tokens) c 0) _ = r at he hread
  cases r with
  | error f => cases he
  | ok r =>
    obtain ⟨found, s⟩ := r
    have hfound : found.Bare := hread found s rfl
    have hend : found = e := by
      rw [show ∀ f : Expr × Parser.State → Except (Complaint × Position) Expr,
        (Except.ok (found, s) >>= f) = f (found, s) from fun _ => rfl] at he
      dsimp only at he
      split at he <;> cases he <;> rfl
    exact hend ▸ hfound

end EditorScripting.Script
