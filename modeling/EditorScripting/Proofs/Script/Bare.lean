import EditorScripting.Proofs.Script.Wrappers

/-!
Code whose literals hold no wrappers.
-/
namespace EditorScripting.Script

mutual

/-- No literal in the expression is a wrapper or holds one. -/
def Expr.Bare : Expr → Prop
  | .const v _ => v.wrappers = 0
  | .template es _ | .array es _ | .call _ es _ | .moduleCall _ _ es _ _ | .allOf es _
  | .anyOf es _ | .firstOf es _ => Expr.AllBare es
  | .map entries _ => Expr.EntriesBare entries
  | .ref _ _ | .moduleRef _ _ _ _ => True
  | .negate e _ | .affirm e _ | .invert e _ => e.Bare
  | .binary _ a b _ | .member a b _ => a.Bare ∧ b.Bare
  | .chain root links => root.Bare ∧ Link.AllBare links
  | .block body _ => Stmt.AllBare body

def Expr.AllBare : List Expr → Prop
  | [] => True
  | e :: r => e.Bare ∧ Expr.AllBare r

def Expr.EntriesBare : List (String × Expr) → Prop
  | [] => True
  | (_, e) :: r => e.Bare ∧ Expr.EntriesBare r

def Link.Bare : Link → Prop
  | .property _ _ _ => True
  | .method _ args _ _ => Expr.AllBare args
  | .index key _ => key.Bare

def Link.AllBare : List Link → Prop
  | [] => True
  | l :: r => l.Bare ∧ Link.AllBare r

def Stmt.Bare : Stmt → Prop
  | .expr e | .define _ e _ _ | .leave (some e) _ | .give (some e) _ | .throw (some e) _ => e.Bare
  | .leave none _ | .skip _ | .give none _ | .throw none _ => True
  | .assign target _ value _ => target.Bare ∧ value.Bare
  | .branch c yes no _ => c.Bare ∧ Stmt.AllBare yes ∧ Stmt.AllBare no
  | .loop (some c) body _ _ => c.Bare ∧ Stmt.AllBare body
  | .loop none body _ _ => Stmt.AllBare body
  | .each _ _ source body _ => source.Bare ∧ Stmt.AllBare body
  | .attempt body _ handler _ => Stmt.AllBare body ∧ Stmt.AllBare handler
  | .block body _ => Stmt.AllBare body

def Stmt.AllBare : List Stmt → Prop
  | [] => True
  | s :: r => s.Bare ∧ Stmt.AllBare r

end

theorem Expr.allBare_iff {es : List Expr} : Expr.AllBare es ↔ ∀ e ∈ es, e.Bare := by
  induction es with
  | nil => simp [Expr.AllBare]
  | cons e es ih => simp [Expr.AllBare, ih]

theorem Expr.entriesBare_iff {es : List (String × Expr)} :
    Expr.EntriesBare es ↔ ∀ e ∈ es, e.2.Bare := by
  induction es with
  | nil => simp [Expr.EntriesBare]
  | cons e es ih => simp [Expr.EntriesBare, ih]

theorem Link.allBare_iff {ls : List Link} : Link.AllBare ls ↔ ∀ l ∈ ls, l.Bare := by
  induction ls with
  | nil => simp [Link.AllBare]
  | cons l ls ih => simp [Link.AllBare, ih]

theorem Stmt.allBare_iff {body : List Stmt} : Stmt.AllBare body ↔ ∀ s ∈ body, s.Bare := by
  induction body with
  | nil => simp [Stmt.AllBare]
  | cons s body ih => simp [Stmt.AllBare, ih]

@[simp] theorem Expr.allBare_append {es fs : List Expr} :
    Expr.AllBare (es ++ fs) ↔ Expr.AllBare es ∧ Expr.AllBare fs := by
  simp [Expr.allBare_iff, or_imp, forall_and]

@[simp] theorem Link.allBare_append {ls ms : List Link} :
    Link.AllBare (ls ++ ms) ↔ Link.AllBare ls ∧ Link.AllBare ms := by
  simp [Link.allBare_iff, or_imp, forall_and]

@[simp] theorem Stmt.allBare_append {body rest : List Stmt} :
    Stmt.AllBare (body ++ rest) ↔ Stmt.AllBare body ∧ Stmt.AllBare rest := by
  simp [Stmt.allBare_iff, or_imp, forall_and]

@[simp] theorem Expr.allBare_reverse {es : List Expr} :
    Expr.AllBare es.reverse ↔ Expr.AllBare es := by simp [Expr.allBare_iff]

@[simp] theorem Expr.entriesBare_reverse {es : List (String × Expr)} :
    Expr.EntriesBare es.reverse ↔ Expr.EntriesBare es := by simp [Expr.entriesBare_iff]

@[simp] theorem Link.allBare_reverse {ls : List Link} :
    Link.AllBare ls.reverse ↔ Link.AllBare ls := by simp [Link.allBare_iff]

@[simp] theorem Stmt.allBare_reverse {body : List Stmt} :
    Stmt.AllBare body.reverse ↔ Stmt.AllBare body := by simp [Stmt.allBare_iff]

end EditorScripting.Script
