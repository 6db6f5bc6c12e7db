import EditorScripting.Proofs.Script.Owns

/-!
Operators, calls of functions that are not defined by the script, and chains: what they take, they
give back or put into their result.
-/
namespace EditorScripting.Script

open Host

attribute [local grind =] Multiset.le_iff_count Multiset.count_add

variable {κ : Type} {uses : κ → List Handle}

/-- A command names wrappers only that stand in the arguments it is made from, and the script
defines no functions. -/
structure Environment.Lends (uses : κ → List Handle) (env : Environment κ) : Prop where
  definitions : env.definitions = []
  moduleFunction : ∀ {name args c}, env.moduleFunction name args = some c →
    ∀ h ∈ uses c, h ∈ Value.wrappersOf args
  function : ∀ {name args c}, env.function name args = some c →
    ∀ h ∈ uses c, h ∈ Value.wrappersOf args
  property : ∀ {name h c}, env.property name h = some c → ∀ g ∈ uses c, g = h
  describe : ∀ {h c}, env.describe h = some c → ∀ g ∈ uses c, g = h

namespace Eval

open Value (wrappersOf wrappersOfEntries)

variable {α : Type} {env : Environment κ} (hl : env.Lends uses)

/-! Printing. -/

theorem trades_check {need : Multiset Handle} {v : Value} {p : Position} :
    Trades uses (v.wrappers + need) (ofExcept p (env.limits.check v))
      (fun v => v.wrappers + need) need :=
  .ofExcept (plain_check _ _) (fun _ hw => Limits.eq_of_check hw ▸ le_rfl)
    (Multiset.le_add_left _ _)

theorem borrows_checkReceiver (v : Value) (p : Position) :
    Borrows uses 0 (checkReceiver env v p) := by
  have hcheck : Borrows uses 0 (discard (ofExcept p (env.limits.check v)) : Eval κ Unit) :=
    .discard (.ofExcept (plain_check _ _) (fun _ _ => le_rfl) le_rfl)
  unfold checkReceiver
  split
  · exact hcheck
  · exact hcheck
  · exact .pure le_rfl

theorem borrows_textOr {need : Multiset Handle} {substitute : String} {text : Eval κ String}
    (h : Borrows uses need text) : Borrows uses need (textOr env substitute text) := by
  refine (Trades.outcome h).bind fun r => ?_
  cases r with
  | error i => exact .pure (Multiset.le_add_left _ _)
  | ok s =>
    dsimp only
    split <;> exact .pure le_rfl

theorem borrows_element {depth : Nat} {v : Value} {text : Eval κ String}
    (h : Borrows uses v.wrappers text) :
    Borrows uses v.wrappers ((printer env).element depth v text) :=
  borrows_textOr (.afterProbe le_rfl (h.bind fun _ =>
    .before (borrows_checkReceiver v .nowhere) le_rfl fun _ => .pure le_rfl))

include hl in
theorem borrows_object (h : Handle) : Borrows uses {h} ((printer env).object h) := by
  unfold printer
  dsimp only
  split
  · exact .pure le_rfl
  · rename_i c hc
    refine (Trades.ask fun g hg => by simp [hl.describe hc g hg]).bind fun v => ?_
    split <;> exact .pure (Multiset.le_add_left _ _)

mutual

theorem borrows_inside (hl : env.Lends uses) (depth : Nat) : (v : Value) →
    Borrows uses v.wrappers ((printer env).inside depth v)
  | .array items => by
    rw [Printer.inside]
    exact (borrows_itemTexts hl (depth + 1) items []).bind fun _ => .pure le_rfl
  | .map entries => by
    rw [Printer.inside]
    exact (borrows_entryTexts hl (depth + 1) entries []).bind fun _ => .pure le_rfl
  | .object h => by
    rw [Printer.inside]
    exact borrows_object hl h
  | .unit | .bool _ | .int _ | .float _ | .char _ | .string _ | .range _ _ _ | .letters _ => by
    rw [Printer.inside]
    · exact .pure le_rfl
    all_goals simp

theorem borrows_itemTexts (hl : env.Lends uses) (depth : Nat) :
    (vs : List Value) → (done : List String) →
    Borrows uses (wrappersOf vs) ((printer env).itemTexts depth vs done)
  | [], done => by
    rw [Printer.itemTexts]
    exact .pure le_rfl
  | v :: r, done => by
    rw [Printer.itemTexts, Value.wrappersOf_cons]
    refine .borrow (borrows_element (borrows_inside hl depth v)) (Multiset.le_add_right _ _) le_rfl
      fun text => .within (borrows_itemTexts hl depth r (text :: done)) (Multiset.le_add_left _ _)

theorem borrows_entryTexts (hl : env.Lends uses) (depth : Nat) :
    (es : List (String × Value)) → (done : List String) →
    Borrows uses (wrappersOfEntries es) ((printer env).entryTexts depth es done)
  | [], done => by
    rw [Printer.entryTexts]
    exact .pure le_rfl
  | (key, v) :: r, done => by
    rw [Printer.entryTexts, Value.wrappersOfEntries_cons]
    refine .borrow (borrows_element (borrows_inside hl depth v)) (Multiset.le_add_right _ _) le_rfl
      fun text => .within (borrows_entryTexts hl depth r _) (Multiset.le_add_left _ _)

end

section
include hl

theorem borrows_display (depth : Nat) (v : Value) :
    Borrows uses v.wrappers ((printer env).display depth v) := by
  unfold Printer.display
  split
  · exact borrows_inside hl depth _
  · exact borrows_inside hl depth _
  · exact borrows_inside hl depth _
  · exact .pure le_rfl

theorem borrows_textInside {depth : Nat} {begin : Eval κ Unit} (hbegin : Borrows uses 0 begin)
    (v : Value) : Borrows uses v.wrappers (textInside env depth begin v) := by
  unfold textInside
  split
  · exact .pure le_rfl
  · exact borrows_textOr (.before hbegin le_rfl fun _ => (borrows_display hl depth _).bind fun _ =>
      .before (borrows_checkReceiver _ _) le_rfl fun _ => .pure le_rfl)

theorem borrows_operandText (v : Value) : Borrows uses v.wrappers (operandText env v) := by
  refine borrows_textInside hl (.before .probe le_rfl fun r => ?_) v
  cases r with
  | none => exact .pure le_rfl
  | some r => exact .refused le_rfl

theorem borrows_pieceText (v : Value) : Borrows uses v.wrappers (pieceText env v) :=
  borrows_textInside hl .tick v

end

/-! Operators. -/

mutual

theorem borrows_equal (p : Position) (depth : Nat) : (a b : Value) →
    Borrows uses 0 (equal p depth a b : Eval κ Bool)
  | .array a, b => by
    cases b with
    | array b =>
      rw [equal]
      split
      · exact borrows_equalItems p (depth + 1) a b
      · exact .pure le_rfl
    | _ =>
      unfold equal
      split <;> exact .pure le_rfl
  | .map a, b => by
    cases b with
    | map b =>
      rw [equal]
      split
      · exact borrows_equalEntries p (depth + 1) a b
      · exact .pure le_rfl
    | _ =>
      unfold equal
      split <;> exact .pure le_rfl
  | .object g, b => by
    cases b with
    | object h =>
      rw [equal]
      exact .pure le_rfl
    | _ =>
      unfold equal
      split <;> exact .pure le_rfl
  | .unit, _ | .bool _, _ | .int _, _ | .float _, _ | .char _, _ | .string _, _ | .range _ _ _, _
  | .letters _, _ => by
    unfold equal
    split <;> exact .pure le_rfl

theorem borrows_equalItems (p : Position) (depth : Nat) : (as bs : List Value) →
    Borrows uses 0 (equalItems p depth as bs : Eval κ Bool)
  | a :: as, b :: bs => by
    rw [equalItems]
    refine .afterProbe le_rfl (.before (borrows_equal p depth a b) le_rfl fun r => ?_)
    split
    · exact borrows_equalItems p depth as bs
    · exact .pure le_rfl
  | [], _ => by
    unfold equalItems
    exact .pure le_rfl
  | _ :: _, [] => by
    unfold equalItems
    exact .pure le_rfl

theorem borrows_equalEntries (p : Position) (depth : Nat) : (as bs : List (String × Value)) →
    Borrows uses 0 (equalEntries p depth as bs : Eval κ Bool)
  | (k, a) :: as, bs => by
    rw [equalEntries]
    split
    · exact .pure le_rfl
    · refine .afterProbe le_rfl (.before (borrows_equal p depth a _) le_rfl fun r => ?_)
      split
      · exact borrows_equalEntries p depth as bs
      · exact .pure le_rfl
  | [], _ => by
    unfold equalEntries
    exact .pure le_rfl

end

theorem borrows_holds (p : Position) (item : Value) (vs : List Value) :
    Borrows uses item.wrappers (holds p item vs : Eval κ Bool) := by
  induction vs with
  | nil => exact .pure le_rfl
  | cons v r ih =>
    refine .afterProbe le_rfl ((Trades.retain le_rfl).bind fun _ => ?_)
    refine .before (borrows_equal p 1 v item) (Multiset.le_add_left _ _) fun found => ?_
    refine Trades.release.andThen item.wrappers le_rfl (Multiset.le_add_right _ _) fun _ => ?_
    rw [zero_add]
    split
    · exact .pure le_rfl
    · exact ih

/-- The value is made from the wrappers that are there. -/
theorem trades_made {a : Multiset Handle} {v : Value} (h : v.wrappers ≤ a) :
    Trades uses a (pure v : Eval κ Value) (fun v => v.wrappers ∪ a) a :=
  .pure (Multiset.union_le h le_rfl)

section
include hl

theorem trades_operate (op : Operator) (a b : Value) (p : Position) :
    Trades uses (a.wrappers + b.wrappers) (operate env op a b p)
      (fun v => v.wrappers ∪ (a.wrappers + b.wrappers)) (a.wrappers + b.wrappers) := by
  have hbool : ∀ (x : Eval κ Bool) (f : Bool → Bool), Borrows uses 0 x →
      Trades uses (a.wrappers + b.wrappers) (do return Value.bool (f (← x)))
        (fun v => v.wrappers ∪ (a.wrappers + b.wrappers)) (a.wrappers + b.wrappers) :=
    fun x f hx => .before hx le_rfl fun _ => trades_made (Multiset.zero_le _)
  unfold operate
  split
  · exact .borrow (borrows_operandText hl _) (Multiset.le_add_left _ _) le_rfl fun _ =>
      trades_made (Multiset.zero_le _)
  · exact .borrow (borrows_operandText hl _) (Multiset.le_add_right _ _) le_rfl fun _ =>
      trades_made (Multiset.zero_le _)
  · exact trades_made (by simp)
  · exact trades_made (Value.wrappersOfEntries_foldl_le _ _)
  · exact hbool _ id (borrows_equal p 0 _ _)
  · exact hbool _ id (borrows_equal p 0 _ _)
  · exact hbool _ id (borrows_equal p 0 _ _)
  · exact hbool _ not (borrows_equal p 0 _ _)
  · exact hbool _ not (borrows_equal p 0 _ _)
  · exact hbool _ not (borrows_equal p 0 _ _)
  · exact .fail rfl le_rfl

end

theorem coe_without (hs gs : List Handle) : (without hs gs : Multiset Handle) = hs - gs := by
  induction gs generalizing hs with
  | nil => simp [without]
  | cons g gs ih =>
    rw [without, ih, ← Multiset.cons_coe, Multiset.sub_cons, Multiset.coe_erase]

/-- What is not in the result is dropped. -/
theorem trades_combined {a b : Value} {p : Position} {x : Eval κ Value}
    (hx : Trades uses (a.wrappers + b.wrappers) x
      (fun v => v.wrappers ∪ (a.wrappers + b.wrappers)) (a.wrappers + b.wrappers)) :
    Trades uses (a.wrappers + b.wrappers) (combined env a b p x) Value.wrappers
      (a.wrappers + b.wrappers) := by
  refine hx.bind fun v => ?_
  have hcheck : Trades uses (v.wrappers ∪ (a.wrappers + b.wrappers))
      (ofExcept p (env.limits.check v) : Eval κ Value)
      (fun v => v.wrappers ∪ (a.wrappers + b.wrappers)) (a.wrappers + b.wrappers) :=
    .ofExcept (plain_check _ _) (fun _ hw => Limits.eq_of_check hw ▸ le_rfl)
      Multiset.le_union_right
  refine hcheck.bind fun v => ?_
  refine Trades.releaseHandles.andThen v.wrappers ?_ (Multiset.le_add_right _ _) fun _ =>
    .pure (zero_add _).ge
  have hgone : (without (a.handles ++ b.handles) v.handles : Multiset Handle) =
      a.wrappers + b.wrappers - v.wrappers := by
    rw [coe_without, ← Multiset.coe_add]
    rfl
  rw [hgone, Multiset.le_iff_count]
  intro h
  rw [Multiset.count_add, Multiset.count_sub, Multiset.count_union]
  omega

section
include hl

omit hl in
/-- What an operator makes of simple values has no wrappers. -/
theorem trades_onSimple? {op : Operator} {a b : Value} {p : Position} {r : Except Fault Value}
    (hr : op.onSimple? a b = some r) {need : Multiset Handle} :
    Trades uses need (ofExcept p r : Eval κ Value) (fun v => v.wrappers ∪ need) need := by
  refine .ofExcept (plain_onSimple? hr) (fun v hv => ?_) le_rfl
  rw [wrappers_onSimple? (hv ▸ hr)]
  exact Multiset.union_le (Multiset.zero_le _) le_rfl

theorem trades_binary (op : Operator) (a b : Value) (p : Position) :
    Trades uses (a.wrappers + b.wrappers) (binary env op a b p) Value.wrappers
      (a.wrappers + b.wrappers) := by
  refine trades_combined ?_
  split
  · exact trades_onSimple? ‹_›
  · exact .before .tick le_rfl fun _ => trades_operate hl op a b p

theorem trades_reassign (op : Operator) (a b : Value) (p : Position) :
    Trades uses (a.wrappers + b.wrappers) (reassign env op a b p) Value.wrappers
      (a.wrappers + b.wrappers) := by
  refine trades_combined ?_
  split
  · exact .before .tick le_rfl fun _ => .before .tick le_rfl fun _ => trades_onSimple? ‹_›
  · exact trades_onSimple? ‹_›
  · exact .before .tick le_rfl fun _ => trades_made (by simp)
  · exact .before .tick le_rfl fun _ => trades_made (by simp)
  · refine .before .tick le_rfl fun _ => ?_
    dsimp only
    split
    · exact trades_operate hl _ _ _ p
    · exact trades_operate hl _ _ _ p
    · exact .before .tick le_rfl fun _ => trades_operate hl _ _ _ p

/-! Calls. -/

/-- The arguments stay with the caller, and the result comes with wrappers of its own. -/
theorem trades_callNative (name : String) (args : List Value) (p : Position) :
    Trades uses (wrappersOf args) (callNative env name args p)
      (fun v => v.wrappers + wrappersOf args) (wrappersOf args) := by
  unfold callNative
  split
  · exact .pure (by simp)
  have hend : ∀ v : Value, Trades uses (v.wrappers + wrappersOf args) (do
      let v ← ofExcept p (env.limits.check v)
      args.head?.forM (checkReceiver env · p)
      pure v) (fun v => v.wrappers + wrappersOf args) (wrappersOf args) := by
    refine fun v => (trades_check).bind fun v => .before ?_ (Multiset.le_add_left _ _) fun _ =>
      .pure le_rfl
    cases args with
    | nil => exact .pure le_rfl
    | cons v r => exact borrows_checkReceiver v p
  have hplain : ∀ v : Value, v.wrappers = 0 → Trades uses (wrappersOf args) (do
      let v ← ofExcept p (env.limits.check v)
      args.head?.forM (checkReceiver env · p)
      pure v) (fun v => v.wrappers + wrappersOf args) (wrappersOf args) := fun v hv =>
    (hend v).mono (by simp [hv]) (fun _ => le_rfl) le_rfl
  refine .before .tick le_rfl fun _ => ?_
  dsimp only
  split
  · exact (Trades.ask (hl.function ‹_›)).bind hend
  have hprinted : ∀ v (text : Eval κ String), args = [v] → Borrows uses v.wrappers text →
      Borrows uses (wrappersOf args) text := fun v text ha htext =>
    .within htext (by simp [ha])
  split
  · rename_i v _ _
    exact .borrow (hprinted v _ rfl (borrows_display hl 0 v)) le_rfl le_rfl fun _ => hplain _ rfl
  · rename_i v _ _
    exact .borrow (hprinted v _ rfl (borrows_inside hl 0 v)) le_rfl le_rfl fun _ => hplain _ rfl
  · exact hplain _ rfl
  · exact hplain _ rfl
  · rename_i v _ _
    have htext := hprinted v _ rfl (borrows_display hl 0 v)
    exact .borrow (.discard (.ended htext)) le_rfl le_rfl fun _ => hplain _ rfl
  · rename_i v _ _
    have htext := hprinted v _ rfl (borrows_inside hl 0 v)
    exact .borrow (.discard (.ended htext)) le_rfl le_rfl fun _ => hplain _ rfl
  · exact .bind (.throw (by simp)) hend
  · rename_i v _ _
    exact (Trades.retain (by simp)).bind fun _ => .bind (.throw le_rfl) hend
  · rename_i items v _ _
    exact .borrow (borrows_holds p v items) (by simp) le_rfl fun _ => hplain _ rfl
  · split
    · rename_i r hr
      have hmade : Trades uses (wrappersOf args) (ofExcept p r : Eval κ Value)
          (fun v => v.wrappers ∪ wrappersOf args) (wrappersOf args) :=
        .ofExcept (plain_call? hr)
          (fun v hv => Multiset.union_le (Library.wrappers_call? (hv ▸ hr)) le_rfl) le_rfl
      refine hmade.bind fun v => (Trades.retain Multiset.le_union_left).bind fun _ =>
        (hend v).mono ?_ (fun _ => le_rfl) le_rfl
      exact add_le_add_right Multiset.le_union_right _
    · exact .bind (.fail rfl le_rfl) hend

/-- A function of a module is called with arguments that stay with the caller. -/
theorem trades_callModule (path : List String) (name : String) (args : List Value)
    (start p : Position) :
    Trades uses (wrappersOf args) (callModule env path name args start p)
      (fun v => v.wrappers + wrappersOf args) (wrappersOf args) := by
  unfold callModule
  split
  · exact .fail rfl le_rfl
  dsimp only
  split
  · rename_i c hc
    have hcommand : env.moduleFunction name args = some c := by
      split at hc
      · exact hc
      · cases hc
    exact (Trades.ask (hl.moduleFunction hcommand)).bind fun v => trades_check
  · exact .fail rfl le_rfl

/-! Chains. -/

omit hl in
/-- A part is copied, and a value of its own is handed on. -/
theorem trades_take (t : Target) :
    Trades uses t.value.wrappers (take t : Eval κ Value)
      (fun v => v.wrappers + if t.isPart then t.value.wrappers else 0) t.value.wrappers := by
  unfold take
  dsimp only
  split
  · exact (Trades.retain le_rfl).bind fun _ => .pure le_rfl
  · exact .pure (add_zero _).le

/-- The new value takes the place of the old one, which stays if there is none. -/
theorem trades_apply (u : Update) (t : Target) :
    Trades uses (t.value.wrappers + u.value.wrappers) (u.apply env t) Value.wrappers
      t.value.wrappers := by
  refine .check rfl (Multiset.le_add_right _ _) ?_
  split
  · refine Trades.release.andThen u.value.wrappers le_rfl (Multiset.le_add_right _ _) fun _ => ?_
    rw [zero_add]
    exact .pure le_rfl
  · exact (trades_reassign hl _ _ _ _).mono le_rfl (fun _ => le_rfl) (Multiset.le_add_right _ _)

theorem trades_getProperty (v : Value) (name : String) (p : Position) (j : Joint) :
    Trades uses v.wrappers (getProperty env v name p j) (fun w => w.wrappers + v.wrappers)
      v.wrappers := by
  refine .before .tick le_rfl fun _ => ?_
  dsimp only
  split
  · rename_i c _ hc
    refine (Trades.ask fun g hg => ?_).bind fun w => trades_check
    split at hc
    · rw [hl.property hc g hg]
      simp
    · cases hc
  · rename_i r _ hr
    refine .before (borrows_checkReceiver v p) le_rfl fun _ => .pure ?_
    rw [Library.wrappers_property? hr, zero_add]
  · exact .before .tick le_rfl fun _ => .fail rfl le_rfl

/-- Setting a property comes to nothing, and the new value is lost. -/
theorem trades_setProperty (v : Value) (name : String) (p : Position) (j : Joint) (u : Update)
    {gives : Value → Multiset Handle} :
    Trades uses (v.wrappers + u.value.wrappers) (setProperty env v name p j u) gives
      v.wrappers := by
  have hend : ∀ new : Value, Trades uses (new.wrappers + v.wrappers) (do
      tick p
      tick j.position
      fail (.readOnlyProperty name v.typeName new.typeName) (some p)) gives v.wrappers :=
    fun new => .before .tick (Multiset.le_add_left _ _) fun _ =>
      .before .tick (Multiset.le_add_left _ _) fun _ => .fail rfl (Multiset.le_add_left _ _)
  unfold setProperty
  dsimp only
  split
  · exact .bind (.pure (add_comm _ _).le) hend
  · refine (trades_getProperty hl v name p j).andThen u.value.wrappers le_rfl
      (Multiset.le_add_right _ _) fun w => ?_
    exact (trades_apply hl u (.ofValue w)).andThen v.wrappers (add_right_comm _ _ _).le
      (Multiset.le_add_left _ _) hend

omit hl in
/-- What comes after an element has been reached may rely on where it comes from. -/
theorem trades_getPart {need back : Multiset Handle} {last : α → Multiset Handle} {t : Target}
    {key : Value} {p : Position} {j : Joint} {u : Option Update} {f : Target → Eval κ α}
    (hback : back ≤ need)
    (hf : ∀ v, Library.Reached t.value key v → Trades uses need (f (t.part key v)) last back) :
    Trades uses (key.wrappers + need) (getPart t key p j u >>= f) last back := by
  have hall : back ≤ key.wrappers + need := hback.trans (Multiset.le_add_left _ _)
  unfold getPart
  rw [bind_assoc]
  refine .before .tick hall fun _ => ?_
  split
  · rename_i v hv
    rw [bind_assoc]
    refine Trades.release.andThen need le_rfl (Multiset.le_add_right _ _) fun _ => ?_
    rw [zero_add, pure_bind]
    exact hf v (Library.reached_of_index hv)
  · rw [bind_assoc]
    exact .before .tick hall fun _ => .fail rfl hall
  · rename_i e he
    exact .fail (plain_index _ _ _ he) hall

end

end Eval

end EditorScripting.Script
