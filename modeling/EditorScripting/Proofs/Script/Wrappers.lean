import EditorScripting.Proofs.Script.Plain
import EditorScripting.Script.Eval
import Mathlib.Algebra.Order.Group.Multiset
import Mathlib.Data.Multiset.Count
import Mathlib.Data.Multiset.OrderedMonoid

/-!
The wrappers inside values, faults and bindings. A value that is made from parts of other values has
their wrappers and no more, and a container with another element has the new one's wrappers in place
of the old one's.
-/
namespace EditorScripting.Script

open Host

namespace Value

/-- The wrappers inside a value. -/
def wrappers (v : Value) : Multiset Handle := v.handles

/-- The wrappers inside some values. -/
def wrappersOf (vs : List Value) : Multiset Handle := handlesOfItems vs

/-- The wrappers inside some entries. -/
def wrappersOfEntries (es : List (String × Value)) : Multiset Handle := handlesOfEntries es

@[simp] theorem wrappers_unit : unit.wrappers = 0 := rfl

@[simp] theorem wrappers_bool (b : Bool) : (bool b).wrappers = 0 := rfl

@[simp] theorem wrappers_int (n : Int) : (int n).wrappers = 0 := rfl

@[simp] theorem wrappers_float (x : Float) : (float x).wrappers = 0 := rfl

@[simp] theorem wrappers_char (c : Char) : (char c).wrappers = 0 := rfl

@[simp] theorem wrappers_string (s : String) : (string s).wrappers = 0 := rfl

@[simp] theorem wrappers_range (a b : Int) (closed : Bool) : (range a b closed).wrappers = 0 := rfl

@[simp] theorem wrappers_letters (s : String) : (letters s).wrappers = 0 := rfl

@[simp] theorem wrappers_object (h : Handle) : (object h).wrappers = {h} := rfl

@[simp] theorem wrappers_array (vs : List Value) : (array vs).wrappers = wrappersOf vs := rfl

@[simp] theorem wrappers_map (es : List (String × Value)) :
    (map es).wrappers = wrappersOfEntries es := rfl

@[simp] theorem wrappersOf_nil : wrappersOf [] = 0 := rfl

@[simp] theorem wrappersOf_cons (v : Value) (vs : List Value) :
    wrappersOf (v :: vs) = v.wrappers + wrappersOf vs := rfl

@[simp] theorem wrappersOfEntries_nil : wrappersOfEntries [] = 0 := rfl

@[simp] theorem wrappersOfEntries_cons (e : String × Value) (es : List (String × Value)) :
    wrappersOfEntries (e :: es) = e.2.wrappers + wrappersOfEntries es := rfl

@[simp] theorem wrappersOf_append (vs ws : List Value) :
    wrappersOf (vs ++ ws) = wrappersOf vs + wrappersOf ws := by
  induction vs with
  | nil => simp
  | cons v vs ih => simp [ih, add_assoc]

@[simp] theorem wrappersOf_reverse (vs : List Value) : wrappersOf vs.reverse = wrappersOf vs := by
  induction vs with
  | nil => rfl
  | cons v vs ih => simp [ih, add_comm]

@[simp] theorem wrappersOfEntries_append (es fs : List (String × Value)) :
    wrappersOfEntries (es ++ fs) = wrappersOfEntries es + wrappersOfEntries fs := by
  induction es with
  | nil => simp
  | cons e es ih => simp [ih, add_assoc]

theorem wrappersOf_eq_zero {vs : List Value} (h : ∀ v ∈ vs, v.wrappers = 0) :
    wrappersOf vs = 0 := by
  induction vs with
  | nil => rfl
  | cons v vs ih => simp [h v (by simp), ih fun w hw => h w (by simp [hw])]

theorem wrappersOf_map_snd (es : List (String × Value)) :
    wrappersOf (es.map (·.2)) = wrappersOfEntries es := by
  induction es with
  | nil => rfl
  | cons e es ih => simp [ih]

/-- Another item in place of an old one. -/
theorem wrappersOf_set {vs : List Value} {i : Nat} {v : Value} (hv : vs[i]? = some v) (w : Value) :
    wrappersOf (vs.set i w) + v.wrappers = w.wrappers + wrappersOf vs := by
  induction vs generalizing i with
  | nil => cases hv
  | cons u vs ih =>
    cases i with
    | zero =>
      obtain rfl := Option.some.inj hv
      simp [add_left_comm, add_comm]
    | succ i =>
      have hrest := ih (i := i) (by simpa using hv)
      simp only [List.set_cons_succ, wrappersOf_cons]
      rw [add_assoc, hrest, add_left_comm]

theorem wrappers_le_of_getElem? {vs : List Value} {i : Nat} {v : Value} (hv : vs[i]? = some v) :
    v.wrappers ≤ wrappersOf vs := by
  have hset := wrappersOf_set hv .unit
  rw [wrappers_unit, zero_add] at hset
  exact hset ▸ Multiset.le_add_left _ _

/-- The value of an entry, or unit if there is none. -/
def entry (key : String) (es : List (String × Value)) : Value := (lookup key es).getD .unit

/-- Another entry in place of an old one. -/
theorem wrappersOfEntries_insertEntry (key : String) (w : Value) (es : List (String × Value)) :
    wrappersOfEntries (insertEntry key w es) + (entry key es).wrappers =
      w.wrappers + wrappersOfEntries es := by
  induction es with
  | nil => simp [insertEntry, entry, lookup]
  | cons e es ih =>
    obtain ⟨k, v⟩ := e
    unfold insertEntry
    by_cases hk : k = key
    · simp [hk, entry, lookup, add_left_comm, add_comm]
    · rw [if_neg hk]
      have hentry : entry key ((k, v) :: es) = entry key es := by simp [entry, lookup, hk]
      rw [hentry]
      split
      · rename_i hfirst
        have hnone : entry key es = .unit := by
          simp [entry, Option.isNone_iff_eq_none.mp hfirst.2]
        simp [hnone]
      · simp only [wrappersOfEntries_cons]
        rw [add_assoc, ih, add_left_comm]

theorem wrappers_entry_le (key : String) (es : List (String × Value)) :
    (entry key es).wrappers ≤ wrappersOfEntries es := by
  have hinsert := wrappersOfEntries_insertEntry key .unit es
  rw [wrappers_unit, zero_add] at hinsert
  exact hinsert ▸ Multiset.le_add_left _ _

theorem wrappersOfEntries_insertEntry_le (key : String) (w : Value) (es : List (String × Value)) :
    wrappersOfEntries (insertEntry key w es) ≤ w.wrappers + wrappersOfEntries es :=
  wrappersOfEntries_insertEntry key w es ▸ Multiset.le_add_right _ _

/-- Entries put in one after another. -/
theorem wrappersOfEntries_foldl_le (es fs : List (String × Value)) :
    wrappersOfEntries (fs.foldl (fun m (k, v) => insertEntry k v m) es) ≤
      wrappersOfEntries es + wrappersOfEntries fs := by
  induction fs generalizing es with
  | nil => simp
  | cons f fs ih =>
    have hfirst := wrappersOfEntries_insertEntry_le f.1 f.2 es
    calc
      wrappersOfEntries ((f :: fs).foldl (fun m (k, v) => insertEntry k v m) es)
        ≤ wrappersOfEntries (insertEntry f.1 f.2 es) + wrappersOfEntries fs := ih _
      _ ≤ (f.2.wrappers + wrappersOfEntries es) + wrappersOfEntries fs := by gcongr
      _ = wrappersOfEntries es + wrappersOfEntries (f :: fs) := by
        rw [wrappersOfEntries_cons, add_assoc, add_left_comm]

/-- A map that is put together from plain values. -/
theorem wrappers_foldl_eq_zero {es : List (String × Value)} (h : wrappersOfEntries es = 0) :
    (map (es.foldl (fun m (k, v) => insertEntry k v m) [])).wrappers = 0 := by
  have hle := wrappersOfEntries_foldl_le [] es
  rw [h, wrappersOfEntries_nil, add_zero] at hle
  exact Multiset.le_zero.mp hle

end Value

/-! What operators and functions make. -/

/-- A value within the bounds is handed on. -/
theorem Limits.eq_of_check {l : Limits} {v w : Value} (h : l.check v = .ok w) : w = v := by
  unfold check at h
  split at h
  · cases h
  · exact (Except.ok.inj h).symm

theorem wrappers_onSimple? {op : Operator} {a b v : Value}
    (h : op.onSimple? a b = some (.ok v)) : v.wrappers = 0 := by
  have hints : ∀ x y, op.onInts x y = .ok v → v.wrappers = 0 := by
    intro x y hv
    have hmap : ∀ r : Except Fault Int, r.map .int = .ok v → v.wrappers = 0 := by
      intro r hr
      cases r with
      | error f => cases hr
      | ok n => exact Except.ok.inj hr ▸ rfl
    cases op <;> first | exact hmap _ hv | exact Except.ok.inj hv ▸ rfl
  have hfloats : ∀ {x y w}, op.onFloats x y = some w → w.wrappers = 0 := by
    intro x y w hw
    cases op <;> first | exact Option.some.inj hw ▸ rfl | cases hw
  have htexts : ∀ {s t w}, op.onTexts s t = some w → w.wrappers = 0 := by
    intro s t w hw
    unfold Operator.onTexts at hw
    repeat' split at hw
    all_goals first | exact Option.some.inj hw ▸ rfl | cases hw
  have hbools : ∀ {x y w}, op.onBools x y = some w → w.wrappers = 0 := by
    intro x y w hw
    unfold Operator.onBools at hw
    repeat' split at hw
    all_goals first | exact Option.some.inj hw ▸ rfl | cases hw
  unfold Operator.onSimple? at h
  split at h
  case h_1 => exact hints _ _ (Option.some.inj h)
  all_goals
    repeat' split at h
    all_goals first
      | cases h
        rfl
      | obtain ⟨w, hw, he⟩ := Option.map_eq_some_iff.mp h
        obtain rfl := Except.ok.inj he
        first | exact hfloats hw | exact htexts hw | exact hbools hw
      | cases h

namespace Library

theorem wrappers_strings (pieces : List (List Char)) : (strings pieces).wrappers = 0 :=
  Value.wrappersOf_eq_zero fun v hv => by
    obtain ⟨p, -, rfl⟩ := List.mem_map.mp hv
    rfl

theorem wrappers_textIndex (part s : String) (start : Int) :
    (textIndex part s start).wrappers = 0 := by
  unfold textIndex
  dsimp only
  repeat' split
  all_goals rfl

theorem wrappers_property? {name : String} {v w : Value} (h : property? name v = some w) :
    w.wrappers = 0 := by
  unfold property? at h
  split at h <;> cases h <;> rfl

theorem wrappers_fallible? {name : String} {args : List Value} {v : Value}
    (h : fallible? name args = some (.ok v)) : v.wrappers = 0 := by
  have hmap : ∀ r : Except Fault Int, r.map .int = .ok v → v.wrappers = 0 := by
    intro r hr
    cases r with
    | error f => cases hr
    | ok n => exact Except.ok.inj hr ▸ rfl
  have hparse : ∀ s radix, parseInt s radix = .ok v → v.wrappers = 0 := by
    intro s radix hv
    unfold parseInt at hv
    repeat' split at hv
    all_goals first | exact Except.ok.inj hv ▸ rfl | cases hv
  unfold fallible? at h
  split at h
  · exact hmap _ (Option.some.inj h)
  · exact hparse _ _ (Option.some.inj h)
  · exact hparse _ _ (Option.some.inj h)
  · exact hmap _ (Option.some.inj h)
  · cases h

theorem wrappers_onText? {name : String} {args : List Value} {v : Value}
    (h : onText? name args = some v) : v.wrappers = 0 := by
  unfold onText? at h
  dsimp only at h
  split at h <;> cases h
  all_goals first | rfl | exact wrappers_strings _ | exact wrappers_textIndex _ _ _

theorem wrappers_onScalars? {name : String} {args : List Value} {v : Value}
    (h : onScalars? name args = some v) : v.wrappers = 0 := by
  unfold onScalars? at h
  split at h <;> cases h <;> rfl

/-- The values of a map keep their wrappers. -/
theorem wrappers_onContainers? {name : String} {args : List Value} {v : Value}
    (h : onContainers? name args = some v) : v.wrappers ≤ Value.wrappersOf args := by
  unfold onContainers? at h
  split at h <;> cases h
  case h_5 m =>
    have hkeys : (Value.array (m.map fun e => .string e.1)).wrappers = 0 :=
      Value.wrappersOf_eq_zero fun v hv => by
        obtain ⟨e, -, rfl⟩ := List.mem_map.mp hv
        rfl
    exact hkeys ▸ Multiset.zero_le _
  case h_6 m => simp [Value.wrappersOf_map_snd]
  all_goals exact Multiset.zero_le _

theorem wrappers_call? {name : String} {args : List Value} {v : Value}
    (h : call? name args = some (.ok v)) : v.wrappers ≤ Value.wrappersOf args := by
  have hbare (hv : v.wrappers = 0) : v.wrappers ≤ Value.wrappersOf args :=
    hv ▸ Multiset.zero_le _
  unfold call? at h
  split at h
  · rename_i r hr
    exact hbare (wrappers_fallible? (hr.trans h))
  · obtain ⟨w, hw, he⟩ := Option.map_eq_some_iff.mp h
    obtain rfl := Except.ok.inj he
    simp only [infallible?, Option.or_eq_some_iff] at hw
    rcases hw with ((htext | ⟨-, hscalars⟩) | ⟨-, hcontainers⟩) | ⟨-, hproperty⟩
    · exact hbare (wrappers_onText? htext)
    · exact hbare (wrappers_onScalars? hscalars)
    · exact wrappers_onContainers? hcontainers
    · split at hproperty
      · exact hbare (wrappers_property? hproperty)
      · cases hproperty

/-- Only text is changed in place. -/
theorem wrappers_change? {limits : Limits} {name : String} {args : List Value} {v w : Value}
    (h : change? limits name args = some (.ok (v, w))) : v.wrappers = 0 ∧ w.wrappers = 0 := by
  have hpad (r : Except Fault String)
      (hr : (r.map fun s => (Value.unit, Value.string s)) = .ok (v, w)) :
      v.wrappers = 0 ∧ w.wrappers = 0 := by
    cases r with
    | error f => cases hr
    | ok s =>
      cases hr
      exact ⟨rfl, rfl⟩
  unfold change? at h
  split at h
  · exact hpad _ (Option.some.inj h)
  · exact hpad _ (Option.some.inj h)
  · cases h

/-- What an index reaches in a container. -/
inductive Reached : Value → Value → Value → Prop
  | item {items : List Value} {i : Int} {n : Nat} {v : Value} :
      offset? i items.length = some n → items[n]? = some v → Reached (.array items) (.int i) v
  | entry {entries : List (String × Value)} {key : String} :
      Reached (.map entries) (.string key) (Value.entry key entries)
  | letter {s : String} {key v : Value} : v.wrappers = 0 → Reached (.string s) key v
  | bit {n : Int} {key v : Value} : v.wrappers = 0 → Reached (.int n) key v

theorem reached_of_index {c key v : Value} (h : index c key = .ok v) : Reached c key v := by
  unfold index at h
  split at h
  case h_1 items i =>
    split at h
    · rename_i w hw
      cases h
      obtain ⟨n, hn, hv⟩ := Option.bind_eq_some_iff.mp hw
      exact .item hn hv
    · cases h
  case h_2 =>
    split at h <;> cases h
    exact .letter rfl
  case h_3 =>
    cases h
    exact .letter rfl
  case h_4 =>
    cases h
    exact .entry
  case h_5 =>
    split at h <;> cases h
    exact .bit rfl
  case h_6 a b closed =>
    cases hr : bitRange a b closed with
    | error f =>
      rw [hr] at h
      cases h
    | ok r =>
      rw [hr] at h
      cases h
      exact .bit rfl
  all_goals cases h

theorem wrappers_update_string {s : String} {key w d : Value}
    (h : update (.string s) key w = .ok d) : d.wrappers = 0 := by
  unfold update at h
  split at h
  case h_3 =>
    split at h <;> cases h
    rfl
  case h_5 => exact Except.ok.inj h ▸ rfl
  all_goals simp_all

theorem wrappers_update_int {n : Int} {key w d : Value} (h : update (.int n) key w = .ok d) :
    d.wrappers = 0 := by
  unfold update at h
  split at h
  case h_4 =>
    split at h <;> cases h
    rfl
  case h_6 m a b closed he =>
    cases hr : bitRange a b closed with
    | error f =>
      rw [hr] at h
      cases h
    | ok r =>
      rw [hr] at h
      cases w <;> cases h
      rfl
  all_goals simp_all

namespace Reached

variable {c key v w : Value} (hv : Reached c key v)
include hv

theorem wrappers_le : v.wrappers ≤ c.wrappers := by
  cases hv with
  | item hn hi => exact Value.wrappers_le_of_getElem? hi
  | entry => exact Value.wrappers_entry_le _ _
  | letter h => exact h ▸ Multiset.zero_le _
  | bit h => exact h ▸ Multiset.zero_le _

/-- With another element the container has the new one's wrappers in place of the old one's. -/
theorem wrappers_update {d : Value} (h : update c key w = .ok d) :
    d.wrappers + v.wrappers ≤ w.wrappers + c.wrappers := by
  cases hv with
  | @item items i n v hn hi =>
    simp only [update, hn, Except.ok.injEq] at h
    subst h
    exact (Value.wrappersOf_set hi w).le
  | @entry entries key =>
    simp only [update, Except.ok.injEq] at h
    subst h
    exact (Value.wrappersOfEntries_insertEntry key w entries).le
  | letter h0 =>
    rw [wrappers_update_string h, h0]
    exact Multiset.zero_le _
  | bit h0 =>
    rw [wrappers_update_int h, h0]
    exact Multiset.zero_le _

/-- An element that has been reached can be replaced, but in a container without wrappers. -/
theorem wrappers_of_update_error {f : Fault} (h : update c key w = .error f) : c.wrappers = 0 := by
  cases hv with
  | item hn hi =>
    simp only [update, hn] at h
    cases h
  | entry => cases h
  | letter _ => rfl
  | bit _ => rfl

end Reached

end Library

/-! Faults, and what is in scope. -/

/-- The wrappers of the value that a fault was thrown with. -/
def Fault.wrappers (f : Fault) : Multiset Handle := (f.thrownValue?.map Value.wrappers).getD 0

theorem Fault.wrappers_of_isPlain {f : Fault} (h : f.isPlain = true) : f.wrappers = 0 := by
  cases f <;> first | rfl | cases h

/-- A script catches the wrappers of a thrown value and no others. -/
theorem Fault.wrappers_caught (f : Fault) (p : Option Position) :
    (f.caught p).wrappers = f.wrappers := by
  unfold caught wrappers
  cases hv : f.thrownValue? with
  | some v => rfl
  | none =>
    have hdetails : Value.wrappersOfEntries f.details = 0 := by
      cases f <;> simp [details, details.kind, details.bounds]
    refine Value.wrappers_foldl_eq_zero ?_
    rw [Value.wrappersOfEntries_append, hdetails]
    cases p with
    | none => rfl
    | some p =>
      dsimp only
      split <;> rfl

/-- The wrappers that come with an answer to a command. -/
def answerWrappers : Except String Value → Multiset Handle
  | .ok v => v.wrappers
  | .error _ => 0

namespace Interrupt

/-- The wrappers of the value that a computation ends with early. -/
def wrappers : Interrupt → Multiset Handle
  | fault f _ => f.wrappers
  | leaveLoop v | returned v | exited v => v.wrappers
  | nextRound => 0

@[simp] theorem wrappers_fault (f : Fault) (p : Option Position) :
    (fault f p).wrappers = f.wrappers := rfl

@[simp] theorem wrappers_leaveLoop (v : Value) : (leaveLoop v).wrappers = v.wrappers := rfl

@[simp] theorem wrappers_returned (v : Value) : (returned v).wrappers = v.wrappers := rfl

@[simp] theorem wrappers_exited (v : Value) : (exited v).wrappers = v.wrappers := rfl

@[simp] theorem wrappers_nextRound : nextRound.wrappers = 0 := rfl

end Interrupt

/-- The wrappers in the values of bindings. -/
def scopeWrappers (scope : List Binding) : Multiset Handle :=
  (scope.flatMap (·.value.handles) : List Handle)

@[simp] theorem scopeWrappers_nil : scopeWrappers [] = 0 := rfl

@[simp] theorem scopeWrappers_cons (b : Binding) (scope : List Binding) :
    scopeWrappers (b :: scope) = b.value.wrappers + scopeWrappers scope := rfl

@[simp] theorem scopeWrappers_append (bs scope : List Binding) :
    scopeWrappers (bs ++ scope) = scopeWrappers bs + scopeWrappers scope := by
  induction bs with
  | nil => simp
  | cons b bs ih => simp [ih, add_assoc]

/-- A new value in place of that of the innermost binding of a name. -/
theorem scopeWrappers_store {name : String} {v : Value} {scope : List Binding} {b : Binding}
    (hf : scope.find? (·.name == name) = some b) :
    scopeWrappers (Eval.store name v scope) + b.value.wrappers =
      v.wrappers + scopeWrappers scope := by
  induction scope with
  | nil => cases hf
  | cons c scope ih =>
    rw [Eval.store]
    cases hc : c.name == name with
    | true =>
      rw [List.find?_cons_of_pos (by simpa using hc)] at hf
      obtain rfl := Option.some.inj hf
      simp [add_assoc, add_comm (scopeWrappers scope)]
    | false =>
      rw [List.find?_cons_of_neg (by simpa using hc)] at hf
      simp only [Bool.false_eq_true, if_false, scopeWrappers_cons]
      rw [add_assoc, ih hf, add_left_comm]

theorem wrappers_le_scopeWrappers {name : String} {scope : List Binding} {b : Binding}
    (hf : scope.find? (·.name == name) = some b) : b.value.wrappers ≤ scopeWrappers scope := by
  have hstore := scopeWrappers_store (v := .unit) hf
  rw [Value.wrappers_unit, zero_add] at hstore
  exact hstore ▸ Multiset.le_add_left _ _

end EditorScripting.Script
