import EditorScripting.Decimal.Binary

/-!
The shortest decimal that reads back as a given double-precision number. A decimal reads back if it
lies in the rounding interval of the number, whose ends belong to it exactly if the significand is
even. For one digit, two digits and so on, the two neighbours of the number on that decimal grid are
tried: the first grid with a hit wins, and of two hits the nearer one.
-/
namespace EditorScripting.Decimal

/-- The decimal `digits · 10 ^ exponent`. -/
structure Digits where
  digits : Nat
  exponent : Int
deriving Repr, DecidableEq

namespace Digits

/-- Moves trailing zeros of the digits into the exponent. -/
def normalize : Nat → Digits → Digits
  | 0, d => d
  | n + 1, d =>
    if d.digits ≠ 0 && d.digits % 10 = 0 then normalize n ⟨d.digits / 10, d.exponent + 1⟩ else d

end Digits

/-- Compares `a · 10 ^ p` with `b · 2 ^ q`. -/
def comparePowers (a : Nat) (p : Int) (b : Nat) (q : Int) : Ordering :=
  compare (a * Nat.pow 10 p.toNat * Nat.pow 2 (-q).toNat)
    (b * Nat.pow 2 q.toNat * Nat.pow 10 (-p).toNat)

/-- The greatest `a` with `a · 10 ^ p ≤ b · 2 ^ q`. -/
def floorPower (p : Int) (b : Nat) (q : Int) : Nat :=
  (b * Nat.pow 2 q.toNat * Nat.pow 10 (-p).toNat) /
    (Nat.pow 10 p.toNat * Nat.pow 2 (-q).toNat)

namespace Binary

/-- The rounding interval in units of `2 ^ (exponent - 2)`. -/
def interval (x : Binary) : Nat × Nat :=
  let v := 4 * x.significand
  (if x.atBoundary then v - 1 else v - 2, v + 2)

/-- `a · 10 ^ p` reads back as the magnitude of `x`. -/
def readsBack (x : Binary) (a : Nat) (p : Int) : Bool :=
  let (low, high) := x.interval
  let q := x.exponent - 2
  let closed := x.significand % 2 == 0
  let above := match comparePowers a p low q with
    | .gt => true
    | .eq => closed
    | .lt => false
  let below := match comparePowers a p high q with
    | .lt => true
    | .eq => closed
    | .gt => false
  above && below

/-- The nearer of the grid points `a` and `a + 1` that reads back; a tie goes up. -/
def nearest? (x : Binary) (a : Nat) (p : Int) : Option Nat :=
  match x.readsBack a p, x.readsBack (a + 1) p with
  | true, true =>
    -- twice the number against the sum of the two points
    if comparePowers (2 * a + 1) p (2 * x.significand) x.exponent == .gt then some a
    else some (a + 1)
  | true, false => some a
  | false, true => some (a + 1)
  | false, false => none

/-- Some `k` with `10 ^ (k - 1)` at most the magnitude of `x` and the magnitude below `10 ^ k`,
found by walking up from below the smallest positive number. -/
def decimalPlace (x : Binary) : Nat → Int → Int
  | 0, k => k
  | n + 1, k =>
    if comparePowers 1 k x.significand x.exponent == .gt then k else x.decimalPlace n (k + 1)

/-- An estimate from below of the power of ten just above the magnitude of `x`. -/
def placeEstimate (x : Binary) : Int :=
  ((Nat.log2 x.significand : Int) + x.exponent) * 30103 / 100000 - 1

/-- Tries grids with `n`, `n + 1`, … digits below the power of ten `k`. -/
def shortestFrom (x : Binary) (k : Int) : Nat → Nat → Digits
  | 0, n => ⟨floorPower (k - n) x.significand x.exponent, k - n⟩
  | fuel + 1, n =>
    let p := k - n
    match x.nearest? (floorPower p x.significand x.exponent) p with
    | some a => ⟨a, p⟩
    | none => x.shortestFrom k fuel (n + 1)

/-- The shortest decimal that reads back as the magnitude of `x`; of several the nearest. Zero has
no digits. -/
def shortest (x : Binary) : Digits :=
  if x.significand = 0 then ⟨0, 0⟩
  else Digits.normalize 20 (x.shortestFrom (x.decimalPlace 4 x.placeEstimate) 17 1)

end Binary

end EditorScripting.Decimal
