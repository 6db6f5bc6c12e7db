import EditorScripting.Text.Ascii

/-!
Durations as text: the largest of the units second, millisecond, microsecond and nanosecond that is
at least one, with as many fraction digits as needed.
-/
namespace EditorScripting.Text

/-- A length of time. -/
structure Duration where
  nanoseconds : Nat
deriving Repr, DecidableEq, Inhabited

namespace Duration

/-- A duration of whole milliseconds. -/
def ofMilliseconds (n : Nat) : Duration := ⟨n * 1000000⟩

/-- `value / 10 ^ places` with trailing zeros of the fraction left out. -/
def fixed (value places : Nat) : List Char :=
  let whole := decimalDigits (value / Nat.pow 10 places)
  let digits := decimalDigits (value % Nat.pow 10 places)
  let padded := List.replicate (places - digits.length) '0' ++ digits
  let fraction := ((if places = 0 then [] else padded).reverse.dropWhile (· == '0')).reverse
  if fraction.isEmpty then whole else whole ++ '.' :: fraction

/-- The duration in its unit. -/
def text (d : Duration) : String :=
  let n := d.nanoseconds
  let (places, unit) :=
    if 1000000000 ≤ n then (9, "s")
    else if 1000000 ≤ n then (6, "ms")
    else if 1000 ≤ n then (3, "µs")
    else (0, "ns")
  String.ofList (fixed n places) ++ unit

end Duration

end EditorScripting.Text
