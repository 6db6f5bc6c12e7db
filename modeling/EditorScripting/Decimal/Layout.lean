import EditorScripting.Text.Ascii
import EditorScripting.Decimal.Shortest

/-!
Three ways to write a double-precision number. All take the shortest digits that read back; they
differ in where exponent notation begins, in what happens to a number without a fraction, and in
the sign of zero.
-/
namespace EditorScripting.Decimal

open Text

/-- `digits · 10 ^ exponent` without exponent notation; a point only if there is a fraction. -/
def Digits.positional (d : Digits) : List Char :=
  let ds := decimalDigits d.digits
  if 0 ≤ d.exponent then ds ++ List.replicate d.exponent.toNat '0'
  else
    let places := (-d.exponent).toNat
    if ds.length ≤ places then '0' :: '.' :: List.replicate (places - ds.length) '0' ++ ds
    else ds.take (ds.length - places) ++ '.' :: ds.drop (ds.length - places)

/-- `digits · 10 ^ exponent` with one digit before the point and an exponent without plus sign. -/
def Digits.scientific (d : Digits) : List Char :=
  let ds := decimalDigits d.digits
  let e : Int := d.exponent + ds.length - 1
  let tail := match ds with
    | c :: [] => [c]
    | c :: r => c :: '.' :: r
    | [] => []
  tail ++ 'e' :: (toString e).toList

/-- How numbers are laid out: from which magnitude on and below which magnitude the exponent
notation is used, whether a number without a fraction gets one, and whether zero shows its sign. -/
structure Layout where
  exponentFrom : Option Float
  exponentAbove : Option Float
  exponentBelow : Option Float
  pointZero : Bool
  signedZero : Bool

/-- The magnitude is written with an exponent. -/
def Layout.usesExponent (layout : Layout) (magnitude : Float) : Bool :=
  layout.exponentFrom.any (fun m => decide (m ≤ magnitude)) ||
  layout.exponentAbove.any (fun m => decide (m < magnitude)) ||
  layout.exponentBelow.any (fun m => decide (magnitude < m))

/-- The number in the given layout. -/
def Layout.format (layout : Layout) (x : Float) : String :=
  match Reading.ofBits x.toBits with
  | .notANumber => "NaN"
  | .infinite negative => if negative then "-inf" else "inf"
  | .finite b =>
    let sign := if b.negative then ['-'] else []
    if b.significand = 0 then
      String.ofList ((if layout.signedZero then sign else []) ++ ['0', '.', '0'])
    else if layout.usesExponent x.abs then String.ofList (sign ++ b.shortest.scientific)
    else
      let point := if b.isIntegral && layout.pointZero then ['.', '0'] else []
      String.ofList (sign ++ b.shortest.positional ++ point)

/-- Results of guest expressions turn to exponents outside the range that single precision shows
well, whose ends are the single-precision neighbours of `10 ^ 13` and `10 ^ -13`; zero has no
sign. -/
def guestLayout : Layout :=
  { exponentFrom := none
    exponentAbove := some 9999999827968.0
    exponentBelow := some 9.9999998245167004e-14
    pointZero := true
    signedZero := false }

/-- Numbers inside guest arrays and maps turn to exponents from `10 ^ 16` on and below `10 ^ -4`. -/
def nestedLayout : Layout :=
  { exponentFrom := some 1e16
    exponentAbove := none
    exponentBelow := some 1e-4
    pointZero := true
    signedZero := true }

/-- The host never uses exponents, and a number without a fraction is written with all its
digits, not only with those that are needed to read it back. -/
def hostText (x : Float) : String :=
  match Reading.ofBits x.toBits with
  | .notANumber => "NaN"
  | .infinite negative => if negative then "-inf" else "inf"
  | .finite b =>
    let sign := if b.negative then ['-'] else []
    if b.isIntegral then String.ofList (sign ++ decimalDigits b.truncate ++ ['.', '0'])
    else String.ofList (sign ++ b.shortest.positional)

end EditorScripting.Decimal
