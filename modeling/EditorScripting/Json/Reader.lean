import EditorScripting.Text.Ascii

/-!
Reading JSON texts from the front. A reader takes what it reads off the text, and it stops at the
first character that cannot be right. Values that nobody asks for are skipped under slightly
looser rules than those that are read.
-/
namespace EditorScripting.Json

/-- What is wrong with a text. -/
inductive Problem where
  /-- No JSON text goes on like this. -/
  | malformed
  /-- The text ends too early. -/
  | truncated
  /-- A value, or a member, that does not belong here. -/
  | unfitting
deriving DecidableEq, Repr

abbrev Reader := StateT (List Char) (Except Problem)

namespace Reader

def fail {α : Type} (p : Problem) : Reader α := throw p

def isSpace (c : Char) : Bool := c == ' ' || c == '\n' || c == '\t' || c == '\r'

/-- The next character, which stays. -/
def peek : Reader (Option Char) := do return (← get).head?

/-- Takes the next character off. -/
def advance : Reader Unit := modify List.tail

/-- Skips blanks and looks at the next character. -/
def next : Reader (Option Char) := do
  modify fun s => s.dropWhile isSpace
  peek

/-- Skips blanks and looks at the next character; there has to be one. -/
def need : Reader Char := do
  match ← next with
  | some c => return c
  | none => fail .truncated

/-- Takes given characters off. -/
def expect : List Char → Reader Unit
  | [] => pure ()
  | c :: r => do
    match ← peek with
    | none => fail .truncated
    | some d =>
      if c = d then
        advance
        expect r
      else fail .malformed

/-- Skips blanks and takes one given character off. -/
def token (c : Char) : Reader Unit := do
  let d ← need
  if d = c then advance else fail .malformed

/-- Takes digits off. -/
def digits : Reader (List Char) := do
  let s ← get
  set (s.dropWhile Text.isDigit)
  return s.takeWhile Text.isDigit

def hexValue? (c : Char) : Option Nat :=
  if Text.isDigit c then some (c.toNat - 48)
  else if 'a' ≤ c && c ≤ 'f' then some (c.toNat - 87)
  else if 'A' ≤ c && c ≤ 'F' then some (c.toNat - 55)
  else none

/-- The four hexadecimal digits of an escape. What has room for them but holds none is malformed. -/
def codeUnit : Reader Nat := do
  let s ← get
  if (String.ofList (s.take 4)).utf8ByteSize < 4 then fail .truncated
  else
    match (s.take 4).mapM hexValue? with
    | some [a, b, c, d] =>
      set (s.drop 4)
      return ((a * 16 + b) * 16 + c) * 16 + d
    | _ => fail .malformed

/-- The second half of a pair of code units, whose first half has been read. -/
def pairWith (high : Nat) : Reader Char := do
  expect ['\x5c', 'u']
  let low ← codeUnit
  if 0xdc00 ≤ low ∧ low ≤ 0xdfff then
    return Char.ofNat (0x10000 + (high - 0xd800) * 0x400 + (low - 0xdc00))
  else fail .malformed

/-- The character that an escape stands for; its backslash has been taken. -/
def escape : Reader Char := do
  match ← peek with
  | none => fail .truncated
  | some c =>
    advance
    match c with
    | '\x22' => return '\x22'
    | '\x5c' => return '\x5c'
    | '/' => return '/'
    | 'b' => return '\x08'
    | 'f' => return '\x0c'
    | 'n' => return '\n'
    | 'r' => return '\r'
    | 't' => return '\t'
    | 'u' =>
      let u ← codeUnit
      if 0xdc00 ≤ u ∧ u ≤ 0xdfff then fail .malformed
      else if 0xd800 ≤ u ∧ u ≤ 0xdbff then pairWith u
      else return Char.ofNat u
    | _ => fail .malformed

/-- An escape in a string that is skipped. The halves of a pair may stand alone. -/
def skipEscape : Reader Unit := do
  match ← peek with
  | none => fail .truncated
  | some c =>
    advance
    if c = 'u' then discard codeUnit
    else if c ∈ ['\x22', '\x5c', '/', 'b', 'f', 'n', 'r', 't'] then return ()
    else fail .malformed

/-- The characters up to the closing quote, of which there are fewer than `fuel`. -/
def characters (onEscape : Reader Char) : Nat → Reader (List Char)
  | 0 => fail .truncated
  | fuel + 1 => do
    match ← peek with
    | none => fail .truncated
    | some c =>
      advance
      if c = '\x22' then return []
      else if c = '\x5c' then
        let d ← onEscape
        return d :: (← characters onEscape fuel)
      else if c < ' ' then fail .malformed
      else return c :: (← characters onEscape fuel)

/-- A string whose opening quote has been taken. -/
def stringBody : Reader String := do
  return String.ofList (← characters escape ((← get).length + 1))

/-- Skips a string whose opening quote has been taken. -/
def skipString : Reader Unit := do
  discard (characters (do skipEscape; return ' ') ((← get).length + 1))

/-- What kind of number was read. -/
inductive Number where
  | natural (n : Nat)
  | negative
  /-- A number with a fraction or an exponent, or one that 64 bits do not hold. -/
  | float
deriving DecidableEq, Repr

/-- The number that the leading digits make as long as 64 bits hold it, and how many digits do not
take part in it. -/
def leading : List Char → Nat → Nat × Nat
  | [], n => (n, 0)
  | c :: r, n =>
    let m := n * 10 + (c.toNat - 48)
    if m < Nat.pow 2 64 then leading r m else (n, r.length + 1)

/-- The number with some leading digits and a power of ten is no finite double. -/
def overflows (digits : Nat) (exponent : Int) : Bool :=
  digits != 0 && decide (0 ≤ exponent) &&
    (decide (308 < exponent) ||
      (Float.ofNat digits * Float.ofScientific 1 false exponent.toNat).isInf)

/-- A float of given digits before and behind the point, and exponent; it has to be finite. -/
def float (whole fraction : List Char) (exponent : Int) : Reader Number := do
  let (n, left) := leading (whole ++ fraction) 0
  let used := whole.length + fraction.length - left
  let shift : Int := (whole.length : Int) - used
  if overflows n (shift + exponent) then fail .malformed else return .float

/-- The exponent of a number, after its letter. -/
def exponent : Reader Int := do
  let sign ← peek
  if sign = some '+' ∨ sign = some '-' then advance
  let ds ← digits
  if ds.isEmpty then
    match ← peek with
    | none => fail .truncated
    | some _ => fail .malformed
  else
    let n : Int := (ds.foldl (fun n c => n * 10 + (c.toNat - 48)) 0 : Nat)
    return if sign = some '-' then -n else n

def atExponent : Reader Bool := do
  let c ← peek
  return c == some 'e' || c == some 'E'

/-- A number behind its sign. -/
def number (negative : Bool) : Reader Number := do
  let whole ← digits
  if whole.isEmpty then
    match ← peek with
    | none => fail .truncated
    | some _ => fail .malformed
  else if 1 < whole.length ∧ whole.head? = some '0' then fail .malformed
  else
    match ← peek with
    | some '.' =>
      advance
      let fraction ← digits
      if fraction.isEmpty then
        match ← peek with
        | none => fail .truncated
        | some _ => fail .malformed
      else if ← atExponent then
        advance
        float whole fraction (← exponent)
      else float whole fraction 0
    | _ =>
      if ← atExponent then
        advance
        float whole [] (← exponent)
      else
        match leading whole 0 with
        | (n, 0) =>
          if !negative then return .natural n
          else if n = 0 ∨ Nat.pow 2 63 < n then return .float
          else return .negative
        | _ => float whole [] 0

/-- Skips digits; there has to be one. -/
def skipDigits : Reader Unit := do
  if (← digits).isEmpty then fail .malformed

/-- Skips the exponent of a number, if there is one. -/
def skipExponent : Reader Unit := do
  if ← atExponent then
    advance
    let sign ← peek
    if sign = some '+' ∨ sign = some '-' then advance
    skipDigits

/-- Skips a number behind its sign. A number that stops short is malformed. -/
def skipNumber : Reader Unit := do
  let whole ← digits
  if whole.isEmpty ∨ (1 < whole.length ∧ whole.head? = some '0') then fail .malformed
  else
    if (← peek) = some '.' then
      advance
      skipDigits
    skipExponent

mutual

/-- Skips a value. -/
def skipValue : Nat → Reader Unit
  | 0 => fail .truncated
  | fuel + 1 => do
    let c ← need
    match c with
    | 'n' => expect ['n', 'u', 'l', 'l']
    | 't' => expect ['t', 'r', 'u', 'e']
    | 'f' => expect ['f', 'a', 'l', 's', 'e']
    | '-' => do
      advance
      skipNumber
    | '\x22' => do
      advance
      skipString
    | '[' => do
      advance
      if (← need) = ']' then advance else skipItems fuel
    | '\x7b' => do
      advance
      if (← need) = '\x7d' then advance else skipMembers fuel
    | c => if Text.isDigit c then skipNumber else fail .malformed

/-- Skips the items of an array and its end. -/
def skipItems : Nat → Reader Unit
  | 0 => fail .truncated
  | fuel + 1 => do
    skipValue fuel
    let c ← need
    if c = ']' then advance
    else if c = ',' then
      advance
      skipItems fuel
    else fail .malformed

/-- Skips the members of an object and its end. -/
def skipMembers : Nat → Reader Unit
  | 0 => fail .truncated
  | fuel + 1 => do
    token '\x22'
    skipString
    token ':'
    skipValue fuel
    let c ← need
    if c = '\x7d' then advance
    else if c = ',' then
      advance
      skipMembers fuel
    else fail .malformed

end

/-- Skips a value of any depth. -/
def skip : Reader Unit := do skipValue (2 * (← get).length + 2)

/-- Refuses the value that comes next. A plain value is read first, and what is wrong with it
counts. -/
def refuse {α : Type} : Reader α := do
  let c ← need
  match c with
  | 'n' => expect ['n', 'u', 'l', 'l']
  | 't' => expect ['t', 'r', 'u', 'e']
  | 'f' => expect ['f', 'a', 'l', 's', 'e']
  | '-' => do
    advance
    discard (number true)
  | '\x22' => do
    advance
    discard stringBody
  | '[' | '\x7b' => pure ()
  | c => if Text.isDigit c then discard (number false) else fail .malformed
  fail .unfitting

/-- Reads a string. -/
def string : Reader String := do
  if (← need) = '\x22' then
    advance
    stringBody
  else refuse

/-- Reads an integer from zero to `2 ^ 64 - 1`. -/
def unsigned : Reader UInt64 := do
  let c ← need
  if Text.isDigit c then
    match ← number false with
    | .natural n => return UInt64.ofNat n
    | _ => fail .unfitting
  else refuse

/-- Reads null or else a value. -/
def nullable {α : Type} (read : Reader α) : Reader (Option α) := do
  if (← next) = some 'n' then
    expect ['n', 'u', 'l', 'l']
    return none
  else return some (← read)

/-- Reads a whole text; only blanks may follow. -/
def whole {α : Type} (read : Reader α) (text : String) : Except Problem α := do
  let (a, rest) ← (do
    let a ← read
    match ← next with
    | none => return a
    | some _ => fail .malformed : Reader α).run text.toList
  if rest.isEmpty then return a else throw .malformed

end Reader

end EditorScripting.Json
