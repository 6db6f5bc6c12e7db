import EditorScripting.Script.Operator
import EditorScripting.Script.Printing
import EditorScripting.Text.Blank
import EditorScripting.Text.Case

/-!
The built-in functions that compute from plain values. A function is known by its name and by the
types of its arguments; the receiver of a method is its first argument.

These are the functions on numbers, text, ranges and containers that a script needs to look at
values. Functions that change an array or a map in place, that replace, trim or crop text, that work
on function values (`Fn`, `call`, `curry`) or on time, and `eval`, which runs a text as code, are
left out: a call of one of them is the call of a function that does not exist.
-/
namespace EditorScripting.Script

namespace Library

/-- The place of a text inside another one. -/
def indexOf (part : List Char) : List Char → Nat → Option Nat
  | [], i => if part.isEmpty then some i else none
  | c :: r, i => if part.isPrefixOf (c :: r) then some i else indexOf part r (i + 1)

/-- The pieces between the occurrences of a separator, the current one in reverse. -/
def splitPieces (separator : List Char) : Nat → List Char → List Char → List (List Char)
  | 0, piece, s => [piece.reverse ++ s]
  | n + 1, piece, s =>
    match s with
    | [] => [piece.reverse]
    | c :: r =>
      if separator.isPrefixOf (c :: r) then
        piece.reverse :: splitPieces separator n [] ((c :: r).drop separator.length)
      else splitPieces separator n (c :: piece) r

/-- The pieces between the occurrences of a separator, at most as many as asked for; the last one is
then all of the text that is left. An empty separator stands before, between and behind all
characters. Text that is empty is one piece. -/
def split (separator s : List Char) (atMost : Option Int) : List (List Char) :=
  let pieces :=
    if separator.isEmpty then [] :: s.map ([·]) ++ [[]]
    else splitPieces separator (s.length + 1) [] s
  if s.isEmpty then [[]]
  else
    match atMost with
    | none => pieces
    | some n =>
      let kept := n.toNat - 1
      if pieces.length ≤ kept + 1 then pieces
      else pieces.take kept ++ [separator.intercalate (pieces.drop kept)]

/-- The words of a text. -/
def words (s : List Char) : List (List Char) :=
  if s.isEmpty then [[]]
  else
    (s.splitBy fun a b => Text.isBlank a == Text.isBlank b).filter fun w =>
      !(w.head?.any Text.isBlank)

/-- A text in two parts; a negative place counts from the end. -/
def splitHere (s : List Char) (place : Int) : List (List Char) :=
  let n := if place < 0 then s.length - place.natAbs else place.toNat
  [s.take n, s.drop n]

/-- Part of a text. A negative start counts from the end; what lies outside is left out. -/
def subText (s : List Char) (start length : Int) : List Char :=
  let n : Int := s.length
  let start := if start < 0 then max 0 (n + start) else start
  if length ≤ 0 then [] else (s.drop start.toNat).take length.toNat

/-- The part of a text that a range selects. -/
def subRange (s : List Char) (first last : Int) (closed : Bool) : List Char :=
  let start := max first 0
  let stop := max last start
  subText s start (stop - start + if closed then 1 else 0)

/-- Text filled up to a length with another text. -/
def fill (padding : List Char) : Nat → List Char → List Char
  | 0, _ => []
  | n + 1, [] => match padding with
    | [] => []
    | c :: r => c :: fill padding n r
  | n + 1, c :: r => c :: fill padding n r

/-- Text padded up to a length, within the limit on text. -/
def pad (limits : Limits) (s : String) (length : Int) (padding : List Char) :
    Except Fault String :=
  let tooLarge : Except Fault String := .error (.tooLarge "Length of string")
  if length ≤ 0 then .ok s
  else if Limits.exceeds limits.stringSize length.toNat then tooLarge
  else
    let padded := s ++ String.ofList (fill padding (length.toNat - s.length) padding)
    if s.length < length.toNat ∧ Limits.exceeds limits.stringSize padded.utf8ByteSize then tooLarge
    else .ok padded

/-- Why a text is no integer of the given radix, or else that integer. -/
def readInt (radix : Nat) (cs : List Char) : Except String Int :=
  let value? (c : Char) : Option Nat :=
    if Text.isDigit c then some (c.toNat - 48)
    else if 'a' ≤ c && c ≤ 'z' then some (c.toNat - 87)
    else if 'A' ≤ c && c ≤ 'Z' then some (c.toNat - 55)
    else none
  let (negative, digits) := match cs with
    | '-' :: r => (true, r)
    | '+' :: r => (false, r)
    | r => (false, r)
  if cs.isEmpty then .error "cannot parse integer from empty string"
  else if digits.isEmpty then .error "invalid digit found in string"
  else
    -- the first problem counts, whether a digit is none or the number has become too long
    digits.foldlM (fun n c =>
      match (value? c).filter (· < radix) with
      | none => .error "invalid digit found in string"
      | some d =>
        let n := radix * n + (if negative then -(d : Int) else d)
        if maxInt < n then .error "number too large to fit in target type"
        else if n < minInt then .error "number too small to fit in target type"
        else .ok n) 0

/-- Reads an integer; blanks around it do not matter. -/
def parseInt (s : String) (radix : Int) : Except Fault Value :=
  if radix < 2 ∨ 36 < radix then
    .error (.arithmetic ("Invalid radix: '" ++ toString radix ++ "'"))
  else
    match readInt radix.toNat (Text.trim s.toList) with
    | .ok n => .ok (.int n)
    | .error why =>
      .error (.arithmetic ("Error parsing integer number '" ++ s ++ "': " ++ why))

/-- An integer inside a range. -/
def inRange (n first last : Int) (closed : Bool) : Bool :=
  decide (first ≤ n) && if closed then decide (n ≤ last) else decide (n < last)

def strings (pieces : List (List Char)) : Value :=
  .array (pieces.map fun p => .string (String.ofList p))

/-- The first place of a text in another one at or behind a start, which counts from the end if it
is negative. Nothing is found in text that is empty or ends before the start. -/
def textIndex (part s : String) (start : Int) : Value :=
  let start := if start < 0 then s.length - start.natAbs else start.toNat
  if s.length ≤ start then .int (-1)
  else
    match indexOf part.toList (s.toList.drop start) start with
    | some i => .int i
    | none => .int (-1)

/-- The lesser and the greater of two numbers. It is the second one if they are in no order. -/
def lesser (a b : Float) : Float := if a ≤ b then a else b

def greater (a b : Float) : Float := if b ≤ a then a else b

/-- Properties of plain values. -/
def property? (name : String) (v : Value) : Option Value :=
  match name, v with
  | "len", .string s => some (.int s.length)
  | "len", .array a => some (.int a.length)
  | "is_empty", .string s => some (.bool s.isEmpty)
  | "is_empty", .array a => some (.bool a.isEmpty)
  | "is_empty", .range a b closed => some (.bool (if closed then decide (b < a) else decide (b ≤ a)))
  | "bytes", .string s => some (.int s.utf8ByteSize)
  | "chars", .string s => some (.letters s)
  | "start", .range a _ _ => some (.int a)
  | "end", .range _ b _ => some (.int b)
  | "is_inclusive", .range _ _ closed => some (.bool closed)
  | "is_exclusive", .range _ _ closed => some (.bool !closed)
  | _, _ => none

/-- Applies a function that fails on some values of the right types. -/
def fallible? (name : String) (args : List Value) : Option (Except Fault Value) :=
  match name, args with
  | "abs", [.int n] => some ((Arithmetic.abs n).map .int)
  | "parse_int", [.string s] => some (parseInt s 10)
  | "parse_int", [.string s, .int radix] => some (parseInt s radix)
  | "to_int", [.float x] => some ((Arithmetic.truncate x).map .int)
  | _, _ => none

/-- Functions that change a text or look into it. -/
def onText? (name : String) (args : List Value) : Option Value :=
  let text (cs : List Char) : Option Value := some (.string (String.ofList cs))
  match name, args with
  | "to_upper", [.string s] => some (.string (Text.upper s))
  | "to_lower", [.string s] => some (.string (Text.lower s))
  | "to_upper", [.char c] => some (.char (match Text.upperChar c with | [d] => d | _ => c))
  | "to_lower", [.char c] => some (.char (match Text.lowerChar c with | [d] => d | _ => c))
  | "contains", [.string s, .string t] => some (.bool (indexOf t.toList s.toList 0).isSome)
  | "contains", [.string s, .char c] => some (.bool (s.toList.contains c))
  | "starts_with", [.string s, .string t] => some (.bool (t.toList.isPrefixOf s.toList))
  | "ends_with", [.string s, .string t] => some (.bool (t.toList.isSuffixOf s.toList))
  | "index_of", [.string s, .string t] => some (textIndex t s 0)
  | "index_of", [.string s, .char c] => some (textIndex c.toString s 0)
  | "index_of", [.string s, .string t, .int start] => some (textIndex t s start)
  | "index_of", [.string s, .char c, .int start] => some (textIndex c.toString s start)
  | "sub_string", [.string s, .int start] => text (subText s.toList start s.length)
  | "sub_string", [.string s, .int start, .int n] => text (subText s.toList start n)
  | "sub_string", [.string s, .range a b closed] => text (subRange s.toList a b closed)
  | "split", [.string s] => some (strings (words s.toList))
  | "split", [.string s, .int n] => some (strings (splitHere s.toList n))
  | "split", [.string s, .string t] => some (strings (split t.toList s.toList none))
  | "split", [.string s, .char c] => some (strings (split [c] s.toList none))
  | "split", [.string s, .string t, .int n] => some (strings (split t.toList s.toList (some n)))
  | "split", [.string s, .char c, .int n] => some (strings (split [c] s.toList (some n)))
  | _, _ => none

/-- Functions that choose one of two values or convert between types. -/
def onScalars? (name : String) (args : List Value) : Option Value :=
  match name, args with
  | "abs", [.float x] => some (.float x.abs)
  | "min", [.int a, .int b] => some (.int (min a b))
  | "max", [.int a, .int b] => some (.int (max a b))
  | "min", [.float a, .float b] => some (.float (lesser a b))
  | "max", [.float a, .float b] => some (.float (greater a b))
  | "min", [.int a, .float b] => some (.float (lesser (Arithmetic.toFloat a) b))
  | "max", [.int a, .float b] => some (.float (greater (Arithmetic.toFloat a) b))
  | "min", [.float a, .int b] => some (.float (lesser a (Arithmetic.toFloat b)))
  | "max", [.float a, .int b] => some (.float (greater a (Arithmetic.toFloat b)))
  | "min", [.string a, .string b] => some (.string (if b < a then b else a))
  | "max", [.string a, .string b] => some (.string (if a < b then b else a))
  | "min", [.char a, .char b] => some (.char (if b < a then b else a))
  | "max", [.char a, .char b] => some (.char (if a < b then b else a))
  | "to_int", [.int n] => some (.int n)
  | "to_int", [.char c] => some (.int c.toNat)
  | "to_float", [.int n] => some (.float (Arithmetic.toFloat n))
  | "to_float", [.float x] => some (.float x)
  | "type_of", [v] => some (.string v.typeName)
  | _, _ => none

/-- Functions on maps and ranges. -/
def onContainers? (name : String) (args : List Value) : Option Value :=
  match name, args with
  | "len", [.map m] => some (.int m.length)
  | "is_empty", [.map m] => some (.bool m.isEmpty)
  | "contains", [.map m, .string key] => some (.bool (Value.lookup key m).isSome)
  | "contains", [.range a b closed, .int n] => some (.bool (inRange n a b closed))
  | "keys", [.map m] => some (.array (m.map fun e => .string e.1))
  | "values", [.map m] => some (.array (m.map (·.2)))
  | _, _ => none

/-- Applies a function that fails on no values of the right types. Properties are functions too. -/
def infallible? (name : String) (args : List Value) : Option Value :=
  (((onText? name args).or (onScalars? name args)).or (onContainers? name args)).or
    (match args with
      | [v] => property? name v
      | _ => none)

/-- Applies a function to plain values, if there is one of that name for their types. -/
def call? (name : String) (args : List Value) : Option (Except Fault Value) :=
  match fallible? name args with
  | some r => some r
  | none => (infallible? name args).map .ok

/-- Applies a function that changes its first argument; the result comes with the new value. -/
def change? (limits : Limits) (name : String) (args : List Value) :
    Option (Except Fault (Value × Value)) :=
  match name, args with
  | "pad", [.string s, .int n, .char c] =>
    some ((pad limits s n [c]).map fun s => (.unit, .string s))
  | "pad", [.string s, .int n, .string t] =>
    some ((pad limits s n t.toList).map fun s => (.unit, .string s))
  | _, _ => none

/-- An index that counts from the end if it is negative. -/
def offset? (index : Int) (size : Nat) : Option Nat :=
  let i := if index < 0 then index + size else index
  if 0 ≤ i ∧ i < size then some i.toNat else none

/-- The place and the number of the bits that a range of an integer's bits selects. -/
def bitRange (first last : Int) (closed : Bool) : Except Fault (Nat × Nat) :=
  let bit (i : Int) : Except Fault Nat :=
    if 0 ≤ i ∧ i < 64 + (if closed then 0 else 1) then .ok i.toNat else .error (.bitBounds i)
  do
    let a ← bit first
    let b ← bit last
    return (a, b + (if closed then 1 else 0) - a)

/-- The element at an index. A missing key of a map is unit. -/
def index (container key : Value) : Except Fault Value :=
  match container, key with
  | .array items, .int i =>
    match (offset? i items.length).bind (items[·]?) with
    | some v => .ok v
    | none => .error (.arrayBounds i items.length)
  | .string s, .int i =>
    match (offset? i s.length).bind (s.toList[·]?) with
    | some c => .ok (.char c)
    | none => .error (.stringBounds i s.length)
  | .string s, .range a b closed => .ok (.string (String.ofList (subRange s.toList a b closed)))
  | .map entries, .string k => .ok ((Value.lookup k entries).getD .unit)
  | .int n, .int i =>
    match offset? i 64 with
    | some i => .ok (.bool (n.fdiv (Int.pow 2 i) % 2 == 1))
    | none => .error (.bitBounds i)
  | .int n, .range a b closed => do
    let (i, count) ← bitRange a b closed
    return .int (wrapInt (n.fdiv (Int.pow 2 i) % Int.pow 2 count))
  | .array _, k | .string _, k | .int _, k => .error (.wrongType k.internalName "i64")
  | .map _, k => .error (.wrongType k.internalName "string")
  | c, k => .error (.noIndexer c.typeName k.typeName none)

/-- A container with another element at an index that it has. What is no element of such a container
is a fault. -/
def update (container key value : Value) : Except Fault Value :=
  match container, key with
  | .array items, .int i =>
    match offset? i items.length with
    | some i => .ok (.array (items.set i value))
    | none => .error (.arrayBounds i items.length)
  | .map entries, .string k => .ok (.map (Value.insertEntry k value entries))
  | .string s, .int i =>
    match offset? i s.length, value with
    | some i, .char c => .ok (.string (String.ofList (s.toList.set i c)))
    | some _, v => .error (.wrongType v.internalName "char")
    | none, _ => .error (.stringBounds i s.length)
  | .int n, .int i =>
    match offset? i 64, value with
    | some i, .bool b =>
      let bit := Int.pow 2 i
      let isSet := n.fdiv bit % 2 == 1
      .ok (.int (wrapInt (if b == isSet then n else if b then n + bit else n - bit)))
    | some _, v => .error (.wrongType v.internalName "bool")
    | none, _ => .error (.bitBounds i)
  | .string s, .range a b closed =>
    let start := (max a 0).toNat
    let stop := (b + if closed then 1 else 0).toNat
    let cs := s.toList
    .ok (.string (String.ofList (cs.take start ++ value.plainText.toList ++ cs.drop stop)))
  | .int n, .range a b closed => do
    let (i, count) ← bitRange a b closed
    match value with
    | .int v =>
      let unit := Int.pow 2 i
      let old := n.fdiv unit % Int.pow 2 count
      return .int (wrapInt (n + (v % Int.pow 2 count - old) * unit))
    | v => .error (.wrongType v.internalName "integer")
  | .array _, k | .string _, k | .int _, k => .error (.wrongType k.internalName "i64")
  | .map _, k => .error (.wrongType k.internalName "string")
  | c, k => .error (.noIndexer c.typeName k.typeName (some value.typeName))

end Library

end EditorScripting.Script
