import EditorScripting.Decimal.Rounding
import EditorScripting.Script.Token
import EditorScripting.Text.Ascii
import EditorScripting.Text.Blank

/-!
Splitting a text into tokens. Templates switch between text and tokens: after an embedded
expression the text goes on, so the lexer keeps a stack of the braces that are open.
-/
namespace EditorScripting.Script

open Text

namespace Lexer

/-- The part of a text that has not been read, and where it starts. -/
structure Rest where
  chars : List Char
  position : Position

namespace Rest

/-- The place behind `n` more characters of the same line. -/
def after (r : Rest) (n : Nat) : Rest :=
  ⟨r.chars.drop n, { r.position with column := r.position.column + n }⟩

/-- Behind the first character. -/
def tail (r : Rest) : Rest :=
  match r.chars with
  | [] => r
  | c :: cs => ⟨cs, r.position.next c⟩

end Rest

/-- Words with a meaning of their own. -/
def keywords : List String :=
  ["true", "false", "let", "const", "if", "else", "switch", "do", "while", "until", "loop", "for",
    "in", "continue", "break", "return", "throw", "try", "catch", "fn", "private", "import",
    "export", "as"]

/-- Words that name a built-in function but nothing else. -/
def reservedFunctions : List String :=
  ["print", "debug", "type_of", "eval", "Fn", "call", "curry", "is_shared", "is_def_var",
    "is_def_fn"]

/-- Functions among the reserved words that may also be called as methods. -/
def reservedMethods : List String := ["type_of", "call", "curry", "is_shared"]

/-- Words that are kept free. -/
def reservedWords : List String :=
  ["this", "var", "static", "shared", "is", "goto", "match", "case", "public", "protected", "new",
    "use", "with", "module", "package", "super", "spawn", "thread", "go", "sync", "async", "await",
    "yield", "default", "void", "null", "nil"] ++ reservedFunctions

/-- The token of a word. An identifier needs a letter before its first digit; a lone underscore is
a symbol. -/
def wordToken (word : List Char) : Token :=
  let text := String.ofList word
  if keywords.contains text then .keyword text
  else if text == "_" then .symbol text
  else if reservedWords.contains text then .reserved text
  else if (word.dropWhile (· == '_')).head?.any isLetter then .identifier text
  else .malformed (.identifier text)

def isWordStart (c : Char) : Bool := isLetter c || c == '_'

def isWordChar (c : Char) : Bool := isAlphanumeric c || c == '_'

/-- Digits without the underscores that separate them. -/
def significant (digits : List Char) : List Char := digits.filter (· != '_')

/-- The digits at the start of a text, with underscores between them. -/
def digitRun (valid : Char → Bool) (cs : List Char) : List Char :=
  cs.takeWhile fun c => valid c || c == '_'

/-- The number that decimal digits denote. -/
def decimalValue (digits : List Char) : Nat :=
  digits.foldl (fun n c => 10 * n + (c.toNat - 48)) 0

/-- The exponent of a number: its letter, its sign if there is one, and its digits. -/
structure Exponent where
  letter : Char
  sign : Option Char
  digits : List Char

/-- A decimal number: integer part, fraction and exponent, with an optional sign. Whole numbers
that 64 bits cannot hold become floating-point numbers. -/
def decimalToken (negative : Bool) (whole : List Char) (fraction : Option (List Char))
    (exponent : Option Exponent) : Token :=
  let float (e : Int) : Token :=
    let digits := whole ++ fraction.getD []
    let shift : Int := (fraction.getD []).length
    .float (Decimal.nearest negative (decimalValue digits) (e - shift))
  match fraction, exponent with
  | none, none =>
    let n : Int := decimalValue whole
    let n := if negative then -n else n
    if -9223372036854775808 ≤ n ∧ n ≤ 9223372036854775807 then .int n else float 0
  | _, none => float 0
  | _, some ⟨letter, sign, digits⟩ =>
    if digits.isEmpty then
      .malformed (.number (String.ofList ((if negative then ['-'] else []) ++ whole ++
        ((fraction.map ('.' :: ·)).getD []) ++ letter :: sign.toList)))
    else
      let e : Int := decimalValue digits
      float (if sign = some '-' then -e else e)

/-- The radix that a letter behind a leading zero announces. -/
def radixOf? (letter : Char) : Option Nat :=
  if letter = 'x' ∨ letter = 'X' then some 16
  else if letter = 'o' ∨ letter = 'O' then some 8
  else if letter = 'b' ∨ letter = 'B' then some 2
  else none

/-- A digit of a radix of up to sixteen. -/
def isDigitOf (radix : Nat) (c : Char) : Bool := isHexDigit c && decide (hexDigitValue c < radix)

/-- A number with a radix letter after its leading zero; a sign in front makes it malformed. The
bits of a large number are read as a signed one. -/
def radixToken (negative : Bool) (letter : Char) (radix : Nat) (digits : List Char) : Token :=
  let value := digits.foldl (fun n c => radix * n + hexDigitValue c) 0
  if negative || digits.isEmpty || Nat.pow 2 64 ≤ value then
    .malformed (.number (String.ofList ((if negative then [letter] else []) ++ digits)))
  else .int ((value : Int).bmod (Nat.pow 2 64))

/-- The exponent behind a number, and how many characters it takes. -/
def readExponent (cs : List Char) : Option Exponent × Nat :=
  match cs with
  | letter :: c :: r =>
    if letter = 'e' ∨ letter = 'E' then
      if isDigit c then
        let run := digitRun isDigit (c :: r)
        (some ⟨letter, none, significant run⟩, 1 + run.length)
      else if c = '+' ∨ c = '-' then
        let run := digitRun isDigit r
        (some ⟨letter, some c, significant run⟩, 2 + run.length)
      else (none, 0)
    else (none, 0)
  | _ => (none, 0)

/-- The fraction behind a whole number, and how many characters it takes. A point that is followed
by a letter, an underscore, another point or nothing does not belong to the number. -/
def readFraction (cs : List Char) : Option (List Char) × Nat :=
  match cs with
  | '.' :: c :: r =>
    if isDigit c then
      let run := digitRun isDigit (c :: r)
      (some (significant run), 1 + run.length)
    else if c = '_' ∨ c = '.' ∨ isLetter c then (none, 0)
    else (some ['0'], 1)
  | _ => (none, 0)

/-- The number at the start of a text, and how many characters it takes. A number with a radix
letter ends before the first character that is no digit of its radix. -/
def readNumber (negative : Bool) (cs : List Char) : Token × Nat :=
  let run := digitRun isDigit cs
  let digits := significant run
  let rest := cs.drop run.length
  let decimal : Token × Nat :=
    let (fraction, m) := readFraction rest
    let (exponent, n) := readExponent (rest.drop m)
    (decimalToken negative digits fraction exponent, run.length + m + n)
  match rest with
  | letter :: r =>
    match radixOf? letter with
    | some radix =>
      if digits = ['0'] then
        let tail := digitRun (isDigitOf radix) r
        (radixToken negative letter radix (significant tail), run.length + 1 + tail.length)
      else decimal
    | none => decimal
  | [] => decimal

/-- What ends a piece of text. -/
inductive Ending where
  | quote
  /-- An embedded expression follows. -/
  | expression
  /-- The text stops in the middle of the piece. -/
  | finish

/-- Text that has been read, where its first character stands, and where the reading stands. -/
structure Scanned where
  text : String
  first : Position
  rest : Rest
  ending : Ending

/-- Reads the digits of an escape `\x`, `\u` or `\U`. -/
def readEscape : Nat → List Char → Nat → Rest → Except (Misspelling × Position) (Char × Rest)
  | 0, seen, value, r =>
    match charOfCode? value with
    | some c => .ok (c, r)
    | none =>
      .error (.escape (String.ofList seen.reverse),
        { r.position with column := r.position.column - 1 })
  | n + 1, seen, value, r =>
    match r.chars with
    | [] => .error (.escape (String.ofList seen.reverse),
        { r.position with column := r.position.column - 1 })
    | c :: _ =>
      if isHexDigit c then readEscape n (c :: seen) (16 * value + hexDigitValue c) r.tail
      else .error (.escape (String.ofList (c :: seen).reverse), r.position)

/-- The text read so far is longer than it may be. -/
def tooLong (limit : Nat) (bytes : Nat) : Bool := limit != 0 && decide (limit < bytes)

/-- Reads quoted text up to its closing quote. A doubled quote stands for one. Text in double
quotes may go on in the next line after a backslash; `skipUntil` is the column up to which blanks
are then left out. -/
def readQuoted (limit : Nat) (start : Position) (quote : Char) :
    Nat → List Char → Nat → Nat → Rest → Except (Misspelling × Position) Scanned
  | 0, _, _, _, _ => .error (.openString, start)
  | fuel + 1, text, bytes, skipUntil, r =>
    let continues := quote == '\x22'
    let push (c : Char) (r : Rest) :=
      readQuoted limit start quote fuel (c :: text) (bytes + c.utf8Size) 0 r
    match r.chars with
    | [] => .error (.openString, start)
    | c :: cs =>
      if tooLong limit bytes then .error (.stringTooLong limit, start)
      else if c = quote then
        if cs.head? = some quote then push quote (r.after 2)
        else .ok ⟨String.ofList text.reverse, start, r.after 1, .quote⟩
      else if c = '\r' && cs.head? == some '\n' then
        readQuoted limit start quote fuel text bytes skipUntil r.tail
      else if c = '\x5c' then
        let r := r.tail
        match r.chars with
        | [] => .error (.openString, start)
        | d :: ds =>
          if tooLong limit bytes then .error (.stringTooLong limit, start)
          else if d = '\x5c' then push '\x5c' r.tail
          else if d = 't' then push '\t' r.tail
          else if d = 'r' then push '\r' r.tail
          else if d = 'n' then push '\n' r.tail
          else if d = 'x' ∨ d = 'u' ∨ d = 'U' then
            let n := if d = 'x' then 2 else if d = 'u' then 4 else 8
            match readEscape n [d, '\x5c'] 0 r.tail with
            | .ok (e, r) => push e r
            | .error e => .error e
          else if d = quote then push quote r.tail
          else if d = '\n' && continues then
            readQuoted limit start quote fuel text bytes (start.column + 1) r.tail
          else if d = '\r' && ds.head? == some '\n' && continues then
            readQuoted limit start quote fuel text bytes (start.column + 1) r.tail.tail
          else if d = '\n' then .error (.openString, start)
          else .error (.escape (String.ofList ['\x5c', d]), r.position)
      else if c = '\n' then .error (.openString, start)
      else if isBlank c && decide (r.position.column < skipUntil) then
        readQuoted limit start quote fuel text bytes skipUntil r.tail
      else push c r.tail

/-- Reads raw text up to `closing`, a quote with as many hashes behind it as stand in front of the
opening one. Nothing is escaped. -/
def readRaw (limit : Nat) (start : Position) (closing : List Char) :
    Nat → List Char → Nat → Rest → Except (Misspelling × Position) Scanned
  | 0, _, _, _ => .error (.openString, start)
  | fuel + 1, text, bytes, r =>
    match r.chars with
    | [] => .error (.openString, start)
    | c :: _ =>
      if tooLong limit bytes then .error (.stringTooLong limit, start)
      else if closing.isPrefixOf r.chars then
        .ok ⟨String.ofList text.reverse, start, r.after closing.length, .quote⟩
      else readRaw limit start closing fuel (c :: text) (bytes + c.utf8Size) r.tail

/-- Reads template text up to its closing quote or an embedded expression. The quote is written
twice to stand for itself, and a backslash takes its meaning from the start of an embedded
expression; nothing else is escaped. The backslash itself takes no column. -/
def readTemplate (limit : Nat) (start : Position) :
    Nat → List Char → Nat → Position → Rest → Except (Misspelling × Position) Scanned
  | 0, _, _, _, _ => .error (.openString, start)
  | fuel + 1, text, bytes, first, r =>
    let seen := if first = .nowhere then r.position else first
    let piece (first : Position) (rest : Rest) (ending : Ending) :=
      if tooLong limit bytes then .error (.stringTooLong limit, start)
      else .ok (Scanned.mk (String.ofList text.reverse) first rest ending)
    match r.chars with
    | [] => piece first r .finish
    | '$' :: '\x7b' :: _ => piece first (r.after 1) .expression
    | c :: cs =>
      if tooLong limit bytes then .error (.stringTooLong limit, start)
      else if c = '\x60' then
        if cs.head? = some '\x60' then
          let r := r.after 1
          let seen := if first = .nowhere then r.position else first
          readTemplate limit start fuel ('\x60' :: text) (bytes + 1) seen r.tail
        else piece first (r.after 1) .quote
      else if c = '\x5c' && cs.take 2 == ['$', '\x7b'] then
        readTemplate limit start fuel ('\x7b' :: '$' :: text) (bytes + 2) seen
          ⟨cs.drop 2, (r.after 2).position⟩
      else if c = '\r' && cs.head? == some '\n' then
        readTemplate limit start fuel text bytes seen r.tail
      else readTemplate limit start fuel (c :: text) (bytes + c.utf8Size) seen r.tail

/-- The token of a piece of template text. -/
def templateToken (s : Scanned) : Token :=
  match s.ending with
  | .quote => .string s.text
  | .expression => .template s.text
  | .finish => .malformed .openString

/-- Behind a block comment; `depth` comments are open. -/
def skipComment : Nat → Nat → Rest → Rest
  | 0, _, r => r
  | fuel + 1, depth, r =>
    match r.chars with
    | [] => r
    | '/' :: '*' :: _ => skipComment fuel (depth + 1) (r.after 2)
    | '*' :: '/' :: _ => if depth ≤ 1 then r.after 2 else skipComment fuel (depth - 1) (r.after 2)
    | _ :: _ => skipComment fuel depth r.tail

/-- Behind a line comment. A carriage return ends the line as well. -/
def skipLine : Nat → Rest → Rest
  | 0, r => r
  | fuel + 1, r =>
    match r.chars with
    | [] => r
    | '\n' :: _ => r.tail
    | '\r' :: '\n' :: cs => ⟨cs, ⟨r.position.line + 1, 1⟩⟩
    | '\r' :: cs => ⟨cs, ⟨r.position.line + 1, 1⟩⟩
    | _ :: _ => skipLine fuel r.tail

/-- Symbols, longest first, that stand for themselves. -/
def symbols : List String :=
  ["**=", "<<=", ">>=", "..=", "+=", "-=", "*=", "/=", "%=", "|=", "&=", "^=", "**", "<<", ">>",
    "==", "!=", "<=", ">=", "&&", "||", "??", "?.", "?[", "::", "..", "=>", "()", "#\x7b", "\x7b",
    "\x7d", "(", ")", "[", "]", ";", ",", ".", ":", "=", "+", "-", "*", "/", "%", "<", ">", "!",
    "|", "&", "^"]

/-- Symbols, longest first, that have no meaning; they win over the symbols they start with. -/
def reservedSymbols : List String :=
  ["===", "!==", "::<", "...", "# \x7b", "->", "<-", ":=", ":;", "(*", "*)", "++", "--", "<|", "|>",
    "!.", "#!", "#", "~", "@", "$", "?"]

/-- Advice for symbols that come from other notations. -/
def advice : String → Option String
  | "===" => some ("'===' is not a valid operator. This is not JavaScript! Should it be '=='?")
  | "!==" => some ("'!==' is not a valid operator. This is not JavaScript! Should it be '!='?")
  | "->" => some ("'->' is not a valid symbol. This is not C or C++!")
  | "<-" => some ("'<-' is not a valid symbol. This is not Go! Should it be '<='?")
  | ":=" => some
    ("':=' is not a valid assignment operator. This is not Go or Pascal! Should it be simply '='?")
  | "::<" => some ("'::<>' is not a valid symbol. This is not Rust! Should it be '::'?")
  | "(*" | "*)" => some
    ("'(* .. *)' is not a valid comment format. This is not Pascal! Should it be '/* .. */'?")
  | ":;" => some ("':;' is not a valid symbol. Should it be '::'?")
  | "# \x7b" => some ("'#' is not a valid symbol. Should it be '#\x7b'?")
  | _ => none

/-- Symbols with their characters. -/
def spelled (candidates : List String) : List (List Char × String) :=
  candidates.map fun s => (s.toList, s)

def spelledSymbols : List (List Char × String) := spelled symbols

def spelledReserved : List (List Char × String) := spelled reservedSymbols

/-- The first of some symbols with which a text starts. -/
def firstMatch (candidates : List (List Char × String)) (cs : List Char) :
    Option (List Char × String) :=
  candidates.find? fun s => s.1.isPrefixOf cs

/-- The symbol with which a text starts, and whether it is reserved. -/
def symbolAt? (cs : List Char) : Option (String × Bool) :=
  match firstMatch spelledSymbols cs, firstMatch spelledReserved cs with
  | some s, some r => if s.1.length < r.1.length then some (r.2, true) else some (s.2, false)
  | some s, none => some (s.2, false)
  | none, some r => some (r.2, true)
  | none, none => none

/-- `!in` is one symbol unless a longer word follows the exclamation mark. -/
def isNotIn : List Char → Bool
  | '!' :: 'i' :: 'n' :: r => !(r.head?.any isWordChar)
  | _ => false

def symbolToken (text : String) (isReserved : Bool) : Token :=
  if isReserved then
    match advice text with
    | some message => .malformed (.foreign message)
    | none => .reserved text
  else .symbol text

/-- What the lexer knows besides the text: whether a sign would belong to the next number, and for
each open template the number of braces open inside its embedded expression. -/
structure Mode where
  signed : Bool
  templates : List Nat

/-- The mode behind a token. -/
def Mode.after (m : Mode) (t : Token) : Mode :=
  let templates := match t, m.templates with
    | .template _, ts => 0 :: ts
    | .symbol "\x7b", n :: ts => (n + 1) :: ts
    | .symbol "#\x7b", n :: ts => (n + 1) :: ts
    | .symbol "\x7d", n :: ts => (n - 1) :: ts
    | _, ts => ts
  ⟨t.opensOperand, templates⟩

/-- The token is the closing brace of the embedded expression of a template. -/
def Mode.closes (m : Mode) (t : Token) : Bool :=
  match t, m.templates with
  | .symbol "\x7d", n :: _ => n ≤ 1
  | _, _ => false

/-- Reads a token at the start of a text that starts with neither blank nor comment. -/
def readToken (limit : Nat) (m : Mode) (r : Rest) : Token × Position × Rest :=
  let here (t : Token) (n : Nat) : Token × Position × Rest := (t, r.position, r.after n)
  match r.chars with
  | [] => (.finish, r.position, r)
  | c :: cs =>
    if isDigit c then
      let (t, n) := readNumber false (c :: cs)
      here t n
    else if c = '-' && m.signed && cs.head?.any isDigit then
      let (t, n) := readNumber true cs
      here t (n + 1)
    else if isWordStart c then
      let word := r.chars.takeWhile isWordChar
      here (wordToken word) word.length
    else if c = '\x22' then
      match readQuoted limit r.position c (cs.length + 1) [] 0 0 r.tail with
      | .ok s => (.string s.text, r.position, s.rest)
      | .error (e, p) => (.malformed e, p, ⟨[], p⟩)
    else if c = '\x27' then
      if cs.head? = some '\x27' then here (.malformed (.char "")) 2
      else
        match readQuoted limit r.position c (cs.length + 1) [] 0 0 r.tail with
        | .ok s =>
          match s.text.toList with
          | [d] => (.char d, r.position, s.rest)
          | _ => (.malformed (.char s.text), r.position, s.rest)
        | .error (e, p) => (.malformed e, p, ⟨[], p⟩)
    else if c = '\x60' then
      let first := match cs with
        | '\r' :: '\n' :: cs => ⟨cs, ⟨r.position.line + 1, 1⟩⟩
        | '\r' :: cs => ⟨cs, ⟨r.position.line + 1, 1⟩⟩
        | '\n' :: cs => ⟨cs, ⟨r.position.line + 1, 1⟩⟩
        | _ => r.tail
      match readTemplate limit r.position (cs.length + 1) [] 0 .nowhere first with
      | .ok s => (templateToken s, r.position, s.rest)
      | .error (e, p) => (.malformed e, p, ⟨[], p⟩)
    else if c = '#' && (cs.head? == some '\x22' || cs.head? == some '#') then
      let hashes := r.chars.takeWhile (· == '#')
      let rest := r.after hashes.length
      match rest.chars with
      | '\x22' :: _ =>
        match readRaw limit r.position ('\x22' :: hashes) (cs.length + 1) [] 0 (rest.after 1) with
        | .ok s => (.string s.text, r.position, s.rest)
        | .error (e, p) => (.malformed e, p, ⟨[], p⟩)
      | d :: _ => here (.malformed (.unexpected d.toString)) hashes.length
      | [] => here (.malformed .openString) hashes.length
    else if isNotIn r.chars then here (.symbol "!in") 3
    else
      match symbolAt? r.chars with
      | some (text, isReserved) => here (symbolToken text isReserved) text.length
      | none => here (.malformed (.unexpected c.toString)) 1

/-- Goes on with the text of a template behind an embedded expression. A piece without text stands
nowhere. -/
def resumeTemplate (limit : Nat) (r : Rest) : Token × Position × Rest :=
  let start := { r.position with column := r.position.column - 1 }
  match readTemplate limit start (r.chars.length + 1) [] 0 .nowhere r with
  | .ok s => (templateToken s, s.first, s.rest)
  | .error (e, p) => (.malformed e, p, ⟨[], p⟩)

/-- Reads tokens until the text ends or a token is malformed beyond repair. Every round reads at
least one character, so the length of the text is fuel enough. -/
def readAll (limit : Nat) : Nat → Mode → Rest → List Lexeme
  | 0, _, r => [⟨.finish, r.position⟩]
  | fuel + 1, m, r =>
    match r.chars with
    | [] => [⟨.finish, r.position⟩]
    | '/' :: '/' :: _ => readAll limit fuel m (skipLine (fuel + 1) r)
    | '/' :: '*' :: _ => readAll limit fuel m (skipComment (fuel + 1) 1 (r.after 2))
    | c :: _ =>
      if isAsciiBlank c then readAll limit fuel m r.tail
      else
        let (t, p, rest) := readToken limit m r
        if m.closes t then
          let (u, q, rest) := resumeTemplate limit rest
          let outer : Mode := ⟨false, m.templates.tail⟩
          ⟨t, p⟩ :: ⟨u, q⟩ :: readAll limit fuel (outer.after u) rest
        else ⟨t, p⟩ :: readAll limit fuel (m.after t) rest

end Lexer

/-- The tokens of a text, with an end token behind the last one. A string literal may have up to
`limit` bytes; zero means any number. -/
def tokenize (limit : Nat) (text : String) : List Lexeme :=
  let cs := text.toList
  Lexer.readAll limit (cs.length + 1) ⟨true, []⟩ ⟨cs, Position.start⟩

end EditorScripting.Script
