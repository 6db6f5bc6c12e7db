import EditorScripting.Text.Ascii

/-!
Host symbol names and guest identifiers. A host name may hold any character; a guest identifier is
a letter or underscore followed by letters, digits and underscores. `ofHostName` writes a name as an
identifier and `toHostName` reads it back: words pass through, a dash becomes an underscore, any
other character becomes the escape `_u<hex>_`, and a leading digit gets an underscore in front.
-/
namespace EditorScripting.Identifier

open Text

/-- A character that stands for itself in an identifier. -/
def isWordChar (c : Char) : Bool := isAlphanumeric c || c == '_'

/-- The identifier text of one character of a host name. -/
def encodeChar (c : Char) : List Char :=
  if isWordChar c then [c]
  else if c = '-' then ['_']
  else '_' :: 'u' :: hexDigits c.toNat ++ ['_']

/-- A host name as a guest identifier. -/
def ofHostName (name : List Char) : List Char :=
  match name with
  | [] => []
  | c :: _ => (if isDigit c then ['_'] else []) ++ name.flatMap encodeChar

/-- Only characters that are written as escapes may be read from one. -/
def isEscaped (c : Char) : Bool := !isWordChar c && c != '-'

/-- The character that a run of hexadecimal digits escapes. -/
def decodeDigits? (digits : List Char) : Option Char :=
  if digits.isEmpty then none else (charOfCode? (hexValue digits)).filter isEscaped

/-- Reads `u<hex>_`, the part of an escape after its opening underscore, and returns the character
with the text after the closing underscore. -/
def escape? : List Char → Option (Char × List Char)
  | 'u' :: r =>
    match r.dropWhile isHexDigit with
    | '_' :: rest => (decodeDigits? (r.takeWhile isHexDigit)).map (·, rest)
    | _ => none
  | _ => none

theorem escape?_length {cs rest : List Char} {c : Char} (h : escape? cs = some (c, rest)) :
    rest.length < cs.length := by
  unfold escape? at h
  split at h
  · rename_i r
    split at h
    · rename_i tail hd
      obtain ⟨d, -, hp⟩ := Option.map_eq_some_iff.1 h
      obtain rfl : tail = rest := congrArg Prod.snd hp
      have hle : (r.dropWhile isHexDigit).length ≤ r.length :=
        (List.dropWhile_sublist isHexDigit).length_le
      rw [hd] at hle
      simp only [List.length_cons] at hle ⊢
      omega
    · simp at h
  · simp at h

/-- Reads an identifier without its protecting underscore. -/
def decode : List Char → List Char
  | [] => []
  | c :: r =>
    if c = '_' then
      match h : escape? r with
      | some (d, rest) =>
        have := escape?_length h
        d :: decode rest
      | none => '-' :: decode r
    else c :: decode r
termination_by cs => cs.length
decreasing_by all_goals simp_all; try omega

/-- A guest identifier as a host name. An underscore before a leading digit is dropped. -/
def toHostName : List Char → List Char
  | '_' :: d :: r => if isDigit d then decode (d :: r) else decode ('_' :: d :: r)
  | cs => decode cs

/-- `ofHostName` on strings. -/
def guestName (name : String) : String := String.ofList (ofHostName name.toList)

/-- `toHostName` on strings. -/
def hostName (name : String) : String := String.ofList (toHostName name.toList)

end EditorScripting.Identifier
