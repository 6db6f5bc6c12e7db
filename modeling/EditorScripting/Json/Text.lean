import EditorScripting.Text.Ascii

/-!
JSON texts of strings, numbers and objects. Quotes, backslashes and control characters are escaped
and nothing else is.
-/
namespace EditorScripting.Json

/-- The two hexadecimal digits of a number below 256, in lower case. -/
def hexPair (n : Nat) : List Char :=
  let digits := Text.hexDigits n
  if digits.length < 2 then '0' :: digits else digits

/-- A character inside a quoted text. -/
def escaped (c : Char) : List Char :=
  if c = '\x22' then ['\x5c', '\x22']
  else if c = '\x5c' then ['\x5c', '\x5c']
  else if c = '\x08' then ['\x5c', 'b']
  else if c = '\x0c' then ['\x5c', 'f']
  else if c = '\n' then ['\x5c', 'n']
  else if c = '\r' then ['\x5c', 'r']
  else if c = '\t' then ['\x5c', 't']
  else if c < ' ' then ['\x5c', 'u', '0', '0'] ++ hexPair c.toNat
  else [c]

/-- A string. -/
def quoted (s : String) : List Char := '\x22' :: s.toList.flatMap escaped ++ ['\x22']

/-- A natural number. -/
def natural (n : Nat) : List Char := Text.decimalDigits n

/-- A member of an object, with what stands between its name and its value. -/
def member (separator : List Char) (m : String × List Char) : List Char :=
  quoted m.1 ++ separator ++ m.2

/-- An object on one line. -/
def compactObject (members : List (String × List Char)) : List Char :=
  '\x7b' :: [','].intercalate (members.map (member [':'])) ++ ['\x7d']

/-- An object with one member on each line. -/
def prettyObject (members : List (String × List Char)) : List Char :=
  ['\x7b', '\n', ' ', ' '] ++
    [',', '\n', ' ', ' '].intercalate (members.map (member [':', ' '])) ++ ['\n', '\x7d']

end EditorScripting.Json
