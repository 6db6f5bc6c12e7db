import EditorScripting.Text.Ascii
import EditorScripting.Text.Hidden

/-!
Text in quotes. The readable form puts a backslash before quotes and backslashes and nothing
else; the debugging form also writes control characters and invisible characters as escapes.
-/
namespace EditorScripting.Text

/-- One character of the readable form. -/
def readableChar (c : Char) : List Char :=
  if c = '\x22' || c = '\x5c' then ['\x5c', c] else [c]

/-- The readable form, from which the text can be read back. -/
def readable (cs : List Char) : List Char :=
  '\x22' :: cs.flatMap readableChar ++ ['\x22']

/-- One character of the debugging form between two quotes of a kind. -/
def debugChar (quote c : Char) : List Char :=
  if c = '\x00' then ['\x5c', '0']
  else if c = '\t' then ['\x5c', 't']
  else if c = '\r' then ['\x5c', 'r']
  else if c = '\n' then ['\x5c', 'n']
  else if c = quote || c = '\x5c' then ['\x5c', c]
  else if isHidden c then
    ['\x5c', 'u', '\x7b'] ++ hexDigits c.toNat ++ ['\x7d']
  else [c]

/-- The debugging form of a text. -/
def debugQuoted (s : String) : String :=
  String.ofList ('\x22' :: s.toList.flatMap (debugChar '\x22') ++ ['\x22'])

/-- The debugging form of a single character, which stands in single quotes. -/
def debugQuotedChar (c : Char) : String :=
  String.ofList ('\x27' :: debugChar '\x27' c ++ ['\x27'])

end EditorScripting.Text
