/-!
Texts that come from files. A file may be missing, and what it holds may be no text.
-/
namespace EditorScripting.Text

/-- Why a file gives no text. -/
inductive Unreadable where
  | missing
  | notText
deriving DecidableEq, Repr

/-- What the system says about a file. -/
def Unreadable.reason : Unreadable → String
  | missing => "No such file or directory (os error 2)"
  | notText => "stream did not contain valid UTF-8"

/-- The text in a file, which is there if it has bytes. -/
def decode (bytes : Option ByteArray) : Except Unreadable String :=
  match bytes with
  | none => .error .missing
  | some b =>
    match String.fromUTF8? b with
    | some text => .ok text
    | none => .error .notText

end EditorScripting.Text
