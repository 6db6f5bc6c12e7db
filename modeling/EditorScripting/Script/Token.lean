import EditorScripting.Decimal.Layout
import EditorScripting.Script.Position

/-!
The words of a script, and the ways in which a text fails to be a sequence of words.
-/
namespace EditorScripting.Script

/-- What is wrong with a malformed token. -/
inductive Misspelling where
  | unexpected (text : String)
  | openString
  | stringTooLong (limit : Nat)
  | escape (text : String)
  | number (text : String)
  | char (text : String)
  | identifier (text : String)
  /-- A symbol that exists in other notations only, with advice. -/
  | foreign (advice : String)
deriving DecidableEq, Repr

namespace Misspelling

def message : Misspelling → String
  | unexpected text => "Unexpected '" ++ text ++ "'"
  | openString => "Open string is not terminated"
  | stringTooLong limit =>
    "Length of string exceeds the maximum limit (" ++ toString limit ++ ")"
  | escape text => "Invalid escape sequence: '" ++ text ++ "'"
  | number text => "Invalid number: '" ++ text ++ "'"
  | char text => "Invalid character: '" ++ text ++ "'"
  | identifier text => "Variable name is not proper: '" ++ text ++ "'"
  | foreign advice => advice

end Misspelling

inductive Token where
  | int (n : Int)
  | float (x : Float)
  | char (c : Char)
  | string (s : String)
  /-- A piece of template text that an embedded expression follows. -/
  | template (s : String)
  | identifier (name : String)
  | keyword (text : String)
  | symbol (text : String)
  /-- A word or symbol without a meaning of its own. -/
  | reserved (text : String)
  | malformed (cause : Misspelling)
  | finish
deriving Repr, Inhabited

namespace Token

/-- How messages quote a token. -/
def text : Token → String
  | int n => toString n
  | float x => Decimal.guestLayout.format x
  | char c => c.toString
  | string s => "\"" ++ s ++ "\""
  | template _ => "string"
  | identifier name => name
  | keyword text | symbol text | reserved text => text
  | malformed cause => cause.message
  | finish => "\x7bEOF\x7d"

def isSymbol (t : Token) (text : String) : Bool :=
  match t with
  | symbol s => s == text
  | _ => false

def isKeyword (t : Token) (text : String) : Bool :=
  match t with
  | keyword s => s == text
  | _ => false

/-- Symbols that can only stand before an operand. -/
def openingSymbols : List String :=
  [";", ":", ",", "??", "..", "..=", "\x7b", "(", "[", "+", "+=", "-", "-=", "*", "*=", "/", "/=",
    "%", "%=", "**", "**=", "<<", "<<=", ">>", ">>=", "=", "==", "!=", "<", ">", "!", "<=", ">=",
    "|", "&", "!in", "&&", "&=", "||", "|=", "^", "^="]

/-- Words that can only stand before an operand. -/
def openingKeywords : List String := ["if", "while", "until", "in", "return", "throw"]

/-- A sign right after the token belongs to what follows. -/
def opensOperand : Token → Bool
  | symbol s => openingSymbols.contains s
  | keyword s => openingKeywords.contains s
  | _ => false

end Token

/-- A token and where it starts. -/
structure Lexeme where
  token : Token
  position : Position
deriving Repr, Inhabited

end EditorScripting.Script
