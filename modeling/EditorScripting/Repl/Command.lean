import EditorScripting.Configuration
import EditorScripting.Repl.Line

/-!
The command line: settings come from the configuration script at its default place, the first
argument that is no option names the file to edit, and lines are read until the input ends.
-/
namespace EditorScripting.Repl

open Host Guest

/-- Why the program ends with an error. -/
inductive Fatal where
  /-- The file to edit cannot be read. -/
  | file (why : Text.Unreadable)
  /-- A line of input is no text. -/
  | input
  | start (f : Failure)
  | value (e : HostError)
deriving Repr

namespace Fatal

/-- The detailed form of a host error. -/
def hostText : HostError → String
  | .reclaimed h =>
    "Reclaimed(HostRef \x7b index: " ++ toString h.index.toNat ++ ", generation: " ++
      toString h.generation.toNat ++ " \x7d)"
  | .notCallable printed => "NotCallable(" ++ Text.debugQuoted printed ++ ")"
  | .void name => "Void(" ++ Text.debugQuoted name ++ ")"

/-- The detailed form of a failure. -/
def failureText : Failure → String
  | .compile detail => "Compile(" ++ Text.debugQuoted detail ++ ")"
  | .evaluation detail => "Eval(" ++ Text.debugQuoted detail ++ ")"
  | .conversion detail => "Conversion(" ++ Text.debugQuoted detail ++ ")"
  | .timeout limit => "Timeout(" ++ limit.text ++ ")"
  | .cancelled => "Cancelled"
  | .wrongType expected found =>
    "WrongType \x7b expected: " ++ Text.debugQuoted expected ++ ", found: " ++
      Text.debugQuoted found ++ " \x7d"
  | .host e => "Host(" ++ hostText e ++ ")"
  | .alreadyInitialized => "AlreadyInitialized"
  | .configuration detail => "Config(" ++ Text.debugQuoted detail ++ ")"

/-- What the program says when it ends with an error. -/
def text : Fatal → String
  | file .missing =>
    "Os \x7b code: 2, kind: NotFound, message: \"No such file or directory\" \x7d"
  | file .notText =>
    "Custom \x7b kind: InvalidData, error: \"stream contained invalid UTF-8\" \x7d"
  | input =>
    "Error \x7b kind: InvalidData, message: \"stream did not contain valid UTF-8\" \x7d"
  | start f => failureText f
  | value e => hostText e

end Fatal

/-- What the arguments ask for. -/
inductive Task where
  | printConfig
  | edit (path : Option String)
deriving DecidableEq, Repr

/-- Every argument that starts with two dashes is an option. The first of the others is the path. -/
def Task.ofArguments (args : List String) : Task :=
  if "--print-config" ∈ args then .printConfig
  else .edit (args.find? fun a => !("--".toList.isPrefixOf a.toList))

/-- What the program has written, and how it ended. -/
structure Outcome where
  output : String
  errors : String
  exitCode : UInt32
deriving DecidableEq, Repr

/-- The text of lines. -/
def lineText (lines : List String) : String := String.join (lines.map (· ++ "\n"))

/-- The settings that the configuration script makes, and what is said about its failure. -/
def configure (path : String) (bytes : Option ByteArray) : Settings × String :=
  match Configuration.initial.loadDefault path bytes with
  | (.ok _, c) => (c.settings, "")
  | (.error f, c) => (c.settings, lineText [f.message])

/-- Starts the loop for the file of a path, or for an empty buffer. -/
def State.open (around : Surroundings Standalone) (settings : Settings) (path : Option String)
    (file : String → Option ByteArray) : Except Fatal State := do
  let buffer ← match path with
    | none => pure (Buffer.ofText "" none)
    | some p => do
      let text ← (Text.decode (file p)).mapError .file
      pure (Buffer.ofText text (some p))
  (State.start around buffer settings).mapError .start

/-- The pieces of the input that end with a line feed, and what follows the last one. -/
def splitLines (input : List UInt8) : List (List UInt8) :=
  (input.splitBy fun a _ => a != 10)

/-- Writes prompts and answers until the input ends. -/
def converse (s : State) : List (List UInt8) → String × Option Fatal
  | [] => ("> ", none)
  | line :: rest =>
    match String.fromUTF8? ⟨line.toArray⟩ with
    | none => ("> ", some .input)
    | some text =>
      match s.run (.ofText text) with
      | .finished => ("> ", none)
      | .failed e => ("> ", some (.value e))
      | .printed lines s =>
        let (output, fatal) := converse s rest
        ("> " ++ lineText lines ++ output, fatal)

/-- The last words of a program that ends with an error. -/
def farewell (fatal : Option Fatal) : String :=
  match fatal with
  | some f => lineText ["Error: " ++ f.text]
  | none => ""

/-- Runs the whole program. -/
def run (args : List String) (file : String → Option ByteArray) (configPath : String)
    (config : Option ByteArray) (input : ByteArray) : Outcome :=
  let (settings, said) := configure configPath config
  match Task.ofArguments args with
  | .printConfig => ⟨lineText [settings.pretty], said, 0⟩
  | .edit path =>
    let (output, fatal) := match State.open Standalone.around settings path file with
      | .error f => ("", some f)
      | .ok s => converse s (splitLines input.toList)
    ⟨output, said ++ farewell fatal, if fatal.isSome then 1 else 0⟩

end EditorScripting.Repl
