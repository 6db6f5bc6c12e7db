import EditorScripting.Repl.Command

/-!
The program: it reads files and lines, and writes what the loop answers.
-/
open EditorScripting Repl

/-- The bytes of a file, if there is one. -/
def readBytes (path : String) : IO (Option ByteArray) := do
  try return some (← IO.FS.readBinFile path) catch _ => return none

/-- The default place of the configuration script. -/
def configPath : IO (Option String) := do
  match ← IO.getEnv "XDG_CONFIG_HOME" with
  | some dir => return some (dir ++ "/editor-scripting/init.script")
  | none =>
    match ← IO.getEnv "HOME" with
    | some home => return some (home ++ "/.config/editor-scripting/init.script")
    | none => return none

/-- Prompts for lines and answers them until the input ends. -/
partial def converseLines (s : State) : IO (Option Fatal) := do
  let out ← IO.getStdout
  out.putStr "> "
  out.flush
  let line ← try some <$> (← IO.getStdin).getLine catch _ => pure none
  match line with
  | none => return some .input
  | some "" => return none
  | some text =>
    match s.run (.ofText text) with
    | .finished => return none
    | .failed e => return some (.value e)
    | .printed lines s =>
      out.putStr (lineText lines)
      converseLines s

def main (args : List String) : IO UInt32 := do
  let err ← IO.getStderr
  let place ← configPath
  let script ← match place with
    | some path => readBytes path
    | none => pure none
  let (settings, said) := configure (place.getD "") script
  err.putStr said
  match Task.ofArguments args with
  | .printConfig =>
    IO.println settings.pretty
    return 0
  | .edit path =>
    let file ← match path with
      | some p => readBytes p
      | none => pure none
    let fatal ← match State.open Guest.Standalone.around settings path fun _ => file with
      | .error f => pure (some f)
      | .ok s => converseLines s
    err.putStr (farewell fatal)
    return if fatal.isSome then 1 else 0
