import ClassLang.Command.Run
/-!
The program: reads the files that the arguments name, runs the command on them, and writes what
comes of it.
-/

namespace ClassLang

def ioReason : IO.Error → String
  | .noFileOrDirectory .. => ReadFailure.reason .absent
  | .inappropriateType _ code _ =>
      if code = 20 then ReadFailure.reason .notDirectory else ReadFailure.reason .isDirectory
  | .permissionDenied _ code details => details ++ " (os error " ++ toString code ++ ")"
  | e => toString e

def readFile (file : String) : IO (Except String String) := do
  try
    let content ← IO.FS.readBinFile file
    match String.fromUTF8? content with
    | some text => return .ok text
    | none => return .error (ReadFailure.reason .notText)
  catch e =>
    return .error (ioReason e)

/-- Reads files that were read before. -/
def readerOf (contents : List (String × Except String String)) : FileReader :=
  fun file => (contents.lookup file).getD (.error (ReadFailure.reason .absent))

end ClassLang

open ClassLang in
def main (arguments : List String) : IO UInt32 := do
  let contents ← (Command.filesRead arguments).mapM fun file => return (file, ← readFile file)
  let outcome := Command.run arguments (← IO.getEnv "RUST_LOG") (readerOf contents)
  for event in outcome.events do
    IO.eprintln event.line
  IO.eprint outcome.errorText
  IO.print outcome.text
  return outcome.code
