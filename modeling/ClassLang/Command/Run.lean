import ClassLang.Command.Arguments
import ClassLang.Command.Batch
import ClassLang.Command.Filter
/-!
The command as a function of its arguments, its log setting and the files that it can read.
-/

namespace ClassLang

/-- How a run of the command ends: what it writes, the events that it shows, and the exit code. -/
structure Outcome where
  text : String
  errorText : String := ""
  events : List LogEvent := []
  code : UInt32 := 0
  deriving DecidableEq, Repr

namespace UsageError

def message : UsageError → String
  | .unknownOption text => "unexpected argument '" ++ text ++ "' found"
  | .unneededValue option => "unexpected value for '" ++ option ++ "' found"
  | .repeatedOption option => "the argument '" ++ option ++ "' cannot be used multiple times"
  | .emptyFileName => "a value is required for '[FILES]...' but none was supplied"

end UsageError

namespace Command

def usage : String :=
  "Usage: bantam [OPTIONS] [FILES]...\n"

def help : String :=
  "Scan and parse Bantam Java source files\n\n" ++ usage ++
    "\nArguments:\n  [FILES]...  Source files to parse, in order\n" ++
    "\nOptions:\n  -v, --verbose  Log parser activity\n  -h, --help     Print help\n"

/-- The filter of a run. A setting that is a filter wins over the option for more detail. -/
def filterOf (s : Settings) (setting : Option String) : LogFilter :=
  match setting.bind LogFilter.ofText? with
  | some filter => filter
  | none => LogFilter.ofCommand (if s.verbose then .debug else .info)

def refuse : Refusal → Outcome
  | .helpWanted => { text := help }
  | .misuse e =>
      { text := "", code := 2,
        errorText := "error: " ++ e.message ++ "\n\n" ++ usage ++
          "\nFor more information, try '--help'.\n" }

/-- Parses the files of the settings. Files that are no programs do not change the exit code. -/
def parseAll (s : Settings) (setting : Option String) (read : FileReader) : Outcome :=
  let output := Batch.run read s.inputFiles
  { text := output.text, events := output.events.filter (filterOf s setting).shows }

def run (arguments : List String) (setting : Option String) (read : FileReader) : Outcome :=
  match Settings.ofArguments arguments with
  | .error refusal => refuse refusal
  | .ok s => parseAll s setting read

def filesRead (arguments : List String) : List String :=
  match Settings.ofArguments arguments with
  | .error _ => []
  | .ok s => s.inputFiles

end Command

end ClassLang
