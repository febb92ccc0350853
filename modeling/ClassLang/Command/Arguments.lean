/-!
The arguments of the command: options, which begin with a dash, and the names of files.
-/

namespace ClassLang

/-- What the arguments ask for. -/
structure Settings where
  verbose : Bool := false
  files : List String := []
  deriving DecidableEq, Repr

/-- Why arguments are refused. -/
inductive UsageError where
  | unknownOption (text : String)
  | unneededValue (option : String)
  | repeatedOption (option : String)
  | emptyFileName
  deriving DecidableEq, Repr

/-- Why no file is parsed. -/
inductive Refusal where
  | helpWanted
  | misuse (e : UsageError)
  deriving DecidableEq, Repr

inductive CommandOption where
  | verbose
  | help
  deriving DecidableEq, Repr

namespace CommandOption

def shortForm? : Char → Option CommandOption
  | 'v' => some .verbose
  | 'h' => some .help
  | _ => none

def longForm? : String → Option CommandOption
  | "--verbose" => some .verbose
  | "--help" => some .help
  | _ => none

end CommandOption

namespace Settings

/-- Gives an option. The first request for help ends the reading of arguments. -/
def give (s : Settings) : CommandOption → Except Refusal Settings
  | .help => .error .helpWanted
  | .verbose =>
      if s.verbose then .error (.misuse (.repeatedOption "--verbose"))
      else .ok { s with verbose := true }

/-- Gives the options that a single dash introduces, a letter each. -/
def giveShort : Settings → List Char → Except Refusal Settings
  | s, [] => .ok s
  | s, c :: cs =>
      match CommandOption.shortForm? c with
      | none => .error (.misuse (.unknownOption (String.ofList ['-', c])))
      | some option => do
          let s ← s.give option
          giveShort s cs

/-- Gives an option that is written out. No option takes a value. -/
def giveLong (s : Settings) (argument : List Char) : Except Refusal Settings :=
  let name := String.ofList (argument.takeWhile (· ≠ '='))
  match CommandOption.longForm? name with
  | none => .error (.misuse (.unknownOption name))
  | some option =>
      if argument.contains '=' then .error (.misuse (.unneededValue name)) else s.give option

def addFile (s : Settings) (name : String) : Except Refusal Settings :=
  if name = "" then .error (.misuse .emptyFileName)
  else .ok { s with files := s.files ++ [name] }

/-- Reads an argument that may be an option. A dash alone is the name of a file. -/
def readArgument (s : Settings) (argument : String) : Except Refusal Settings :=
  match argument.toList with
  | '-' :: '-' :: _ => s.giveLong argument.toList
  | '-' :: c :: cs => s.giveShort (c :: cs)
  | _ => s.addFile argument

/-- Reads arguments. Two dashes alone end the options. -/
def readAll : Settings → List String → Except Refusal Settings
  | s, [] => .ok s
  | s, argument :: arguments =>
      if argument = "--" then arguments.foldlM addFile s
      else do
        let s ← s.readArgument argument
        readAll s arguments

def defaultFile : String :=
  "tests/fixtures/parser_test.btm"

def inputFiles (s : Settings) : List String :=
  if s.files.isEmpty then [defaultFile] else s.files

/-- The settings that the arguments of the command stand for. -/
def ofArguments (arguments : List String) : Except Refusal Settings :=
  readAll {} arguments

end Settings

end ClassLang
