import ClassLang.Text.Guarded
/-!
Events that the command logs while it runs.
-/

namespace ClassLang

inductive LogLevel where
  | error
  | warn
  | info
  | debug
  | trace
  deriving DecidableEq, Repr

namespace LogLevel

def name : LogLevel → String
  | .error => "ERROR"
  | .warn => "WARN"
  | .info => "INFO"
  | .debug => "DEBUG"
  | .trace => "TRACE"

/-- The place of a level in the order from what always matters to what seldom does. -/
def detail : LogLevel → Nat
  | .error => 1
  | .warn => 2
  | .info => 3
  | .debug => 4
  | .trace => 5

end LogLevel

/-- An event, with the part of the program that it happened in. -/
structure LogEvent where
  level : LogLevel
  target : String
  message : String
  fields : List (String × String) := []
  deriving DecidableEq, Repr

namespace LogEvent

/-- The event as it is written. The message is guarded, the values of fields are as they are. -/
def line (e : LogEvent) : String :=
  e.level.name ++ " " ++ e.target ++ ": " ++ guarded e.message ++
    String.join (e.fields.map fun field => " " ++ field.1 ++ "=" ++ field.2)

/-! The parts of the program that log events. -/

def commandTarget : String :=
  "bantam"

def scannerTarget : String :=
  "bantam::lexer::lexer"

def parserTarget : String :=
  "bantam::parser::parser"

def running (file : String) : LogEvent :=
  { level := .info, target := commandTarget, message := "Running file: " ++ file }

def foundEntryPoint (file : String) : LogEvent :=
  { level := .info, target := commandTarget, message := file ++ ": found entry point Main.main" }

def noEntryPoint (file : String) : LogEvent :=
  { level := .warn, target := commandTarget,
    message := file ++ ": no `void main()` in class Main" }

def tokenized (file : String) (tokens : Nat) : LogEvent :=
  { level := .trace, target := scannerTarget, message := "tokenized",
    fields := [("file", file), ("tokens", toString tokens)] }

def parsing (file : String) : LogEvent :=
  { level := .debug, target := parserTarget, message := "parsing", fields := [("file", file)] }

def parsed (file : String) (classes : Nat) : LogEvent :=
  { level := .debug, target := parserTarget, message := "parsed",
    fields := [("file", file), ("classes", toString classes)] }

def aborted (file reason : String) : LogEvent :=
  { level := .debug, target := parserTarget, message := "parse aborted",
    fields := [("file", file), ("error", reason)] }

end LogEvent

end ClassLang
