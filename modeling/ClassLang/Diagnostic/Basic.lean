import ClassLang.Source.Position
import ClassLang.Text.Quoted
/-!
Diagnostics: what is wrong with a source file, where, and what the reader is told about it.
-/

namespace ClassLang

/-- The stage of reading a program that a diagnostic comes from. -/
inductive Stage where
  | reading
  | scanning
  | parsing
  deriving DecidableEq, Repr

namespace Stage

/-- The name that a diagnostic of the stage is reported under. -/
def errorName : Stage → String
  | .reading => "READ_ERROR"
  | .scanning => "LEX_ERROR"
  | .parsing => "PARSE_ERROR"

end Stage

/-- What is wrong. -/
inductive Cause where
  /-- The file could not be read. -/
  | unreadable (file reason : String)
  /-- No token starts with this character. -/
  | unrecognised (text : String)
  /-- A block comment is never closed. -/
  | unterminatedComment
  /-- Something stands where something else has to. -/
  | expected (wanted found : String)
  /-- A construct lacks one of its fixed tokens. -/
  | missing (construct token : String)
  /-- An integer constant has no value of its type. -/
  | badInteger (text : String)
  deriving DecidableEq, Repr

namespace Cause

/-- The stage at which such a thing is noticed. -/
def stage : Cause → Stage
  | .unreadable .. => .reading
  | .unrecognised _ => .scanning
  | .unterminatedComment => .scanning
  | .expected .. => .parsing
  | .missing .. => .parsing
  | .badInteger _ => .parsing

/-- The sentence that says what is wrong. -/
def message : Cause → String
  | .unreadable file reason => "could not read " ++ file ++ ": " ++ reason
  | .unrecognised text => "unrecognised token: " ++ quoted text
  | .unterminatedComment => "unterminated block comment"
  | .expected wanted found => "expected " ++ wanted ++ ", found `" ++ found ++ "`"
  | .missing construct token => "invalid " ++ construct ++ " - missing `" ++ token ++ "`"
  | .badInteger text => "error parsing integer constant: " ++ quoted text

/-- The text by which the end of the input is shown in a diagnostic. -/
def endText : String :=
  "EOF"

/-- A suggestion how to mend it, where there is one. -/
def tip : Cause → Option String
  | .unreadable .. => none
  | .unrecognised _ => none
  | .unterminatedComment => some "close the comment with `*/`"
  | .expected _ found =>
      if found = endText then some "reached the end of the file, is a `\x7d` missing?" else none
  | .missing _ token => if token = ";" then some "did you miss a semicolon?" else none
  | .badInteger text =>
      some ("Invalid number: `" ++ text ++ "`, is it above the integer limit?")

end Cause

/-- A single diagnostic: what is wrong and where. -/
structure Diagnostic where
  cause : Cause
  position : Position
  deriving DecidableEq, Repr

namespace Diagnostic

def stage (d : Diagnostic) : Stage :=
  d.cause.stage

def message (d : Diagnostic) : String :=
  d.cause.message

def tip (d : Diagnostic) : Option String :=
  d.cause.tip

/-- The diagnostic on one line, without its position. -/
def summary (d : Diagnostic) : String :=
  d.stage.errorName ++ ": " ++ d.message

end Diagnostic

end ClassLang
