import ClassLang.Command.Event
import ClassLang.Diagnostic.Report
import ClassLang.Session
import ClassLang.Traversal.EntryPoint
/-!
Batches: files that are parsed one after the other with one log of diagnostics, and what is written
about them. The log is cleared after each file.
-/

namespace ClassLang

/-- The text that a run writes, and the events in it. -/
structure Output where
  text : String := ""
  events : List LogEvent := []
  deriving DecidableEq, Repr

namespace Output

def append (a b : Output) : Output :=
  ⟨a.text ++ b.text, a.events ++ b.events⟩

instance : Append Output :=
  ⟨append⟩

end Output

namespace Batch

def parsingEvents (tokens : List Token) (file : String) : List LogEvent :=
  let ending := match Program.ofStream (TokenStream.ofTokens tokens file) file with
    | .ok p => LogEvent.parsed file p.classes.length
    | .error d => LogEvent.aborted file d.summary
  [LogEvent.tokenized file tokens.length, LogEvent.parsing file, ending]

def contentEvents (content : Except String String) (file : String) : List LogEvent :=
  match content with
  | .error _ => []
  | .ok source =>
      match tokenize source file with
      | .error _ => []
      | .ok tokens => parsingEvents tokens file

def opening (read : FileReader) (file : String) : Output :=
  { text := "Running file: " ++ file ++ "\n",
    events := LogEvent.running file :: contentEvents (read file) file }

def success (p : Program) (file : String) : Output :=
  { text := "Scan and Parse Successful\n",
    events := [if p.hasEntryPoint then LogEvent.foundEntryPoint file
      else LogEvent.noEntryPoint file] }

/-- What is written about a file that is no program. Without a source no line of it is shown. -/
def failure (read : FileReader) (e : CompilationError) (file : String) : Output :=
  let source := match read file with
    | .ok source => source
    | .error _ => ""
  { text := "Compilation error:\n" ++
      String.join (e.diagnostics.map fun d => d.report source file) }

/-- Parses a file and clears the log. -/
def runFile (read : FileReader) (file : String) : StateM DiagnosticLog Output :=
  fun log =>
    match (Session.parseFile read file).run log with
    | .ok p log => (opening read file ++ success p file, log.clear)
    | .error e log => (opening read file ++ failure read e file, log.clear)

def runFiles (read : FileReader) : List String → StateM DiagnosticLog Output
  | [] => pure {}
  | file :: files => do
      let first ← runFile read file
      let rest ← runFiles read files
      return first ++ rest

def run (read : FileReader) (files : List String) : Output :=
  ((runFiles read files).run DiagnosticLog.empty).1

end Batch

end ClassLang
