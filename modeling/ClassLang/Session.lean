import ClassLang.Diagnostic.Log
import ClassLang.Grammar.Declaration
import ClassLang.Source.Directory
/-!
Sessions: parses that share one log of diagnostics. A parse that succeeds leaves the log alone; one
that fails adds its diagnostic and ends with a copy of the log.
-/

namespace ClassLang

namespace Program

/-- The program that a token stream spells, or the first thing in it that is against the grammar. -/
def ofStream (s : TokenStream) (file : String) : Except Diagnostic Program :=
  match Rule.bounded (Grammar.program file) s with
  | .ok p _ => .ok p
  | .error d _ => .error d

/-- The program that a source text spells, or the first thing that is wrong with the text. -/
def ofSource (source file : String) : Except Diagnostic Program := do
  let s ← TokenStream.ofSource source file
  ofStream s file

/-- The program in a file, whose content or the reason why it has none is given. -/
def ofContent (content : Except String String) (file : String) : Except Diagnostic Program :=
  match content with
  | .ok source => ofSource source file
  | .error reason => .error ⟨.unreadable file reason, Position.ofBytes file 0⟩

end Program

/-- Steps that share a log, and may end in the failure of a parse. -/
abbrev Session (α : Type) :=
  EStateM CompilationError DiagnosticLog α

namespace Session

def register (d : Diagnostic) : Session Unit :=
  modify fun log => log.register d

def clear : Session Unit :=
  modify DiagnosticLog.clear

/-- The outcome of a parse. A diagnostic is registered, and the failure shows the log with it. -/
def conclude (outcome : Except Diagnostic Program) : Session Program :=
  match outcome with
  | .ok p => pure p
  | .error d => do
      register d
      throw (← get).snapshot

def parseStream (s : TokenStream) (file : String) : Session Program :=
  conclude (Program.ofStream s file)

def parseSource (source file : String) : Session Program :=
  conclude (Program.ofSource source file)

def parseFile (read : FileReader) (file : String) : Session Program :=
  conclude (Program.ofContent (read file) file)

end Session

end ClassLang
