import ClassLang.Diagnostic.Basic
/-!
The log that collects the diagnostics of one or more parses, and the failure that an aborted parse
ends with, which keeps the log as it was at that moment.
-/

namespace ClassLang

/-- The diagnostics registered since the log was last cleared, oldest first. -/
structure DiagnosticLog where
  entries : List Diagnostic := []
  deriving DecidableEq, Repr

/-- The end of an aborted parse, with all diagnostics registered by then. -/
structure CompilationError where
  diagnostics : List Diagnostic
  deriving DecidableEq, Repr

namespace DiagnosticLog

def empty : DiagnosticLog :=
  {}

def register (log : DiagnosticLog) (d : Diagnostic) : DiagnosticLog :=
  ⟨log.entries ++ [d]⟩

def clear (_ : DiagnosticLog) : DiagnosticLog :=
  {}

def hasErrors (log : DiagnosticLog) : Bool :=
  !log.entries.isEmpty

/-- The failure that reports everything in the log. -/
def snapshot (log : DiagnosticLog) : CompilationError :=
  ⟨log.entries⟩

@[simp] theorem entries_register (log : DiagnosticLog) (d : Diagnostic) :
    (log.register d).entries = log.entries ++ [d] := rfl

@[simp] theorem entries_clear (log : DiagnosticLog) : log.clear.entries = [] := rfl

@[simp] theorem diagnostics_snapshot (log : DiagnosticLog) :
    log.snapshot.diagnostics = log.entries := rfl

end DiagnosticLog

namespace CompilationError

def message (e : CompilationError) : String :=
  "compilation failed with " ++ toString e.diagnostics.length ++ " error(s)"

end CompilationError

end ClassLang
