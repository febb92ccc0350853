import ClassLang.Grammar.Statement
import ClassLang.Syntax.Program
/-!
Rules for declarations: the program, its classes and their members.
-/

namespace ClassLang

namespace Grammar

open Rule

/-- A type is named by an identifier. -/
def typeName : Rule String :=
  identifier

def formal : Rule Formal := do
  let position ← position
  let typeName ← typeName
  let name ← identifier
  return ⟨position, typeName, name⟩

def formals (bound : Nat) : Rule (NodeList Formal) :=
  inParens formal bound

/-- A method from its opening parenthesis on. -/
def methodRest (bound : Nat) (position : Position) (returnType name : String) : Rule Method := do
  let _ ← advance
  let formals ← formals bound
  let _ ← expectIn (.symbol .closeParen) "method declaration"
  let body ← block (statement bound) bound
  return ⟨position, returnType, name, formals, body⟩

def fieldInit (bound : Nat) : Rule (Option Expr) := do
  if (← kind) = .symbol .assign then
    let _ ← advance
    let value ← expression bound
    return some value
  else return none

/-- A field or a method, which a parenthesis after its name tells apart. -/
def member (bound : Nat) : Rule Member := do
  let position ← position
  let typeName ← typeName
  let name ← identifier
  if (← kind) = .symbol .openParen then
    let method ← methodRest bound position typeName name
    return .method method
  else
    let init ← fieldInit bound
    let _ ← expectIn (.symbol .semicolon) "field declaration"
    return .field ⟨position, typeName, name, init⟩

/-- The class that a class extends, if it does. -/
def parent : Rule (Option String) := do
  if (← kind) = .keyword .kwExtends then
    let _ ← advance
    let name ← identifier
    return some name
  else return none

def classDecl (file : String) (bound : Nat) : Rule ClassDecl := do
  let start ← expect (.keyword .kwClass)
  let name ← identifier
  let parent ← parent
  let _ ← expectIn (.symbol .openBrace) "class declaration"
  let position ← position
  let members ← toCloseBrace "class declaration" (member bound) bound
  return ⟨start.position, file, name, parent, ⟨position, members⟩⟩

def toEndOfInput {α : Type} (item : Rule α) : Nat → Rule (List α)
  | 0 => pure []
  | bound + 1 => do
      if (← kind) = .endOfInput then return []
      else
        let first ← item
        let rest ← toEndOfInput item bound
        return first :: rest

def program (file : String) (bound : Nat) : Rule Program := do
  let position ← position
  let classes ← toEndOfInput (classDecl file bound) bound
  return ⟨position, ⟨position, classes⟩⟩

end Grammar

end ClassLang
