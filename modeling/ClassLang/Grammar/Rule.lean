import ClassLang.Syntax.Expr
import ClassLang.Token.Stream
/-!
Grammar rules: steps over a token stream that look at its current token, take tokens from it, and
end with a result or with the diagnostic of the current token. A rule that fails leaves the stream
where it stopped.

A rule that calls itself takes a bound on the tokens still pending. Every call of it inside itself
comes after a token, so the bound reaches zero only where no token is left and the current token is
the end mark; the rule then says what it says of the end mark. `Rule.bounded` starts with the number
of pending tokens.
-/

namespace ClassLang

/-- A step over a token stream, with a result or a diagnostic. -/
abbrev Rule (α : Type) :=
  EStateM Diagnostic TokenStream α

namespace Rule

variable {α : Type}

def current : Rule Token :=
  fun s => .ok s.current s

def kind : Rule TokenKind :=
  fun s => .ok s.current.kind s

def position : Rule Position :=
  fun s => .ok s.current.position s

/-- Takes the current token, whatever it is. -/
def advance : Rule Token :=
  fun s => .ok s.current s.advance

def reject (cause : Cause) : Rule α :=
  fun s => .error ⟨cause, s.current.position⟩ s

/-- Fails because something else is wanted in place of the current token. -/
def unexpected (wanted : String) : Rule α := do
  let token ← current
  reject (.expected wanted token.display)

/-- Takes a token of a kind, or fails for the given cause. -/
def expectOr (wanted : TokenKind) (cause : Cause) : Rule Token := do
  if (← kind) = wanted then advance else reject cause

/-- Takes a token of a kind, or says what stands in its place. -/
def expect (wanted : TokenKind) : Rule Token := do
  let token ← current
  expectOr wanted (.expected wanted.describe token.display)

/-- Takes a token of a kind, or says that the construct lacks it. -/
def expectIn (wanted : TokenKind) (construct : String) : Rule Token :=
  expectOr wanted (.missing construct wanted.describe)

def identifier : Rule String := do
  let token ← expect .identifier
  return token.value

/-- Items each after a comma, as many as there are. -/
def afterCommas (item : Rule α) : Nat → Rule (List α)
  | 0 => pure []
  | bound + 1 => do
      if (← kind) = .symbol .comma then
        let _ ← advance
        let first ← item
        let rest ← afterCommas item bound
        return first :: rest
      else return []

/-- Items between parentheses, separated by commas. The closing parenthesis is not taken. -/
def inParens (item : Rule α) (bound : Nat) : Rule (NodeList α) := do
  let position ← position
  if (← kind) = .symbol .closeParen then return ⟨position, []⟩
  else
    let first ← item
    let rest ← afterCommas item bound
    return ⟨position, first :: rest⟩

/-- Items up to a closing brace, which is taken. -/
def toCloseBrace (construct : String) (item : Rule α) : Nat → Rule (List α)
  | 0 => missingBrace
  | bound + 1 => do
      match ← kind with
      | .symbol .closeBrace =>
          let _ ← advance
          return []
      | .endOfInput => missingBrace
      | _ =>
          let first ← item
          let rest ← toCloseBrace construct item bound
          return first :: rest
where
  missingBrace : Rule (List α) :=
    reject (.missing construct (TokenKind.symbol .closeBrace).describe)

/-- Runs a rule with the number of pending tokens as its bound. -/
def bounded (rule : Nat → Rule α) : Rule α :=
  fun s => rule s.pending.length s

end Rule

end ClassLang
