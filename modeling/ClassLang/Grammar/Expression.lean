import ClassLang.Grammar.Rule
import ClassLang.Text.Integer
/-!
Rules for expressions. Each level of precedence reads operands of the next tighter level and then
combines them, from the loosest to the tightest: assignment; `||`; `&&`, both grouped to the left;
`==` and `!=`, and the order relations, at most one of each; sums and products, grouped to the
right; `new`, `cast` and the operators before an operand; those after it; constants, variables,
calls and parentheses.
-/

namespace ClassLang

namespace Grammar

open Rule

/-- Operators that group to the left: all of them stand at the first operand. -/
def moreLeft (op? : TokenKind → Option BinaryOp) (operand : Rule Expr) (position : Position) :
    Nat → Expr → Rule Expr
  | 0, left => pure left
  | bound + 1, left => do
      match op? (← kind) with
      | none => return left
      | some op =>
          let _ ← advance
          let right ← operand
          moreLeft op? operand position bound (.binary position op left right)

def chainLeft (op? : TokenKind → Option BinaryOp) (operand : Rule Expr) (bound : Nat) :
    Rule Expr := do
  let position ← position
  let left ← operand
  moreLeft op? operand position bound left

/-- Operands between operators that group to the right. -/
def chainRight (op? : TokenKind → Option BinaryOp) (operand : Rule Expr) : Nat → Rule Expr
  | 0 => operand
  | bound + 1 => do
      let position ← position
      let left ← operand
      match op? (← kind) with
      | none => return left
      | some op =>
          let _ ← advance
          let right ← chainRight op? operand bound
          return .binary position op left right

/-- One operand, or two with an operator between them. -/
def atMostOne (op? : TokenKind → Option BinaryOp) (operand : Rule Expr) : Rule Expr := do
  let position ← position
  let left ← operand
  match op? (← kind) with
  | none => return left
  | some op =>
      let _ ← advance
      let right ← operand
      return .binary position op left right

def disjunctionOp? : TokenKind → Option BinaryOp
  | .symbol .or => some .or
  | _ => none

def conjunctionOp? : TokenKind → Option BinaryOp
  | .symbol .and => some .and
  | _ => none

def equalityOp? : TokenKind → Option BinaryOp
  | .symbol .equal => some .equal
  | .symbol .notEqual => some .notEqual
  | _ => none

def relationOp? : TokenKind → Option BinaryOp
  | .symbol .less => some .less
  | .symbol .greater => some .greater
  | .symbol .lessEqual => some .lessEqual
  | .symbol .greaterEqual => some .greaterEqual
  | _ => none

def sumOp? : TokenKind → Option BinaryOp
  | .symbol .plus => some .add
  | .symbol .minus => some .subtract
  | _ => none

def productOp? : TokenKind → Option BinaryOp
  | .symbol .star => some .multiply
  | .symbol .slash => some .divide
  | .symbol .percent => some .modulo
  | _ => none

def leadingOp? : TokenKind → Option UnaryOp
  | .symbol .minus => some .negate
  | .symbol .not => some .not
  | .symbol .increment => some .increment
  | .symbol .decrement => some .decrement
  | _ => none

def trailingOp? : TokenKind → Option UnaryOp
  | .symbol .increment => some .increment
  | .symbol .decrement => some .decrement
  | _ => none

section Levels

variable (expr : Rule Expr) (bound : Nat)

def arguments : Rule (NodeList Expr) :=
  inParens expr bound

/-- A variable, or a call if a parenthesis follows its name. -/
def varOrCall (position : Position) (reference : Option Expr) : Rule Expr := do
  let name ← identifier
  if (← kind) = .symbol .openParen then
    let _ ← advance
    let list ← arguments expr bound
    let _ ← expectIn (.symbol .closeParen) "argument list"
    return .call position reference name list
  else return .var position reference name

def parenthesized : Rule Expr := do
  let _ ← advance
  let inner ← expr
  let _ ← expectIn (.symbol .closeParen) "parenthesized expression"
  return inner

/-- An integer constant, which must have a value. -/
def integerConstant : Rule Expr := do
  let token ← current
  match readInteger? token.value.toList with
  | none => reject (.badInteger token.value)
  | some value =>
      let _ ← advance
      return .integer token.position value

/-- A variable or call after `this` or `super` and a dot. -/
def qualified : Rule Expr := do
  let qualifier ← advance
  let next ← current
  let wanted := "`.` after `" ++ qualifier.value ++ "`"
  let _ ← expectOr (.symbol .dot) (.expected wanted next.display)
  varOrCall expr bound qualifier.position (some (.var qualifier.position none qualifier.value))

def primary : Rule Expr := do
  let token ← current
  match token.kind with
  | .symbol .openParen => parenthesized expr
  | .integer => integerConstant
  | .boolean =>
      let _ ← advance
      return .boolean token.position (token.value = "true")
  | .string =>
      let _ ← advance
      return .string token.position token.value
  | .keyword .kwThis => qualified expr bound
  | .keyword .kwSuper => qualified expr bound
  | .identifier => varOrCall expr bound token.position none
  | _ => unexpected "expression"

def trailing : Rule Expr := do
  let position ← position
  let operand ← primary expr bound
  match trailingOp? (← kind) with
  | none => return operand
  | some op =>
      let _ ← advance
      return .unary position op operand true

def creation : Rule Expr := do
  let start ← advance
  let className ← identifier
  let _ ← expectIn (.symbol .openParen) "new expression"
  let _ ← expectIn (.symbol .closeParen) "new expression"
  return .create start.position className

/-- The conversion of a value to a type. -/
def conversion : Rule Expr := do
  let start ← advance
  let _ ← expectIn (.symbol .openParen) "cast expression"
  let target ← identifier
  let _ ← expectIn (.symbol .comma) "cast expression"
  let operand ← expr
  let _ ← expectIn (.symbol .closeParen) "cast expression"
  return .cast start.position target operand

end Levels

def leading (operand : Rule Expr) : Nat → Rule Expr
  | 0 => operand
  | bound + 1 => do
      match leadingOp? (← kind) with
      | none => operand
      | some op =>
          let start ← advance
          let inner ← leading operand bound
          return .unary start.position op inner false

def factor (expr : Rule Expr) (bound : Nat) : Rule Expr := do
  match ← kind with
  | .keyword .kwNew => creation
  | .keyword .kwCast => conversion expr
  | _ => leading (trailing expr bound) bound

def product (expr : Rule Expr) (bound : Nat) : Rule Expr :=
  chainRight productOp? (factor expr bound) bound

def sum (expr : Rule Expr) (bound : Nat) : Rule Expr :=
  chainRight sumOp? (product expr bound) bound

def relation (expr : Rule Expr) (bound : Nat) : Rule Expr :=
  atMostOne relationOp? (sum expr bound)

def equality (expr : Rule Expr) (bound : Nat) : Rule Expr :=
  atMostOne equalityOp? (relation expr bound)

def conjunction (expr : Rule Expr) (bound : Nat) : Rule Expr :=
  chainLeft conjunctionOp? (equality expr bound) bound

def disjunction (expr : Rule Expr) (bound : Nat) : Rule Expr :=
  chainLeft disjunctionOp? (conjunction expr bound) bound

/-- A disjunction, or an assignment if that is a variable and an equals sign follows. -/
def assignment (expr : Rule Expr) (bound : Nat) : Rule Expr := do
  let position ← position
  let left ← disjunction expr bound
  match left with
  | .var _ reference name =>
      if (← kind) = .symbol .assign then
        let _ ← advance
        let value ← expr
        return .assign position (reference.bind Expr.varName?) name value
      else return left
  | _ => return left

def expression : Nat → Rule Expr
  | 0 => unexpected "expression"
  | bound + 1 => assignment (expression bound) (bound + 1)

end Grammar

end ClassLang
