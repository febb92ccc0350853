import ClassLang.Grammar.Expression
import ClassLang.Syntax.Stmt
/-!
Rules for statements. The first token decides which statement it is. An `else` belongs to the
nearest `if` that can have it.
-/

namespace ClassLang

namespace Grammar

open Rule

/-- An expression, unless the token that would end it comes at once. -/
def optionalExpression (expr : Rule Expr) (terminator : Symbol) : Rule (Option Expr) := do
  if (← kind) = .symbol terminator then return none
  else
    let value ← expr
    return some value

def expressionStatement (expr : Rule Expr) : Rule Stmt := do
  let position ← position
  let value ← expr
  let _ ← expectIn (.symbol .semicolon) "expression statement"
  return .expression position value

def returnStatement (expr : Rule Expr) : Rule Stmt := do
  let start ← advance
  let value ← optionalExpression expr .semicolon
  let _ ← expectIn (.symbol .semicolon) "return statement"
  return .returnValue start.position value

def breakStatement : Rule Stmt := do
  let start ← advance
  let _ ← expectIn (.symbol .semicolon) "break statement"
  return .breakLoop start.position

/-- A lone semicolon is an empty block. -/
def emptyStatement : Rule Stmt := do
  let start ← advance
  return .block start.position ⟨start.position, []⟩

/-- A local variable, which must be given a value. -/
def declarationStatement (expr : Rule Expr) : Rule Stmt := do
  let start ← advance
  let name ← identifier
  let _ ← expectIn (.symbol .assign) "var declaration"
  let init ← expr
  let _ ← expectIn (.symbol .semicolon) "var declaration"
  return .declaration start.position name init

section Compound

variable (expr : Rule Expr) (stmt : Rule Stmt)

def whileStatement : Rule Stmt := do
  let start ← advance
  let _ ← expectIn (.symbol .openParen) "while statement"
  let predicate ← expr
  let _ ← expectIn (.symbol .closeParen) "while statement"
  let body ← stmt
  return .whileLoop start.position predicate body

def forStatement : Rule Stmt := do
  let start ← advance
  let _ ← expectIn (.symbol .openParen) "for statement"
  let first ← optionalExpression expr .semicolon
  let _ ← expectIn (.symbol .semicolon) "for statement"
  let terminate ← optionalExpression expr .semicolon
  let _ ← expectIn (.symbol .semicolon) "for statement"
  let increment ← optionalExpression expr .closeParen
  let _ ← expectIn (.symbol .closeParen) "for statement"
  let body ← stmt
  return .forLoop start.position first terminate increment body

def ifStatement : Rule Stmt := do
  let start ← advance
  let _ ← expectIn (.symbol .openParen) "if statement"
  let predicate ← expr
  let _ ← expectIn (.symbol .closeParen) "if statement"
  let thenBranch ← stmt
  if (← kind) = .keyword .kwElse then
    let _ ← advance
    let elseBranch ← stmt
    return .conditional start.position predicate thenBranch (some elseBranch)
  else return .conditional start.position predicate thenBranch none

end Compound

/-- Statements in braces, listed at the opening brace. -/
def block (stmt : Rule Stmt) (bound : Nat) : Rule (NodeList Stmt) := do
  let start ← expectIn (.symbol .openBrace) "block statement"
  let body ← toCloseBrace "block statement" stmt bound
  return ⟨start.position, body⟩

def blockStatement (stmt : Rule Stmt) (bound : Nat) : Rule Stmt := do
  let body ← block stmt bound
  return .block body.position body

def statementOf (expr : Rule Expr) (stmt : Rule Stmt) (bound : Nat) : Rule Stmt := do
  match ← kind with
  | .keyword .kwIf => ifStatement expr stmt
  | .symbol .openBrace => blockStatement stmt bound
  | .keyword .kwVar => declarationStatement expr
  | .keyword .kwReturn => returnStatement expr
  | .keyword .kwFor => forStatement expr stmt
  | .keyword .kwWhile => whileStatement expr stmt
  | .keyword .kwBreak => breakStatement
  | .symbol .semicolon => emptyStatement
  | _ => expressionStatement expr

def statement : Nat → Rule Stmt
  | 0 => expressionStatement (expression 0)
  | bound + 1 => statementOf (expression (bound + 1)) (statement bound) (bound + 1)

end Grammar

end ClassLang
