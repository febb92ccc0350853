import ClassLang.Grammar.Phrase
import ClassLang.Proofs.Rule.Script
/-!
The grammar without bounds. Each rule is a procedure that calls the others, itself among them, as
often as the tokens make it; a loop is a procedure that calls itself. The rank of a procedure is
above the ranks of those that it calls before it has taken a token.
-/

namespace ClassLang

namespace Grammar

/-- The rules that call one another, and their loops, by what they read. -/
inductive Call : Type → Type 1
  | program (file : String) : Call Program
  | classDecl (file : String) : Call ClassDecl
  | member : Call Member
  | formals : Call (NodeList Formal)
  | formal : Call Formal
  | typeName : Call String
  | statement : Call Stmt
  | whileStatement : Call Stmt
  | returnStatement : Call Stmt
  | breakStatement : Call Stmt
  | expressionStatement : Call Stmt
  | emptyStatement : Call Stmt
  | declarationStatement : Call Stmt
  | forStatement : Call Stmt
  | block : Call (NodeList Stmt)
  | ifStatement : Call Stmt
  | expression : Call Expr
  | disjunction : Call Expr
  | conjunction : Call Expr
  | equality : Call Expr
  | relation : Call Expr
  | sum : Call Expr
  | product : Call Expr
  | factor : Call Expr
  | creation : Call Expr
  | conversion : Call Expr
  | leading : Call Expr
  | trailing : Call Expr
  | primary : Call Expr
  | arguments : Call (NodeList Expr)
  | afterCommas {α : Type} (item : Call α) : Call (List α)
  | toCloseBrace {α : Type} (construct : String) (item : Call α) : Call (List α)
  | toEndOfInput {α : Type} (item : Call α) : Call (List α)
  | moreLeft (op? : TokenKind → Option BinaryOp) (operand : Call Expr) (position : Position)
      (left : Expr) : Call Expr

namespace Unbounded

open Script

section Loops

variable {α : Type} (item : Call α)

def afterCommas : Script Call (List α) := do
  if (← kind) = .symbol .comma then
    let _ ← advance
    let first ← call item
    let rest ← call (.afterCommas item)
    return first :: rest
  else return []

def inParens : Script Call (NodeList α) := do
  let position ← position
  if (← kind) = .symbol .closeParen then return ⟨position, []⟩
  else
    let first ← call item
    let rest ← call (.afterCommas item)
    return ⟨position, first :: rest⟩

def toCloseBrace (construct : String) : Script Call (List α) := do
  match ← kind with
  | .symbol .closeBrace =>
      let _ ← advance
      return []
  | .endOfInput => reject (.missing construct (TokenKind.symbol .closeBrace).describe)
  | _ =>
      let first ← call item
      let rest ← call (.toCloseBrace construct item)
      return first :: rest

def toEndOfInput : Script Call (List α) := do
  if (← kind) = .endOfInput then return []
  else
    let first ← call item
    let rest ← call (.toEndOfInput item)
    return first :: rest

end Loops

section Operators

variable (op? : TokenKind → Option BinaryOp) (operand : Call Expr)

def moreLeft (position : Position) (left : Expr) : Script Call Expr := do
  match op? (← kind) with
  | none => return left
  | some op =>
      let _ ← advance
      let right ← call operand
      call (.moreLeft op? operand position (.binary position op left right))

def chainLeft : Script Call Expr := do
  let position ← position
  let left ← call operand
  call (.moreLeft op? operand position left)

def joined (second : Call Expr) : Script Call Expr := do
  let position ← position
  let left ← call operand
  match op? (← kind) with
  | none => return left
  | some op =>
      let _ ← advance
      let right ← call second
      return .binary position op left right

end Operators

section Expressions

def varOrCall (position : Position) (reference : Option Expr) : Script Call Expr := do
  let name ← identifier
  if (← kind) = .symbol .openParen then
    let _ ← advance
    let list ← call .arguments
    let _ ← expectIn (.symbol .closeParen) "argument list"
    return .call position reference name list
  else return .var position reference name

def parenthesized : Script Call Expr := do
  let _ ← advance
  let inner ← call .expression
  let _ ← expectIn (.symbol .closeParen) "parenthesized expression"
  return inner

def integerConstant : Script Call Expr := do
  let token ← current
  match readInteger? token.value.toList with
  | none => reject (.badInteger token.value)
  | some value =>
      let _ ← advance
      return .integer token.position value

def qualified : Script Call Expr := do
  let qualifier ← advance
  let next ← current
  let wanted := "`.` after `" ++ qualifier.value ++ "`"
  let _ ← expectOr (.symbol .dot) (.expected wanted next.display)
  varOrCall qualifier.position (some (.var qualifier.position none qualifier.value))

def primary : Script Call Expr := do
  let token ← current
  match token.kind with
  | .symbol .openParen => parenthesized
  | .integer => integerConstant
  | .boolean =>
      let _ ← advance
      return .boolean token.position (token.value = "true")
  | .string =>
      let _ ← advance
      return .string token.position token.value
  | .keyword .kwThis => qualified
  | .keyword .kwSuper => qualified
  | .identifier => varOrCall token.position none
  | _ => unexpected "expression"

def trailing : Script Call Expr := do
  let position ← position
  let operand ← call .primary
  match trailingOp? (← kind) with
  | none => return operand
  | some op =>
      let _ ← advance
      return .unary position op operand true

def leading : Script Call Expr := do
  match leadingOp? (← kind) with
  | none => call .trailing
  | some op =>
      let start ← advance
      let inner ← call .leading
      return .unary start.position op inner false

def creation : Script Call Expr := do
  let start ← advance
  let className ← identifier
  let _ ← expectIn (.symbol .openParen) "new expression"
  let _ ← expectIn (.symbol .closeParen) "new expression"
  return .create start.position className

def conversion : Script Call Expr := do
  let start ← advance
  let _ ← expectIn (.symbol .openParen) "cast expression"
  let target ← identifier
  let _ ← expectIn (.symbol .comma) "cast expression"
  let operand ← call .expression
  let _ ← expectIn (.symbol .closeParen) "cast expression"
  return .cast start.position target operand

def factor : Script Call Expr := do
  match ← kind with
  | .keyword .kwNew => call .creation
  | .keyword .kwCast => call .conversion
  | _ => call .leading

def expression : Script Call Expr := do
  let position ← position
  let left ← call .disjunction
  match left with
  | .var _ reference name =>
      if (← kind) = .symbol .assign then
        let _ ← advance
        let value ← call .expression
        return .assign position (reference.bind Expr.varName?) name value
      else return left
  | _ => return left

end Expressions

section Statements

def optionalExpression (terminator : Symbol) : Script Call (Option Expr) := do
  if (← kind) = .symbol terminator then return none
  else
    let value ← call .expression
    return some value

def expressionStatement : Script Call Stmt := do
  let position ← position
  let value ← call .expression
  let _ ← expectIn (.symbol .semicolon) "expression statement"
  return .expression position value

def returnStatement : Script Call Stmt := do
  let start ← advance
  let value ← optionalExpression .semicolon
  let _ ← expectIn (.symbol .semicolon) "return statement"
  return .returnValue start.position value

def breakStatement : Script Call Stmt := do
  let start ← advance
  let _ ← expectIn (.symbol .semicolon) "break statement"
  return .breakLoop start.position

def emptyStatement : Script Call Stmt := do
  let start ← advance
  return .block start.position ⟨start.position, []⟩

def declarationStatement : Script Call Stmt := do
  let start ← advance
  let name ← identifier
  let _ ← expectIn (.symbol .assign) "var declaration"
  let init ← call .expression
  let _ ← expectIn (.symbol .semicolon) "var declaration"
  return .declaration start.position name init

def whileStatement : Script Call Stmt := do
  let start ← advance
  let _ ← expectIn (.symbol .openParen) "while statement"
  let predicate ← call .expression
  let _ ← expectIn (.symbol .closeParen) "while statement"
  let body ← call .statement
  return .whileLoop start.position predicate body

def forStatement : Script Call Stmt := do
  let start ← advance
  let _ ← expectIn (.symbol .openParen) "for statement"
  let first ← optionalExpression .semicolon
  let _ ← expectIn (.symbol .semicolon) "for statement"
  let terminate ← optionalExpression .semicolon
  let _ ← expectIn (.symbol .semicolon) "for statement"
  let increment ← optionalExpression .closeParen
  let _ ← expectIn (.symbol .closeParen) "for statement"
  let body ← call .statement
  return .forLoop start.position first terminate increment body

def ifStatement : Script Call Stmt := do
  let start ← advance
  let _ ← expectIn (.symbol .openParen) "if statement"
  let predicate ← call .expression
  let _ ← expectIn (.symbol .closeParen) "if statement"
  let thenBranch ← call .statement
  if (← kind) = .keyword .kwElse then
    let _ ← advance
    let elseBranch ← call .statement
    return .conditional start.position predicate thenBranch (some elseBranch)
  else return .conditional start.position predicate thenBranch none

def block : Script Call (NodeList Stmt) := do
  let start ← expectIn (.symbol .openBrace) "block statement"
  let body ← call (.toCloseBrace "block statement" .statement)
  return ⟨start.position, body⟩

def blockStatement : Script Call Stmt := do
  let body ← call .block
  return .block body.position body

def statement : Script Call Stmt := do
  match ← kind with
  | .keyword .kwIf => call .ifStatement
  | .symbol .openBrace => blockStatement
  | .keyword .kwVar => call .declarationStatement
  | .keyword .kwReturn => call .returnStatement
  | .keyword .kwFor => call .forStatement
  | .keyword .kwWhile => call .whileStatement
  | .keyword .kwBreak => call .breakStatement
  | .symbol .semicolon => call .emptyStatement
  | _ => call .expressionStatement

end Statements

section Declarations

def formal : Script Call Formal := do
  let position ← position
  let typeName ← call .typeName
  let name ← identifier
  return ⟨position, typeName, name⟩

def methodRest (position : Position) (returnType name : String) : Script Call Method := do
  let _ ← advance
  let formals ← call .formals
  let _ ← expectIn (.symbol .closeParen) "method declaration"
  let body ← call .block
  return ⟨position, returnType, name, formals, body⟩

def fieldInit : Script Call (Option Expr) := do
  if (← kind) = .symbol .assign then
    let _ ← advance
    let value ← call .expression
    return some value
  else return none

def member : Script Call Member := do
  let position ← position
  let typeName ← call .typeName
  let name ← identifier
  if (← kind) = .symbol .openParen then
    let method ← methodRest position typeName name
    return .method method
  else
    let init ← fieldInit
    let _ ← expectIn (.symbol .semicolon) "field declaration"
    return .field ⟨position, typeName, name, init⟩

def parent : Script Call (Option String) := do
  if (← kind) = .keyword .kwExtends then
    let _ ← advance
    let name ← identifier
    return some name
  else return none

def classDecl (file : String) : Script Call ClassDecl := do
  let start ← expect (.keyword .kwClass)
  let name ← identifier
  let parent ← parent
  let _ ← expectIn (.symbol .openBrace) "class declaration"
  let position ← position
  let members ← call (.toCloseBrace "class declaration" .member)
  return ⟨start.position, file, name, parent, ⟨position, members⟩⟩

def program (file : String) : Script Call Program := do
  let position ← position
  let classes ← call (.toEndOfInput (.classDecl file))
  return ⟨position, ⟨position, classes⟩⟩

end Declarations

def body : {α : Type} → Call α → Script Call α
  | _, .program file => program file
  | _, .classDecl file => classDecl file
  | _, .member => member
  | _, .formals => inParens .formal
  | _, .formal => formal
  | _, .typeName => identifier
  | _, .statement => statement
  | _, .whileStatement => whileStatement
  | _, .returnStatement => returnStatement
  | _, .breakStatement => breakStatement
  | _, .expressionStatement => expressionStatement
  | _, .emptyStatement => emptyStatement
  | _, .declarationStatement => declarationStatement
  | _, .forStatement => forStatement
  | _, .block => block
  | _, .ifStatement => ifStatement
  | _, .expression => expression
  | _, .disjunction => chainLeft disjunctionOp? .conjunction
  | _, .conjunction => chainLeft conjunctionOp? .equality
  | _, .equality => joined equalityOp? .relation .relation
  | _, .relation => joined relationOp? .sum .sum
  | _, .sum => joined sumOp? .product .sum
  | _, .product => joined productOp? .factor .product
  | _, .factor => factor
  | _, .creation => creation
  | _, .conversion => conversion
  | _, .leading => leading
  | _, .trailing => trailing
  | _, .primary => primary
  | _, .arguments => inParens .expression
  | _, .afterCommas item => afterCommas item
  | _, .toCloseBrace construct item => toCloseBrace item construct
  | _, .toEndOfInput item => toEndOfInput item
  | _, .moreLeft op? operand position left => moreLeft op? operand position left

def rank : {α : Type} → Call α → Nat
  | _, .typeName | _, .afterCommas _ | _, .moreLeft _ _ _ _ => 0
  | _, .breakStatement | _, .emptyStatement | _, .declarationStatement | _, .whileStatement => 0
  | _, .forStatement | _, .ifStatement | _, .block | _, .classDecl _ => 0
  | _, .creation | _, .conversion | _, .primary => 0
  | _, .formal | _, .member | _, .trailing => 1
  | _, .formals | _, .leading | _, .program _ => 2
  | _, .factor => 3
  | _, .product => 4
  | _, .sum => 5
  | _, .relation => 6
  | _, .equality => 7
  | _, .conjunction => 8
  | _, .disjunction => 9
  | _, .expression => 10
  | _, .arguments | _, .expressionStatement | _, .returnStatement => 11
  | _, .statement => 12
  | _, .toCloseBrace _ item | _, .toEndOfInput item => rank item + 1

/-- The script of a nonterminal, for a file. -/
def scriptOf (file : String) : Nonterminal → Script Call Phrase
  | .program => .program <$> call (.program file)
  | .classDecl => .classDecl <$> call (.classDecl file)
  | .member => .member <$> call .member
  | .formals => .formals <$> call .formals
  | .formal => .formal <$> call .formal
  | .typeName => .typeName <$> call .typeName
  | .statement => .stmt <$> call .statement
  | .whileStatement => .stmt <$> call .whileStatement
  | .returnStatement => .stmt <$> call .returnStatement
  | .breakStatement => .stmt <$> call .breakStatement
  | .expressionStatement => .stmt <$> call .expressionStatement
  | .emptyStatement => .stmt <$> call .emptyStatement
  | .declarationStatement => .stmt <$> call .declarationStatement
  | .forStatement => .stmt <$> call .forStatement
  | .blockStatement => .stmt <$> blockStatement
  | .ifStatement => .stmt <$> call .ifStatement
  | .expression => .expr <$> call .expression
  | .disjunction => .expr <$> call .disjunction
  | .conjunction => .expr <$> call .conjunction
  | .equality => .expr <$> call .equality
  | .relation => .expr <$> call .relation
  | .sum => .expr <$> call .sum
  | .product => .expr <$> call .product
  | .factor => .expr <$> call .factor
  | .creation => .expr <$> call .creation
  | .conversion => .expr <$> call .conversion
  | .leading => .expr <$> call .leading
  | .trailing => .expr <$> call .trailing
  | .primary => .expr <$> call .primary
  | .arguments => .arguments <$> call .arguments

end Unbounded

def procedures : Procedures Call where
  body := Unbounded.body
  rank := Unbounded.rank

end Grammar

end ClassLang
