import ClassLang.Grammar.Declaration
/-!
The nonterminals of the grammar as a type, with the rule of each. A rule can be started at any
token of a stream; those that begin with a token of their own, such as the one for `while`, take
the current token for it.
-/

namespace ClassLang

inductive Nonterminal where
  | program
  | classDecl
  | member
  | formals
  | formal
  | typeName
  | statement
  | whileStatement
  | returnStatement
  | breakStatement
  | expressionStatement
  | emptyStatement
  | declarationStatement
  | forStatement
  | blockStatement
  | ifStatement
  | expression
  | disjunction
  | conjunction
  | equality
  | relation
  | sum
  | product
  | factor
  | creation
  | conversion
  | leading
  | trailing
  | primary
  | arguments
  deriving DecidableEq, Repr

inductive Phrase where
  | program (p : Program)
  | classDecl (c : ClassDecl)
  | member (m : Member)
  | formals (l : NodeList Formal)
  | formal (f : Formal)
  | typeName (name : String)
  | stmt (s : Stmt)
  | expr (e : Expr)
  | arguments (l : NodeList Expr)
  deriving DecidableEq

namespace Grammar

/-- The rule of a nonterminal, for a file and a bound on the pending tokens. -/
def ruleOf (file : String) (bound : Nat) : Nonterminal → Rule Phrase
  | .program => .program <$> program file bound
  | .classDecl => .classDecl <$> classDecl file bound
  | .member => .member <$> member bound
  | .formals => .formals <$> formals bound
  | .formal => .formal <$> formal
  | .typeName => .typeName <$> typeName
  | .statement => .stmt <$> statement bound
  | .whileStatement => .stmt <$> whileStatement (expression bound) (statement bound)
  | .returnStatement => .stmt <$> returnStatement (expression bound)
  | .breakStatement => .stmt <$> breakStatement
  | .expressionStatement => .stmt <$> expressionStatement (expression bound)
  | .emptyStatement => .stmt <$> emptyStatement
  | .declarationStatement => .stmt <$> declarationStatement (expression bound)
  | .forStatement => .stmt <$> forStatement (expression bound) (statement bound)
  | .blockStatement => .stmt <$> blockStatement (statement bound) bound
  | .ifStatement => .stmt <$> ifStatement (expression bound) (statement bound)
  | .expression => .expr <$> expression bound
  | .disjunction => .expr <$> disjunction (expression bound) bound
  | .conjunction => .expr <$> conjunction (expression bound) bound
  | .equality => .expr <$> equality (expression bound) bound
  | .relation => .expr <$> relation (expression bound) bound
  | .sum => .expr <$> sum (expression bound) bound
  | .product => .expr <$> product (expression bound) bound
  | .factor => .expr <$> factor (expression bound) bound
  | .creation => .expr <$> creation
  | .conversion => .expr <$> conversion (expression bound)
  | .leading => .expr <$> leading (trailing (expression bound) bound) bound
  | .trailing => .expr <$> trailing (expression bound) bound
  | .primary => .expr <$> primary (expression bound) bound
  | .arguments => .arguments <$> arguments (expression bound) bound

/-- Reads what a nonterminal derives from the front of a stream. -/
def read (file : String) (n : Nonterminal) : Rule Phrase :=
  Rule.bounded fun bound => ruleOf file bound n

end Grammar

end ClassLang
