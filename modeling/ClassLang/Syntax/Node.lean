import ClassLang.Syntax.Program
/-!
Nodes: the parts of a program, of whatever kind, as one type. Every node has a kind, a position, a
label if one tells it from its kin, and children in the order of declaration.
-/

namespace ClassLang

inductive NodeKind where
  | program
  | classDecl
  | field
  | method
  | formal
  | conditional
  | whileLoop
  | forLoop
  | block
  | returnValue
  | breakLoop
  | declaration
  | expressionStmt
  | integer
  | boolean
  | string
  | var
  | assign
  | call
  | create
  | cast
  | binary
  | unary
  deriving DecidableEq, Repr

inductive Node where
  | program (p : Program)
  | classDecl (c : ClassDecl)
  | field (f : Field)
  | method (m : Method)
  | formal (f : Formal)
  | stmt (s : Stmt)
  | expr (e : Expr)
  deriving DecidableEq

namespace Stmt

def kind : Stmt → NodeKind
  | .conditional .. => .conditional
  | .whileLoop .. => .whileLoop
  | .forLoop .. => .forLoop
  | .block .. => .block
  | .returnValue .. => .returnValue
  | .breakLoop _ => .breakLoop
  | .declaration .. => .declaration
  | .expression .. => .expressionStmt

/-- The name that a declaration introduces. -/
def label? : Stmt → Option String
  | .declaration _ name _ => some name
  | _ => none

def children : Stmt → List Node
  | .conditional _ e s none => [.expr e, .stmt s]
  | .conditional _ e s (some t) => [.expr e, .stmt s, .stmt t]
  | .whileLoop _ e s => [.expr e, .stmt s]
  | .forLoop _ a b c s => (a.toList ++ b.toList ++ c.toList).map .expr ++ [.stmt s]
  | .block _ body => body.items.map .stmt
  | .returnValue _ e => e.toList.map .expr
  | .breakLoop _ => []
  | .declaration _ _ e => [.expr e]
  | .expression _ e => [.expr e]

end Stmt

namespace Expr

def kind : Expr → NodeKind
  | .integer .. => .integer
  | .boolean .. => .boolean
  | .string .. => .string
  | .var .. => .var
  | .assign .. => .assign
  | .call .. => .call
  | .create .. => .create
  | .cast .. => .cast
  | .binary .. => .binary
  | .unary .. => .unary

def label : Expr → String
  | .integer _ v => toString v
  | .boolean _ v => if v then "true" else "false"
  | .string _ v => v
  | .var _ _ name => name
  | .assign _ _ name _ => name
  | .call _ _ method _ => method
  | .create _ className => className
  | .cast _ target _ => target
  | .binary _ op _ _ => op.symbol
  | .unary _ op _ _ => op.symbol

def children : Expr → List Node
  | .integer .. => []
  | .boolean .. => []
  | .string .. => []
  | .var _ r _ => r.toList.map .expr
  | .assign _ _ _ e => [.expr e]
  | .call _ r _ arguments => (r.toList ++ arguments.items).map .expr
  | .create .. => []
  | .cast _ _ e => [.expr e]
  | .binary _ _ l r => [.expr l, .expr r]
  | .unary _ _ e _ => [.expr e]

end Expr

namespace Member

def node : Member → Node
  | .field f => .field f
  | .method m => .method m

end Member

namespace Node

def kind : Node → NodeKind
  | .program _ => .program
  | .classDecl _ => .classDecl
  | .field _ => .field
  | .method _ => .method
  | .formal _ => .formal
  | .stmt s => s.kind
  | .expr e => e.kind

def position : Node → Position
  | .program p => p.position
  | .classDecl c => c.position
  | .field f => f.position
  | .method m => m.position
  | .formal f => f.position
  | .stmt s => s.position
  | .expr e => e.position

def label? : Node → Option String
  | .program _ => none
  | .classDecl c => some c.name
  | .field f => some f.name
  | .method m => some m.name
  | .formal f => some f.name
  | .stmt s => s.label?
  | .expr e => some e.label

def children : Node → List Node
  | .program p => p.classes.items.map .classDecl
  | .classDecl c => c.members.items.map Member.node
  | .field f => f.init.toList.map .expr
  | .method m => m.formals.items.map .formal ++ m.body.items.map .stmt
  | .formal _ => []
  | .stmt s => s.children
  | .expr e => e.children

end Node

end ClassLang
