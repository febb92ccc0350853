import ClassLang.Syntax.Stmt
/-!
Declarations: programs, classes and their members.
-/

namespace ClassLang

structure Formal where
  position : Position
  typeName : String
  name : String
  deriving DecidableEq, Repr

structure Field where
  position : Position
  typeName : String
  name : String
  init : Option Expr
  deriving DecidableEq

structure Method where
  position : Position
  returnType : String
  name : String
  formals : NodeList Formal
  body : NodeList Stmt
  deriving DecidableEq

inductive Member where
  | field (f : Field)
  | method (m : Method)
  deriving DecidableEq

/-- A class, with the name of the file it stands in and of the class it extends. -/
structure ClassDecl where
  position : Position
  fileName : String
  name : String
  parent : Option String
  members : NodeList Member
  deriving DecidableEq

structure Program where
  position : Position
  classes : NodeList ClassDecl
  deriving DecidableEq

namespace Member

def position : Member → Position
  | .field f => f.position
  | .method m => m.position

def name : Member → String
  | .field f => f.name
  | .method m => m.name

end Member

end ClassLang
