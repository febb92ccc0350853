import ClassLang.Traversal.Visitor
/-!
The entry point of a program: a method `void main()` in a class `Main`.
-/

namespace ClassLang

namespace Method

def isMain (m : Method) : Bool :=
  m.name = "main" && m.returnType = "void" && m.formals.isEmpty

end Method

namespace Visitor

/-- Looks for an entry point, in the members of the classes that may have one. -/
def entryPoint : Visitor Bool Unit :=
  fun node visits =>
    match node with
    | .classDecl c => if c.name = "Main" then runAll visits else pure ()
    | .field _ => pure ()
    | .method m => if m.isMain then set true else pure ()
    | _ => runAll visits

end Visitor

namespace Program

def hasEntryPoint (p : Program) : Bool :=
  ((Visitor.visitProgram Visitor.entryPoint p).run false).2

end Program

end ClassLang
