import ClassLang.Syntax.Node
/-!
Visitors. A visitor says what is done at a node, and is handed the visits of its children, in the
order of declaration, to run or to leave out. Main statement: visiting a node is handing it to the
visitor with the visits of its children (`Visitor.visit_eq`).
-/

namespace ClassLang

/-- What is done at a node, given the visits of its children. -/
abbrev Visitor (σ ρ : Type) :=
  Node → List (StateM σ ρ) → StateM σ ρ

namespace Visitor

variable {σ ρ : Type}

def runAll : List (StateM σ ρ) → StateM σ Unit
  | [] => pure ()
  | visit :: visits => do
      let _ ← visit
      runAll visits

/-- The plain visit: the children are visited, and the result is the default one. -/
def walk [Inhabited ρ] (visits : List (StateM σ ρ)) : StateM σ ρ := do
  runAll visits
  return default

mutual

def visitExpr (v : Visitor σ ρ) : Expr → StateM σ ρ
  | .integer p n => v (.expr (.integer p n)) []
  | .boolean p b => v (.expr (.boolean p b)) []
  | .string p s => v (.expr (.string p s)) []
  | .var p r name => v (.expr (.var p r name)) (visitExpr? v r)
  | .assign p q name e => v (.expr (.assign p q name e)) [visitExpr v e]
  | .call p r method ⟨q, es⟩ =>
      v (.expr (.call p r method ⟨q, es⟩)) (visitExpr? v r ++ visitExprs v es)
  | .create p name => v (.expr (.create p name)) []
  | .cast p target e => v (.expr (.cast p target e)) [visitExpr v e]
  | .binary p op l r => v (.expr (.binary p op l r)) [visitExpr v l, visitExpr v r]
  | .unary p op e after => v (.expr (.unary p op e after)) [visitExpr v e]

def visitExpr? (v : Visitor σ ρ) : Option Expr → List (StateM σ ρ)
  | none => []
  | some e => [visitExpr v e]

def visitExprs (v : Visitor σ ρ) : List Expr → List (StateM σ ρ)
  | [] => []
  | e :: es => visitExpr v e :: visitExprs v es

end

mutual

def visitStmt (v : Visitor σ ρ) : Stmt → StateM σ ρ
  | .conditional p e s o =>
      v (.stmt (.conditional p e s o)) (visitExpr v e :: visitStmt v s :: visitStmt? v o)
  | .whileLoop p e s => v (.stmt (.whileLoop p e s)) [visitExpr v e, visitStmt v s]
  | .forLoop p a b c s =>
      v (.stmt (.forLoop p a b c s))
        (visitExpr? v a ++ visitExpr? v b ++ visitExpr? v c ++ [visitStmt v s])
  | .block p ⟨q, ss⟩ => v (.stmt (.block p ⟨q, ss⟩)) (visitStmts v ss)
  | .returnValue p e => v (.stmt (.returnValue p e)) (visitExpr? v e)
  | .breakLoop p => v (.stmt (.breakLoop p)) []
  | .declaration p name e => v (.stmt (.declaration p name e)) [visitExpr v e]
  | .expression p e => v (.stmt (.expression p e)) [visitExpr v e]

def visitStmt? (v : Visitor σ ρ) : Option Stmt → List (StateM σ ρ)
  | none => []
  | some s => [visitStmt v s]

def visitStmts (v : Visitor σ ρ) : List Stmt → List (StateM σ ρ)
  | [] => []
  | s :: ss => visitStmt v s :: visitStmts v ss

end

def visitFormal (v : Visitor σ ρ) (f : Formal) : StateM σ ρ :=
  v (.formal f) []

def visitField (v : Visitor σ ρ) (f : Field) : StateM σ ρ :=
  v (.field f) (visitExpr? v f.init)

def visitMethod (v : Visitor σ ρ) (m : Method) : StateM σ ρ :=
  v (.method m) (m.formals.items.map (visitFormal v) ++ visitStmts v m.body.items)

def visitMember (v : Visitor σ ρ) : Member → StateM σ ρ
  | .field f => visitField v f
  | .method m => visitMethod v m

def visitClass (v : Visitor σ ρ) (c : ClassDecl) : StateM σ ρ :=
  v (.classDecl c) (c.members.items.map (visitMember v))

def visitProgram (v : Visitor σ ρ) (p : Program) : StateM σ ρ :=
  v (.program p) (p.classes.items.map (visitClass v))

def visit (v : Visitor σ ρ) : Node → StateM σ ρ
  | .program p => visitProgram v p
  | .classDecl c => visitClass v c
  | .field f => visitField v f
  | .method m => visitMethod v m
  | .formal f => visitFormal v f
  | .stmt s => visitStmt v s
  | .expr e => visitExpr v e

theorem visitExpr?_eq_map (v : Visitor σ ρ) (e : Option Expr) :
    visitExpr? v e = e.toList.map (visitExpr v) := by
  cases e <;> simp [visitExpr?]

theorem visitExprs_eq_map (v : Visitor σ ρ) (es : List Expr) :
    visitExprs v es = es.map (visitExpr v) := by
  induction es with
  | nil => simp [visitExprs]
  | cons e es ih => simp [visitExprs, ih]

theorem visitStmts_eq_map (v : Visitor σ ρ) (ss : List Stmt) :
    visitStmts v ss = ss.map (visitStmt v) := by
  induction ss with
  | nil => simp [visitStmts]
  | cons s ss ih => simp [visitStmts, ih]

theorem visit_member_node (v : Visitor σ ρ) (m : Member) : v.visit m.node = visitMember v m := by
  cases m <;> rfl

theorem visit_eq (v : Visitor σ ρ) (n : Node) : v.visit n = v n (n.children.map v.visit) := by
  cases n with
  | program p =>
      simp [visit, visitProgram, Node.children, Function.comp_def]
  | classDecl c =>
      have h : v.visit ∘ Member.node = visitMember v := funext (visit_member_node v)
      simp only [Node.children, List.map_map, h]
      rfl
  | field f =>
      simp [visit, visitField, Node.children, Function.comp_def, visitExpr?_eq_map]
  | method m =>
      simp [visit, visitMethod, Node.children, Function.comp_def, visitStmts_eq_map]
  | formal f => rfl
  | stmt s =>
      cases s with
      | conditional p e s o =>
          cases o <;> simp [visit, visitStmt, visitStmt?, Node.children, Stmt.children]
      | _ =>
          simp [visit, visitStmt, Node.children, Stmt.children, Function.comp_def,
            visitExpr?_eq_map, visitStmts_eq_map]
  | expr e =>
      cases e <;>
        simp [visit, visitExpr, Node.children, Expr.children, Function.comp_def,
          visitExpr?_eq_map, visitExprs_eq_map]

/-- Visits the nodes of a list. The list itself is no node and has no result of its own. -/
def visitNodes [Inhabited ρ] (v : Visitor σ ρ) (nodes : List Node) : StateM σ ρ :=
  walk (nodes.map v.visit)

end Visitor

end ClassLang
