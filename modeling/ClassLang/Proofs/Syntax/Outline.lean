import ClassLang.Syntax.Node
/-!
Outlines: the positions in a tree, with what is a part of what. Lists are parts too, since they have
positions of their own. Main statement: the parts of a node, with its lists opened, are its children
in their order (`Node.flatMap_opened_parts`).
-/

namespace ClassLang

/-- What a part of a tree is to the part that it belongs to. -/
inductive Role where
  | node
  /-- What stands before the dot of a name. -/
  | qualifier
  | classes
  | members
  | formals
  | arguments
  /-- The statements of a block or a method. -/
  | body
  deriving DecidableEq, Repr

structure Outline where
  role : Role
  position : Position
  parts : List Outline

namespace Outline

def offset (o : Outline) : Nat :=
  o.position.offset.toNat

/-- The nodes that a part consists of: the items of a list, or the one node that it is. -/
def opened (o : Outline) : List Outline :=
  match o.role with
  | .node => [o]
  | .qualifier => [{ o with role := .node }]
  | _ => o.parts

theorem opened_of_node {o : Outline} (h : o.role = .node) : o.opened = [o] := by
  rw [opened, h]

theorem opened_of_qualifier {o : Outline} (h : o.role = .node) :
    opened { o with role := .qualifier } = [o] := by
  obtain ⟨role, position, parts⟩ := o
  cases h
  rfl

mutual

/-- The outline and those of all its parts, each before its own parts. -/
def preorder : Outline → List Outline
  | ⟨role, position, parts⟩ => ⟨role, position, parts⟩ :: listPreorder parts

def listPreorder : List Outline → List Outline
  | [] => []
  | o :: os => o.preorder ++ listPreorder os

end

theorem preorder_eq (o : Outline) : o.preorder = o :: listPreorder o.parts := by
  cases o
  rw [preorder]

theorem mem_listPreorder {o : Outline} {os : List Outline} (h : o ∈ os) : o ∈ listPreorder os := by
  induction os with
  | nil => cases h
  | cons o' os ih =>
      rw [listPreorder, List.mem_append]
      rcases List.mem_cons.1 h with rfl | h
      · exact .inl (by simp [preorder_eq])
      · exact .inr (ih h)

end Outline

def NodeList.outline {α : Type} (role : Role) (f : α → Outline) (l : NodeList α) : Outline :=
  ⟨role, l.position, l.items.map f⟩

namespace Expr

mutual

def outline : Expr → Outline
  | .integer p _ => ⟨.node, p, []⟩
  | .boolean p _ => ⟨.node, p, []⟩
  | .string p _ => ⟨.node, p, []⟩
  | .var p r _ => ⟨.node, p, qualifierOutlines r⟩
  | .assign p _ _ v => ⟨.node, p, [v.outline]⟩
  | .call p r _ ⟨q, es⟩ => ⟨.node, p, qualifierOutlines r ++ [⟨.arguments, q, listOutlines es⟩]⟩
  | .create p _ => ⟨.node, p, []⟩
  | .cast p _ e => ⟨.node, p, [e.outline]⟩
  | .binary p _ l r => ⟨.node, p, [l.outline, r.outline]⟩
  | .unary p _ e _ => ⟨.node, p, [e.outline]⟩

def qualifierOutlines : Option Expr → List Outline
  | none => []
  | some e => [{ e.outline with role := .qualifier }]

def listOutlines : List Expr → List Outline
  | [] => []
  | e :: es => e.outline :: listOutlines es

end

@[simp] theorem listOutlines_eq_map (es : List Expr) : listOutlines es = es.map outline := by
  induction es with
  | nil => simp [listOutlines]
  | cons e es ih => simp [listOutlines, ih]

@[simp] theorem role_outline (e : Expr) : e.outline.role = .node := by
  cases e <;> simp [outline]

end Expr

namespace Stmt

mutual

def outline : Stmt → Outline
  | .conditional p e s t => ⟨.node, p, e.outline :: s.outline :: optionOutlines t⟩
  | .whileLoop p e s => ⟨.node, p, [e.outline, s.outline]⟩
  | .forLoop p a b c s =>
      ⟨.node, p, (a.toList ++ b.toList ++ c.toList).map Expr.outline ++ [s.outline]⟩
  | .block p ⟨q, ss⟩ => ⟨.node, p, [⟨.body, q, listOutlines ss⟩]⟩
  | .returnValue p v => ⟨.node, p, v.toList.map Expr.outline⟩
  | .breakLoop p => ⟨.node, p, []⟩
  | .declaration p _ e => ⟨.node, p, [e.outline]⟩
  | .expression p e => ⟨.node, p, [e.outline]⟩

def optionOutlines : Option Stmt → List Outline
  | none => []
  | some s => [s.outline]

def listOutlines : List Stmt → List Outline
  | [] => []
  | s :: ss => s.outline :: listOutlines ss

end

@[simp] theorem listOutlines_eq_map (ss : List Stmt) : listOutlines ss = ss.map outline := by
  induction ss with
  | nil => simp [listOutlines]
  | cons s ss ih => simp [listOutlines, ih]

@[simp] theorem role_outline (s : Stmt) : s.outline.role = .node := by
  cases s <;> simp [outline]

end Stmt

def Formal.outline (f : Formal) : Outline :=
  ⟨.node, f.position, []⟩

def Field.outline (f : Field) : Outline :=
  ⟨.node, f.position, f.init.toList.map Expr.outline⟩

def Method.outline (m : Method) : Outline :=
  ⟨.node, m.position,
    [m.formals.outline .formals Formal.outline, m.body.outline .body Stmt.outline]⟩

def Member.outline : Member → Outline
  | .field f => f.outline
  | .method m => m.outline

def ClassDecl.outline (c : ClassDecl) : Outline :=
  ⟨.node, c.position, [c.members.outline .members Member.outline]⟩

def Program.outline (p : Program) : Outline :=
  ⟨.node, p.position, [p.classes.outline .classes ClassDecl.outline]⟩

@[simp] theorem Member.role_outline (m : Member) : m.outline.role = .node := by
  cases m <;> rfl

namespace Node

def outline : Node → Outline
  | .program p => p.outline
  | .classDecl c => c.outline
  | .field f => f.outline
  | .method m => m.outline
  | .formal f => f.outline
  | .stmt s => s.outline
  | .expr e => e.outline

theorem position_outline (n : Node) : n.outline.position = n.position := by
  cases n with
  | expr e => cases e <;> simp [outline, position, Expr.outline, Expr.position]
  | stmt s => cases s <;> simp [outline, position, Stmt.outline, Stmt.position]
  | _ => rfl

end Node

@[simp] theorem flatMap_opened_qualifierOutlines (r : Option Expr) :
    (Expr.qualifierOutlines r).flatMap Outline.opened = r.toList.map Expr.outline := by
  cases r with
  | none => simp [Expr.qualifierOutlines]
  | some e => simp [Expr.qualifierOutlines, Outline.opened_of_qualifier]

@[simp] theorem flatMap_opened_map {α : Type} {f : α → Outline} (hf : ∀ x, (f x).role = .node)
    (xs : List α) : (xs.map f).flatMap Outline.opened = xs.map f := by
  induction xs with
  | nil => rfl
  | cons x xs ih => simp [Outline.opened_of_node (hf x), ih]

namespace Node

@[simp] theorem outline_comp_expr : outline ∘ expr = Expr.outline := rfl

@[simp] theorem outline_comp_stmt : outline ∘ stmt = Stmt.outline := rfl

@[simp] theorem outline_comp_member : outline ∘ Member.node = Member.outline := by
  funext m
  cases m <;> rfl

theorem flatMap_opened_parts (n : Node) :
    n.outline.parts.flatMap Outline.opened = n.children.map outline := by
  cases n with
  | program p => simp [outline, children, Program.outline, NodeList.outline, Outline.opened]
  | classDecl c => simp [outline, children, ClassDecl.outline, NodeList.outline, Outline.opened]
  | field f => simp [outline, children, Field.outline]
  | method m => simp [outline, children, Method.outline, NodeList.outline, Outline.opened]
  | formal f => rfl
  | stmt s =>
      cases s with
      | conditional _ _ _ t =>
          cases t <;> simp [outline, children, Stmt.outline, Stmt.optionOutlines, Stmt.children,
            Outline.opened_of_node]
      | block => simp [outline, children, Stmt.outline, Stmt.children, Outline.opened]
      | _ => simp [outline, children, Stmt.outline, Stmt.children, Outline.opened_of_node]
  | expr e =>
      cases e with
      | call => simp [outline, children, Expr.outline, Expr.children, Outline.opened]
      | _ => simp [outline, children, Expr.outline, Expr.children, Outline.opened_of_node]

end Node

end ClassLang
