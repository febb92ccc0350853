import ClassLang.Traversal.Visitor
/-!
The constants of a tree, in the order of the source. Main statement: they are what a visitor records
that does something of its own at constants only (`Visitor.run_visitProgram_constants`).
-/

namespace ClassLang

namespace Expr

mutual

def constants : Expr → List Expr
  | .integer p v => [.integer p v]
  | .boolean p v => [.boolean p v]
  | .string p v => [.string p v]
  | .var _ r _ => optionConstants r
  | .assign _ _ _ v => v.constants
  | .call _ r _ ⟨_, es⟩ => optionConstants r ++ listConstants es
  | .create .. => []
  | .cast _ _ e => e.constants
  | .binary _ _ l r => l.constants ++ r.constants
  | .unary _ _ e _ => e.constants

def optionConstants : Option Expr → List Expr
  | none => []
  | some e => e.constants

def listConstants : List Expr → List Expr
  | [] => []
  | e :: es => e.constants ++ listConstants es

end

@[simp] theorem listConstants_eq_flatMap (es : List Expr) :
    listConstants es = es.flatMap constants := by
  induction es with
  | nil => simp [listConstants]
  | cons e es ih => simp [listConstants, ih]

end Expr

namespace Stmt

mutual

def constants : Stmt → List Expr
  | .conditional _ e s t => e.constants ++ s.constants ++ optionConstants t
  | .whileLoop _ e s => e.constants ++ s.constants
  | .forLoop _ a b c s =>
      Expr.optionConstants a ++ Expr.optionConstants b ++ Expr.optionConstants c ++ s.constants
  | .block _ ⟨_, ss⟩ => listConstants ss
  | .returnValue _ v => Expr.optionConstants v
  | .breakLoop _ => []
  | .declaration _ _ e => e.constants
  | .expression _ e => e.constants

def optionConstants : Option Stmt → List Expr
  | none => []
  | some s => s.constants

def listConstants : List Stmt → List Expr
  | [] => []
  | s :: ss => s.constants ++ listConstants ss

end

@[simp] theorem listConstants_eq_flatMap (ss : List Stmt) :
    listConstants ss = ss.flatMap constants := by
  induction ss with
  | nil => simp [listConstants]
  | cons s ss ih => simp [listConstants, ih]

end Stmt

def Field.constants (f : Field) : List Expr :=
  Expr.optionConstants f.init

def Method.constants (m : Method) : List Expr :=
  m.body.items.flatMap Stmt.constants

def Member.constants : Member → List Expr
  | .field f => f.constants
  | .method m => m.constants

def ClassDecl.constants (c : ClassDecl) : List Expr :=
  c.members.items.flatMap Member.constants

def Program.constants (p : Program) : List Expr :=
  p.classes.items.flatMap ClassDecl.constants

namespace Visitor

/-- Records the constants, and visits everything else plainly. -/
def constants : Visitor (List Expr) Unit :=
  fun node visits =>
    match node with
    | .expr (.integer p v) => modify fun es => es ++ [.integer p v]
    | .expr (.boolean p v) => modify fun es => es ++ [.boolean p v]
    | .expr (.string p v) => modify fun es => es ++ [.string p v]
    | _ => walk visits

/-- The visit records these expressions and does nothing else. -/
def Records (visit : StateM (List Expr) Unit) (es : List Expr) : Prop :=
  ∀ acc, visit.run acc = ((), acc ++ es)

theorem walk_append {visits visits' : List (StateM (List Expr) Unit)} (acc : List Expr) :
    (walk (visits ++ visits')).run acc = (walk visits').run ((walk visits).run acc).2 := by
  induction visits generalizing acc with
  | nil => rfl
  | cons visit visits ih => exact ih (visit.run acc).2

namespace Records

variable {visit : StateM (List Expr) Unit} {visits visits' : List (StateM (List Expr) Unit)}
  {es fs : List Expr}

theorem walk_nil : Records (walk []) [] := by
  intro acc
  rw [List.append_nil]
  rfl

theorem walk_cons (h : Records visit es) (hs : Records (walk visits) fs) :
    Records (walk (visit :: visits)) (es ++ fs) := by
  intro acc
  have hrun : (walk (visit :: visits)).run acc = (walk visits).run (visit.run acc).2 := rfl
  rw [hrun, h acc, hs, List.append_assoc]

theorem walk_singleton (h : Records visit es) : Records (walk [visit]) es := by
  have hwalk := walk_cons h walk_nil
  rw [List.append_nil] at hwalk
  exact hwalk

theorem append (h : Records (walk visits) es) (hs : Records (walk visits') fs) :
    Records (walk (visits ++ visits')) (es ++ fs) := by
  intro acc
  rw [walk_append, h acc, hs, List.append_assoc]

theorem walk_map {α : Type} {visit : α → StateM (List Expr) Unit} {f : α → List Expr}
    (h : ∀ x, Records (visit x) (f x)) (xs : List α) :
    Records (walk (xs.map visit)) (xs.flatMap f) := by
  induction xs with
  | nil => exact walk_nil
  | cons x xs ih => exact walk_cons (h x) ih

end Records

open Records

mutual

theorem records_visitExpr : (e : Expr) → Records (visitExpr constants e) e.constants
  | .integer .. => fun _ => rfl
  | .boolean .. => fun _ => rfl
  | .string .. => fun _ => rfl
  | .var _ r _ => records_visitExpr? r
  | .assign _ _ _ v => walk_singleton (records_visitExpr v)
  | .call _ r _ ⟨_, es⟩ => append (records_visitExpr? r) (records_visitExprs es)
  | .create .. => walk_nil
  | .cast _ _ e => walk_singleton (records_visitExpr e)
  | .binary _ _ l r => walk_cons (records_visitExpr l) (walk_singleton (records_visitExpr r))
  | .unary _ _ e _ => walk_singleton (records_visitExpr e)

theorem records_visitExpr? :
    (e : Option Expr) → Records (walk (visitExpr? constants e)) (Expr.optionConstants e)
  | none => walk_nil
  | some e => walk_singleton (records_visitExpr e)

theorem records_visitExprs :
    (es : List Expr) → Records (walk (visitExprs constants es)) (Expr.listConstants es)
  | [] => walk_nil
  | e :: es => walk_cons (records_visitExpr e) (records_visitExprs es)

end

mutual

theorem records_visitStmt : (s : Stmt) → Records (visitStmt constants s) s.constants
  | .conditional _ e s t => by
      have hrest := walk_cons (records_visitStmt s) (records_visitStmt? t)
      have hall := walk_cons (records_visitExpr e) hrest
      rw [← List.append_assoc] at hall
      exact hall
  | .whileLoop _ e s => walk_cons (records_visitExpr e) (walk_singleton (records_visitStmt s))
  | .forLoop _ a b c s =>
      append (append (append (records_visitExpr? a) (records_visitExpr? b)) (records_visitExpr? c))
        (walk_singleton (records_visitStmt s))
  | .block _ ⟨_, ss⟩ => records_visitStmts ss
  | .returnValue _ v => records_visitExpr? v
  | .breakLoop _ => walk_nil
  | .declaration _ _ e => walk_singleton (records_visitExpr e)
  | .expression _ e => walk_singleton (records_visitExpr e)

theorem records_visitStmt? :
    (s : Option Stmt) → Records (walk (visitStmt? constants s)) (Stmt.optionConstants s)
  | none => walk_nil
  | some s => walk_singleton (records_visitStmt s)

theorem records_visitStmts :
    (ss : List Stmt) → Records (walk (visitStmts constants ss)) (Stmt.listConstants ss)
  | [] => walk_nil
  | s :: ss => walk_cons (records_visitStmt s) (records_visitStmts ss)

end

theorem records_visitMember (m : Member) : Records (visitMember constants m) m.constants := by
  cases m with
  | field f => exact records_visitExpr? f.init
  | method m =>
      have hformals : Records (walk (m.formals.items.map (visitFormal constants)))
          (m.formals.items.flatMap fun _ => []) := walk_map (fun _ => walk_nil) m.formals.items
      have hbody := records_visitStmts m.body.items
      rw [Stmt.listConstants_eq_flatMap] at hbody
      have hall := append hformals hbody
      rw [List.flatMap_eq_nil_iff.2 fun _ _ => rfl, List.nil_append] at hall
      exact hall

theorem records_visitClass (c : ClassDecl) : Records (visitClass constants c) c.constants :=
  walk_map records_visitMember c.members.items

theorem run_visitProgram_constants (p : Program) :
    (visitProgram constants p).run [] = ((), p.constants) :=
  walk_map records_visitClass p.classes.items []

end Visitor

end ClassLang
