import ClassLang.Syntax.Program
/-!
Trees that stand in a file: all their positions are in it, classes bear its name, and what stands
before the dot of a name shares the position of the whole.
-/

namespace ClassLang

namespace Expr

mutual

def standsIn (file : String) : Expr → Bool
  | .integer p _ => p.file = file
  | .boolean p _ => p.file = file
  | .string p _ => p.file = file
  | .var p r _ => p.file = file && referenceStandsAt file p r
  | .assign p _ _ v => p.file = file && v.standsIn file
  | .call p r _ ⟨q, es⟩ =>
      p.file = file && referenceStandsAt file p r && q.file = file && listStandsIn file es
  | .create p _ => p.file = file
  | .cast p _ e => p.file = file && e.standsIn file
  | .binary p _ l r => p.file = file && l.standsIn file && r.standsIn file
  | .unary p _ e _ => p.file = file && e.standsIn file

def referenceStandsAt (file : String) (p : Position) : Option Expr → Bool
  | none => true
  | some e => e.position = p && e.standsIn file

def listStandsIn (file : String) : List Expr → Bool
  | [] => true
  | e :: es => e.standsIn file && listStandsIn file es

end

@[simp] theorem listStandsIn_eq_all (file : String) (es : List Expr) :
    listStandsIn file es = es.all (standsIn file) := by
  induction es with
  | nil => simp [listStandsIn]
  | cons e es ih => simp [listStandsIn, ih]

end Expr

namespace Stmt

mutual

def standsIn (file : String) : Stmt → Bool
  | .conditional p e s t =>
      p.file = file && e.standsIn file && s.standsIn file && optionStandsIn file t
  | .whileLoop p e s => p.file = file && e.standsIn file && s.standsIn file
  | .forLoop p a b c s =>
      p.file = file && a.all (Expr.standsIn file) && b.all (Expr.standsIn file) &&
        c.all (Expr.standsIn file) && s.standsIn file
  | .block p ⟨q, ss⟩ => p.file = file && q.file = file && listStandsIn file ss
  | .returnValue p v => p.file = file && v.all (Expr.standsIn file)
  | .breakLoop p => p.file = file
  | .declaration p _ e => p.file = file && e.standsIn file
  | .expression p e => p.file = file && e.standsIn file

def optionStandsIn (file : String) : Option Stmt → Bool
  | none => true
  | some s => s.standsIn file

def listStandsIn (file : String) : List Stmt → Bool
  | [] => true
  | s :: ss => s.standsIn file && listStandsIn file ss

end

@[simp] theorem optionStandsIn_eq_all (file : String) (s : Option Stmt) :
    optionStandsIn file s = s.all (standsIn file) := by
  cases s <;> simp [optionStandsIn]

@[simp] theorem listStandsIn_eq_all (file : String) (ss : List Stmt) :
    listStandsIn file ss = ss.all (standsIn file) := by
  induction ss with
  | nil => simp [listStandsIn]
  | cons s ss ih => simp [listStandsIn, ih]

end Stmt

def Formal.standsIn (file : String) (f : Formal) : Bool :=
  f.position.file = file

def Field.standsIn (file : String) (f : Field) : Bool :=
  f.position.file = file && f.init.all (Expr.standsIn file)

def Method.standsIn (file : String) (m : Method) : Bool :=
  m.position.file = file && m.formals.position.file = file &&
    m.formals.items.all (Formal.standsIn file) && m.body.position.file = file &&
      m.body.items.all (Stmt.standsIn file)

def Member.standsIn (file : String) : Member → Bool
  | .field f => f.standsIn file
  | .method m => m.standsIn file

def ClassDecl.standsIn (file : String) (c : ClassDecl) : Bool :=
  c.position.file = file && c.fileName = file && c.members.position.file = file &&
    c.members.items.all (Member.standsIn file)

def Program.standsIn (file : String) (p : Program) : Bool :=
  p.position.file = file && p.classes.position.file = file &&
    p.classes.items.all (ClassDecl.standsIn file)

end ClassLang
