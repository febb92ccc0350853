import ClassLang.Syntax.Program
/-!
Trees without their positions: every position in them is that of what belongs to no file. The names
of the files that classes stand in are kept.
-/

namespace ClassLang

def NodeList.unplacedWith {α : Type} (f : α → α) (l : NodeList α) : NodeList α :=
  ⟨.null, l.items.map f⟩

namespace Expr

mutual

def unplaced : Expr → Expr
  | .integer _ v => .integer .null v
  | .boolean _ v => .boolean .null v
  | .string _ v => .string .null v
  | .var _ r name => .var .null (unplacedOption r) name
  | .assign _ q name v => .assign .null q name v.unplaced
  | .call _ r m ⟨_, es⟩ => .call .null (unplacedOption r) m ⟨.null, unplacedList es⟩
  | .create _ name => .create .null name
  | .cast _ target e => .cast .null target e.unplaced
  | .binary _ op l r => .binary .null op l.unplaced r.unplaced
  | .unary _ op e a => .unary .null op e.unplaced a

def unplacedOption : Option Expr → Option Expr
  | none => none
  | some e => some e.unplaced

def unplacedList : List Expr → List Expr
  | [] => []
  | e :: es => e.unplaced :: unplacedList es

end

@[simp] theorem unplacedOption_eq_map (v : Option Expr) : unplacedOption v = v.map unplaced := by
  cases v <;> simp [unplacedOption]

@[simp] theorem unplacedList_eq_map (es : List Expr) : unplacedList es = es.map unplaced := by
  induction es with
  | nil => simp [unplacedList]
  | cons e es ih => simp [unplacedList, ih]

@[simp] theorem varName?_unplaced (e : Expr) : e.unplaced.varName? = e.varName? := by
  cases e <;> simp [unplaced, varName?]

end Expr

namespace Stmt

mutual

def unplaced : Stmt → Stmt
  | .conditional _ e s t => .conditional .null e.unplaced s.unplaced (unplacedOption t)
  | .whileLoop _ e s => .whileLoop .null e.unplaced s.unplaced
  | .forLoop _ a b c s =>
      .forLoop .null (a.map Expr.unplaced) (b.map Expr.unplaced) (c.map Expr.unplaced) s.unplaced
  | .block _ ⟨_, ss⟩ => .block .null ⟨.null, unplacedList ss⟩
  | .returnValue _ v => .returnValue .null (v.map Expr.unplaced)
  | .breakLoop _ => .breakLoop .null
  | .declaration _ name e => .declaration .null name e.unplaced
  | .expression _ e => .expression .null e.unplaced

def unplacedOption : Option Stmt → Option Stmt
  | none => none
  | some s => some s.unplaced

def unplacedList : List Stmt → List Stmt
  | [] => []
  | s :: ss => s.unplaced :: unplacedList ss

end

@[simp] theorem unplacedOption_eq_map (v : Option Stmt) : unplacedOption v = v.map unplaced := by
  cases v <;> simp [unplacedOption]

@[simp] theorem unplacedList_eq_map (ss : List Stmt) : unplacedList ss = ss.map unplaced := by
  induction ss with
  | nil => simp [unplacedList]
  | cons s ss ih => simp [unplacedList, ih]

end Stmt

def Formal.unplaced (f : Formal) : Formal :=
  { f with position := .null }

def Field.unplaced (f : Field) : Field :=
  { f with position := .null, init := f.init.map Expr.unplaced }

def Method.unplaced (m : Method) : Method :=
  { m with
    position := .null
    formals := m.formals.unplacedWith Formal.unplaced
    body := m.body.unplacedWith Stmt.unplaced }

def Member.unplaced : Member → Member
  | .field f => .field f.unplaced
  | .method m => .method m.unplaced

def ClassDecl.unplaced (c : ClassDecl) : ClassDecl :=
  { c with position := .null, members := c.members.unplacedWith Member.unplaced }

def Program.unplaced (p : Program) : Program :=
  ⟨.null, p.classes.unplacedWith ClassDecl.unplaced⟩

def ClassDecl.inFile (file : String) (c : ClassDecl) : ClassDecl :=
  { c with fileName := file }

def Program.inFile (file : String) (p : Program) : Program :=
  { p with classes := { p.classes with items := p.classes.items.map (ClassDecl.inFile file) } }

end ClassLang
