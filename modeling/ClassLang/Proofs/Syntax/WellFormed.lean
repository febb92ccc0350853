import ClassLang.Syntax.Program
import ClassLang.Text.Integer
import ClassLang.Token.Pattern
/-!
Well-formed trees: the names in them are names, integer constants are in range, only `this` and
`super` stand before a dot, only increments and decrements stand after their operand, and no
conditional takes the `else` of one that its first branch ends with. Positions play no part.
-/

namespace ClassLang

def isName (name : String) : Bool :=
  match name.toList with
  | [] => false
  | c :: cs => isWordStart c && cs.all isWordRest && (reservedKind? name).isNone

def isQualifier (word : String) : Bool :=
  word = Keyword.spelling .kwThis || word = Keyword.spelling .kwSuper

/-- An operator may stand after its operand, or it stands before it. -/
def UnaryOp.fits (op : UnaryOp) (afterOperand : Bool) : Bool :=
  !afterOperand || op = .increment || op = .decrement

namespace Expr

/-- Nothing, or a variable named `this` or `super` with nothing before it. -/
def isReference : Option Expr → Bool
  | none => true
  | some (.var _ none word) => isQualifier word
  | some _ => false

mutual

def wellFormed : Expr → Bool
  | .integer _ v => 0 ≤ v && v ≤ maxInteger
  | .boolean .. => true
  | .string .. => true
  | .var _ r name => isReference r && isName name
  | .assign _ q name v => q.all isQualifier && isName name && v.wellFormed
  | .call _ r m ⟨_, es⟩ => isReference r && isName m && wellFormedList es
  | .create _ name => isName name
  | .cast _ target e => isName target && e.wellFormed
  | .binary _ _ l r => l.wellFormed && r.wellFormed
  | .unary _ op e afterOperand => op.fits afterOperand && e.wellFormed

def wellFormedList : List Expr → Bool
  | [] => true
  | e :: es => e.wellFormed && wellFormedList es

end

@[simp] theorem wellFormedList_eq_all (es : List Expr) : wellFormedList es = es.all wellFormed := by
  induction es with
  | nil => simp [wellFormedList]
  | cons e es ih => simp [wellFormedList, ih]

theorem all_isQualifier_of_isReference {r : Option Expr} (h : isReference r = true) :
    (r.bind varName?).all isQualifier = true := by
  unfold isReference at h
  split at h
  · rfl
  · exact h
  · exact absurd h (by simp)

end Expr

namespace Stmt

/-- The statement ends with a conditional that lacks an `else`. -/
def endsOpen : Stmt → Bool
  | .conditional _ _ _ none => true
  | .conditional _ _ _ (some s) => s.endsOpen
  | .whileLoop _ _ s => s.endsOpen
  | .forLoop _ _ _ _ s => s.endsOpen
  | _ => false

mutual

def wellFormed : Stmt → Bool
  | .conditional _ e s t =>
      e.wellFormed && s.wellFormed && wellFormedOption t && (t.isNone || !s.endsOpen)
  | .whileLoop _ e s => e.wellFormed && s.wellFormed
  | .forLoop _ a b c s =>
      a.all Expr.wellFormed && b.all Expr.wellFormed && c.all Expr.wellFormed && s.wellFormed
  | .block _ ⟨_, ss⟩ => wellFormedList ss
  | .returnValue _ v => v.all Expr.wellFormed
  | .breakLoop _ => true
  | .declaration _ name e => isName name && e.wellFormed
  | .expression _ e => e.wellFormed

def wellFormedOption : Option Stmt → Bool
  | none => true
  | some s => s.wellFormed

def wellFormedList : List Stmt → Bool
  | [] => true
  | s :: ss => s.wellFormed && wellFormedList ss

end

@[simp] theorem wellFormedOption_eq_all (s : Option Stmt) :
    wellFormedOption s = s.all wellFormed := by
  cases s <;> simp [wellFormedOption]

@[simp] theorem wellFormedList_eq_all (ss : List Stmt) : wellFormedList ss = ss.all wellFormed := by
  induction ss with
  | nil => simp [wellFormedList]
  | cons s ss ih => simp [wellFormedList, ih]

end Stmt

def Formal.wellFormed (f : Formal) : Bool :=
  isName f.typeName && isName f.name

def Field.wellFormed (f : Field) : Bool :=
  isName f.typeName && isName f.name && f.init.all Expr.wellFormed

def Method.wellFormed (m : Method) : Bool :=
  isName m.returnType && isName m.name && m.formals.items.all Formal.wellFormed &&
    m.body.items.all Stmt.wellFormed

def Member.wellFormed : Member → Bool
  | .field f => f.wellFormed
  | .method m => m.wellFormed

def ClassDecl.wellFormed (c : ClassDecl) : Bool :=
  isName c.name && c.parent.all isName && c.members.items.all Member.wellFormed

def Program.wellFormed (p : Program) : Bool :=
  p.classes.items.all ClassDecl.wellFormed

end ClassLang
