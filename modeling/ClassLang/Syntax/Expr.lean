import ClassLang.Source.Position
import ClassLang.Syntax.Operator
/-!
Expressions. Main statement: equality of expressions, positions included, is decided by comparing
them part by part (`Expr.same_iff`).
-/

namespace ClassLang

/-- Nodes in the order of the source, with a position of the list itself. -/
structure NodeList (α : Type) where
  position : Position
  items : List α
  deriving DecidableEq, Repr

namespace NodeList

def length {α : Type} (l : NodeList α) : Nat :=
  l.items.length

def isEmpty {α : Type} (l : NodeList α) : Bool :=
  l.items.isEmpty

end NodeList

/-- Expressions. Parentheses leave no trace. -/
inductive Expr where
  | integer (position : Position) (value : Int)
  | boolean (position : Position) (value : Bool)
  | string (position : Position) (value : String)
  /-- A variable. What stands before its dot is a variable named `this` or `super`. -/
  | var (position : Position) (reference : Option Expr) (name : String)
  | assign (position : Position) (qualifier : Option String) (name : String) (value : Expr)
  /-- A method call; without a receiver, on the object itself. -/
  | call (position : Position) (receiver : Option Expr) (method : String)
      (arguments : NodeList Expr)
  | create (position : Position) (className : String)
  | cast (position : Position) (target : String) (operand : Expr)
  | binary (position : Position) (op : BinaryOp) (left right : Expr)
  /-- Only an increment or a decrement may stand after its operand. -/
  | unary (position : Position) (op : UnaryOp) (operand : Expr) (afterOperand : Bool)

namespace Expr

def position : Expr → Position
  | .integer p _ => p
  | .boolean p _ => p
  | .string p _ => p
  | .var p _ _ => p
  | .assign p _ _ _ => p
  | .call p _ _ _ => p
  | .create p _ => p
  | .cast p _ _ => p
  | .binary p _ _ _ => p
  | .unary p _ _ _ => p

def varName? : Expr → Option String
  | .var _ _ name => some name
  | _ => none

mutual

def same : Expr → Expr → Bool
  | .integer p v, .integer q w => p == q && v == w
  | .boolean p v, .boolean q w => p == q && v == w
  | .string p v, .string q w => p == q && v == w
  | .var p r n, .var q s m => p == q && (sameOption r s && n == m)
  | .assign p r n v, .assign q s m w => p == q && (r == s && (n == m && same v w))
  | .call p r n ⟨a, xs⟩, .call q s m ⟨b, ys⟩ =>
      p == q && (sameOption r s && (n == m && (a == b && sameList xs ys)))
  | .create p n, .create q m => p == q && n == m
  | .cast p t v, .cast q u w => p == q && (t == u && same v w)
  | .binary p o l r, .binary q o' l' r' => p == q && (o == o' && (same l l' && same r r'))
  | .unary p o v a, .unary q o' w b => p == q && (o == o' && (same v w && a == b))
  | _, _ => false

def sameOption : Option Expr → Option Expr → Bool
  | none, none => true
  | some v, some w => same v w
  | _, _ => false

def sameList : List Expr → List Expr → Bool
  | [], [] => true
  | v :: vs, w :: ws => same v w && sameList vs ws
  | _, _ => false

end

mutual

theorem same_iff : (v w : Expr) → (same v w = true ↔ v = w)
  | .integer .., w => by cases w <;> simp [same]
  | .boolean .., w => by cases w <;> simp [same]
  | .string .., w => by cases w <;> simp [same]
  | .var _ r _, w => by
      cases w with
      | var _ s _ => simp [same, sameOption_iff r s]
      | _ => simp [same]
  | .assign _ _ _ v, w => by
      cases w with
      | assign _ _ _ w => simp [same, same_iff v w]
      | _ => simp [same]
  | .call _ r _ ⟨_, xs⟩, w => by
      cases w with
      | call _ s _ l =>
          obtain ⟨_, ys⟩ := l
          simp [same, sameOption_iff r s, sameList_iff xs ys]
      | _ => simp [same]
  | .create .., w => by cases w <;> simp [same]
  | .cast _ _ v, w => by
      cases w with
      | cast _ _ w => simp [same, same_iff v w]
      | _ => simp [same]
  | .binary _ _ l r, w => by
      cases w with
      | binary _ _ l' r' => simp [same, same_iff l l', same_iff r r']
      | _ => simp [same]
  | .unary _ _ v _, w => by
      cases w with
      | unary _ _ w _ => simp [same, same_iff v w]
      | _ => simp [same]

theorem sameOption_iff : (v w : Option Expr) → (sameOption v w = true ↔ v = w)
  | none, w => by cases w <;> simp [sameOption]
  | some v, none => by simp [sameOption]
  | some v, some w => by simp [sameOption, same_iff v w]

theorem sameList_iff : (vs ws : List Expr) → (sameList vs ws = true ↔ vs = ws)
  | [], ws => by cases ws <;> simp [sameList]
  | v :: vs, [] => by simp [sameList]
  | v :: vs, w :: ws => by simp [sameList, same_iff v w, sameList_iff vs ws]

end

instance : DecidableEq Expr := fun v w => decidable_of_iff _ (same_iff v w)

end Expr

end ClassLang
