import ClassLang.Syntax.Expr
/-!
Statements. Main statement: equality of statements, positions included, is decided by comparing
them part by part (`Stmt.same_iff`).
-/

namespace ClassLang

/-- Statements. An empty statement is a block without statements. -/
inductive Stmt where
  | conditional (position : Position) (predicate : Expr) (thenBranch : Stmt)
      (elseBranch : Option Stmt)
  | whileLoop (position : Position) (predicate : Expr) (body : Stmt)
  | forLoop (position : Position) (start terminate increment : Option Expr) (body : Stmt)
  | block (position : Position) (body : NodeList Stmt)
  | returnValue (position : Position) (value : Option Expr)
  | breakLoop (position : Position)
  | declaration (position : Position) (name : String) (init : Expr)
  | expression (position : Position) (expression : Expr)

namespace Stmt

def position : Stmt → Position
  | .conditional p _ _ _ => p
  | .whileLoop p _ _ => p
  | .forLoop p _ _ _ _ => p
  | .block p _ => p
  | .returnValue p _ => p
  | .breakLoop p => p
  | .declaration p _ _ => p
  | .expression p _ => p

mutual

def same : Stmt → Stmt → Bool
  | .conditional p e s o, .conditional q f t u =>
      p == q && (decide (e = f) && (same s t && sameOption o u))
  | .whileLoop p e s, .whileLoop q f t => p == q && (decide (e = f) && same s t)
  | .forLoop p a b c s, .forLoop q a' b' c' t =>
      p == q && (decide (a = a') && (decide (b = b') && (decide (c = c') && same s t)))
  | .block p ⟨a, ss⟩, .block q ⟨b, ts⟩ => p == q && (a == b && sameList ss ts)
  | .returnValue p v, .returnValue q w => p == q && decide (v = w)
  | .breakLoop p, .breakLoop q => p == q
  | .declaration p n e, .declaration q m f => p == q && (n == m && decide (e = f))
  | .expression p e, .expression q f => p == q && decide (e = f)
  | _, _ => false

def sameOption : Option Stmt → Option Stmt → Bool
  | none, none => true
  | some s, some t => same s t
  | _, _ => false

def sameList : List Stmt → List Stmt → Bool
  | [], [] => true
  | s :: ss, t :: ts => same s t && sameList ss ts
  | _, _ => false

end

mutual

theorem same_iff : (s t : Stmt) → (same s t = true ↔ s = t)
  | .conditional _ _ s o, t => by
      cases t with
      | conditional _ _ t u => simp [same, same_iff s t, sameOption_iff o u]
      | _ => simp [same]
  | .whileLoop _ _ s, t => by
      cases t with
      | whileLoop _ _ t => simp [same, same_iff s t]
      | _ => simp [same]
  | .forLoop _ _ _ _ s, t => by
      cases t with
      | forLoop _ _ _ _ t => simp [same, same_iff s t]
      | _ => simp [same]
  | .block _ ⟨_, ss⟩, t => by
      cases t with
      | block _ l =>
          obtain ⟨_, ts⟩ := l
          simp [same, sameList_iff ss ts]
      | _ => simp [same]
  | .returnValue .., t => by cases t <;> simp [same]
  | .breakLoop _, t => by cases t <;> simp [same]
  | .declaration .., t => by cases t <;> simp [same]
  | .expression .., t => by cases t <;> simp [same]

theorem sameOption_iff : (s t : Option Stmt) → (sameOption s t = true ↔ s = t)
  | none, t => by cases t <;> simp [sameOption]
  | some s, none => by simp [sameOption]
  | some s, some t => by simp [sameOption, same_iff s t]

theorem sameList_iff : (ss ts : List Stmt) → (sameList ss ts = true ↔ ss = ts)
  | [], ts => by cases ts <;> simp [sameList]
  | s :: ss, [] => by simp [sameList]
  | s :: ss, t :: ts => by simp [sameList, same_iff s t, sameList_iff ss ts]

end

instance : DecidableEq Stmt := fun s t => decidable_of_iff _ (same_iff s t)

end Stmt

end ClassLang
