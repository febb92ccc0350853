import ClassLang.Proofs.Grammar.Unbounded
import ClassLang.Proofs.Rule.Agreement
/-!
Progress of the procedures. Main statement: those that read a class, a member, a formal, a type, a
statement or an expression have taken a token when they succeed (`Nonterminal.consumes`).
-/

namespace ClassLang

namespace Grammar

open Procedures

section Expressions

theorem primary_consumes : procedures.Consumes (procedures.body .primary) := by
  refine Consumes.current fun t => ?_
  generalize t.kind = κ
  split
  · exact Consumes.advance _
  · refine Consumes.current fun t => ?_
    cases readInteger? t.value.toList with
    | none => exact Consumes.reject _
    | some value => exact Consumes.advance _
  · exact Consumes.advance _
  · exact Consumes.advance _
  · exact Consumes.advance _
  · exact Consumes.advance _
  · exact Consumes.bind Consumes.identifier
  · exact Consumes.unexpected _

theorem trailing_consumes : procedures.Consumes (procedures.body .trailing) :=
  Consumes.position fun _ => Consumes.bind (Consumes.call primary_consumes)

theorem leading_consumes : procedures.Consumes (procedures.body .leading) := by
  refine Consumes.kind fun κ => ?_
  cases leadingOp? κ with
  | none => exact Consumes.call trailing_consumes
  | some op => exact Consumes.advance _

theorem factor_consumes : procedures.Consumes (procedures.body .factor) := by
  refine Consumes.kind fun κ => ?_
  split
  · exact Consumes.call (Consumes.advance _)
  · exact Consumes.call (Consumes.advance _)
  · exact Consumes.call leading_consumes

section Operators

variable {op? : TokenKind → Option BinaryOp} {operand second : Call Expr}

variable (h : procedures.Consumes (procedures.body operand))

include h

theorem joined_consumes : procedures.Consumes (Unbounded.joined op? operand second) :=
  Consumes.position fun _ => Consumes.bind (Consumes.call h)

theorem chainLeft_consumes : procedures.Consumes (Unbounded.chainLeft op? operand) :=
  Consumes.position fun _ => Consumes.bind (Consumes.call h)

end Operators

theorem product_consumes : procedures.Consumes (procedures.body .product) :=
  joined_consumes factor_consumes

theorem sum_consumes : procedures.Consumes (procedures.body .sum) :=
  joined_consumes product_consumes

theorem relation_consumes : procedures.Consumes (procedures.body .relation) :=
  joined_consumes sum_consumes

theorem equality_consumes : procedures.Consumes (procedures.body .equality) :=
  joined_consumes relation_consumes

theorem conjunction_consumes : procedures.Consumes (procedures.body .conjunction) :=
  chainLeft_consumes equality_consumes

theorem disjunction_consumes : procedures.Consumes (procedures.body .disjunction) :=
  chainLeft_consumes conjunction_consumes

theorem expression_consumes : procedures.Consumes (procedures.body .expression) :=
  Consumes.position fun _ => Consumes.bind (Consumes.call disjunction_consumes)

end Expressions

section Statements

theorem expressionStatement_consumes : procedures.Consumes (procedures.body .expressionStatement) :=
  Consumes.position fun _ => Consumes.bind (Consumes.call expression_consumes)

theorem blockStatement_consumes : procedures.Consumes Unbounded.blockStatement :=
  Consumes.bind (Consumes.call (Consumes.bind (Consumes.expectOr _ _)))

theorem statement_consumes : procedures.Consumes (procedures.body .statement) := by
  refine Consumes.kind fun κ => ?_
  split
  · exact Consumes.call (Consumes.advance _)
  · exact blockStatement_consumes
  · exact Consumes.call (Consumes.advance _)
  · exact Consumes.call (Consumes.advance _)
  · exact Consumes.call (Consumes.advance _)
  · exact Consumes.call (Consumes.advance _)
  · exact Consumes.call (Consumes.advance _)
  · exact Consumes.call (Consumes.advance _)
  · exact Consumes.call expressionStatement_consumes

end Statements

section Declarations

theorem formal_consumes : procedures.Consumes (procedures.body .formal) :=
  Consumes.position fun _ => Consumes.bind (Consumes.call Consumes.identifier)

theorem member_consumes : procedures.Consumes (procedures.body .member) :=
  Consumes.position fun _ => Consumes.bind (Consumes.call Consumes.identifier)

theorem classDecl_consumes (file : String) :
    procedures.Consumes (procedures.body (.classDecl file)) :=
  Consumes.bind (Consumes.current fun _ => Consumes.expectOr _ _)

end Declarations

theorem scriptOf_consumes (file : String) {n : Nonterminal}
    (h : n ∉ [.program, .formals, .arguments]) :
    procedures.Consumes (Unbounded.scriptOf file n) := by
  cases n with
  | program => simp at h
  | formals => simp at h
  | arguments => simp at h
  | classDecl => exact Consumes.map (Consumes.call (classDecl_consumes file))
  | member => exact Consumes.map (Consumes.call member_consumes)
  | formal => exact Consumes.map (Consumes.call formal_consumes)
  | typeName => exact Consumes.map (Consumes.call Consumes.identifier)
  | statement => exact Consumes.map (Consumes.call statement_consumes)
  | expressionStatement => exact Consumes.map (Consumes.call expressionStatement_consumes)
  | blockStatement => exact Consumes.map blockStatement_consumes
  | expression => exact Consumes.map (Consumes.call expression_consumes)
  | disjunction => exact Consumes.map (Consumes.call disjunction_consumes)
  | conjunction => exact Consumes.map (Consumes.call conjunction_consumes)
  | equality => exact Consumes.map (Consumes.call equality_consumes)
  | relation => exact Consumes.map (Consumes.call relation_consumes)
  | sum => exact Consumes.map (Consumes.call sum_consumes)
  | product => exact Consumes.map (Consumes.call product_consumes)
  | factor => exact Consumes.map (Consumes.call factor_consumes)
  | leading => exact Consumes.map (Consumes.call leading_consumes)
  | trailing => exact Consumes.map (Consumes.call trailing_consumes)
  | primary => exact Consumes.map (Consumes.call primary_consumes)
  | _ => exact Consumes.map (Consumes.call (Consumes.advance _))

end Grammar

end ClassLang
