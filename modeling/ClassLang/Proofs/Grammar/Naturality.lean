import ClassLang.Grammar.Declaration
import ClassLang.Proofs.Rule.Natural
import ClassLang.Proofs.Rule.Repetition
/-!
The grammar does not depend on the layout of the source: its rules put the positions of tokens into
trees and diagnostics, and decide nothing by them. Main statements: this holds of the rule for
programs (`program_natural`), and the file it is given is only noted in the classes
(`program_inFile`).
-/

namespace ClassLang

namespace Grammar

open Rule

variable {φ : Position → Position}

section Operators

variable {op? : TokenKind → Option BinaryOp} {operand : Rule Expr}

variable (hoperand : Natural φ (Expr.relocate φ) operand operand)

include hoperand

theorem moreLeft_natural (p : Position) (bound : Nat) (left : Expr) :
    Natural φ (Expr.relocate φ) (moreLeft op? operand p bound left)
      (moreLeft op? operand (φ p) bound (left.relocate φ)) := by
  induction bound generalizing left with
  | zero => exact Natural.pure rfl
  | succ bound ih =>
      refine Natural.kind fun κ => ?_
      cases op? κ with
      | none => exact Natural.pure rfl
      | some op => exact Natural.bind Natural.advance fun _ => Natural.bind hoperand fun _ => ih _

theorem chainLeft_natural (bound : Nat) :
    Natural φ (Expr.relocate φ) (chainLeft op? operand bound) (chainLeft op? operand bound) := by
  refine Natural.position fun p => Natural.bind hoperand fun left => ?_
  exact moreLeft_natural hoperand p bound left

theorem joined_natural {second : Rule Expr}
    (hsecond : Natural φ (Expr.relocate φ) second second) :
    Natural φ (Expr.relocate φ) (joined op? operand second) (joined op? operand second) := by
  refine Natural.position fun p => Natural.bind hoperand fun left => Natural.kind fun κ => ?_
  cases op? κ with
  | none => exact Natural.pure rfl
  | some op =>
      exact Natural.bind Natural.advance fun _ => Natural.bind hsecond fun _ => Natural.pure rfl

theorem atMostOne_natural :
    Natural φ (Expr.relocate φ) (atMostOne op? operand) (atMostOne op? operand) :=
  joined_natural hoperand hoperand

theorem chainRight_natural (bound : Nat) :
    Natural φ (Expr.relocate φ) (chainRight op? operand bound) (chainRight op? operand bound) := by
  induction bound with
  | zero => exact hoperand
  | succ bound ih => exact joined_natural hoperand ih

theorem leading_natural (bound : Nat) :
    Natural φ (Expr.relocate φ) (leading operand bound) (leading operand bound) := by
  induction bound with
  | zero => exact hoperand
  | succ bound ih =>
      refine Natural.kind fun κ => ?_
      cases leadingOp? κ with
      | none => exact hoperand
      | some op =>
          exact Natural.bind Natural.advance fun _ => Natural.bind ih fun _ => Natural.pure rfl

end Operators

theorem creation_natural : Natural φ (Expr.relocate φ) creation creation := by
  refine Natural.bind Natural.advance fun _ => Natural.bind Natural.identifier fun _ => ?_
  refine Natural.bind (Natural.expectIn _ _) fun _ => ?_
  exact Natural.bind (Natural.expectIn _ _) fun _ => Natural.pure rfl

theorem integerConstant_natural : Natural φ (Expr.relocate φ) integerConstant integerConstant := by
  refine Natural.current fun t => ?_
  rw [Token.value_relocate]
  cases readInteger? t.value.toList with
  | none => exact Natural.reject _
  | some v => exact Natural.bind Natural.advance fun _ => Natural.pure rfl

section Expressions

variable {expr : Rule Expr} (hexpr : Natural φ (Expr.relocate φ) expr expr) (bound : Nat)

include hexpr

theorem conversion_natural :
    Natural φ (Expr.relocate φ) (conversion expr) (conversion expr) := by
  refine Natural.bind Natural.advance fun _ => Natural.bind (Natural.expectIn _ _) fun _ => ?_
  refine Natural.bind Natural.identifier fun _ => Natural.bind (Natural.expectIn _ _) fun _ => ?_
  refine Natural.bind hexpr fun _ => Natural.bind (Natural.expectIn _ _) fun _ => ?_
  exact Natural.pure rfl

theorem parenthesized_natural :
    Natural φ (Expr.relocate φ) (parenthesized expr) (parenthesized expr) := by
  refine Natural.bind Natural.advance fun _ => Natural.bind hexpr fun _ => ?_
  exact Natural.bind (Natural.expectIn _ _) fun _ => Natural.pure rfl

theorem varOrCall_natural (p : Position) (r : Option Expr) :
    Natural φ (Expr.relocate φ) (varOrCall expr bound p r)
      (varOrCall expr bound (φ p) (r.map (Expr.relocate φ))) := by
  refine Natural.bind Natural.identifier fun name => Natural.kind fun κ => ?_
  split
  · refine Natural.bind Natural.advance fun _ => ?_
    refine Natural.bind (Natural.inParens hexpr bound) fun _ => ?_
    exact Natural.bind (Natural.expectIn _ _) fun _ => Natural.pure (by
      simp [Expr.relocate, NodeList.relocate])
  · exact Natural.pure (by simp [Expr.relocate])

theorem qualified_natural :
    Natural φ (Expr.relocate φ) (qualified expr bound) (qualified expr bound) := by
  refine Natural.bind Natural.advance fun t => Natural.current fun _ => ?_
  refine Natural.bind (Natural.expectOr _ _) fun _ => ?_
  have hrest := varOrCall_natural hexpr bound t.position (some (.var t.position none t.value))
  simpa [Expr.relocate] using hrest

theorem primary_natural :
    Natural φ (Expr.relocate φ) (primary expr bound) (primary expr bound) := by
  refine Natural.current fun t => ?_
  rw [Token.kind_relocate]
  generalize t.kind = κ
  split
  · exact parenthesized_natural hexpr
  · exact integerConstant_natural
  · exact Natural.bind Natural.advance fun _ => Natural.pure rfl
  · exact Natural.bind Natural.advance fun _ => Natural.pure rfl
  · exact qualified_natural hexpr bound
  · exact qualified_natural hexpr bound
  · exact varOrCall_natural hexpr bound t.position none
  · exact Natural.unexpected _

theorem trailing_natural :
    Natural φ (Expr.relocate φ) (trailing expr bound) (trailing expr bound) := by
  refine Natural.position fun p => Natural.bind (primary_natural hexpr bound) fun operand => ?_
  refine Natural.kind fun κ => ?_
  cases trailingOp? κ with
  | none => exact Natural.pure rfl
  | some op => exact Natural.bind Natural.advance fun _ => Natural.pure rfl

theorem factor_natural : Natural φ (Expr.relocate φ) (factor expr bound) (factor expr bound) := by
  refine Natural.kind fun κ => ?_
  split
  · exact creation_natural
  · exact conversion_natural hexpr
  · exact leading_natural (trailing_natural hexpr bound) bound

theorem disjunction_natural :
    Natural φ (Expr.relocate φ) (disjunction expr bound) (disjunction expr bound) := by
  have hproduct : Natural φ (Expr.relocate φ) (product expr bound) (product expr bound) :=
    chainRight_natural (factor_natural hexpr bound) bound
  have hsum : Natural φ (Expr.relocate φ) (sum expr bound) (sum expr bound) :=
    chainRight_natural hproduct bound
  have hrelation : Natural φ (Expr.relocate φ) (relation expr bound) (relation expr bound) :=
    atMostOne_natural hsum
  have hequality : Natural φ (Expr.relocate φ) (equality expr bound) (equality expr bound) :=
    atMostOne_natural hrelation
  exact chainLeft_natural (chainLeft_natural hequality bound) bound

theorem assignment_natural :
    Natural φ (Expr.relocate φ) (assignment expr bound) (assignment expr bound) := by
  refine Natural.position fun p => Natural.bind (disjunction_natural hexpr bound) fun left => ?_
  cases left with
  | var q reference name =>
      refine Natural.kind fun κ => ?_
      split
      · refine Natural.bind Natural.advance fun _ => Natural.bind hexpr fun _ => Natural.pure ?_
        have hname : (reference.map (Expr.relocate φ)).bind Expr.varName? =
            reference.bind Expr.varName? := by
          cases reference <;> simp
        simp [Expr.relocate, hname]
      · exact Natural.pure rfl
  | _ => exact Natural.pure rfl

end Expressions

theorem expression_natural (bound : Nat) :
    Natural φ (Expr.relocate φ) (expression bound) (expression bound) := by
  induction bound with
  | zero => exact Natural.unexpected _
  | succ bound ih => exact assignment_natural ih (bound + 1)

section Statements

variable {expr : Rule Expr} {stmt : Rule Stmt}

variable (hexpr : Natural φ (Expr.relocate φ) expr expr)

variable (hstmt : Natural φ (Stmt.relocate φ) stmt stmt) (bound : Nat)

section Simple

include hexpr

theorem optionalExpression_natural (terminator : Symbol) :
    Natural φ (Option.map (Expr.relocate φ)) (optionalExpression expr terminator)
      (optionalExpression expr terminator) := by
  refine Natural.kind fun κ => ?_
  split
  · exact Natural.pure rfl
  · exact Natural.bind hexpr fun _ => Natural.pure rfl

theorem expressionStatement_natural :
    Natural φ (Stmt.relocate φ) (expressionStatement expr) (expressionStatement expr) := by
  refine Natural.position fun p => Natural.bind hexpr fun _ => ?_
  exact Natural.bind (Natural.expectIn _ _) fun _ => Natural.pure rfl

theorem returnStatement_natural :
    Natural φ (Stmt.relocate φ) (returnStatement expr) (returnStatement expr) := by
  refine Natural.bind Natural.advance fun _ => ?_
  refine Natural.bind (optionalExpression_natural hexpr _) fun _ => ?_
  exact Natural.bind (Natural.expectIn _ _) fun _ => Natural.pure rfl

omit hexpr in
theorem breakStatement_natural : Natural φ (Stmt.relocate φ) breakStatement breakStatement := by
  refine Natural.bind Natural.advance fun _ => ?_
  exact Natural.bind (Natural.expectIn _ _) fun _ => Natural.pure rfl

theorem declarationStatement_natural :
    Natural φ (Stmt.relocate φ) (declarationStatement expr) (declarationStatement expr) := by
  refine Natural.bind Natural.advance fun _ => Natural.bind Natural.identifier fun _ => ?_
  refine Natural.bind (Natural.expectIn _ _) fun _ => Natural.bind hexpr fun _ => ?_
  exact Natural.bind (Natural.expectIn _ _) fun _ => Natural.pure rfl

end Simple

include hstmt

theorem block_natural :
    Natural φ (NodeList.relocate φ (Stmt.relocate φ)) (block stmt bound) (block stmt bound) := by
  refine Natural.bind (Natural.expectIn _ _) fun _ => ?_
  exact Natural.bind (Natural.toCloseBrace hstmt _ bound) fun _ => Natural.pure rfl

theorem blockStatement_natural :
    Natural φ (Stmt.relocate φ) (blockStatement stmt bound) (blockStatement stmt bound) := by
  refine Natural.bind (block_natural hstmt bound) fun body => Natural.pure ?_
  simp [Stmt.relocate, NodeList.relocate]

include hexpr

theorem whileStatement_natural :
    Natural φ (Stmt.relocate φ) (whileStatement expr stmt) (whileStatement expr stmt) := by
  refine Natural.bind Natural.advance fun _ => Natural.bind (Natural.expectIn _ _) fun _ => ?_
  refine Natural.bind hexpr fun _ => Natural.bind (Natural.expectIn _ _) fun _ => ?_
  exact Natural.bind hstmt fun _ => Natural.pure rfl

theorem forStatement_natural :
    Natural φ (Stmt.relocate φ) (forStatement expr stmt) (forStatement expr stmt) := by
  have hoption := optionalExpression_natural hexpr
  refine Natural.bind Natural.advance fun _ => Natural.bind (Natural.expectIn _ _) fun _ => ?_
  refine Natural.bind (hoption _) fun _ => Natural.bind (Natural.expectIn _ _) fun _ => ?_
  refine Natural.bind (hoption _) fun _ => Natural.bind (Natural.expectIn _ _) fun _ => ?_
  refine Natural.bind (hoption _) fun _ => Natural.bind (Natural.expectIn _ _) fun _ => ?_
  exact Natural.bind hstmt fun _ => Natural.pure rfl

theorem ifStatement_natural :
    Natural φ (Stmt.relocate φ) (ifStatement expr stmt) (ifStatement expr stmt) := by
  refine Natural.bind Natural.advance fun _ => Natural.bind (Natural.expectIn _ _) fun _ => ?_
  refine Natural.bind hexpr fun _ => Natural.bind (Natural.expectIn _ _) fun _ => ?_
  refine Natural.bind hstmt fun _ => Natural.kind fun κ => ?_
  split
  · exact Natural.bind Natural.advance fun _ => Natural.bind hstmt fun _ => Natural.pure rfl
  · exact Natural.pure rfl

theorem statementOf_natural :
    Natural φ (Stmt.relocate φ) (statementOf expr stmt bound) (statementOf expr stmt bound) := by
  refine Natural.kind fun κ => ?_
  split
  · exact ifStatement_natural hexpr hstmt
  · exact blockStatement_natural hstmt bound
  · exact declarationStatement_natural hexpr
  · exact returnStatement_natural hexpr
  · exact forStatement_natural hexpr hstmt
  · exact whileStatement_natural hexpr hstmt
  · exact breakStatement_natural
  · exact Natural.bind Natural.advance fun _ => Natural.pure rfl
  · exact expressionStatement_natural hexpr

end Statements

theorem statement_natural (bound : Nat) :
    Natural φ (Stmt.relocate φ) (statement bound) (statement bound) := by
  induction bound with
  | zero => exact expressionStatement_natural (expression_natural 0)
  | succ bound ih => exact statementOf_natural (expression_natural (bound + 1)) ih (bound + 1)

section Declarations

theorem formal_natural : Natural φ (Formal.relocate φ) formal formal := by
  refine Natural.position fun p => Natural.bind Natural.identifier fun _ => ?_
  exact Natural.bind Natural.identifier fun _ => Natural.pure rfl

theorem parent_natural : Natural φ id parent parent := by
  refine Natural.kind fun κ => ?_
  split
  · exact Natural.bind Natural.advance fun _ => Natural.bind Natural.identifier fun _ =>
      Natural.pure rfl
  · exact Natural.pure rfl

theorem methodRest_natural (bound : Nat) (p : Position) (returnType name : String) :
    Natural φ (Method.relocate φ) (methodRest bound p returnType name)
      (methodRest bound (φ p) returnType name) := by
  refine Natural.bind Natural.advance fun _ => ?_
  refine Natural.bind (Natural.inParens formal_natural bound) fun _ => ?_
  refine Natural.bind (Natural.expectIn _ _) fun _ => ?_
  exact Natural.bind (block_natural (statement_natural bound) bound) fun _ => Natural.pure rfl

theorem fieldInit_natural (bound : Nat) :
    Natural φ (Option.map (Expr.relocate φ)) (fieldInit bound) (fieldInit bound) := by
  refine Natural.kind fun κ => ?_
  split
  · exact Natural.bind Natural.advance fun _ => Natural.bind (expression_natural bound) fun _ =>
      Natural.pure rfl
  · exact Natural.pure rfl

theorem member_natural (bound : Nat) :
    Natural φ (Member.relocate φ) (member bound) (member bound) := by
  refine Natural.position fun p => Natural.bind Natural.identifier fun _ => ?_
  refine Natural.bind Natural.identifier fun _ => Natural.kind fun κ => ?_
  split
  · exact Natural.bind (methodRest_natural bound p _ _) fun _ => Natural.pure rfl
  · refine Natural.bind (fieldInit_natural bound) fun _ => ?_
    exact Natural.bind (Natural.expectIn _ _) fun _ => Natural.pure rfl

variable (file : String) (bound : Nat)

theorem classDecl_natural :
    Natural φ (ClassDecl.relocate φ) (classDecl file bound) (classDecl file bound) := by
  refine Natural.bind (Natural.expect _) fun _ => Natural.bind Natural.identifier fun _ => ?_
  refine Natural.bind parent_natural fun _ => Natural.bind (Natural.expectIn _ _) fun _ => ?_
  refine Natural.position fun p => ?_
  exact Natural.bind (Natural.toCloseBrace (member_natural bound) _ bound) fun _ =>
    Natural.pure rfl

theorem toEndOfInput_natural {α : Type} {f : α → α} {item : Rule α}
    (hitem : Natural φ f item item) :
    Natural φ (List.map f) (toEndOfInput item bound) (toEndOfInput item bound) := by
  induction bound with
  | zero => exact Natural.pure rfl
  | succ bound ih =>
      refine Natural.kind fun κ => ?_
      split
      · exact Natural.pure rfl
      · exact Natural.bind hitem fun _ => Natural.bind ih fun _ => Natural.pure rfl

theorem program_natural :
    Natural φ (Program.relocate φ) (program file bound) (program file bound) := by
  refine Natural.position fun p => ?_
  exact Natural.bind (toEndOfInput_natural bound (classDecl_natural file bound)) fun _ =>
    Natural.pure rfl

end Declarations

section Files

variable (file file' : String) (bound : Nat)

theorem toEndOfInput_map {α β : Type} (f : α → β) (item : Rule α) :
    toEndOfInput (f <$> item) bound = List.map f <$> toEndOfInput item bound := by
  induction bound with
  | zero => rfl
  | succ bound ih =>
      simp only [toEndOfInput, map_bind, bind_map_left, ih]
      refine bind_congr fun κ => ?_
      split
      · rfl
      · simp

theorem classDecl_inFile :
    classDecl file' bound = ClassDecl.inFile file' <$> classDecl file bound := by
  simp [classDecl, map_bind, ClassDecl.inFile]

theorem program_inFile : program file' bound = Program.inFile file' <$> program file bound := by
  simp [program, map_bind, classDecl_inFile file file', toEndOfInput_map, Program.inFile]

end Files

end Grammar

end ClassLang
