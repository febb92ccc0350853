import ClassLang.Grammar.Phrase
import ClassLang.Proofs.Grammar.Locality
import ClassLang.Proofs.Rule.Blame
/-!
Every rule that fails does so about the token that it stops at. Main statement: this holds of the
rule of every nonterminal, on streams with no more tokens than its bound (`ruleOf_blames`).
-/

namespace ClassLang

namespace Grammar

open Rule

variable {n b : Nat}

section Operators

variable {op? : TokenKind → Option BinaryOp} {operand : Rule Expr}

variable (hoperand : Blames n operand)

include hoperand

theorem moreLeft_blames (p : Position) (left : Expr) :
    Blames n (moreLeft op? operand p b left) := by
  induction b generalizing n left with
  | zero => exact Blames.pure left
  | succ b ih =>
      refine Blames.kind fun κ => ?_
      cases op? κ with
      | none => exact Blames.pure left
      | some op =>
          have hright := hoperand.mono (Nat.sub_le n 1)
          exact Blames.advance fun _ => Blames.bind hright fun _ => ih hright _

theorem chainLeft_blames : Blames n (chainLeft op? operand b) := by
  refine Blames.position fun p => Blames.bind hoperand fun left => ?_
  exact moreLeft_blames hoperand p left

theorem joined_blames {second : Rule Expr} (hsecond : Blames (n - 1) second) :
    Blames n (joined op? operand second) := by
  refine Blames.position fun p => Blames.bind hoperand fun left => Blames.kind fun κ => ?_
  cases op? κ with
  | none => exact Blames.pure left
  | some op => exact Blames.advance fun _ => Blames.bind hsecond fun _ => Blames.pure _

theorem atMostOne_blames : Blames n (atMostOne op? operand) :=
  joined_blames hoperand (hoperand.mono (Nat.sub_le n 1))

theorem chainRight_blames : Blames n (chainRight op? operand b) := by
  induction b generalizing n with
  | zero => exact hoperand
  | succ b ih => exact joined_blames hoperand (ih (hoperand.mono (Nat.sub_le n 1)))

theorem leading_blames : Blames n (leading operand b) := by
  induction b generalizing n with
  | zero => exact hoperand
  | succ b ih =>
      refine Blames.kind fun κ => ?_
      cases leadingOp? κ with
      | none => exact hoperand
      | some op =>
          refine Blames.advance fun _ => Blames.bind ?_ fun _ => Blames.pure _
          exact ih (hoperand.mono (Nat.sub_le n 1))

end Operators

section Expressions

theorem creation_blames : Blames n creation := by
  refine Blames.advance fun _ => Blames.bind Blames.identifier fun _ => ?_
  exact Blames.bind (Blames.expectIn _ _) fun _ => Blames.bind (Blames.expectIn _ _) fun _ =>
    Blames.pure _

theorem integerConstant_blames : Blames n integerConstant := by
  refine ⟨(integerConstant_tracks (n := 0)).steady, ?_⟩
  intro s s' d _ h
  rw [integerConstant, current_bind] at h
  cases hvalue : readInteger? s.current.value.toList with
  | none =>
      rw [hvalue] at h
      cases h
      exact .badInteger hvalue
  | some v =>
      rw [hvalue] at h
      cases h

variable {expr : Rule Expr}

variable (hexpr : Blames (n - 1) expr)

include hexpr

theorem conversion_blames : Blames n (conversion expr) := by
  refine Blames.advance fun _ => Blames.bind (Blames.expectIn _ _) fun _ => ?_
  refine Blames.bind Blames.identifier fun _ => Blames.bind (Blames.expectIn _ _) fun _ => ?_
  exact Blames.bind hexpr fun _ => Blames.bind (Blames.expectIn _ _) fun _ => Blames.pure _

theorem parenthesized_blames : Blames n (parenthesized expr) := by
  refine Blames.advance fun _ => Blames.bind hexpr fun _ => ?_
  exact Blames.bind (Blames.expectIn _ _) fun _ => Blames.pure _

theorem varOrCall_blames (p : Position) (r : Option Expr) : Blames n (varOrCall expr b p r) := by
  refine Blames.bind Blames.identifier fun name => Blames.kind fun κ => ?_
  split
  · refine Blames.advance fun _ => Blames.bind (Blames.inParens hexpr) fun _ => ?_
    exact Blames.bind (Blames.expectIn _ _) fun _ => Blames.pure _
  · exact Blames.pure _

theorem qualified_blames : Blames n (qualified expr b) := by
  refine Blames.advance fun t => ?_
  have hdot : Blames (n - 1) (current >>= fun next => expectOr (.symbol .dot)
      (.expected ("`.` after `" ++ t.value ++ "`") next.display)) :=
    Blames.expectOr fun _ _ => .expected
  have hrest := hdot.bind fun _ => varOrCall_blames (hexpr.mono (Nat.sub_le _ 1)) (b := b)
    t.position (some (.var t.position none t.value))
  exact hrest

theorem primary_blames : Blames n (primary expr b) := by
  refine Blames.current fun t => ?_
  generalize t.kind = κ
  split
  · exact parenthesized_blames hexpr
  · exact integerConstant_blames
  · exact Blames.advance fun _ => Blames.pure _
  · exact Blames.advance fun _ => Blames.pure _
  · exact qualified_blames hexpr
  · exact qualified_blames hexpr
  · exact varOrCall_blames hexpr _ _
  · exact Blames.unexpected _

theorem trailing_blames : Blames n (trailing expr b) := by
  refine Blames.position fun p => Blames.bind (primary_blames hexpr) fun operand => ?_
  refine Blames.kind fun κ => ?_
  cases trailingOp? κ with
  | none => exact Blames.pure operand
  | some op => exact Blames.advance fun _ => Blames.pure _

theorem factor_blames : Blames n (factor expr b) := by
  refine Blames.kind fun κ => ?_
  split
  · exact creation_blames
  · exact conversion_blames hexpr
  · exact leading_blames (trailing_blames hexpr)

theorem product_blames : Blames n (product expr b) :=
  chainRight_blames (factor_blames hexpr)

theorem sum_blames : Blames n (sum expr b) :=
  chainRight_blames (product_blames hexpr)

theorem relation_blames : Blames n (relation expr b) :=
  atMostOne_blames (sum_blames hexpr)

theorem equality_blames : Blames n (equality expr b) :=
  atMostOne_blames (relation_blames hexpr)

theorem conjunction_blames : Blames n (conjunction expr b) :=
  chainLeft_blames (equality_blames hexpr)

theorem disjunction_blames : Blames n (disjunction expr b) :=
  chainLeft_blames (conjunction_blames hexpr)

theorem assignment_blames : Blames n (assignment expr b) := by
  refine Blames.position fun p => Blames.bind (disjunction_blames hexpr) fun left => ?_
  cases left with
  | var q reference name =>
      refine Blames.kind fun κ => ?_
      split
      · exact Blames.advance fun _ => Blames.bind hexpr fun _ => Blames.pure _
      · exact Blames.pure _
  | _ => exact Blames.pure _

end Expressions

theorem expression_blames : Blames n (expression b) := by
  induction b generalizing n with
  | zero => exact Blames.unexpected _
  | succ b ih => exact assignment_blames ih

section Statements

variable {expr : Rule Expr} {stmt : Rule Stmt}

variable (hexpr : Blames n expr) (hstmt : Blames (n - 1) stmt)

section Simple

include hexpr

theorem optionalExpression_blames (terminator : Symbol) :
    Blames n (optionalExpression expr terminator) := by
  refine Blames.kind fun κ => ?_
  split
  · exact Blames.pure none
  · exact Blames.bind hexpr fun _ => Blames.pure _

theorem expressionStatement_blames : Blames n (expressionStatement expr) := by
  refine Blames.position fun p => Blames.bind hexpr fun _ => ?_
  exact Blames.bind (Blames.expectIn _ _) fun _ => Blames.pure _

theorem returnStatement_blames : Blames n (returnStatement expr) := by
  refine Blames.advance fun _ => ?_
  refine Blames.bind (optionalExpression_blames (hexpr.mono (by omega)) _) fun _ => ?_
  exact Blames.bind (Blames.expectIn _ _) fun _ => Blames.pure _

omit hexpr in
theorem breakStatement_blames : Blames n breakStatement :=
  Blames.advance fun _ => Blames.bind (Blames.expectIn _ _) fun _ => Blames.pure _

theorem declarationStatement_blames : Blames n (declarationStatement expr) := by
  refine Blames.advance fun _ => Blames.bind Blames.identifier fun _ => ?_
  refine Blames.bind (Blames.expectIn _ _) fun _ => ?_
  refine Blames.bind (hexpr.mono (by omega)) fun _ => ?_
  exact Blames.bind (Blames.expectIn _ _) fun _ => Blames.pure _

end Simple

theorem block_blames (hstmt : Blames (n - 1) stmt) (hreads : ReadsStmt .statement stmt)
    (hb : n ≤ b) : Blames n (block stmt b) := by
  -- the opening brace is taken before a statement is read
  refine Blames.bind_of_lt (Blames.expectIn _ _) ?_ fun start => ?_
  · intro s s' t h
    obtain ⟨hs, -⟩ := pending_of_expectIn h (by simp)
    rw [hs]
    exact Nat.lt_succ_self _
  · have hlt : ∀ {s s' : TokenStream} {x : Stmt}, stmt s = .ok x s' →
        s'.pending.length < s.pending.length := fun h => (hreads h).length_lt
    exact Blames.bind (Blames.toCloseBrace hstmt hlt (by omega)) fun _ => Blames.pure _

theorem blockStatement_blames (hstmt : Blames (n - 1) stmt) (hreads : ReadsStmt .statement stmt)
    (hb : n ≤ b) : Blames n (blockStatement stmt b) :=
  Blames.bind (block_blames hstmt hreads hb) fun _ => Blames.pure _

include hexpr hstmt

theorem whileStatement_blames : Blames n (whileStatement expr stmt) := by
  refine Blames.advance fun _ => Blames.bind (Blames.expectIn _ _) fun _ => ?_
  refine Blames.bind (hexpr.mono (by omega)) fun _ => Blames.bind (Blames.expectIn _ _) fun _ => ?_
  exact Blames.bind hstmt fun _ => Blames.pure _

theorem forStatement_blames : Blames n (forStatement expr stmt) := by
  have hoption : ∀ terminator : Symbol, Blames (n - 1) (optionalExpression expr terminator) :=
    fun terminator => optionalExpression_blames (hexpr.mono (by omega)) terminator
  refine Blames.advance fun _ => Blames.bind (Blames.expectIn _ _) fun _ => ?_
  refine Blames.bind (hoption _) fun _ => Blames.bind (Blames.expectIn _ _) fun _ => ?_
  refine Blames.bind (hoption _) fun _ => Blames.bind (Blames.expectIn _ _) fun _ => ?_
  refine Blames.bind (hoption _) fun _ => Blames.bind (Blames.expectIn _ _) fun _ => ?_
  exact Blames.bind hstmt fun _ => Blames.pure _

theorem ifStatement_blames : Blames n (ifStatement expr stmt) := by
  refine Blames.advance fun _ => Blames.bind (Blames.expectIn _ _) fun _ => ?_
  refine Blames.bind (hexpr.mono (by omega)) fun _ => Blames.bind (Blames.expectIn _ _) fun _ => ?_
  refine Blames.bind hstmt fun _ => Blames.kind fun κ => ?_
  split
  · refine Blames.advance fun _ => ?_
    exact Blames.bind (hstmt.mono (by omega)) fun _ => Blames.pure _
  · exact Blames.pure _

theorem statementOf_blames (hreads : ReadsStmt .statement stmt) (hb : n ≤ b) :
    Blames n (statementOf expr stmt b) := by
  refine Blames.kind fun κ => ?_
  split
  · exact ifStatement_blames hexpr hstmt
  · exact blockStatement_blames hstmt hreads hb
  · exact declarationStatement_blames hexpr
  · exact returnStatement_blames hexpr
  · exact forStatement_blames hexpr hstmt
  · exact whileStatement_blames hexpr hstmt
  · exact breakStatement_blames
  · exact Blames.advance fun _ => Blames.pure _
  · exact expressionStatement_blames hexpr

end Statements

theorem statement_blames (hb : n ≤ b) : Blames n (statement b) := by
  induction b generalizing n with
  | zero => exact expressionStatement_blames expression_blames
  | succ b ih => exact statementOf_blames expression_blames (ih (by omega)) (statement_reads b) hb

theorem formal_blames : Blames n formal := by
  refine Blames.position fun p => Blames.bind Blames.identifier fun _ => ?_
  exact Blames.bind Blames.identifier fun _ => Blames.pure _

theorem parent_blames : Blames n parent := by
  refine Blames.kind fun κ => ?_
  split
  · exact Blames.advance fun _ => Blames.bind Blames.identifier fun _ => Blames.pure _
  · exact Blames.pure none

theorem fieldInit_blames : Blames n (fieldInit b) := by
  refine Blames.kind fun κ => ?_
  split
  · exact Blames.advance fun _ => Blames.bind expression_blames fun _ => Blames.pure _
  · exact Blames.pure none

section Declarations

variable {file : String}

variable (hb : n ≤ b)

include hb

theorem methodRest_blames (p : Position) (returnType name : String) :
    Blames n (methodRest b p returnType name) := by
  refine Blames.advance fun _ => Blames.bind (Blames.inParens formal_blames) fun _ => ?_
  refine Blames.bind (Blames.expectIn _ _) fun _ => ?_
  have hstmt : Blames (n - 1 - 1) (statement b) := statement_blames (by omega)
  exact Blames.bind (block_blames hstmt (statement_reads b) (by omega)) fun _ => Blames.pure _

theorem member_blames : Blames n (member b) := by
  refine Blames.position fun p => Blames.bind Blames.identifier fun _ => ?_
  refine Blames.bind Blames.identifier fun _ => Blames.kind fun κ => ?_
  split
  · exact Blames.bind (methodRest_blames hb _ _ _) fun _ => Blames.pure _
  · refine Blames.bind fieldInit_blames fun _ => ?_
    exact Blames.bind (Blames.expectIn _ _) fun _ => Blames.pure _

theorem classDecl_blames : Blames n (classDecl file b) := by
  have hlt : ∀ {s s' : TokenStream} {m : Member}, member b s = .ok m s' →
      s'.pending.length < s.pending.length :=
    fun h => (@member_reads file b _ _ _ h).length_lt_of_member
  refine Blames.bind (Blames.expect _) fun _ => Blames.bind Blames.identifier fun _ => ?_
  refine Blames.bind parent_blames fun _ => Blames.bind (Blames.expectIn _ _) fun _ => ?_
  refine Blames.position fun p => ?_
  exact Blames.bind (Blames.toCloseBrace (member_blames hb) hlt hb) fun _ => Blames.pure _

omit hb in
theorem toEndOfInput_blames {α : Type} {item : Rule α} (hitem : Blames n item) :
    Blames n (toEndOfInput item b) := by
  induction b with
  | zero => exact Blames.pure []
  | succ b ih =>
      refine Blames.kind fun κ => ?_
      split
      · exact Blames.pure []
      · exact Blames.bind hitem fun _ => Blames.bind ih fun _ => Blames.pure _

theorem program_blames : Blames n (program file b) := by
  refine Blames.position fun p => ?_
  exact Blames.bind (toEndOfInput_blames (classDecl_blames hb)) fun _ => Blames.pure _

theorem ruleOf_blames (x : Nonterminal) : Blames n (ruleOf file b x) := by
  have hexpr : ∀ {m : Nat}, Blames m (expression b) := expression_blames
  have hstmt : Blames n (statement b) := statement_blames hb
  have hshorter : Blames (n - 1) (statement b) := hstmt.mono (Nat.sub_le n 1)
  cases x with
  | program => exact (program_blames hb).map
  | classDecl => exact (classDecl_blames hb).map
  | member => exact (member_blames hb).map
  | formals => exact (Blames.inParens formal_blames).map
  | formal => exact formal_blames.map
  | typeName => exact Blames.identifier.map
  | statement => exact hstmt.map
  | whileStatement => exact (whileStatement_blames hexpr hshorter).map
  | returnStatement => exact (returnStatement_blames hexpr).map
  | breakStatement => exact breakStatement_blames.map
  | expressionStatement => exact (expressionStatement_blames hexpr).map
  | emptyStatement => exact (Blames.advance fun _ => Blames.pure _).map
  | declarationStatement => exact (declarationStatement_blames hexpr).map
  | forStatement => exact (forStatement_blames hexpr hshorter).map
  | blockStatement => exact (blockStatement_blames hshorter (statement_reads b) hb).map
  | ifStatement => exact (ifStatement_blames hexpr hshorter).map
  | expression => exact hexpr.map
  | disjunction => exact (disjunction_blames hexpr).map
  | conjunction => exact (conjunction_blames hexpr).map
  | equality => exact (equality_blames hexpr).map
  | relation => exact (relation_blames hexpr).map
  | sum => exact (sum_blames hexpr).map
  | product => exact (product_blames hexpr).map
  | factor => exact (factor_blames hexpr).map
  | creation => exact creation_blames.map
  | conversion => exact (conversion_blames hexpr).map
  | leading => exact (leading_blames (trailing_blames hexpr)).map
  | trailing => exact (trailing_blames hexpr).map
  | primary => exact (primary_blames hexpr).map
  | arguments => exact (Blames.inParens hexpr).map

end Declarations

end Grammar

end ClassLang
