import ClassLang.Proofs.Grammar.Soundness.Declaration
import ClassLang.Proofs.Rule.Lockstep
/-!
Rules look one token ahead and no further: two lists of tokens that agree in their first tokens are
read alike until one of those is the last. Main statement: this holds of the rule for programs,
whatever its bounds (`program_tracks`).
-/

namespace ClassLang

namespace Grammar

open Rule

variable {n b b' : Nat}

section Operators

variable {op? : TokenKind → Option BinaryOp} {operand operand' : Rule Expr}

variable (hoperand : Tracks n operand operand')

include hoperand

theorem moreLeft_tracks (p : Position) (hb : n ≤ b) (hb' : n ≤ b') (left : Expr) :
    Tracks n (moreLeft op? operand p b left) (moreLeft op? operand' p b' left) := by
  refine Tracks.of_bounds (R := fun b left => moreLeft op? operand p b left)
    (S := fun b left => moreLeft op? operand' p b left) ?_ ?_ hb hb' left
  · exact fun left => (Tracks.pure (n := 0) left).steady
  · intro m b b' hm _ _ ih left
    refine Tracks.kind fun κ => ?_
    cases op? κ with
    | none => exact Tracks.pure left
    | some op =>
        exact Tracks.advance fun _ => Tracks.bind (hoperand.mono (by omega)) fun right => ih _

theorem chainLeft_tracks (hb : n ≤ b) (hb' : n ≤ b') :
    Tracks n (chainLeft op? operand b) (chainLeft op? operand' b') := by
  refine Tracks.position fun p => Tracks.bind hoperand fun left => ?_
  exact moreLeft_tracks hoperand p hb hb' left

theorem joined_tracks {second second' : Rule Expr} (hsecond : Tracks (n - 1) second second') :
    Tracks n (joined op? operand second) (joined op? operand' second') := by
  refine Tracks.position fun p => Tracks.bind hoperand fun left => Tracks.kind fun κ => ?_
  cases op? κ with
  | none => exact Tracks.pure left
  | some op => exact Tracks.advance fun _ => Tracks.bind hsecond fun _ => Tracks.pure _

theorem atMostOne_tracks : Tracks n (atMostOne op? operand) (atMostOne op? operand') :=
  joined_tracks hoperand (hoperand.mono (Nat.sub_le n 1))

theorem chainRight_tracks (hb : n ≤ b) (hb' : n ≤ b') :
    Tracks n (chainRight op? operand b) (chainRight op? operand' b') := by
  refine Tracks.of_bounds (R := fun b (_ : Unit) => chainRight op? operand b)
    (S := fun b _ => chainRight op? operand' b) ?_ ?_ hb hb' ()
  · exact fun _ => hoperand.steady
  · exact fun m b b' hm _ _ ih _ => joined_tracks (hoperand.mono hm) (ih ())

theorem leading_tracks (hb : n ≤ b) (hb' : n ≤ b') :
    Tracks n (leading operand b) (leading operand' b') := by
  refine Tracks.of_bounds (R := fun b (_ : Unit) => leading operand b)
    (S := fun b _ => leading operand' b) ?_ ?_ hb hb' ()
  · exact fun _ => hoperand.steady
  · intro m b b' hm _ _ ih _
    refine Tracks.kind fun κ => ?_
    cases leadingOp? κ with
    | none => exact hoperand.mono hm
    | some op => exact Tracks.advance fun _ => Tracks.bind (ih ()) fun _ => Tracks.pure _

end Operators

section Expressions

variable {expr expr' : Rule Expr}

variable (hexpr : Tracks (n - 1) expr expr') (hb : n ≤ b) (hb' : n ≤ b')

theorem creation_tracks : Tracks n creation creation := by
  refine Tracks.advance fun _ => Tracks.bind Tracks.identifier fun _ => ?_
  exact Tracks.bind (Tracks.expectIn _ _) fun _ => Tracks.bind (Tracks.expectIn _ _) fun _ =>
    Tracks.pure _

theorem integerConstant_tracks : Tracks n integerConstant integerConstant := by
  refine Tracks.current fun t => ?_
  cases readInteger? t.value.toList with
  | none => exact Tracks.reject _
  | some v => exact Tracks.advance fun _ => Tracks.pure _

include hexpr

theorem conversion_tracks : Tracks n (conversion expr) (conversion expr') := by
  refine Tracks.advance fun _ => Tracks.bind (Tracks.expectIn _ _) fun _ => ?_
  refine Tracks.bind Tracks.identifier fun _ => Tracks.bind (Tracks.expectIn _ _) fun _ => ?_
  exact Tracks.bind hexpr fun _ => Tracks.bind (Tracks.expectIn _ _) fun _ => Tracks.pure _

theorem parenthesized_tracks : Tracks n (parenthesized expr) (parenthesized expr') := by
  refine Tracks.advance fun _ => Tracks.bind hexpr fun _ => ?_
  exact Tracks.bind (Tracks.expectIn _ _) fun _ => Tracks.pure _

include hb hb'

theorem varOrCall_tracks (p : Position) (r : Option Expr) :
    Tracks n (varOrCall expr b p r) (varOrCall expr' b' p r) := by
  refine Tracks.bind Tracks.identifier fun name => Tracks.kind fun κ => ?_
  split
  · refine Tracks.advance fun _ => ?_
    refine Tracks.bind (Tracks.inParens hexpr (by omega) (by omega)) fun _ => ?_
    exact Tracks.bind (Tracks.expectIn _ _) fun _ => Tracks.pure _
  · exact Tracks.pure _

theorem qualified_tracks : Tracks n (qualified expr b) (qualified expr' b') := by
  refine Tracks.advance fun t => Tracks.current fun _ => ?_
  refine Tracks.bind (Tracks.expectOr _ _) fun _ => ?_
  exact varOrCall_tracks (hexpr.mono (by omega)) (by omega) (by omega) _ _

theorem primary_tracks : Tracks n (primary expr b) (primary expr' b') := by
  refine Tracks.current fun t => ?_
  generalize t.kind = κ
  split
  · exact parenthesized_tracks hexpr
  · exact integerConstant_tracks
  · exact Tracks.advance fun _ => Tracks.pure _
  · exact Tracks.advance fun _ => Tracks.pure _
  · exact qualified_tracks hexpr hb hb'
  · exact qualified_tracks hexpr hb hb'
  · exact varOrCall_tracks hexpr hb hb' _ _
  · exact Tracks.unexpected _

theorem trailing_tracks : Tracks n (trailing expr b) (trailing expr' b') := by
  refine Tracks.position fun p => Tracks.bind (primary_tracks hexpr hb hb') fun operand => ?_
  refine Tracks.kind fun κ => ?_
  cases trailingOp? κ with
  | none => exact Tracks.pure operand
  | some op => exact Tracks.advance fun _ => Tracks.pure _

theorem factor_tracks : Tracks n (factor expr b) (factor expr' b') := by
  refine Tracks.kind fun κ => ?_
  split
  · exact creation_tracks
  · exact conversion_tracks hexpr
  · exact leading_tracks (trailing_tracks hexpr hb hb') hb hb'

theorem disjunction_tracks : Tracks n (disjunction expr b) (disjunction expr' b') := by
  have hproduct : Tracks n (product expr b) (product expr' b') :=
    chainRight_tracks (factor_tracks hexpr hb hb') hb hb'
  have hsum : Tracks n (sum expr b) (sum expr' b') := chainRight_tracks hproduct hb hb'
  have hrelation : Tracks n (relation expr b) (relation expr' b') := atMostOne_tracks hsum
  have hequality : Tracks n (equality expr b) (equality expr' b') := atMostOne_tracks hrelation
  have hconjunction : Tracks n (conjunction expr b) (conjunction expr' b') :=
    chainLeft_tracks hequality hb hb'
  exact chainLeft_tracks hconjunction hb hb'

theorem assignment_tracks : Tracks n (assignment expr b) (assignment expr' b') := by
  refine Tracks.position fun p => Tracks.bind (disjunction_tracks hexpr hb hb') fun left => ?_
  cases left with
  | var q reference name =>
      refine Tracks.kind fun κ => ?_
      split
      · exact Tracks.advance fun _ => Tracks.bind hexpr fun _ => Tracks.pure _
      · exact Tracks.pure _
  | _ => exact Tracks.pure _

end Expressions

theorem expression_tracks (hb : n ≤ b) (hb' : n ≤ b') :
    Tracks n (expression b) (expression b') := by
  refine Tracks.of_bounds (R := fun b (_ : Unit) => expression b)
    (S := fun b _ => expression b) ?_ ?_ hb hb' ()
  · exact fun _ => (Tracks.unexpected (n := 0) _).steady
  · exact fun m b b' _ hmb hmb' ih _ => assignment_tracks (ih ()) hmb hmb'

section Statements

variable {expr expr' : Rule Expr} {stmt stmt' : Rule Stmt}

variable (hexpr : Tracks n expr expr') (hstmt : Tracks (n - 1) stmt stmt')

section Simple

include hexpr

theorem optionalExpression_tracks (terminator : Symbol) :
    Tracks n (optionalExpression expr terminator) (optionalExpression expr' terminator) := by
  refine Tracks.kind fun κ => ?_
  split
  · exact Tracks.pure none
  · exact Tracks.bind hexpr fun _ => Tracks.pure _

theorem expressionStatement_tracks :
    Tracks n (expressionStatement expr) (expressionStatement expr') := by
  refine Tracks.position fun p => Tracks.bind hexpr fun _ => ?_
  exact Tracks.bind (Tracks.expectIn _ _) fun _ => Tracks.pure _

theorem returnStatement_tracks : Tracks n (returnStatement expr) (returnStatement expr') := by
  refine Tracks.advance fun _ => ?_
  refine Tracks.bind (optionalExpression_tracks (hexpr.mono (by omega)) _) fun _ => ?_
  exact Tracks.bind (Tracks.expectIn _ _) fun _ => Tracks.pure _

omit hexpr in
theorem breakStatement_tracks : Tracks n breakStatement breakStatement :=
  Tracks.advance fun _ => Tracks.bind (Tracks.expectIn _ _) fun _ => Tracks.pure _

theorem declarationStatement_tracks :
    Tracks n (declarationStatement expr) (declarationStatement expr') := by
  refine Tracks.advance fun _ => Tracks.bind Tracks.identifier fun _ => ?_
  refine Tracks.bind (Tracks.expectIn _ _) fun _ => ?_
  refine Tracks.bind (hexpr.mono (by omega)) fun _ => ?_
  exact Tracks.bind (Tracks.expectIn _ _) fun _ => Tracks.pure _

end Simple

theorem block_tracks (hstmt : Tracks (n - 1) stmt stmt') (hreads : ReadsStmt .statement stmt)
    (hb : n ≤ b) (hb' : n ≤ b') : Tracks n (block stmt b) (block stmt' b') := by
  -- the opening brace is taken before a statement is read
  refine Tracks.bind_of_lt (Tracks.expectIn _ _) ?_ fun start => ?_
  · intro s s' t h
    obtain ⟨hs, -⟩ := pending_of_expectIn h (by simp)
    rw [hs]
    exact Nat.lt_succ_self _
  · have hlt : ∀ {s s' : TokenStream} {x : Stmt}, stmt s = .ok x s' →
        s'.pending.length < s.pending.length := fun h => (hreads h).length_lt
    refine Tracks.bind (Tracks.toCloseBrace hstmt hlt (by omega) (by omega)) fun _ => ?_
    exact Tracks.pure _

include hexpr hstmt

theorem whileStatement_tracks :
    Tracks n (whileStatement expr stmt) (whileStatement expr' stmt') := by
  refine Tracks.advance fun _ => Tracks.bind (Tracks.expectIn _ _) fun _ => ?_
  refine Tracks.bind (hexpr.mono (by omega)) fun _ => Tracks.bind (Tracks.expectIn _ _) fun _ => ?_
  exact Tracks.bind hstmt fun _ => Tracks.pure _

theorem forStatement_tracks : Tracks n (forStatement expr stmt) (forStatement expr' stmt') := by
  have hoption : ∀ terminator : Symbol, Tracks (n - 1) (optionalExpression expr terminator)
      (optionalExpression expr' terminator) :=
    fun terminator => optionalExpression_tracks (hexpr.mono (by omega)) terminator
  refine Tracks.advance fun _ => Tracks.bind (Tracks.expectIn _ _) fun _ => ?_
  refine Tracks.bind (hoption _) fun _ => Tracks.bind (Tracks.expectIn _ _) fun _ => ?_
  refine Tracks.bind (hoption _) fun _ => Tracks.bind (Tracks.expectIn _ _) fun _ => ?_
  refine Tracks.bind (hoption _) fun _ => Tracks.bind (Tracks.expectIn _ _) fun _ => ?_
  exact Tracks.bind hstmt fun _ => Tracks.pure _

theorem ifStatement_tracks : Tracks n (ifStatement expr stmt) (ifStatement expr' stmt') := by
  refine Tracks.advance fun _ => Tracks.bind (Tracks.expectIn _ _) fun _ => ?_
  refine Tracks.bind (hexpr.mono (by omega)) fun _ => Tracks.bind (Tracks.expectIn _ _) fun _ => ?_
  refine Tracks.bind hstmt fun _ => Tracks.kind fun κ => ?_
  split
  · refine Tracks.advance fun _ => ?_
    exact Tracks.bind (hstmt.mono (by omega)) fun _ => Tracks.pure _
  · exact Tracks.pure _

theorem statementOf_tracks (hreads : ReadsStmt .statement stmt) (hb : n ≤ b) (hb' : n ≤ b') :
    Tracks n (statementOf expr stmt b) (statementOf expr' stmt' b') := by
  refine Tracks.kind fun κ => ?_
  split
  · exact ifStatement_tracks hexpr hstmt
  · exact Tracks.bind (block_tracks hstmt hreads hb hb') fun _ => Tracks.pure _
  · exact declarationStatement_tracks hexpr
  · exact returnStatement_tracks hexpr
  · exact forStatement_tracks hexpr hstmt
  · exact whileStatement_tracks hexpr hstmt
  · exact breakStatement_tracks
  · exact Tracks.advance fun _ => Tracks.pure _
  · exact expressionStatement_tracks hexpr

end Statements

theorem statement_tracks (hb : n ≤ b) (hb' : n ≤ b') :
    Tracks n (statement b) (statement b') := by
  refine Tracks.of_bounds (R := fun b (_ : Unit) => statement b)
    (S := fun b _ => statement b) ?_ ?_ hb hb' ()
  · intro _
    exact (expressionStatement_tracks (expression_tracks (Nat.zero_le 0) (Nat.zero_le 0))).steady
  · intro m b b' _ hmb hmb' ih _
    exact statementOf_tracks (expression_tracks hmb hmb') (ih ()) (statement_reads b) hmb hmb'

theorem formal_tracks : Tracks n formal formal := by
  refine Tracks.position fun p => Tracks.bind Tracks.identifier fun _ => ?_
  exact Tracks.bind Tracks.identifier fun _ => Tracks.pure _

theorem parent_tracks : Tracks n parent parent := by
  refine Tracks.kind fun κ => ?_
  split
  · exact Tracks.advance fun _ => Tracks.bind Tracks.identifier fun _ => Tracks.pure _
  · exact Tracks.pure none

section Declarations

variable {file : String}

variable (hb : n ≤ b) (hb' : n ≤ b')

include hb hb'

theorem methodRest_tracks (p : Position) (returnType name : String) :
    Tracks n (methodRest b p returnType name) (methodRest b' p returnType name) := by
  refine Tracks.advance fun _ => ?_
  refine Tracks.bind (Tracks.inParens formal_tracks (by omega) (by omega)) fun _ => ?_
  refine Tracks.bind (Tracks.expectIn _ _) fun _ => ?_
  have hstmt : Tracks (n - 1 - 1) (statement b) (statement b') :=
    statement_tracks (by omega) (by omega)
  exact Tracks.bind (block_tracks hstmt (statement_reads b) (by omega) (by omega)) fun _ =>
    Tracks.pure _

theorem fieldInit_tracks : Tracks n (fieldInit b) (fieldInit b') := by
  refine Tracks.kind fun κ => ?_
  split
  · refine Tracks.advance fun _ => ?_
    exact Tracks.bind (expression_tracks (by omega) (by omega)) fun _ => Tracks.pure _
  · exact Tracks.pure none

theorem member_tracks : Tracks n (member b) (member b') := by
  refine Tracks.position fun p => Tracks.bind Tracks.identifier fun _ => ?_
  refine Tracks.bind Tracks.identifier fun _ => Tracks.kind fun κ => ?_
  split
  · exact Tracks.bind (methodRest_tracks hb hb' _ _ _) fun _ => Tracks.pure _
  · refine Tracks.bind (fieldInit_tracks hb hb') fun _ => ?_
    exact Tracks.bind (Tracks.expectIn _ _) fun _ => Tracks.pure _

theorem classDecl_tracks : Tracks n (classDecl file b) (classDecl file b') := by
  have hlt : ∀ {s s' : TokenStream} {m : Member}, member b s = .ok m s' →
      s'.pending.length < s.pending.length :=
    fun h => (@member_reads file b _ _ _ h).length_lt_of_member
  refine Tracks.bind (Tracks.expect _) fun _ => Tracks.bind Tracks.identifier fun _ => ?_
  refine Tracks.bind parent_tracks fun _ => Tracks.bind (Tracks.expectIn _ _) fun _ => ?_
  refine Tracks.position fun p => ?_
  exact Tracks.bind (Tracks.toCloseBrace (member_tracks hb hb') hlt hb hb') fun _ => Tracks.pure _

omit hb hb' in
theorem toEndOfInput_tracks {α : Type} {item item' : Rule α} (hitem : Tracks n item item')
    (hlt : ∀ {s s' : TokenStream} {x : α}, item s = .ok x s' →
      s'.pending.length < s.pending.length) (hb : n ≤ b) (hb' : n ≤ b') :
    Tracks n (toEndOfInput item b) (toEndOfInput item' b') := by
  refine Tracks.of_bounds (R := fun b (_ : Unit) => toEndOfInput item b)
    (S := fun b _ => toEndOfInput item' b) ?_ ?_ hb hb' ()
  · exact fun _ => (Tracks.pure (n := 0) []).steady
  · intro m b b' hm _ _ ih _
    refine Tracks.kind fun κ => ?_
    split
    · exact Tracks.pure []
    · exact Tracks.bind_of_lt (hitem.mono hm) hlt fun _ => Tracks.bind (ih ()) fun _ =>
        Tracks.pure _

theorem program_tracks : Tracks n (program file b) (program file b') := by
  have hlt : ∀ {s s' : TokenStream} {c : ClassDecl}, classDecl file b s = .ok c s' →
      s'.pending.length < s.pending.length :=
    fun h => (classDecl_reads h).length_lt_of_classDecl
  refine Tracks.position fun p => ?_
  exact Tracks.bind (toEndOfInput_tracks (classDecl_tracks hb hb') hlt hb hb') fun _ =>
    Tracks.pure _

omit hb hb' in
theorem program_steady : Steady (program file b) :=
  (program_tracks (Nat.zero_le b) (Nat.zero_le b)).steady

end Declarations

end Grammar

end ClassLang
