import ClassLang.Proofs.Grammar.Progress
import ClassLang.Proofs.Grammar.Termination.Expression
/-!
The bounded rules for statements are the procedures without bounds. Main statement: the rule for
statements is its procedure on streams with no more tokens than its bound (`statement_realizes`).
-/

namespace ClassLang

namespace Grammar

open Procedures

variable {m b : Nat}

section Statements

theorem breakStatement_realizes : procedures.Realizes m .breakStatement breakStatement :=
  fun _ _ => Agrees.advance (Agrees.bind_expectIn (by simp) fun _ _ _ => Agrees.pure _)

theorem emptyStatement_realizes : procedures.Realizes m .emptyStatement emptyStatement :=
  fun _ _ => Agrees.advance (Agrees.pure _)

variable {expr : Rule Expr} {stmt : Rule Stmt}

section Simple

variable (hexpr : procedures.Realizes m .expression expr)

include hexpr

theorem optionalExpression_agrees {n i : Nat} {s : TokenStream} (terminator : Symbol)
    (hs : s.pending.length < m)
    (hbelow : Below s.pending.length (procedures.rank .expression) n i) :
    procedures.Agrees n i (Unbounded.optionalExpression terminator)
      (optionalExpression expr terminator) s := by
  refine Agrees.kind ?_
  split
  · exact Agrees.pure none
  · exact Agrees.bind (Agrees.call hexpr hs hbelow) fun _ _ _ _ => Agrees.pure _

theorem expressionStatement_realizes :
    procedures.Realizes m .expressionStatement (expressionStatement expr) := by
  intro s hs
  refine Agrees.position ?_
  refine Agrees.bind (Agrees.call_of_rank hexpr hs (by decide)) fun _ _ _ _ => ?_
  exact Agrees.bind_expectIn (by simp) fun _ _ _ => Agrees.pure _

theorem returnStatement_realizes :
    procedures.Realizes m .returnStatement (returnStatement expr) := by
  intro s hs
  have hle := s.length_advance_le
  refine Agrees.advance ?_
  refine Agrees.bind (optionalExpression_agrees hexpr _ (by omega) (.inr ⟨hle, by decide⟩))
    fun _ _ _ _ => ?_
  exact Agrees.bind_expectIn (by simp) fun _ _ _ => Agrees.pure _

theorem declarationStatement_realizes :
    procedures.Realizes m .declarationStatement (declarationStatement expr) := by
  intro s hs
  have hle := s.length_advance_le
  refine Agrees.advance (Agrees.bind_identifier fun _ _ hlt => ?_)
  refine Agrees.bind_expectIn (by simp) fun _ _ hlt' => ?_
  refine Agrees.bind (Agrees.call hexpr (by omega) (.inl (by omega))) fun _ _ _ _ => ?_
  exact Agrees.bind_expectIn (by simp) fun _ _ _ => Agrees.pure _

end Simple

section Blocks

variable (hstmt : procedures.Realizes m .statement stmt) (hb : m ≤ b + 1)

include hstmt hb

theorem block_realizes : procedures.Realizes (m + 1) .block (block stmt b) := by
  intro s hs
  have hbody := toCloseBrace_realizes hstmt statement_consumes hb "block statement"
  refine Agrees.bind_expectIn (by simp) fun _ _ hlt => ?_
  exact Agrees.bind (Agrees.call hbody (by omega) (.inl hlt)) fun _ _ _ _ => Agrees.pure _

theorem blockStatement_agrees {n i : Nat} {s : TokenStream} (hs : s.pending.length ≤ m)
    (hbelow : Below s.pending.length (procedures.rank .block) n i) :
    procedures.Agrees n i Unbounded.blockStatement (blockStatement stmt b) s := by
  have hblock := block_realizes hstmt hb
  exact Agrees.bind (Agrees.call hblock (by omega) hbelow) fun _ _ _ _ => Agrees.pure _

end Blocks

section Compound

variable (hexpr : procedures.Realizes m .expression expr)
  (hstmt : procedures.Realizes m .statement stmt)

include hexpr hstmt

theorem whileStatement_realizes :
    procedures.Realizes (m + 1) .whileStatement (whileStatement expr stmt) := by
  intro s hs
  have hle := s.length_advance_le
  refine Agrees.advance (Agrees.bind_expectIn (by simp) fun _ _ hlt => ?_)
  refine Agrees.bind (Agrees.call hexpr (by omega) (.inl (by omega))) fun _ _ _ hle' => ?_
  refine Agrees.bind_expectIn (by simp) fun _ _ hlt' => ?_
  refine Agrees.bind (Agrees.call hstmt (by omega) (.inl (by omega))) fun _ _ _ _ => ?_
  exact Agrees.pure _

theorem forStatement_realizes :
    procedures.Realizes (m + 1) .forStatement (forStatement expr stmt) := by
  intro s hs
  have hle := s.length_advance_le
  have hoption : ∀ {s' : TokenStream} (terminator : Symbol),
      s'.pending.length < s.pending.length →
      procedures.Agrees s.pending.length (procedures.rank .forStatement)
        (Unbounded.optionalExpression terminator) (optionalExpression expr terminator) s' :=
    fun terminator hlt => optionalExpression_agrees hexpr terminator (by omega) (.inl hlt)
  refine Agrees.advance (Agrees.bind_expectIn (by simp) fun _ _ hlt => ?_)
  refine Agrees.bind (hoption _ (by omega)) fun _ _ _ hle₁ => ?_
  refine Agrees.bind_expectIn (by simp) fun _ _ hlt₁ => ?_
  refine Agrees.bind (hoption _ (by omega)) fun _ _ _ hle₂ => ?_
  refine Agrees.bind_expectIn (by simp) fun _ _ hlt₂ => ?_
  refine Agrees.bind (hoption _ (by omega)) fun _ _ _ hle₃ => ?_
  refine Agrees.bind_expectIn (by simp) fun _ _ hlt₃ => ?_
  refine Agrees.bind (Agrees.call hstmt (by omega) (.inl (by omega))) fun _ _ _ _ => ?_
  exact Agrees.pure _

theorem ifStatement_realizes :
    procedures.Realizes (m + 1) .ifStatement (ifStatement expr stmt) := by
  intro s hs
  have hle := s.length_advance_le
  refine Agrees.advance (Agrees.bind_expectIn (by simp) fun _ _ hlt => ?_)
  refine Agrees.bind (Agrees.call hexpr (by omega) (.inl (by omega))) fun _ _ _ hle' => ?_
  refine Agrees.bind_expectIn (by simp) fun _ _ hlt' => ?_
  refine Agrees.bind (Agrees.call hstmt (by omega) (.inl (by omega))) fun _ s₁ _ hle₁ => ?_
  have hle₂ := s₁.length_advance_le
  refine Agrees.kind ?_
  split
  · refine Agrees.advance ?_
    refine Agrees.bind (Agrees.call hstmt (by omega) (.inl (by omega))) fun _ _ _ _ => ?_
    exact Agrees.pure _
  · exact Agrees.pure _

theorem statementOf_realizes (hexpr' : procedures.Realizes (m + 1) .expression expr)
    (hb : m ≤ b + 1) :
    procedures.Realizes (m + 1) .statement (statementOf expr stmt b) := by
  intro s hs
  have hlast := Agrees.call_of_rank (i := procedures.rank .statement)
    (expressionStatement_realizes hexpr') hs (by decide)
  refine Agrees.kind ?_
  cases s.current.kind with
  | keyword k =>
      cases k with
      | kwIf => exact Agrees.call_of_rank (ifStatement_realizes hexpr hstmt) hs (by decide)
      | kwVar => exact Agrees.call_of_rank (declarationStatement_realizes hexpr') hs (by decide)
      | kwReturn => exact Agrees.call_of_rank (returnStatement_realizes hexpr') hs (by decide)
      | kwFor => exact Agrees.call_of_rank (forStatement_realizes hexpr hstmt) hs (by decide)
      | kwWhile => exact Agrees.call_of_rank (whileStatement_realizes hexpr hstmt) hs (by decide)
      | kwBreak => exact Agrees.call_of_rank breakStatement_realizes hs (by decide)
      | _ => exact hlast
  | symbol x =>
      cases x with
      | openBrace =>
          exact blockStatement_agrees hstmt hb (by omega) (.inr ⟨Nat.le_refl _, by decide⟩)
      | semicolon => exact Agrees.call_of_rank emptyStatement_realizes hs (by decide)
      | _ => exact hlast
  | _ => exact hlast

end Compound

theorem statement_realizes (b : Nat) : procedures.Realizes (b + 1) .statement (statement b) := by
  induction b with
  | zero =>
      intro s hs
      have hend := TokenStream.current_kind_of_pending_nil (s := s) (by omega)
      have hlast := expressionStatement_realizes (expression_realizes 0)
      exact Agrees.kind_of_eq hend (Agrees.call_of_rank hlast hs (by decide))
  | succ b ih =>
      have hexpr := expression_realizes (b + 1)
      exact statementOf_realizes (hexpr.mono (Nat.le_succ _)) ih hexpr (Nat.le_succ _)

end Statements

end Grammar

end ClassLang
