import ClassLang.Proofs.Grammar.Derivation.Statement
import ClassLang.Proofs.Grammar.Soundness.Expression
/-!
What the rules for statements read is derived by the grammar, whatever their bounds. Main statement:
`statement_reads`.
-/

namespace ClassLang

namespace Grammar

open Rule

def ReadsStmt (c : StmtCategory) (r : Rule c.Tree) : Prop :=
  ∀ ⦃s s' : TokenStream⦄ ⦃x : c.Tree⦄, r s = .ok x s' →
    DerivesStmt Token.position c s.pending s'.pending x

variable {expr : Rule Expr} {stmt : Rule Stmt} {bound : Nat}

section Simple

variable (hexpr : ReadsExpr (.level .expression) expr)

include hexpr

theorem optionalExpression_reads {terminator : Symbol} {s s' : TokenStream} {v : Option Expr}
    (h : optionalExpression expr terminator s = .ok v s') :
    DerivesOptional Token.position s.pending s'.pending v := by
  rw [optionalExpression, kind_bind] at h
  split at h
  · cases h
    exact .absent
  · obtain ⟨e, s₁, he, h⟩ := bind_eq_ok.1 h
    cases h
    exact .present (hexpr he)

theorem expressionStatement_reads : ReadsStmt .statement (expressionStatement expr) := by
  intro s s' x h
  rw [expressionStatement, position_bind] at h
  obtain ⟨e, s₁, he, h⟩ := bind_eq_ok.1 h
  obtain ⟨q, s₂, hq, h⟩ := bind_eq_ok.1 h
  cases h
  obtain ⟨hs₁, hsemicolon⟩ := pending_of_expectIn hq (by simp)
  have he := hexpr he
  have hs := he.pending_eq_cons
  rw [hs₁, hs] at he
  rw [hs]
  exact .expression he hsemicolon

theorem returnStatement_reads {s s' : TokenStream} {x : Stmt}
    (hkind : s.current.kind = .keyword .kwReturn) (h : returnStatement expr s = .ok x s') :
    DerivesStmt Token.position .statement s.pending s'.pending x := by
  rw [returnStatement, advance_bind] at h
  obtain ⟨v, s₁, hv, h⟩ := bind_eq_ok.1 h
  obtain ⟨q, s₂, hq, h⟩ := bind_eq_ok.1 h
  cases h
  obtain ⟨hs₁, hsemicolon⟩ := pending_of_expectIn hq (by simp)
  have hv := optionalExpression_reads hexpr hv
  rw [hs₁] at hv
  rw [TokenStream.pending_eq_cons (by simp [hkind])]
  exact .returnValue hkind hv hsemicolon

omit hexpr in
theorem breakStatement_reads {s s' : TokenStream} {x : Stmt}
    (hkind : s.current.kind = .keyword .kwBreak) (h : breakStatement s = .ok x s') :
    DerivesStmt Token.position .statement s.pending s'.pending x := by
  rw [breakStatement, advance_bind] at h
  obtain ⟨q, s₁, hq, h⟩ := bind_eq_ok.1 h
  cases h
  obtain ⟨hs, hsemicolon⟩ := pending_of_expectIn hq (by simp)
  rw [TokenStream.pending_eq_cons (by simp [hkind]), hs]
  exact .breakLoop hkind hsemicolon

theorem declarationStatement_reads {s s' : TokenStream} {x : Stmt}
    (hkind : s.current.kind = .keyword .kwVar) (h : declarationStatement expr s = .ok x s') :
    DerivesStmt Token.position .statement s.pending s'.pending x := by
  rw [declarationStatement, advance_bind] at h
  obtain ⟨name, s₁, hname, h⟩ := bind_eq_ok.1 h
  obtain ⟨a, s₂, ha, h⟩ := bind_eq_ok.1 h
  obtain ⟨e, s₃, he, h⟩ := bind_eq_ok.1 h
  obtain ⟨q, s₄, hq, h⟩ := bind_eq_ok.1 h
  cases h
  obtain ⟨n, hs, hn, rfl⟩ := pending_of_identifier hname
  obtain ⟨hs₁, hassign⟩ := pending_of_expectIn ha (by simp)
  obtain ⟨hs₃, hsemicolon⟩ := pending_of_expectIn hq (by simp)
  have he := hexpr he
  rw [hs₃] at he
  rw [TokenStream.pending_eq_cons (by simp [hkind]), hs, hs₁]
  exact .declaration hkind hn hassign he hsemicolon

end Simple

section Compound

variable (hexpr : ReadsExpr (.level .expression) expr) (hstmt : ReadsStmt .statement stmt)

include hexpr hstmt

theorem whileStatement_reads {s s' : TokenStream} {x : Stmt}
    (hkind : s.current.kind = .keyword .kwWhile) (h : whileStatement expr stmt s = .ok x s') :
    DerivesStmt Token.position .statement s.pending s'.pending x := by
  rw [whileStatement, advance_bind] at h
  obtain ⟨p, s₁, hp, h⟩ := bind_eq_ok.1 h
  obtain ⟨e, s₂, he, h⟩ := bind_eq_ok.1 h
  obtain ⟨q, s₃, hq, h⟩ := bind_eq_ok.1 h
  obtain ⟨body, s₄, hbody, h⟩ := bind_eq_ok.1 h
  cases h
  obtain ⟨hs, hopen⟩ := pending_of_expectIn hp (by simp)
  obtain ⟨hs₂, hclose⟩ := pending_of_expectIn hq (by simp)
  have he := hexpr he
  rw [hs₂] at he
  rw [TokenStream.pending_eq_cons (by simp [hkind]), hs]
  exact .whileLoop hkind hopen he hclose (hstmt hbody)

theorem forStatement_reads {s s' : TokenStream} {x : Stmt}
    (hkind : s.current.kind = .keyword .kwFor) (h : forStatement expr stmt s = .ok x s') :
    DerivesStmt Token.position .statement s.pending s'.pending x := by
  rw [forStatement, advance_bind] at h
  obtain ⟨p, s₁, hp, h⟩ := bind_eq_ok.1 h
  obtain ⟨a, s₂, ha, h⟩ := bind_eq_ok.1 h
  obtain ⟨q₁, s₃, hq₁, h⟩ := bind_eq_ok.1 h
  obtain ⟨b, s₄, hb, h⟩ := bind_eq_ok.1 h
  obtain ⟨q₂, s₅, hq₂, h⟩ := bind_eq_ok.1 h
  obtain ⟨c, s₆, hc, h⟩ := bind_eq_ok.1 h
  obtain ⟨q, s₇, hq, h⟩ := bind_eq_ok.1 h
  obtain ⟨body, s₈, hbody, h⟩ := bind_eq_ok.1 h
  cases h
  obtain ⟨hs, hopen⟩ := pending_of_expectIn hp (by simp)
  obtain ⟨hs₂, hfirst⟩ := pending_of_expectIn hq₁ (by simp)
  obtain ⟨hs₄, hsecond⟩ := pending_of_expectIn hq₂ (by simp)
  obtain ⟨hs₆, hclose⟩ := pending_of_expectIn hq (by simp)
  have ha := optionalExpression_reads hexpr ha
  have hb := optionalExpression_reads hexpr hb
  have hc := optionalExpression_reads hexpr hc
  rw [hs₂] at ha
  rw [hs₄] at hb
  rw [hs₆] at hc
  rw [TokenStream.pending_eq_cons (by simp [hkind]), hs]
  exact .forLoop hkind hopen ha hfirst hb hsecond hc hclose (hstmt hbody)

theorem ifStatement_reads {s s' : TokenStream} {x : Stmt}
    (hkind : s.current.kind = .keyword .kwIf) (h : ifStatement expr stmt s = .ok x s') :
    DerivesStmt Token.position .statement s.pending s'.pending x := by
  rw [ifStatement, advance_bind] at h
  obtain ⟨p, s₁, hp, h⟩ := bind_eq_ok.1 h
  obtain ⟨e, s₂, he, h⟩ := bind_eq_ok.1 h
  obtain ⟨q, s₃, hq, h⟩ := bind_eq_ok.1 h
  obtain ⟨thenBranch, s₄, hthen, h⟩ := bind_eq_ok.1 h
  obtain ⟨hs, hopen⟩ := pending_of_expectIn hp (by simp)
  obtain ⟨hs₂, hclose⟩ := pending_of_expectIn hq (by simp)
  have he := hexpr he
  have hthen := hstmt hthen
  rw [hs₂] at he
  rw [TokenStream.pending_eq_cons (s := s) (by simp [hkind]), hs]
  rw [kind_bind] at h
  split at h
  · next helse =>
      rw [advance_bind] at h
      obtain ⟨elseBranch, s₅, hbranch, h⟩ := bind_eq_ok.1 h
      cases h
      rw [TokenStream.pending_eq_cons (s := s₄) (by simp [helse])] at hthen
      exact .conditionalElse hkind hopen he hclose hthen helse (hstmt hbranch)
  · next helse =>
      cases h
      rw [TokenStream.kind_current] at helse
      exact .conditional hkind hopen he hclose hthen helse

omit hexpr in
theorem block_reads {s s' : TokenStream} {l : NodeList Stmt} (h : block stmt bound s = .ok l s') :
    ∃ b z : Token, ∃ i, s.pending = b :: i ∧ b.kind = .symbol .openBrace ∧
      l.position = b.position ∧ z.kind = .symbol .closeBrace ∧
      DerivesStmt Token.position .body i (z :: s'.pending) l.items := by
  rw [block] at h
  obtain ⟨b, s₁, hb, h⟩ := bind_eq_ok.1 h
  obtain ⟨body, s₂, hbody, h⟩ := bind_eq_ok.1 h
  cases h
  obtain ⟨hs, hopen⟩ := pending_of_expectIn hb (by simp)
  obtain ⟨z, hz, hss⟩ := toCloseBrace_eq_ok (P := DerivesStmt Token.position .body)
    (fun _ => .noStatements) (fun _ hx hxs => .statements (hstmt hx) hxs) hbody
  exact ⟨b, z, s₁.pending, hs, hopen, rfl, hz, hss⟩

theorem statementOf_reads : ReadsStmt .statement (statementOf expr stmt bound) := by
  intro s s' x h
  rw [statementOf, kind_bind] at h
  generalize hkind : s.current.kind = kind at h
  split at h
  · exact ifStatement_reads hexpr hstmt hkind h
  · obtain ⟨l, s₁, hl, h⟩ := bind_eq_ok.1 h
    cases h
    obtain ⟨b, z, i, hs, hopen, hposition, hz, hss⟩ := block_reads hstmt hl
    obtain ⟨position, items⟩ := l
    cases hposition
    rw [hs]
    exact .block hopen hss hz
  · exact declarationStatement_reads hexpr hkind h
  · exact returnStatement_reads hexpr hkind h
  · exact forStatement_reads hexpr hstmt hkind h
  · exact whileStatement_reads hexpr hstmt hkind h
  · exact breakStatement_reads hkind h
  · cases h
    rw [TokenStream.pending_eq_cons (by simp [hkind])]
    exact .empty hkind
  · exact expressionStatement_reads hexpr h

end Compound

theorem statement_reads (bound : Nat) : ReadsStmt .statement (statement bound) := by
  induction bound with
  | zero => exact expressionStatement_reads (expression_reads 0)
  | succ bound ih => exact statementOf_reads (expression_reads (bound + 1)) ih

end Grammar

end ClassLang
