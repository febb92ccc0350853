import ClassLang.Proofs.Grammar.Completeness.Expression
import ClassLang.Proofs.Grammar.Derivation.Statement
/-!
What the grammar of statements derives is read by the rules, whatever follows it. Main statement:
`statement_accepts`.
-/

namespace ClassLang

namespace Grammar

open Rule

/-- The rule reads every statement among so many tokens. -/
def AcceptsStmt (n : Nat) (r : Rule Stmt) : Prop :=
  ∀ ⦃i k : List Token⦄ ⦃x : Stmt⦄ (mark : EndMark), i.length ≤ n →
    DerivesStmt Token.position .statement i k x → r ⟨i, mark⟩ = .ok x ⟨k, mark⟩

theorem stops_of_kind {t : Token} {k : List Token} {kind : TokenKind} (h : t.kind = kind)
    (hkind : looseness kind = 9) : Stops .expression (t :: k) := by
  rw [Stops, nextKind_cons, h, hkind]
  decide

section Simple

variable {expr : Rule Expr} {n : Nat} (hexpr : AcceptsExpr n .expression expr)

include hexpr

theorem optionalExpression_accepts {terminator : Symbol} {q : Token} {i k : List Token}
    {v : Option Expr} (mark : EndMark) (hi : i.length ≤ n) (hq : q.kind = .symbol terminator)
    (hloose : looseness (.symbol terminator) = 9)
    (hstart : startsExpression (.symbol terminator) = false)
    (h : DerivesOptional Token.position i (q :: k) v) :
    optionalExpression expr terminator ⟨i, mark⟩ = .ok v ⟨q :: k, mark⟩ := by
  rw [optionalExpression, kind_bind, TokenStream.kind_current_mk]
  cases h with
  | absent =>
      rw [nextKind_cons, if_pos hq]
      rfl
  | present he =>
      rw [if_neg (he.nextKind_ne hstart), bind_of_ok (hexpr mark hi he (stops_of_kind hq hloose))]
      rfl

theorem expressionStatement_accepts {t q : Token} {i k : List Token} {e : Expr} (mark : EndMark)
    (hi : (t :: i).length ≤ n) (hq : q.kind = .symbol .semicolon)
    (h : DerivesExpr Token.position (.level .expression) (t :: i) (q :: k) e) :
    expressionStatement expr ⟨t :: i, mark⟩ = .ok (.expression t.position e) ⟨k, mark⟩ := by
  rw [expressionStatement, position_bind, bind_of_ok (hexpr mark hi h (stops_of_kind hq rfl)),
    bind_of_ok (expectIn_cons hq)]
  rfl

theorem returnStatement_accepts {t q : Token} {i k : List Token} {v : Option Expr} (mark : EndMark)
    (hi : i.length ≤ n) (hq : q.kind = .symbol .semicolon)
    (h : DerivesOptional Token.position i (q :: k) v) :
    returnStatement expr ⟨t :: i, mark⟩ = .ok (.returnValue t.position v) ⟨k, mark⟩ := by
  rw [returnStatement, advance_bind, TokenStream.advance_cons,
    bind_of_ok (optionalExpression_accepts hexpr mark hi hq rfl rfl h),
    bind_of_ok (expectIn_cons hq)]
  rfl

theorem declarationStatement_accepts {t m a q : Token} {i k : List Token} {e : Expr}
    (mark : EndMark) (hi : i.length ≤ n) (hm : m.kind = .identifier)
    (ha : a.kind = .symbol .assign) (hq : q.kind = .symbol .semicolon)
    (h : DerivesExpr Token.position (.level .expression) i (q :: k) e) :
    declarationStatement expr ⟨t :: m :: a :: i, mark⟩ =
      .ok (.declaration t.position m.value e) ⟨k, mark⟩ := by
  rw [declarationStatement, advance_bind, TokenStream.advance_cons,
    bind_of_ok (identifier_cons hm), bind_of_ok (expectIn_cons ha),
    bind_of_ok (hexpr mark hi h (stops_of_kind hq rfl)), bind_of_ok (expectIn_cons hq)]
  rfl

end Simple

section Compound

variable {expr : Rule Expr} {stmt : Rule Stmt} {n bound : Nat}
  (hexpr : AcceptsExpr n .expression expr) (hstmt : AcceptsStmt n stmt)

include hstmt

theorem toCloseBrace_accepts {construct : String} {j k : List Token} {z : Token} {ss : List Stmt}
    (mark : EndMark) (hj : j.length ≤ n) (hbound : j.length ≤ bound)
    (h : DerivesStmt Token.position .body j (z :: k) ss) (hz : z.kind = .symbol .closeBrace) :
    toCloseBrace construct stmt bound ⟨j, mark⟩ = .ok ss ⟨k, mark⟩ := by
  refine toCloseBrace_of_forall (P := DerivesStmt Token.position .body) hz ?_ hj hbound h
  intro j ss hj h
  cases h with
  | noStatements => exact .inl ⟨rfl, rfl⟩
  | @statements _ j₁ _ s ss hs hss =>
      obtain ⟨-, hbrace, hend⟩ := hs.nextKind_ne
      exact .inr ⟨s, ss, j₁, rfl, hbrace, hend, hstmt mark hj hs, hs.length_lt, hss⟩

theorem block_accepts {b z : Token} {j k : List Token} {ss : List Stmt} (mark : EndMark)
    (hj : j.length ≤ n) (hbound : n ≤ bound) (hb : b.kind = .symbol .openBrace)
    (h : DerivesStmt Token.position .body j (z :: k) ss) (hz : z.kind = .symbol .closeBrace) :
    block stmt bound ⟨b :: j, mark⟩ = .ok ⟨b.position, ss⟩ ⟨k, mark⟩ := by
  rw [block, bind_of_ok (expectIn_cons hb),
    bind_of_ok (toCloseBrace_accepts hstmt mark hj (Nat.le_trans hj hbound) h hz)]
  rfl

include hexpr

theorem whileStatement_accepts {t p q : Token} {i j k : List Token} {e : Expr} {s : Stmt}
    (mark : EndMark) (hi : i.length ≤ n) (hp : p.kind = .symbol .openParen)
    (he : DerivesExpr Token.position (.level .expression) i (q :: j) e)
    (hq : q.kind = .symbol .closeParen) (hs : DerivesStmt Token.position .statement j k s) :
    whileStatement expr stmt ⟨t :: p :: i, mark⟩ = .ok (.whileLoop t.position e s) ⟨k, mark⟩ := by
  have hlt := he.length_lt
  simp only [List.length_cons] at hlt
  rw [whileStatement, advance_bind, TokenStream.advance_cons, bind_of_ok (expectIn_cons hp),
    bind_of_ok (hexpr mark hi he (stops_of_kind hq rfl)), bind_of_ok (expectIn_cons hq),
    bind_of_ok (hstmt mark (by omega) hs)]
  rfl

theorem forStatement_accepts {t p q₁ q₂ q : Token} {i i₁ i₂ j k : List Token}
    {a b c : Option Expr} {s : Stmt} (mark : EndMark) (hi : i.length ≤ n)
    (hp : p.kind = .symbol .openParen)
    (ha : DerivesOptional Token.position i (q₁ :: i₁) a) (hq₁ : q₁.kind = .symbol .semicolon)
    (hb : DerivesOptional Token.position i₁ (q₂ :: i₂) b) (hq₂ : q₂.kind = .symbol .semicolon)
    (hc : DerivesOptional Token.position i₂ (q :: j) c) (hq : q.kind = .symbol .closeParen)
    (hs : DerivesStmt Token.position .statement j k s) :
    forStatement expr stmt ⟨t :: p :: i, mark⟩ =
      .ok (.forLoop t.position a b c s) ⟨k, mark⟩ := by
  have hi₁ := ha.length_le
  have hi₂ := hb.length_le
  have hj := hc.length_le
  simp only [List.length_cons] at hi₁ hi₂ hj
  rw [forStatement, advance_bind, TokenStream.advance_cons, bind_of_ok (expectIn_cons hp),
    bind_of_ok (optionalExpression_accepts hexpr mark hi hq₁ rfl rfl ha),
    bind_of_ok (expectIn_cons hq₁),
    bind_of_ok (optionalExpression_accepts hexpr mark (by omega) hq₂ rfl rfl hb),
    bind_of_ok (expectIn_cons hq₂),
    bind_of_ok (optionalExpression_accepts hexpr mark (by omega) hq rfl rfl hc),
    bind_of_ok (expectIn_cons hq), bind_of_ok (hstmt mark (by omega) hs)]
  rfl

theorem ifStatement_accepts {t p q : Token} {i j k : List Token} {e : Expr} {s : Stmt}
    (mark : EndMark) (hi : i.length ≤ n) (hp : p.kind = .symbol .openParen)
    (he : DerivesExpr Token.position (.level .expression) i (q :: j) e)
    (hq : q.kind = .symbol .closeParen) (hs : DerivesStmt Token.position .statement j k s)
    (hk : nextKind k ≠ .keyword .kwElse) :
    ifStatement expr stmt ⟨t :: p :: i, mark⟩ =
      .ok (.conditional t.position e s none) ⟨k, mark⟩ := by
  have hlt := he.length_lt
  simp only [List.length_cons] at hlt
  rw [ifStatement, advance_bind, TokenStream.advance_cons, bind_of_ok (expectIn_cons hp),
    bind_of_ok (hexpr mark hi he (stops_of_kind hq rfl)), bind_of_ok (expectIn_cons hq),
    bind_of_ok (hstmt mark (by omega) hs), kind_bind, TokenStream.kind_current_mk, if_neg hk]
  rfl

theorem ifStatement_accepts_else {t p q x : Token} {i j j₁ k : List Token} {e : Expr} {s s₁ : Stmt}
    (mark : EndMark) (hi : i.length ≤ n) (hp : p.kind = .symbol .openParen)
    (he : DerivesExpr Token.position (.level .expression) i (q :: j) e)
    (hq : q.kind = .symbol .closeParen) (hs : DerivesStmt Token.position .statement j (x :: j₁) s)
    (hx : x.kind = .keyword .kwElse) (hs₁ : DerivesStmt Token.position .statement j₁ k s₁) :
    ifStatement expr stmt ⟨t :: p :: i, mark⟩ =
      .ok (.conditional t.position e s (some s₁)) ⟨k, mark⟩ := by
  have hlt := he.length_lt
  have hlt₁ := hs.length_lt
  simp only [List.length_cons] at hlt hlt₁
  rw [ifStatement, advance_bind, TokenStream.advance_cons, bind_of_ok (expectIn_cons hp),
    bind_of_ok (hexpr mark hi he (stops_of_kind hq rfl)), bind_of_ok (expectIn_cons hq),
    bind_of_ok (hstmt mark (by omega) hs), kind_bind, TokenStream.kind_current_mk, nextKind_cons,
    if_pos hx, advance_bind, TokenStream.advance_cons, bind_of_ok (hstmt mark (by omega) hs₁)]
  rfl

end Compound

theorem statementOf_accepts {expr : Rule Expr} {stmt : Rule Stmt} {n bound : Nat}
    (hexpr : AcceptsExpr (n + 1) .expression expr) (hstmt : AcceptsStmt n stmt)
    (hbound : n ≤ bound) : AcceptsStmt (n + 1) (statementOf expr stmt bound) := by
  intro i k x mark hi h
  have hexpr' : AcceptsExpr n .expression expr := fun _ _ _ mark hi h =>
    hexpr mark (Nat.le_succ_of_le hi) h
  rw [statementOf, kind_bind, TokenStream.kind_current_mk]
  cases h with
  | @expression t q i _ e he hq =>
      have hnot : ∀ kind, startsExpression kind = false → nextKind (t :: i) ≠ kind :=
        fun kind => he.nextKind_ne
      generalize hkind : nextKind (t :: i) = kind at hnot
      split
      · exact absurd rfl (hnot _ rfl)
      · exact absurd rfl (hnot _ rfl)
      · exact absurd rfl (hnot _ rfl)
      · exact absurd rfl (hnot _ rfl)
      · exact absurd rfl (hnot _ rfl)
      · exact absurd rfl (hnot _ rfl)
      · exact absurd rfl (hnot _ rfl)
      · exact absurd rfl (hnot _ rfl)
      · exact expressionStatement_accepts hexpr mark hi hq he
  | @returnValue t q i _ v ht hv hq =>
      simp only [List.length_cons] at hi
      rw [nextKind_cons, ht]
      exact returnStatement_accepts hexpr' mark (by omega) hq hv
  | @breakLoop t q _ ht hq =>
      rw [nextKind_cons, ht]
      change breakStatement ⟨t :: q :: k, mark⟩ = _
      rw [breakStatement, advance_bind, TokenStream.advance_cons, bind_of_ok (expectIn_cons hq)]
      rfl
  | @declaration t m a q i _ e ht hm ha he hq =>
      simp only [List.length_cons] at hi
      rw [nextKind_cons, ht]
      exact declarationStatement_accepts hexpr' mark (by omega) hm ha hq he
  | @empty t _ ht =>
      rw [nextKind_cons, ht]
      rfl
  | @block t z i _ ss ht hss hz =>
      simp only [List.length_cons] at hi
      rw [nextKind_cons, ht]
      change blockStatement stmt bound ⟨t :: i, mark⟩ = _
      rw [blockStatement, bind_of_ok (block_accepts hstmt mark (by omega) hbound ht hss hz)]
      rfl
  | @whileLoop t p q i j _ e s ht hp he hq hs =>
      simp only [List.length_cons] at hi
      rw [nextKind_cons, ht]
      exact whileStatement_accepts hexpr' hstmt mark (by omega) hp he hq hs
  | @forLoop t p q₁ q₂ q i i₁ i₂ j _ a b c s ht hp ha hq₁ hb hq₂ hc hq hs =>
      simp only [List.length_cons] at hi
      rw [nextKind_cons, ht]
      exact forStatement_accepts hexpr' hstmt mark (by omega) hp ha hq₁ hb hq₂ hc hq hs
  | @conditional t p q i j _ e s ht hp he hq hs hk =>
      simp only [List.length_cons] at hi
      rw [nextKind_cons, ht]
      exact ifStatement_accepts hexpr' hstmt mark (by omega) hp he hq hs hk
  | @conditionalElse t p q x i j j₁ _ e s s₁ ht hp he hq hs hx hs₁ =>
      simp only [List.length_cons] at hi
      rw [nextKind_cons, ht]
      exact ifStatement_accepts_else hexpr' hstmt mark (by omega) hp he hq hs hx hs₁

theorem statement_accepts {n bound : Nat} (hbound : n ≤ bound) : AcceptsStmt n (statement bound) := by
  induction n generalizing bound with
  | zero =>
      intro i k x mark hi h
      have := h.length_lt
      omega
  | succ n ih =>
      cases bound with
      | zero => omega
      | succ bound =>
          exact statementOf_accepts (expression_accepts hbound) (ih (Nat.le_of_succ_le_succ hbound))
            (Nat.le_of_succ_le hbound)

end Grammar

end ClassLang
