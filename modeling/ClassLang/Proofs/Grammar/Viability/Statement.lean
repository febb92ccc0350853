import ClassLang.Proofs.Grammar.Soundness.Statement
import ClassLang.Proofs.Grammar.Viability.Expression
/-!
Where a rule for statements fails, the tokens that it has taken begin a statement. Main statement:
`statement_follows`.
-/

namespace ClassLang

namespace Grammar

open Rule

namespace Form

def optional : Form :=
  lax (fun i k => ∃ v, DerivesOptional Token.position i k v) fun _ _ => ⟨none, .absent⟩

def statement : Form where
  span i k := ∃ x, DerivesStmt Token.position .statement i k x
  productive :=
    ⟨[⟨.symbol .semicolon, "", .empty .null⟩], fun _ _ => ⟨nofun, _, .empty rfl⟩⟩

def body : Form :=
  lax (fun i k => ∃ xs, DerivesStmt Token.position .body i k xs) fun _ _ => ⟨[], .noStatements⟩

/-- The other branch of a conditional, or nothing if no `else` comes. -/
def otherwise : Form :=
  lax (fun i k => (i = k ∧ nextKind k ≠ .keyword .kwElse) ∨
    ∃ x j, i = x :: j ∧ x.kind = .keyword .kwElse ∧ statement.span j k) fun _ hk => .inl ⟨rfl, hk⟩

def block : Form :=
  (symbol .openBrace).andThen (body.andThen (symbol .closeBrace))

end Form

variable {expr : Rule Expr} {stmt : Rule Stmt} {bound : Nat} {s : TokenStream}

section Simple

variable (hexpr : ∀ s, Follows (.level .expression) expr s)

include hexpr

theorem optionalExpression_follows {terminator : Symbol} :
    Follows .optional (optionalExpression expr terminator) s := by
  refine Follows.kind ?_
  split
  · exact Follows.pure _ fun k _ => ⟨none, .absent⟩
  · refine (Follows.bind_pure (hexpr s)).mono ?_
    rintro i k ⟨e, he⟩
    exact ⟨some e, .present he⟩

theorem expressionStatement_follows : Follows .statement (expressionStatement expr) s := by
  refine Follows.position ((Follows.bind (hexpr s) fun _ _ =>
    Follows.bind_pure Follows.symbol).mono ?_)
  rintro i k ⟨_, ⟨e, he⟩, q, hq, rfl⟩
  obtain ⟨t, i, rfl⟩ := he.exists_cons
  exact ⟨_, .expression he hq⟩

theorem returnStatement_follows (hkind : s.current.kind = .keyword .kwReturn) :
    Follows .statement (returnStatement expr) s := by
  refine Follows.advance (by simp [hkind]) ?_ (Follows.bind (optionalExpression_follows hexpr)
    fun _ _ => Follows.bind_pure Follows.symbol)
  rintro i k ⟨_, ⟨v, hv⟩, q, hq, rfl⟩
  exact ⟨_, .returnValue hkind hv hq⟩

omit hexpr in
theorem breakStatement_follows (hkind : s.current.kind = .keyword .kwBreak) :
    Follows .statement breakStatement s := by
  refine Follows.advance (by simp [hkind]) ?_ (Follows.bind_pure Follows.symbol)
  rintro i k ⟨q, hq, rfl⟩
  exact ⟨_, .breakLoop hkind hq⟩

theorem declarationStatement_follows (hkind : s.current.kind = .keyword .kwVar) :
    Follows .statement (declarationStatement expr) s := by
  refine Follows.advance (by simp [hkind]) ?_ (Follows.bind Follows.identifier fun _ _ =>
    Follows.bind Follows.symbol fun _ _ => Follows.bind (hexpr _) fun _ _ =>
      Follows.bind_pure Follows.symbol)
  rintro i k ⟨_, ⟨n, hn, rfl⟩, _, ⟨a, ha, rfl⟩, _, ⟨e, he⟩, q, hq, rfl⟩
  exact ⟨_, .declaration hkind hn ha he hq⟩

end Simple

theorem block_follows (hstmt : ∀ s, Follows .statement stmt s) :
    Follows .block (block stmt bound) s := by
  refine Follows.bind Follows.symbol fun _ s => Follows.bind_pure ?_
  refine Follows.toCloseBrace hstmt (fun k => ⟨[], .noStatements⟩) ?_
  rintro i j k ⟨x, hx⟩ ⟨xs, hxs⟩
  exact ⟨x :: xs, .statements hx hxs⟩

section Compound

variable (hexpr : ∀ s, Follows (.level .expression) expr s)

variable (hstmt : ∀ s, Follows .statement stmt s)

include hexpr hstmt

theorem whileStatement_follows (hkind : s.current.kind = .keyword .kwWhile) :
    Follows .statement (whileStatement expr stmt) s := by
  refine Follows.advance (by simp [hkind]) ?_ (Follows.bind Follows.symbol fun _ _ =>
    Follows.bind (hexpr _) fun _ _ => Follows.bind Follows.symbol fun _ _ =>
      Follows.bind_pure (hstmt _))
  rintro i k ⟨_, ⟨p, hp, rfl⟩, _, ⟨e, he⟩, _, ⟨q, hq, rfl⟩, x, hx⟩
  exact ⟨_, .whileLoop hkind hp he hq hx⟩

theorem forStatement_follows (hkind : s.current.kind = .keyword .kwFor) :
    Follows .statement (forStatement expr stmt) s := by
  refine Follows.advance (by simp [hkind]) ?_ (Follows.bind Follows.symbol fun _ _ =>
    Follows.bind (optionalExpression_follows hexpr) fun _ _ => Follows.bind Follows.symbol fun _ _ =>
    Follows.bind (optionalExpression_follows hexpr) fun _ _ => Follows.bind Follows.symbol fun _ _ =>
    Follows.bind (optionalExpression_follows hexpr) fun _ _ => Follows.bind Follows.symbol fun _ _ =>
      Follows.bind_pure (hstmt _))
  rintro i k ⟨_, ⟨p, hp, rfl⟩, _, ⟨a, ha⟩, _, ⟨q₁, hq₁, rfl⟩, _, ⟨b, hb⟩, _, ⟨q₂, hq₂, rfl⟩,
    _, ⟨c, hc⟩, _, ⟨q, hq, rfl⟩, x, hx⟩
  exact ⟨_, .forLoop hkind hp ha hq₁ hb hq₂ hc hq hx⟩

theorem ifStatement_follows (hkind : s.current.kind = .keyword .kwIf) :
    Follows .statement (ifStatement expr stmt) s := by
  refine Follows.advance (by simp [hkind]) ?_ (Follows.bind Follows.symbol fun _ _ =>
    Follows.bind (hexpr _) fun _ _ => Follows.bind Follows.symbol fun _ _ =>
      Follows.bind (B := .otherwise) (hstmt _) fun _ s => Follows.kind ?_)
  · rintro i k ⟨_, ⟨p, hp, rfl⟩, _, ⟨e, he⟩, _, ⟨q, hq, rfl⟩, j, ⟨x, hx⟩, hy⟩
    rcases hy with ⟨rfl, helse⟩ | ⟨t, j, rfl, ht, y, hy⟩
    · exact ⟨_, .conditional hkind hp he hq hx helse⟩
    · exact ⟨_, .conditionalElse hkind hp he hq hx ht hy⟩
  · split
    · next helse =>
        refine Follows.advance (by simp [helse]) ?_ (Follows.bind_pure (hstmt _))
        exact fun i k h => .inr ⟨_, i, rfl, helse, h⟩
    · next helse =>
        -- no `else` comes here, so none may be put here either
        refine Follows.pure _ fun k hk => .inl ⟨rfl, fun h => helse ?_⟩
        rw [TokenStream.kind_current]
        exact hk h

theorem statementOf_follows : Follows .statement (statementOf expr stmt bound) s := by
  refine Follows.kind ?_
  generalize hkind : s.current.kind = kind
  split
  · exact ifStatement_follows hexpr hstmt hkind
  · refine (Follows.bind_pure (block_follows hstmt)).mono ?_
    rintro i k ⟨_, ⟨b, hb, rfl⟩, _, ⟨xs, hxs⟩, z, hz, rfl⟩
    exact ⟨_, .block hb hxs hz⟩
  · exact declarationStatement_follows hexpr hkind
  · exact returnStatement_follows hexpr hkind
  · exact forStatement_follows hexpr hstmt hkind
  · exact whileStatement_follows hexpr hstmt hkind
  · exact breakStatement_follows hkind
  · exact Follows.advance_pure (by simp [hkind]) fun k => ⟨_, .empty hkind⟩
  · exact expressionStatement_follows hexpr

end Compound

theorem statement_follows (bound : Nat) : ∀ s, Follows .statement (statement bound) s := by
  induction bound with
  | zero => exact fun s => expressionStatement_follows (expression_follows 0)
  | succ bound ih => exact fun s => statementOf_follows (expression_follows (bound + 1)) ih

end Grammar

end ClassLang
