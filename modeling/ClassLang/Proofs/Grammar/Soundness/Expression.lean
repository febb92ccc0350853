import ClassLang.Proofs.Grammar.Derivation.Expression
import ClassLang.Proofs.Rule.Repetition
/-!
What the rules for expressions read is derived by the grammar, whatever their bounds. Main
statement: `expression_reads`.
-/

namespace ClassLang

namespace Grammar

open Rule

/-- What the rule reads derives its result in the category, at the positions of its tokens. -/
def ReadsExpr (c : ExprCategory) (r : Rule c.Tree) : Prop :=
  ∀ ⦃s s' : TokenStream⦄ ⦃x : c.Tree⦄, r s = .ok x s' →
    DerivesExpr Token.position c s.pending s'.pending x

variable {expr : Rule Expr} {bound : Nat}

theorem DerivesExpr.pending_eq_cons {place : Token → Position} {l : Level} {s : TokenStream}
    {k : List Token} {e : Expr} (h : DerivesExpr place (.level l) s.pending k e) :
    s.pending = s.current :: s.advance.pending := by
  obtain ⟨t, j, hs⟩ := h.exists_cons
  exact TokenStream.pending_eq_cons_of_ne_nil (by simp [hs])

section Primary

variable (hexpr : ReadsExpr (.level .expression) expr)

include hexpr

theorem moreArguments_reads : ReadsExpr .moreArguments (afterCommas expr bound) := by
  intro s s' es h
  exact afterCommas_eq_ok (P := DerivesExpr Token.position .moreArguments)
    (fun _ => .noMoreArguments) (fun hc he hes => .moreArguments hc (hexpr he) hes) h

theorem arguments_reads {s s' : TokenStream} {l : NodeList Expr}
    (h : arguments expr bound s = .ok l s') :
    l.position = s.current.position ∧
      DerivesExpr Token.position .arguments s.pending s'.pending l.items := by
  obtain ⟨hposition, ⟨hitems, rfl⟩ | ⟨e, es, s₁, hitems, he, hes⟩⟩ := inParens_eq_ok h
  · rw [hitems]
    exact ⟨hposition, .noArguments⟩
  · rw [hitems]
    exact ⟨hposition, .someArguments (hexpr he) (moreArguments_reads hexpr hes)⟩

theorem varOrCall_reads {t : Token} {i : List Token} {r : Option Expr} {s s' : TokenStream}
    {e : Expr} (hr : Qualifies Token.position (t :: i) s.pending r)
    (h : varOrCall expr bound t.position r s = .ok e s') :
    DerivesExpr Token.position (.level .primary) (t :: i) s'.pending e := by
  obtain ⟨name, s₁, hname, h⟩ := bind_eq_ok.1 h
  obtain ⟨n, hs, hn, rfl⟩ := pending_of_identifier hname
  rw [hs] at hr
  rw [kind_bind] at h
  split at h
  · next hopen =>
      rw [advance_bind] at h
      obtain ⟨l, s₂, hl, h⟩ := bind_eq_ok.1 h
      obtain ⟨q, s₃, hq, h⟩ := bind_eq_ok.1 h
      cases h
      obtain ⟨hs₂, hclose⟩ := pending_of_expectIn hq (by simp)
      obtain ⟨hposition, hes⟩ := arguments_reads hexpr hl
      have hs₁ := TokenStream.pending_eq_cons (s := s₁) (by simp [hopen])
      rw [hs₂] at hes
      have hne := hes.ne_nil_of_cons
      rw [TokenStream.pending_eq_cons_of_ne_nil hne] at hes
      rw [hs₁, TokenStream.pending_eq_cons_of_ne_nil hne] at hr
      obtain ⟨position, items⟩ := l
      cases hposition
      exact .call hr hn hopen hes hclose
  · cases h
    exact .var hr hn

theorem qualified_reads {s s' : TokenStream} {e : Expr}
    (hkind : s.current.kind = .keyword .kwThis ∨ s.current.kind = .keyword .kwSuper)
    (h : qualified expr bound s = .ok e s') :
    DerivesExpr Token.position (.level .primary) s.pending s'.pending e := by
  rw [qualified, advance_bind, current_bind] at h
  obtain ⟨d, s₁, hd, h⟩ := bind_eq_ok.1 h
  obtain ⟨hs₁, hdot⟩ := pending_of_expectOr hd (by simp)
  have hs : s.pending = s.current :: d :: s₁.pending := by
    rw [← hs₁]
    exact TokenStream.pending_eq_cons (by rcases hkind with hk | hk <;> simp [hk])
  rw [hs]
  refine varOrCall_reads hexpr ?_ h
  rcases hkind with hk | hk
  · exact .this hk hdot
  · exact .super hk hdot

theorem parenthesized_reads {s s' : TokenStream} {e : Expr}
    (hkind : s.current.kind = .symbol .openParen) (h : parenthesized expr s = .ok e s') :
    DerivesExpr Token.position (.level .primary) s.pending s'.pending e := by
  rw [parenthesized, advance_bind] at h
  obtain ⟨inner, s₁, he, h⟩ := bind_eq_ok.1 h
  obtain ⟨q, s₂, hq, h⟩ := bind_eq_ok.1 h
  cases h
  obtain ⟨hs₁, hclose⟩ := pending_of_expectIn hq (by simp)
  have he := hexpr he
  rw [hs₁] at he
  rw [TokenStream.pending_eq_cons (by simp [hkind])]
  exact .parenthesized hkind he hclose

omit hexpr in
theorem integerConstant_reads {s s' : TokenStream} {e : Expr} (hkind : s.current.kind = .integer)
    (h : integerConstant s = .ok e s') :
    DerivesExpr Token.position (.level .primary) s.pending s'.pending e := by
  rw [integerConstant, current_bind] at h
  cases hv : readInteger? s.current.value.toList with
  | none => simp [hv] at h
  | some v =>
      simp only [hv, advance_bind] at h
      cases h
      rw [TokenStream.pending_eq_cons (by simp [hkind])]
      exact .integer hkind (readInteger?_eq_some_iff.1 hv)

theorem primary_reads : ReadsExpr (.level .primary) (primary expr bound) := by
  intro s s' e h
  rw [primary, current_bind] at h
  generalize hkind : s.current.kind = kind at h
  split at h
  · exact parenthesized_reads hexpr hkind h
  · exact integerConstant_reads hkind h
  · cases h
    rw [TokenStream.pending_eq_cons (by simp [hkind])]
    exact .boolean hkind
  · cases h
    rw [TokenStream.pending_eq_cons (by simp [hkind])]
    exact .string hkind
  · exact qualified_reads hexpr (.inl hkind) h
  · exact qualified_reads hexpr (.inr hkind) h
  · have hs := TokenStream.pending_eq_cons (s := s) (by simp [hkind])
    rw [hs]
    exact varOrCall_reads hexpr (hs ▸ .absent) h
  · cases h

theorem trailing_reads : ReadsExpr (.level .trailing) (trailing expr bound) := by
  intro s s' e h
  rw [trailing, position_bind] at h
  obtain ⟨operand, s₁, ho, h⟩ := bind_eq_ok.1 h
  have ho := primary_reads hexpr ho
  rw [kind_bind] at h
  cases hop : trailingOp? s₁.current.kind with
  | none =>
      simp only [hop] at h
      cases h
      exact .noTrailing ho
  | some op =>
      simp only [hop, advance_bind] at h
      cases h
      have hs₁ : s₁.pending = s₁.current :: s₁.advance.pending :=
        TokenStream.pending_eq_cons (by intro hk; simp [hk, trailingOp?] at hop)
      have hs := ho.pending_eq_cons
      rw [hs₁, hs] at ho
      rw [hs]
      exact .trailing ho hop

end Primary

theorem leading_reads {operand : Rule Expr} (hoperand : ReadsExpr (.level .trailing) operand) :
    ReadsExpr (.level .leading) (leading operand bound) := by
  intro s s' e h
  induction bound generalizing s e with
  | zero => exact .noLeading (hoperand h)
  | succ bound ih =>
      rw [leading, kind_bind] at h
      cases hop : leadingOp? s.current.kind with
      | none =>
          simp only [hop] at h
          exact .noLeading (hoperand h)
      | some op =>
          simp only [hop, advance_bind] at h
          obtain ⟨inner, s₁, hi, h⟩ := bind_eq_ok.1 h
          cases h
          rw [TokenStream.pending_eq_cons (by intro hk; simp [hk, leadingOp?] at hop)]
          exact .leading hop (ih hi)

theorem creation_reads {s s' : TokenStream} {e : Expr} (hkind : s.current.kind = .keyword .kwNew)
    (h : creation s = .ok e s') :
    DerivesExpr Token.position (.level .factor) s.pending s'.pending e := by
  rw [creation, advance_bind] at h
  obtain ⟨name, s₁, hname, h⟩ := bind_eq_ok.1 h
  obtain ⟨p, s₂, hp, h⟩ := bind_eq_ok.1 h
  obtain ⟨q, s₃, hq, h⟩ := bind_eq_ok.1 h
  cases h
  obtain ⟨n, hs, hn, rfl⟩ := pending_of_identifier hname
  obtain ⟨hs₁, hopen⟩ := pending_of_expectIn hp (by simp)
  obtain ⟨hs₂, hclose⟩ := pending_of_expectIn hq (by simp)
  rw [TokenStream.pending_eq_cons (by simp [hkind]), hs, hs₁, hs₂]
  exact .creation hkind hn hopen hclose

theorem conversion_reads (hexpr : ReadsExpr (.level .expression) expr) {s s' : TokenStream}
    {e : Expr} (hkind : s.current.kind = .keyword .kwCast) (h : conversion expr s = .ok e s') :
    DerivesExpr Token.position (.level .factor) s.pending s'.pending e := by
  rw [conversion, advance_bind] at h
  obtain ⟨p, s₁, hp, h⟩ := bind_eq_ok.1 h
  obtain ⟨name, s₂, hname, h⟩ := bind_eq_ok.1 h
  obtain ⟨c, s₃, hc, h⟩ := bind_eq_ok.1 h
  obtain ⟨operand, s₄, ho, h⟩ := bind_eq_ok.1 h
  obtain ⟨q, s₅, hq, h⟩ := bind_eq_ok.1 h
  cases h
  obtain ⟨hs, hopen⟩ := pending_of_expectIn hp (by simp)
  obtain ⟨n, hs₁, hn, rfl⟩ := pending_of_identifier hname
  obtain ⟨hs₂, hcomma⟩ := pending_of_expectIn hc (by simp)
  obtain ⟨hs₄, hclose⟩ := pending_of_expectIn hq (by simp)
  have ho := hexpr ho
  rw [hs₄] at ho
  rw [TokenStream.pending_eq_cons (by simp [hkind]), hs, hs₁, hs₂]
  exact .conversion hkind hopen hn hcomma ho hclose

theorem factor_reads (hexpr : ReadsExpr (.level .expression) expr) :
    ReadsExpr (.level .factor) (factor expr bound) := by
  intro s s' e h
  rw [factor, kind_bind] at h
  generalize hkind : s.current.kind = kind at h
  split at h
  · exact creation_reads hkind h
  · exact conversion_reads hexpr hkind h
  · exact .unary (leading_reads (trailing_reads hexpr) h)

section Operators

variable {o : Operators} {operand : Rule Expr}

variable (hoperand : ReadsExpr (.level o.tighter) operand)

include hoperand

theorem joined_reads {second : Rule Expr} (hsecond : ReadsExpr (.level o.rightOperand) second)
    (hl : o.leftOperand = o.tighter) :
    ReadsExpr (.level (.operators o)) (joined o.op? operand second) := by
  intro s s' e h
  rw [joined, position_bind] at h
  obtain ⟨left, s₁, hleft, h⟩ := bind_eq_ok.1 h
  have hleft := hoperand hleft
  rw [kind_bind] at h
  cases hop : o.op? s₁.current.kind with
  | none =>
      simp only [hop] at h
      cases h
      exact .operand hleft
  | some op =>
      simp only [hop, advance_bind] at h
      obtain ⟨right, s₂, hright, h⟩ := bind_eq_ok.1 h
      cases h
      have hs := hleft.pending_eq_cons
      rw [TokenStream.pending_eq_cons (Operators.kind_ne_endOfInput hop), hs] at hleft
      rw [hs]
      exact .binary (hl ▸ hleft) hop (hsecond hright)

theorem atMostOne_reads (hl : o.leftOperand = o.tighter) (hr : o.rightOperand = o.tighter) :
    ReadsExpr (.level (.operators o)) (atMostOne o.op? operand) := by
  rw [atMostOne_eq_joined]
  exact joined_reads hoperand (hr ▸ hoperand) hl

theorem chainRight_reads (hl : o.leftOperand = o.tighter) (hr : o.rightOperand = .operators o) :
    ReadsExpr (.level (.operators o)) (chainRight o.op? operand bound) := by
  induction bound with
  | zero =>
      intro s s' e h
      exact .operand (hoperand h)
  | succ bound ih =>
      rw [chainRight_succ]
      exact joined_reads hoperand (hr ▸ ih) hl

theorem moreLeft_reads (hl : o.leftOperand = .operators o) (hr : o.rightOperand = o.tighter)
    {t : Token} {i : List Token} {s s' : TokenStream} {left e : Expr}
    (hleft : DerivesExpr Token.position (.level (.operators o)) (t :: i) s.pending left)
    (h : moreLeft o.op? operand t.position bound left s = .ok e s') :
    DerivesExpr Token.position (.level (.operators o)) (t :: i) s'.pending e := by
  induction bound generalizing s left with
  | zero =>
      cases h
      exact hleft
  | succ bound ih =>
      rw [moreLeft, kind_bind] at h
      cases hop : o.op? s.current.kind with
      | none =>
          simp only [hop] at h
          cases h
          exact hleft
      | some op =>
          simp only [hop, advance_bind] at h
          obtain ⟨right, s₁, hright, h⟩ := bind_eq_ok.1 h
          rw [TokenStream.pending_eq_cons (Operators.kind_ne_endOfInput hop)] at hleft
          exact ih (.binary (hl ▸ hleft) hop (hr ▸ hoperand hright)) h

theorem chainLeft_reads (hl : o.leftOperand = .operators o) (hr : o.rightOperand = o.tighter) :
    ReadsExpr (.level (.operators o)) (chainLeft o.op? operand bound) := by
  intro s s' e h
  rw [chainLeft, position_bind] at h
  obtain ⟨left, s₁, hleft, h⟩ := bind_eq_ok.1 h
  have hleft := hoperand hleft
  have hs := hleft.pending_eq_cons
  rw [hs] at hleft ⊢
  exact moreLeft_reads hoperand hl hr (.operand hleft) h

end Operators

section Assignment

variable (hexpr : ReadsExpr (.level .expression) expr)

include hexpr

theorem disjunction_reads :
    ReadsExpr (.level (.operators .disjunction)) (disjunction expr bound) := by
  have hproduct : ReadsExpr (.level (.operators .product)) (product expr bound) :=
    chainRight_reads (o := .product) (factor_reads hexpr) rfl rfl
  have hsum : ReadsExpr (.level (.operators .sum)) (sum expr bound) :=
    chainRight_reads (o := .sum) hproduct rfl rfl
  have hrelation : ReadsExpr (.level (.operators .relation)) (relation expr bound) :=
    atMostOne_reads (o := .relation) hsum rfl rfl
  have hequality : ReadsExpr (.level (.operators .equality)) (equality expr bound) :=
    atMostOne_reads (o := .equality) hrelation rfl rfl
  have hconjunction : ReadsExpr (.level (.operators .conjunction)) (conjunction expr bound) :=
    chainLeft_reads (o := .conjunction) hequality rfl rfl
  exact chainLeft_reads (o := .disjunction) hconjunction rfl rfl

theorem assignment_reads : ReadsExpr (.level .expression) (assignment expr bound) := by
  intro s s' e h
  rw [assignment, position_bind] at h
  obtain ⟨left, s₁, hleft, h⟩ := bind_eq_ok.1 h
  have hleft := disjunction_reads hexpr hleft
  cases left with
  | var p r name =>
      simp only [kind_bind] at h
      split at h
      · next hassign =>
          rw [advance_bind] at h
          obtain ⟨value, s₂, hvalue, h⟩ := bind_eq_ok.1 h
          cases h
          have hs := hleft.pending_eq_cons
          rw [TokenStream.pending_eq_cons (s := s₁) (by simp [hassign]), hs] at hleft
          rw [hs]
          exact .assignment hleft hassign (hexpr hvalue)
      · cases h
        exact .disjunction hleft
  | _ =>
      cases h
      exact .disjunction hleft

end Assignment

theorem expression_reads (bound : Nat) : ReadsExpr (.level .expression) (expression bound) := by
  induction bound with
  | zero =>
      intro s s' e h
      cases h
  | succ bound ih => exact assignment_reads ih

end Grammar

end ClassLang
