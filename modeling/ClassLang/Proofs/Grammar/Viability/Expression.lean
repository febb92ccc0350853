import ClassLang.Proofs.Grammar.Soundness.Expression
import ClassLang.Proofs.Grammar.Viability.Form
/-!
Where a rule for expressions fails, the tokens that it has taken begin an expression. Main
statement: `expression_follows`.
-/

namespace ClassLang

namespace Grammar

open Rule

namespace Form

def level (l : Level) : Form where
  span i k := ∃ e, DerivesExpr Token.position (.level l) i k e
  productive := by
    refine ⟨[⟨.identifier, "", .empty .null⟩], fun k _ => ⟨nofun, ?_⟩⟩
    exact ⟨_, DerivesExpr.of_primary (.var .absent rfl) l⟩

def arguments : Form :=
  lax (fun i k => ∃ es, DerivesExpr Token.position .arguments i k es)
    fun _ _ => ⟨[], .noArguments⟩

def moreArguments : Form :=
  lax (fun i k => ∃ es, DerivesExpr Token.position .moreArguments i k es)
    fun _ _ => ⟨[], .noMoreArguments⟩

/-- The arguments of a call in their parentheses, or nothing. -/
def call : Form :=
  lax (fun i k => i = k ∨ ∃ p j, i = p :: j ∧ p.kind = .symbol .openParen ∧
    (arguments.andThen (.symbol .closeParen)).span j k) fun _ _ => .inl rfl

def trailing : Form :=
  lax (fun i k => i = k ∨ ∃ t op, i = t :: k ∧ trailingOp? t.kind = some op) fun _ _ => .inl rfl

def operation (o : Operators) : Form :=
  lax (fun i k => i = k ∨ ∃ t j op, i = t :: j ∧ o.op? t.kind = some op ∧
    (level o.rightOperand).span j k) fun _ _ => .inl rfl

def assigned : Form :=
  lax (fun i k => i = k ∨ ∃ a j, i = a :: j ∧ a.kind = .symbol .assign ∧
    (level .expression).span j k) fun _ _ => .inl rfl

/-- Whatever makes a longer chain of any that ends here. -/
def continued (o : Operators) : Form :=
  lax (fun i k => ∀ h, (level (.operators o)).span h i → (level (.operators o)).span h k)
    fun _ _ _ => id

end Form

theorem Form.level_primary_of_call {t n : Token} {i j k : List Token} {r : Option Expr}
    (hr : Qualifies Token.position (t :: i) (n :: j) r) (hn : n.kind = .identifier)
    (h : Form.call.span j k) : (Form.level .primary).span (t :: i) k := by
  rcases h with rfl | ⟨p, j, rfl, hp, j', ⟨es, hes⟩, q, hq, rfl⟩
  · exact ⟨_, .var hr hn⟩
  · obtain ⟨a, j, rfl⟩ := List.exists_cons_of_ne_nil hes.ne_nil_of_cons
    exact ⟨_, .call hr hn hp hes hq⟩

variable {expr : Rule Expr} {bound : Nat} {s : TokenStream}

section Primary

variable (hexpr : ∀ s, Follows (.level .expression) expr s)

include hexpr

theorem arguments_follows : Follows .arguments (arguments expr bound) s := by
  have hmore : ∀ s, Follows .moreArguments (afterCommas expr bound) s := by
    refine fun s => Follows.afterCommas hexpr (fun k => ⟨[], .noMoreArguments⟩) ?_
    rintro c i j k hc ⟨e, he⟩ ⟨es, hes⟩
    exact ⟨e :: es, .moreArguments hc he hes⟩
  refine Follows.inParens hexpr hmore (fun k => ⟨[], .noArguments⟩) ?_
  rintro i j k ⟨e, he⟩ ⟨es, hes⟩
  exact ⟨e :: es, .someArguments he hes⟩

theorem varOrCall_follows {p : Position} {r : Option Expr} :
    Follows (Form.identifier.andThen .call) (varOrCall expr bound p r) s := by
  refine Follows.bind Follows.identifier fun name s => ?_
  refine Follows.kind ?_
  split
  · next hopen =>
      refine Follows.advance (by simp [hopen]) (fun i k h => .inr ⟨_, i, rfl, hopen, h⟩) ?_
      exact Follows.bind (arguments_follows hexpr) fun _ _ => Follows.bind_pure Follows.symbol
  · exact Follows.pure _ fun k _ => .inl rfl

theorem qualified_follows
    (hkind : s.current.kind = .keyword .kwThis ∨ s.current.kind = .keyword .kwSuper) :
    Follows (.level .primary) (qualified expr bound) s := by
  refine Follows.advance (by rcases hkind with hk | hk <;> simp [hk]) ?_
    (Follows.current (Follows.bind (Follows.expectOr _ (by simp) (by simp)) fun _ _ => varOrCall_follows hexpr))
  rintro i k ⟨_, ⟨d, hd, rfl⟩, _, ⟨n, hn, rfl⟩, hcall⟩
  rcases hkind with hk | hk
  · exact Form.level_primary_of_call (.this hk hd) hn hcall
  · exact Form.level_primary_of_call (.super hk hd) hn hcall

theorem parenthesized_follows (hkind : s.current.kind = .symbol .openParen) :
    Follows (.level .primary) (parenthesized expr) s := by
  refine Follows.advance (by simp [hkind]) ?_
    (Follows.bind (hexpr _) fun _ _ => Follows.bind_pure Follows.symbol)
  rintro i k ⟨_, ⟨e, he⟩, q, hq, rfl⟩
  exact ⟨e, .parenthesized hkind he hq⟩

omit hexpr in
theorem integerConstant_follows (hkind : s.current.kind = .integer) :
    Follows (.level .primary) integerConstant s := by
  refine Follows.current ?_
  cases hv : readInteger? s.current.value.toList with
  | none => exact Follows.reject _
  | some v =>
      refine Follows.advance_pure (by simp [hkind]) fun k => ?_
      exact ⟨_, .integer hkind (readInteger?_eq_some_iff.1 hv)⟩

theorem primary_follows : Follows (.level .primary) (primary expr bound) s := by
  refine Follows.current ?_
  generalize hkind : s.current.kind = kind
  split
  · exact parenthesized_follows hexpr hkind
  · exact integerConstant_follows hkind
  · exact Follows.advance_pure (by simp [hkind]) fun k => ⟨_, .boolean hkind⟩
  · exact Follows.advance_pure (by simp [hkind]) fun k => ⟨_, .string hkind⟩
  · exact qualified_follows hexpr (.inl hkind)
  · exact qualified_follows hexpr (.inr hkind)
  · refine (varOrCall_follows hexpr).mono ?_
    rintro i k ⟨_, ⟨n, hn, rfl⟩, hcall⟩
    exact Form.level_primary_of_call .absent hn hcall
  · exact Follows.unexpected _

theorem trailing_follows : Follows (.level .trailing) (trailing expr bound) s := by
  refine Follows.position ((Follows.bind (B := .trailing) (primary_follows hexpr) ?_).mono ?_)
  · intro e s
    refine Follows.kind ?_
    cases hop : trailingOp? s.current.kind with
    | none => exact Follows.pure _ fun k _ => .inl rfl
    | some op =>
        have hend : s.current.kind ≠ .endOfInput := by
          intro hk
          simp [hk, trailingOp?] at hop
        exact Follows.advance_pure hend fun k => .inr ⟨_, op, rfl, hop⟩
  · rintro i k ⟨j, ⟨e, he⟩, rfl | ⟨t, op, rfl, hop⟩⟩
    · exact ⟨e, .noTrailing he⟩
    · obtain ⟨u, i, rfl⟩ := he.exists_cons
      exact ⟨_, .trailing he hop⟩

end Primary

theorem leading_follows {operand : Rule Expr}
    (hoperand : ∀ s, Follows (.level .trailing) operand s) :
    Follows (.level .leading) (leading operand bound) s := by
  have hzero : ∀ s, Follows (.level .leading) operand s := by
    refine fun s => (hoperand s).mono ?_
    rintro i k ⟨e, he⟩
    exact ⟨e, .noLeading he⟩
  induction bound generalizing s with
  | zero => exact hzero s
  | succ bound ih =>
      refine Follows.kind ?_
      cases hop : leadingOp? s.current.kind with
      | none => exact hzero s
      | some op =>
          have hend : s.current.kind ≠ .endOfInput := by
            intro hk
            simp [hk, leadingOp?] at hop
          refine Follows.advance hend ?_ (Follows.bind_pure ih)
          rintro i k ⟨e, he⟩
          exact ⟨_, .leading hop he⟩

theorem creation_follows (hkind : s.current.kind = .keyword .kwNew) :
    Follows (.level .factor) creation s := by
  refine Follows.advance (by simp [hkind]) ?_ (Follows.bind Follows.identifier fun _ _ =>
    Follows.bind Follows.symbol fun _ _ => Follows.bind_pure Follows.symbol)
  rintro i k ⟨_, ⟨n, hn, rfl⟩, _, ⟨p, hp, rfl⟩, q, hq, rfl⟩
  exact ⟨_, .creation hkind hn hp hq⟩

section Factor

variable (hexpr : ∀ s, Follows (.level .expression) expr s)

include hexpr

theorem conversion_follows (hkind : s.current.kind = .keyword .kwCast) :
    Follows (.level .factor) (conversion expr) s := by
  refine Follows.advance (by simp [hkind]) ?_ (Follows.bind Follows.symbol fun _ _ =>
    Follows.bind Follows.identifier fun _ _ => Follows.bind Follows.symbol fun _ _ =>
      Follows.bind (hexpr _) fun _ _ => Follows.bind_pure Follows.symbol)
  rintro i k ⟨_, ⟨p, hp, rfl⟩, _, ⟨n, hn, rfl⟩, _, ⟨c, hc, rfl⟩, _, ⟨e, he⟩, q, hq, rfl⟩
  exact ⟨_, .conversion hkind hp hn hc he hq⟩

theorem factor_follows : Follows (.level .factor) (factor expr bound) s := by
  refine Follows.kind ?_
  generalize hkind : s.current.kind = kind
  split
  · exact creation_follows hkind
  · exact conversion_follows hexpr hkind
  · refine (leading_follows fun s => trailing_follows hexpr).mono ?_
    rintro i k ⟨e, he⟩
    exact ⟨e, .unary he⟩

end Factor

section Operators

variable {o : Operators} {operand : Rule Expr}

variable (hoperand : ∀ s, Follows (.level o.tighter) operand s)

include hoperand

theorem joined_follows {second : Rule Expr}
    (hsecond : ∀ s, Follows (.level o.rightOperand) second s) (hl : o.leftOperand = o.tighter) :
    Follows (.level (.operators o)) (joined o.op? operand second) s := by
  refine Follows.position ((Follows.bind (B := .operation o) (hoperand s) ?_).mono ?_)
  · intro left s
    refine Follows.kind ?_
    cases hop : o.op? s.current.kind with
    | none => exact Follows.pure _ fun k _ => .inl rfl
    | some op =>
        refine Follows.advance (Operators.kind_ne_endOfInput hop) ?_
          (Follows.bind_pure (hsecond s.advance))
        exact fun i k h => .inr ⟨_, i, op, rfl, hop, h⟩
  · rintro i k ⟨j, ⟨e, he⟩, rfl | ⟨t, j, op, rfl, hop, e', he'⟩⟩
    · exact ⟨e, .operand he⟩
    · obtain ⟨u, i, rfl⟩ := he.exists_cons
      exact ⟨_, .binary (hl ▸ he) hop he'⟩

theorem atMostOne_follows (hl : o.leftOperand = o.tighter) (hr : o.rightOperand = o.tighter) :
    Follows (.level (.operators o)) (atMostOne o.op? operand) s := by
  rw [atMostOne_eq_joined]
  exact joined_follows hoperand (hr ▸ hoperand) hl

theorem chainRight_follows (hl : o.leftOperand = o.tighter) (hr : o.rightOperand = .operators o) :
    Follows (.level (.operators o)) (chainRight o.op? operand bound) s := by
  induction bound generalizing s with
  | zero =>
      refine (hoperand s).mono ?_
      rintro i k ⟨e, he⟩
      exact ⟨e, .operand he⟩
  | succ bound ih =>
      rw [chainRight_succ]
      refine joined_follows hoperand (fun s => ?_) hl
      rw [hr]
      exact ih

theorem moreLeft_follows (hl : o.leftOperand = .operators o) (hr : o.rightOperand = o.tighter)
    {p : Position} {left : Expr} :
    Follows (.continued o) (moreLeft o.op? operand p bound left) s := by
  induction bound generalizing s left with
  | zero => exact Follows.pure _ fun k _ h => id
  | succ bound ih =>
      refine Follows.kind ?_
      cases hop : o.op? s.current.kind with
      | none => exact Follows.pure _ fun k _ h => id
      | some op =>
          refine Follows.advance (Operators.kind_ne_endOfInput hop) ?_
            (Follows.bind (hoperand s.advance) fun _ _ => ih)
          rintro i k ⟨j, ⟨e', he'⟩, hmore⟩ h ⟨e, he⟩
          refine hmore h ?_
          obtain ⟨t, h, rfl⟩ := he.exists_cons
          exact ⟨_, .binary (hl ▸ he) hop (hr ▸ he')⟩

theorem chainLeft_follows (hl : o.leftOperand = .operators o) (hr : o.rightOperand = o.tighter) :
    Follows (.level (.operators o)) (chainLeft o.op? operand bound) s := by
  refine Follows.position ((Follows.bind (hoperand s) fun left s =>
    moreLeft_follows hoperand hl hr).mono ?_)
  rintro i k ⟨j, ⟨e, he⟩, hmore⟩
  exact hmore i ⟨e, .operand he⟩

end Operators

section Assignment

variable (hexpr : ∀ s, Follows (.level .expression) expr s)

include hexpr

theorem disjunction_follows :
    Follows (.level (.operators .disjunction)) (disjunction expr bound) s := by
  have hproduct : ∀ s, Follows (.level (.operators .product)) (product expr bound) s :=
    fun s => chainRight_follows (o := .product) (fun s => factor_follows hexpr) rfl rfl
  have hsum : ∀ s, Follows (.level (.operators .sum)) (sum expr bound) s :=
    fun s => chainRight_follows (o := .sum) hproduct rfl rfl
  have hrelation : ∀ s, Follows (.level (.operators .relation)) (relation expr bound) s :=
    fun s => atMostOne_follows (o := .relation) hsum rfl rfl
  have hequality : ∀ s, Follows (.level (.operators .equality)) (equality expr bound) s :=
    fun s => atMostOne_follows (o := .equality) hrelation rfl rfl
  have hconjunction : ∀ s, Follows (.level (.operators .conjunction)) (conjunction expr bound) s :=
    fun s => chainLeft_follows (o := .conjunction) hequality rfl rfl
  exact chainLeft_follows (o := .disjunction) hconjunction rfl rfl

theorem assignment_follows (hreads : ReadsExpr (.level .expression) expr) :
    Follows (.level .expression) (assignment expr bound) s := by
  have hdisjunction : Follows (.level (.operators .disjunction)) (disjunction expr bound) s :=
    disjunction_follows hexpr
  have hlevel : ∀ i k, (Form.level (.operators .disjunction)).span i k →
      (Form.level .expression).span i k := by
    rintro i k ⟨e, he⟩
    exact ⟨e, .disjunction he⟩
  refine Follows.position ?_
  cases h : disjunction expr bound s with
  | error d s₁ => exact Follows.of_error (bind_of_error h) ((hdisjunction.begun h).mono hlevel)
  | ok left s₁ =>
      cases left with
      | var p r name =>
          -- the value after an equals sign completes an assignment to this very variable
          have hread := disjunction_reads hreads h
          obtain ⟨u, hu, hleft⟩ := hread.exists_prefix
          refine Follows.after (M := .assigned) h hu ?_ (Follows.kind ?_)
          · rintro i k - (rfl | ⟨a, j, rfl, ha, e, he⟩)
            · exact ⟨_, .disjunction (hleft i)⟩
            · have hvar := hleft (a :: j)
              obtain ⟨t, j', htj⟩ := hvar.exists_cons
              rw [htj] at hvar ⊢
              exact ⟨_, .assignment hvar ha he⟩
          · split
            · next hassign =>
                refine Follows.advance (by simp [hassign]) ?_ (Follows.bind_pure (hexpr _))
                exact fun i k h => .inr ⟨_, i, rfl, hassign, h⟩
            · exact Follows.pure _ fun k _ => .inl rfl
      | _ => exact Follows.of_ok (bind_of_ok h) ((hdisjunction.completed h).mono hlevel)

end Assignment

theorem expression_follows (bound : Nat) :
    ∀ s, Follows (.level .expression) (expression bound) s := by
  induction bound with
  | zero => exact fun s => Follows.unexpected _
  | succ bound ih => exact fun s => assignment_follows ih (expression_reads bound)

end Grammar

end ClassLang
