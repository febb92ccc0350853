import ClassLang.Proofs.Grammar.Derivation.Expression
import ClassLang.Proofs.Rule.Repetition
/-!
What the grammar of expressions derives is read by the rules, if no token follows that the phrase
could go on with. Main statement: `expression_accepts`.
-/

namespace ClassLang

namespace Grammar

open Rule

/-- How loosely a token continues an expression: the tokens of tight operators come first. -/
def looseness : TokenKind → Nat
  | .symbol .openParen => 0
  | .symbol .increment | .symbol .decrement => 1
  | .symbol .star | .symbol .slash | .symbol .percent => 2
  | .symbol .plus | .symbol .minus => 3
  | .symbol .less | .symbol .greater | .symbol .lessEqual | .symbol .greaterEqual => 4
  | .symbol .equal | .symbol .notEqual => 5
  | .symbol .and => 6
  | .symbol .or => 7
  | .symbol .assign => 8
  | _ => 9

/-- The loosest tokens that a phrase of the level may go on with. -/
def Level.looseness : Level → Nat
  | .expression => 8
  | .operators .disjunction => 7
  | .operators .conjunction => 6
  | .operators .equality => 5
  | .operators .relation => 4
  | .operators .sum => 3
  | .operators .product => 2
  | .factor => 1
  | .leading => 1
  | .trailing => 1
  | .primary => 0

/-- A phrase of the level cannot go on with the first of the tokens. -/
def Stops (l : Level) (k : List Token) : Prop :=
  l.looseness < looseness (nextKind k)

/-- The rule reads every phrase of the level that ends where it cannot go on, among so many tokens. -/
def AcceptsExpr (n : Nat) (l : Level) (r : Rule Expr) : Prop :=
  ∀ ⦃i k : List Token⦄ ⦃e : Expr⦄ (mark : EndMark), i.length ≤ n →
    DerivesExpr Token.position (.level l) i k e → Stops l k → r ⟨i, mark⟩ = .ok e ⟨k, mark⟩

theorem looseness_of_op? {o : Operators} {kind : TokenKind} {op : BinaryOp}
    (h : o.op? kind = some op) : looseness kind = (Level.operators o).looseness := by
  cases o <;>
    simp only [Operators.op?, disjunctionOp?, conjunctionOp?, equalityOp?, relationOp?, sumOp?,
      productOp?] at h <;>
    split at h <;> first | rfl | simp at h

theorem op?_of_stops {o : Operators} {k : List Token} (h : Stops (.operators o) k) :
    o.op? (nextKind k) = none := by
  cases hop : o.op? (nextKind k) with
  | none => rfl
  | some op =>
      rw [Stops, looseness_of_op? hop] at h
      exact absurd h (Nat.lt_irrefl _)

theorem trailingOp?_of_stops {k : List Token} (h : Stops .trailing k) :
    trailingOp? (nextKind k) = none := by
  rw [Stops, Level.looseness] at h
  unfold trailingOp?
  split
  · next hk => rw [hk] at h; simp [looseness] at h
  · next hk => rw [hk] at h; simp [looseness] at h
  · rfl

theorem AcceptsExpr.mono {m n : Nat} {l : Level} {r : Rule Expr} (h : AcceptsExpr n l r)
    (hmn : m ≤ n) : AcceptsExpr m l r :=
  fun _ _ _ mark hi => h mark (Nat.le_trans hi hmn)

theorem Operators.tighter_looseness (o : Operators) :
    o.tighter.looseness < (Level.operators o).looseness := by
  cases o <;> decide

theorem Stops.mono {l m : Level} {k : List Token} (h : Stops l k) (hlm : m.looseness ≤ l.looseness) :
    Stops m k :=
  Nat.lt_of_le_of_lt hlm h

theorem Stops.tighter {o : Operators} {k : List Token} (h : Stops (.operators o) k) :
    Stops o.tighter k :=
  h.mono (Nat.le_of_lt o.tighter_looseness)

theorem Stops.rightOperand {o : Operators} {k : List Token} (h : Stops (.operators o) k) :
    Stops o.rightOperand k :=
  h.mono (by cases o <;> decide)

theorem stops_of_op? {o : Operators} {t : Token} {k : List Token} {op : BinaryOp}
    (h : o.op? t.kind = some op) : Stops o.tighter (t :: k) := by
  rw [Stops, nextKind_cons, looseness_of_op? h]
  exact o.tighter_looseness

theorem stops_of_moreArguments {j k : List Token} {es : List Expr}
    (h : DerivesExpr Token.position .moreArguments j k es)
    (hk : nextKind k = .symbol .closeParen) : Stops .expression j := by
  cases h with
  | noMoreArguments => rw [Stops, hk]; decide
  | moreArguments hc _ _ => rw [Stops, nextKind_cons, hc]; decide

section Primary

variable {expr : Rule Expr} {n bound : Nat} (hexpr : AcceptsExpr n .expression expr)

include hexpr

theorem moreArguments_accepts {j k : List Token} {es : List Expr} (mark : EndMark)
    (hj : j.length ≤ n) (hbound : j.length ≤ bound)
    (h : DerivesExpr Token.position .moreArguments j k es)
    (hk : nextKind k = .symbol .closeParen) :
    afterCommas expr bound ⟨j, mark⟩ = .ok es ⟨k, mark⟩ := by
  induction bound generalizing j es with
  | zero =>
      rw [Nat.le_zero, List.length_eq_zero_iff] at hbound
      subst hbound
      cases h
      rfl
  | succ bound ih =>
      rw [afterCommas, kind_bind, TokenStream.kind_current_mk]
      cases h with
      | noMoreArguments =>
          rw [if_neg (by rw [hk]; simp)]
          rfl
      | @moreArguments c i j k e es hc he hes =>
          have hlt := he.length_lt
          simp only [List.length_cons] at hj hbound
          rw [nextKind_cons, if_pos hc, advance_bind, TokenStream.advance_cons,
            bind_of_ok (hexpr mark (by omega) he (stops_of_moreArguments hes hk)),
            bind_of_ok (ih (by omega) (by omega) hes)]
          rfl

theorem arguments_accepts {a : Token} {j k : List Token} {es : List Expr} (mark : EndMark)
    (hj : (a :: j).length ≤ n) (hbound : n ≤ bound)
    (h : DerivesExpr Token.position .arguments (a :: j) k es)
    (hk : nextKind k = .symbol .closeParen) :
    arguments expr bound ⟨a :: j, mark⟩ = .ok ⟨a.position, es⟩ ⟨k, mark⟩ := by
  rw [arguments, inParens, position_bind, kind_bind, TokenStream.kind_current_mk]
  cases h with
  | noArguments =>
      rw [if_pos hk]
      rfl
  | @someArguments _ i _ e es he hes =>
      have hlt := he.length_lt
      rw [if_neg (he.nextKind_ne rfl), bind_of_ok (hexpr mark hj he (stops_of_moreArguments hes hk)),
        bind_of_ok (moreArguments_accepts hexpr mark (by omega) (by omega) hes hk)]
      rfl

omit hexpr in
theorem varOrCall_var {m : Token} {k : List Token} {p : Position} {r : Option Expr}
    (mark : EndMark) (hm : m.kind = .identifier) (hk : nextKind k ≠ .symbol .openParen) :
    varOrCall expr bound p r ⟨m :: k, mark⟩ = .ok (.var p r m.value) ⟨k, mark⟩ := by
  rw [varOrCall, bind_of_ok (identifier_cons hm), kind_bind, TokenStream.kind_current_mk, if_neg hk]
  rfl

theorem varOrCall_call {m o a q : Token} {j k : List Token} {p : Position} {r : Option Expr}
    {es : List Expr} (mark : EndMark) (hj : (a :: j).length ≤ n) (hbound : n ≤ bound)
    (hm : m.kind = .identifier) (ho : o.kind = .symbol .openParen)
    (hes : DerivesExpr Token.position .arguments (a :: j) (q :: k) es)
    (hq : q.kind = .symbol .closeParen) :
    varOrCall expr bound p r ⟨m :: o :: a :: j, mark⟩ =
      .ok (.call p r m.value ⟨a.position, es⟩) ⟨k, mark⟩ := by
  rw [varOrCall, bind_of_ok (identifier_cons hm), kind_bind, TokenStream.kind_current_mk,
    nextKind_cons, if_pos ho, advance_bind, TokenStream.advance_cons,
    bind_of_ok (arguments_accepts hexpr mark hj hbound hes hq), bind_of_ok (expectIn_cons hq)]
  rfl

omit hexpr in
theorem primary_of_qualifies {t m : Token} {i j : List Token} {r : Option Expr} (mark : EndMark)
    (hr : Qualifies Token.position (t :: i) (m :: j) r) (hm : m.kind = .identifier) :
    primary expr bound ⟨t :: i, mark⟩ = varOrCall expr bound t.position r ⟨m :: j, mark⟩ := by
  rw [primary, current_bind, TokenStream.current_cons]
  cases hr with
  | absent => rw [hm]
  | @this _ d _ ht hd =>
      rw [ht]
      change qualified expr bound ⟨t :: d :: m :: j, mark⟩ = _
      rw [qualified, advance_bind, current_bind, TokenStream.advance_cons,
        bind_of_ok (expectOr_cons hd)]
      rfl
  | @super _ d _ ht hd =>
      rw [ht]
      change qualified expr bound ⟨t :: d :: m :: j, mark⟩ = _
      rw [qualified, advance_bind, current_bind, TokenStream.advance_cons,
        bind_of_ok (expectOr_cons hd)]
      rfl

theorem primary_accepts (hbound : n ≤ bound) :
    AcceptsExpr (n + 1) .primary (primary expr bound) := by
  intro i k e mark hi h hstop
  cases h with
  | @parenthesized t q i _ _ ht he hq =>
      simp only [List.length_cons] at hi
      have hclose : Stops .expression (q :: k) := by rw [Stops, nextKind_cons, hq]; decide
      rw [primary, current_bind, TokenStream.current_cons, ht]
      change parenthesized expr ⟨t :: i, mark⟩ = _
      rw [parenthesized, advance_bind, TokenStream.advance_cons,
        bind_of_ok (hexpr mark (by omega) he hclose), bind_of_ok (expectIn_cons hq)]
      rfl
  | @integer t _ v ht hv =>
      rw [primary, current_bind, TokenStream.current_cons, ht]
      change integerConstant ⟨t :: k, mark⟩ = _
      rw [integerConstant, current_bind, TokenStream.current_cons, readInteger?_eq_some_iff.2 hv]
      rfl
  | @boolean t _ ht =>
      rw [primary, current_bind, TokenStream.current_cons, ht]
      rfl
  | @string t _ ht =>
      rw [primary, current_bind, TokenStream.current_cons, ht]
      rfl
  | @var t m i _ r hr hm =>
      have hopen : nextKind k ≠ .symbol .openParen := by
        intro hk
        rw [Stops, hk] at hstop
        exact absurd hstop (by decide)
      rw [primary_of_qualifies mark hr hm, varOrCall_var mark hm hopen]
  | @call t m o a q i j _ r es hr hm ho hes hq =>
      obtain ⟨u, hu, -⟩ := hr.exists_prefix
      have hlength := congrArg List.length hu
      simp only [List.length_append, List.length_cons] at hlength hi
      rw [primary_of_qualifies mark hr hm,
        varOrCall_call hexpr mark (by simp only [List.length_cons]; omega) hbound hm ho hes hq]

theorem trailing_accepts (hbound : n ≤ bound) :
    AcceptsExpr (n + 1) .trailing (trailing expr bound) := by
  intro i k e mark hi h hstop
  rw [trailing, position_bind]
  cases h with
  | @trailing op t u i _ e he hop =>
      have hop' : Stops .primary (u :: k) := by
        rw [Stops, nextKind_cons]
        unfold trailingOp? at hop
        split at hop
        · next hu => rw [hu]; decide
        · next hu => rw [hu]; decide
        · simp at hop
      rw [bind_of_ok (primary_accepts hexpr hbound mark hi he hop'), kind_bind,
        TokenStream.kind_current_mk, nextKind_cons, hop]
      rfl
  | noTrailing he =>
      rw [bind_of_ok (primary_accepts hexpr hbound mark hi he (hstop.mono (by decide))), kind_bind,
        TokenStream.kind_current_mk, trailingOp?_of_stops hstop]
      rfl

end Primary

theorem leadingOp?_of_startsPrimary {kind : TokenKind} (h : startsPrimary kind = true) :
    leadingOp? kind = none := by
  unfold startsPrimary at h
  split at h <;> first | rfl | simp at h

theorem leading_accepts {operand : Rule Expr} {n bound : Nat}
    (hoperand : AcceptsExpr n .trailing operand) (hbound : n ≤ bound) :
    AcceptsExpr n .leading (leading operand bound) := by
  intro i k e mark hi h hstop
  have hlength : i.length ≤ bound := Nat.le_trans hi hbound
  clear hbound
  induction bound generalizing i e with
  | zero =>
      have := h.length_lt
      omega
  | succ bound ih =>
      rw [leading, kind_bind, TokenStream.kind_current_mk]
      cases h with
      | @leading op t i _ e hop he =>
          simp only [List.length_cons] at hi hlength
          rw [nextKind_cons, hop]
          change (advance >>= _) _ = _
          rw [advance_bind, TokenStream.advance_cons, bind_of_ok (ih (by omega) he (by omega))]
          rfl
      | noLeading he =>
          rw [leadingOp?_of_startsPrimary he.starts_nextKind]
          exact hoperand mark hi he hstop

section Levels

variable {expr : Rule Expr} {n bound : Nat} (hexpr : AcceptsExpr n .expression expr)

include hexpr

theorem factor_accepts (hbound : n + 1 ≤ bound) : AcceptsExpr (n + 1) .factor (factor expr bound) := by
  intro i k e mark hi h hstop
  rw [factor, kind_bind, TokenStream.kind_current_mk]
  cases h with
  | @creation t m p q _ ht hm hp hq =>
      rw [nextKind_cons, ht]
      change creation ⟨t :: m :: p :: q :: k, mark⟩ = _
      rw [creation, advance_bind, TokenStream.advance_cons, bind_of_ok (identifier_cons hm),
        bind_of_ok (expectIn_cons hp), bind_of_ok (expectIn_cons hq)]
      rfl
  | @conversion t p m c q i _ e ht hp hm hc he hq =>
      simp only [List.length_cons] at hi
      have hclose : Stops .expression (q :: k) := by rw [Stops, nextKind_cons, hq]; decide
      rw [nextKind_cons, ht]
      change conversion expr ⟨t :: p :: m :: c :: i, mark⟩ = _
      rw [conversion, advance_bind, TokenStream.advance_cons, bind_of_ok (expectIn_cons hp),
        bind_of_ok (identifier_cons hm), bind_of_ok (expectIn_cons hc),
        bind_of_ok (hexpr mark (by omega) he hclose), bind_of_ok (expectIn_cons hq)]
      rfl
  | unary he =>
      have hleading := leading_accepts (trailing_accepts hexpr (Nat.le_of_succ_le hbound)) hbound
      have hstart := he.starts_nextKind
      generalize hkind : nextKind i = kind at hstart ⊢
      split
      · exact absurd hstart (by decide)
      · exact absurd hstart (by decide)
      · exact hleading mark hi he hstop

end Levels

section Operators

variable {o : Operators} {operand : Rule Expr} {n bound : Nat}
  (hoperand : AcceptsExpr n o.tighter operand)

include hoperand

theorem joined_accepts {second : Rule Expr} (hsecond : AcceptsExpr (n - 1) o.rightOperand second)
    (hl : o.leftOperand = o.tighter) :
    AcceptsExpr n (.operators o) (joined o.op? operand second) := by
  intro i k e mark hi h hstop
  rw [joined, position_bind]
  cases h with
  | operand he =>
      rw [bind_of_ok (hoperand mark hi he hstop.tighter), kind_bind, TokenStream.kind_current_mk,
        op?_of_stops hstop]
      rfl
  | @binary _ op t u i j _ l r hleft hop hright =>
      rw [hl] at hleft
      have hlt := Nat.lt_of_lt_of_le hleft.length_lt hi
      simp only [List.length_cons] at hlt
      rw [bind_of_ok (hoperand mark hi hleft (stops_of_op? hop)), kind_bind,
        TokenStream.kind_current_mk, nextKind_cons, hop]
      change (advance >>= _) _ = _
      rw [advance_bind, TokenStream.advance_cons,
        bind_of_ok (hsecond mark (by omega) hright hstop.rightOperand)]
      rfl

theorem atMostOne_accepts (hl : o.leftOperand = o.tighter) (hr : o.rightOperand = o.tighter) :
    AcceptsExpr n (.operators o) (atMostOne o.op? operand) := by
  rw [atMostOne_eq_joined]
  exact joined_accepts hoperand (hr ▸ hoperand.mono (Nat.sub_le n 1)) hl

theorem chainRight_accepts (hl : o.leftOperand = o.tighter) (hr : o.rightOperand = .operators o)
    (hbound : n ≤ bound) : AcceptsExpr n (.operators o) (chainRight o.op? operand bound) := by
  induction bound generalizing n with
  | zero =>
      intro i k e mark hi h hstop
      have := h.length_lt
      omega
  | succ bound ih =>
      rw [chainRight_succ]
      refine joined_accepts hoperand ?_ hl
      rw [hr]
      exact ih (hoperand.mono (Nat.sub_le n 1)) (by omega)

theorem chainLeft_eq_moreLeft (hl : o.leftOperand = .operators o) (hr : o.rightOperand = o.tighter)
    {d : Nat} {t : Token} {i k : List Token} {e : Expr} (mark : EndMark)
    (hd : (t :: i).length ≤ k.length + d) (hi : (t :: i).length ≤ n)
    (hbound : (t :: i).length ≤ bound)
    (h : DerivesExpr Token.position (.level (.operators o)) (t :: i) k e)
    (hstop : Stops o.tighter k) :
    ∃ b, k.length ≤ b ∧ chainLeft o.op? operand bound ⟨t :: i, mark⟩ =
      moreLeft o.op? operand t.position b e ⟨k, mark⟩ := by
  have hlt := h.length_lt
  induction d generalizing k e with
  | zero => omega
  | succ d ih =>
      cases h with
      | operand he =>
          refine ⟨bound, by omega, ?_⟩
          rw [chainLeft, position_bind, bind_of_ok (hoperand mark hi he hstop),
            TokenStream.current_cons]
      | @binary _ op _ u _ j _ l r hleft hop hright =>
          rw [hl] at hleft
          rw [hr] at hright
          have hlt' := hright.length_lt
          have hlt'' := hleft.length_lt
          simp only [List.length_cons] at hlt'' hd hi hbound
          obtain ⟨b, hb, hchain⟩ := ih (k := u :: j) (by simp only [List.length_cons]; omega) hleft
            (stops_of_op? hop) (by simp only [List.length_cons]; omega)
          cases b with
          | zero => simp at hb
          | succ b =>
              simp only [List.length_cons] at hb
              refine ⟨b, by omega, ?_⟩
              rw [hchain, moreLeft, kind_bind, TokenStream.kind_current_mk, nextKind_cons, hop]
              change (advance >>= _) _ = _
              rw [advance_bind, TokenStream.advance_cons,
                bind_of_ok (hoperand mark (by omega) hright hstop)]

theorem chainLeft_accepts (hl : o.leftOperand = .operators o) (hr : o.rightOperand = o.tighter)
    (hbound : n ≤ bound) : AcceptsExpr n (.operators o) (chainLeft o.op? operand bound) := by
  intro i k e mark hi h hstop
  cases i with
  | nil =>
      have := h.length_lt
      simp at this
  | cons t i =>
      obtain ⟨b, hb, hchain⟩ := chainLeft_eq_moreLeft hoperand hl hr mark (Nat.le_add_left _ _) hi
        (Nat.le_trans hi hbound) h hstop.tighter
      rw [hchain]
      cases b with
      | zero => rfl
      | succ b =>
          rw [moreLeft, kind_bind, TokenStream.kind_current_mk, op?_of_stops hstop]
          rfl

end Operators

section Assignment

variable {expr : Rule Expr} {n bound : Nat} (hexpr : AcceptsExpr n .expression expr)

include hexpr

theorem disjunction_accepts (hbound : n + 1 ≤ bound) :
    AcceptsExpr (n + 1) (.operators .disjunction) (disjunction expr bound) := by
  have hproduct : AcceptsExpr (n + 1) (.operators .product) (product expr bound) :=
    chainRight_accepts (o := .product) (factor_accepts hexpr hbound) rfl rfl hbound
  have hsum : AcceptsExpr (n + 1) (.operators .sum) (sum expr bound) :=
    chainRight_accepts (o := .sum) hproduct rfl rfl hbound
  have hrelation : AcceptsExpr (n + 1) (.operators .relation) (relation expr bound) :=
    atMostOne_accepts (o := .relation) hsum rfl rfl
  have hequality : AcceptsExpr (n + 1) (.operators .equality) (equality expr bound) :=
    atMostOne_accepts (o := .equality) hrelation rfl rfl
  have hconjunction : AcceptsExpr (n + 1) (.operators .conjunction) (conjunction expr bound) :=
    chainLeft_accepts (o := .conjunction) hequality rfl rfl hbound
  exact chainLeft_accepts (o := .disjunction) hconjunction rfl rfl hbound

theorem assignment_accepts (hbound : n + 1 ≤ bound) :
    AcceptsExpr (n + 1) .expression (assignment expr bound) := by
  intro i k e mark hi h hstop
  rw [assignment, position_bind]
  cases h with
  | disjunction he =>
      rw [bind_of_ok (disjunction_accepts hexpr hbound mark hi he (hstop.mono (by decide)))]
      cases e with
      | var p r name =>
          have hassign : nextKind k ≠ .symbol .assign := by
            intro hk
            rw [Stops, hk] at hstop
            exact absurd hstop (by decide)
          change (kind >>= _) _ = _
          rw [kind_bind, TokenStream.kind_current_mk, if_neg hassign]
          rfl
      | _ => rfl
  | @assignment t a i j _ p r name v hleft ha hvalue =>
      have hlt := Nat.lt_of_lt_of_le hleft.length_lt hi
      simp only [List.length_cons] at hlt
      have hequals : Stops (.operators .disjunction) (a :: j) := by
        rw [Stops, nextKind_cons, ha]
        decide
      rw [bind_of_ok (disjunction_accepts hexpr hbound mark hi hleft hequals)]
      change (kind >>= _) _ = _
      rw [kind_bind, TokenStream.kind_current_mk, nextKind_cons, if_pos ha, advance_bind,
        TokenStream.advance_cons, bind_of_ok (hexpr mark (by omega) hvalue hstop)]
      rfl

end Assignment

theorem expression_accepts {n bound : Nat} (hbound : n ≤ bound) :
    AcceptsExpr n .expression (expression bound) := by
  induction n generalizing bound with
  | zero =>
      intro i k e mark hi h _
      have := h.length_lt
      omega
  | succ n ih =>
      cases bound with
      | zero => omega
      | succ bound => exact assignment_accepts (ih (Nat.le_of_succ_le_succ hbound)) hbound

end Grammar

end ClassLang
