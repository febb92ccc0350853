import ClassLang.Proofs.Grammar.Unbounded
import ClassLang.Proofs.Rule.Agreement
import ClassLang.Proofs.Rule.Repetition
/-!
The bounded rules for expressions are the procedures without bounds. A rule whose bound has run out
stands at the end mark, where the procedure says the same of it. Main statement: the rule for
expressions is its procedure on streams with no more tokens than its bound (`expression_realizes`).
-/

namespace ClassLang

namespace Grammar

open Procedures

variable {m b : Nat}

section Loops

variable {α : Type} {item : Call α} {r : Rule α}

theorem afterCommas_realizes (hitem : procedures.Realizes m item r) (hb : m ≤ b) :
    procedures.Realizes (m + 1) (.afterCommas item) (Rule.afterCommas r b) := by
  induction b generalizing m with
  | zero =>
      intro s hs
      have hend := TokenStream.current_kind_of_pending_nil (s := s) (by omega)
      exact Agrees.kind_of_eq hend (Agrees.pure [])
  | succ b ih =>
      intro s hs
      refine Agrees.kind ?_
      split
      · next hcomma =>
          have hlt := TokenStream.length_advance_lt (s := s) (by simp [hcomma])
          have hrest := ih (hitem.mono (Nat.sub_le m 1)) (by omega)
          refine Agrees.advance ?_
          refine Agrees.bind (Agrees.call hitem (by omega) (.inl hlt)) fun _ _ _ hle => ?_
          refine Agrees.bind (Agrees.call hrest (by omega) (.inl (by omega))) fun _ _ _ _ => ?_
          exact Agrees.pure _
      · exact Agrees.pure []

theorem inParens_agrees {i : Nat} {s : TokenStream} (hitem : procedures.Realizes m item r)
    (hb : m ≤ b + 1) (hs : s.pending.length < m) (hrank : procedures.rank item < i) :
    procedures.Agrees s.pending.length i (Unbounded.inParens item) (Rule.inParens r b) s := by
  refine Agrees.position (Agrees.kind ?_)
  split
  · exact Agrees.pure _
  · have hrest := afterCommas_realizes (b := b) (hitem.mono (Nat.sub_le m 1)) (by omega)
    have hzero : procedures.rank (.afterCommas item) < i := Nat.zero_lt_of_lt hrank
    refine Agrees.bind (Agrees.call_of_rank hitem hs hrank) fun _ _ _ hle => ?_
    refine Agrees.bind (Agrees.call hrest (by omega) (.inr ⟨hle, hzero⟩)) fun _ _ _ _ => ?_
    exact Agrees.pure _

section Consuming

variable (hitem : procedures.Realizes m item r)
  (hconsumes : procedures.Consumes (procedures.body item))

include hitem hconsumes

theorem length_lt_of_item {s s' : TokenStream} {x : α} (hs : s.pending.length < m)
    (hend : s.current.kind ≠ .endOfInput) (hx : r s = .ok x s') :
    s'.pending.length < s.pending.length := by
  obtain ⟨pulls, h⟩ := hitem s hs
  rw [hx] at h
  exact hconsumes h (by rw [TokenStream.pending_eq_cons hend]; simp)

variable (hb : m ≤ b + 1)

include hb

theorem toCloseBrace_realizes (construct : String) :
    procedures.Realizes m (.toCloseBrace construct item) (Rule.toCloseBrace construct r b) := by
  induction b generalizing m with
  | zero =>
      intro s hs
      have hend := TokenStream.current_kind_of_pending_nil (s := s) (by omega)
      exact Agrees.kind_of_eq hend (Agrees.reject _)
  | succ b ih =>
      intro s hs
      refine Agrees.kind ?_
      generalize hkind : s.current.kind = κ
      have hmore (hend : κ ≠ .endOfInput) :
          procedures.Agrees s.pending.length (procedures.rank (.toCloseBrace construct item))
            (do
              let first ← Script.call item
              let rest ← Script.call (.toCloseBrace construct item)
              return first :: rest)
            (do
              let first ← r
              let rest ← Rule.toCloseBrace construct r b
              return first :: rest) s := by
        have hrest := ih (hitem.mono (Nat.sub_le m 1)) (by omega)
        refine Agrees.bind (Agrees.call_of_rank hitem hs (Nat.lt_succ_self _)) fun _ _ hx _ => ?_
        have hlt := length_lt_of_item hitem hconsumes hs (hkind ▸ hend) hx
        refine Agrees.bind (Agrees.call hrest (by omega) (.inl hlt)) fun _ _ _ _ => ?_
        exact Agrees.pure _
      cases κ with
      | endOfInput => exact Agrees.reject _
      | symbol x =>
          cases x with
          | closeBrace => exact Agrees.advance (Agrees.pure [])
          | _ => exact hmore nofun
      | _ => exact hmore nofun

theorem toEndOfInput_realizes :
    procedures.Realizes m (.toEndOfInput item) (toEndOfInput r b) := by
  induction b generalizing m with
  | zero =>
      intro s hs
      have hend := TokenStream.current_kind_of_pending_nil (s := s) (by omega)
      exact Agrees.kind_of_eq hend (Agrees.pure [])
  | succ b ih =>
      intro s hs
      refine Agrees.kind ?_
      split
      · exact Agrees.pure []
      · next hend =>
          have hrest := ih (hitem.mono (Nat.sub_le m 1)) (by omega)
          refine Agrees.bind
            (Agrees.call_of_rank hitem hs (Nat.lt_succ_self _)) fun _ _ hx _ => ?_
          have hlt := length_lt_of_item hitem hconsumes hs hend hx
          refine Agrees.bind (Agrees.call hrest (by omega) (.inl hlt)) fun _ _ _ _ => ?_
          exact Agrees.pure _

end Consuming

end Loops

section Operators

theorem length_advance_lt_of_op {ω : Type} {op : ω} {op? : TokenKind → Option ω}
    {s : TokenStream} (hend : op? .endOfInput = none) (hop : op? s.current.kind = some op) :
    s.advance.pending.length < s.pending.length := by
  refine TokenStream.length_advance_lt fun hkind => ?_
  rw [hkind, hend] at hop
  cases hop

variable {op? : TokenKind → Option BinaryOp} {operand : Call Expr} {r : Rule Expr}

theorem moreLeft_realizes (hend : op? .endOfInput = none) (p : Position)
    (hoperand : procedures.Realizes m operand r) (hb : m ≤ b) (left : Expr) :
    procedures.Realizes (m + 1) (.moreLeft op? operand p left) (moreLeft op? r p b left) := by
  induction b generalizing m left with
  | zero =>
      intro s hs
      have hkind := TokenStream.current_kind_of_pending_nil (s := s) (by omega)
      refine Agrees.kind_of_eq hkind ?_
      rw [hend]
      exact Agrees.pure left
  | succ b ih =>
      intro s hs
      refine Agrees.kind ?_
      cases hop : op? s.current.kind with
      | none => exact Agrees.pure left
      | some op =>
          have hlt := length_advance_lt_of_op hend hop
          have hrest := ih (hoperand.mono (Nat.sub_le m 1)) (by omega)
          refine Agrees.advance ?_
          refine Agrees.bind (Agrees.call hoperand (by omega) (.inl hlt)) fun _ _ _ hle => ?_
          exact Agrees.call (hrest _) (by omega) (.inl (by omega))

variable {s : TokenStream} {i : Nat}

theorem chainLeft_agrees (hend : op? .endOfInput = none)
    (hoperand : procedures.Realizes (m + 1) operand r) (hb : m ≤ b) (hs : s.pending.length ≤ m)
    (hrank : procedures.rank operand < i) :
    procedures.Agrees s.pending.length i (Unbounded.chainLeft op? operand) (chainLeft op? r b)
      s := by
  refine Agrees.position ?_
  refine Agrees.bind (Agrees.call_of_rank hoperand (by omega) hrank) fun left _ _ hle => ?_
  have hrest := moreLeft_realizes hend s.current.position (hoperand.mono (Nat.le_succ m)) hb left
  exact Agrees.call hrest (by omega) (.inr ⟨hle, Nat.zero_lt_of_lt hrank⟩)

theorem joined_agrees {second : Call Expr} {r' : Rule Expr} (hend : op? .endOfInput = none)
    (hoperand : procedures.Realizes m operand r) (hsecond : procedures.Realizes (m - 1) second r')
    (hs : s.pending.length < m) (hrank : procedures.rank operand < i) :
    procedures.Agrees s.pending.length i (Unbounded.joined op? operand second)
      (joined op? r r') s := by
  refine Agrees.position ?_
  refine Agrees.bind (Agrees.call_of_rank hoperand hs hrank) fun left s₁ _ hle => ?_
  refine Agrees.kind ?_
  cases hop : op? s₁.current.kind with
  | none => exact Agrees.pure left
  | some op =>
      have hlt := length_advance_lt_of_op hend hop
      refine Agrees.advance ?_
      refine Agrees.bind (Agrees.call hsecond (by omega) (.inl (by omega))) fun _ _ _ _ => ?_
      exact Agrees.pure _

theorem joined_of_pending_nil {r' : Rule Expr} (hend : op? .endOfInput = none)
    (hr : ∀ {x : Expr} {s₁ : TokenStream}, r s = .ok x s₁ → s₁.pending.length = 0) :
    joined op? r r' s = r s := by
  rw [joined, Rule.position_bind]
  cases hx : r s with
  | ok x s₁ =>
      have hkind := TokenStream.current_kind_of_pending_nil (hr hx)
      rw [Rule.bind_of_ok hx, Rule.kind_bind, hkind, hend]
      rfl
  | error d s₁ => exact Rule.bind_of_error hx

/-- The procedure that reads operands between operators grouped to the right. -/
theorem chainRight_realizes {c : Call Expr} (hend : op? .endOfInput = none)
    (hbody : procedures.body c = Unbounded.joined op? operand c)
    (hrank : procedures.rank operand < procedures.rank c)
    (hoperand : procedures.Realizes m operand r) (hb : m ≤ b + 1) :
    procedures.Realizes m c (chainRight op? r b) := by
  induction b generalizing m with
  | zero =>
      intro s hs
      have hnone := (Realizes.zero (P := procedures) c r).mono (Nat.sub_le_of_le_add hb)
      have hjoined := joined_agrees hend hoperand hnone hs hrank
      have hnil : joined op? r r s = r s := by
        refine joined_of_pending_nil hend fun hx => ?_
        have hle := (hoperand s hs).length_le hx
        omega
      rw [hbody]
      rw [Agrees, hnil] at hjoined
      exact hjoined
  | succ b ih =>
      intro s hs
      have hsecond := ih (hoperand.mono (Nat.sub_le m 1)) (by omega)
      rw [hbody]
      exact joined_agrees hend hoperand hsecond hs hrank

end Operators

section Expressions

theorem creation_realizes : procedures.Realizes m .creation creation := by
  intro s _
  refine Agrees.advance (Agrees.bind_identifier fun _ _ _ => ?_)
  refine Agrees.bind_expectIn (by simp) fun _ _ _ => ?_
  exact Agrees.bind_expectIn (by simp) fun _ _ _ => Agrees.pure _

theorem integerConstant_agrees {n i : Nat} {s : TokenStream} :
    procedures.Agrees n i Unbounded.integerConstant integerConstant s := by
  refine Agrees.current ?_
  cases readInteger? s.current.value.toList with
  | none => exact Agrees.reject _
  | some value => exact Agrees.advance (Agrees.pure _)

variable {expr : Rule Expr} {s : TokenStream} {n i : Nat}

variable (hexpr : procedures.Realizes m .expression expr)

section

include hexpr

theorem conversion_realizes : procedures.Realizes (m + 1) .conversion (conversion expr) := by
  intro s hs
  refine Agrees.advance (Agrees.bind_expectIn (by simp) fun _ _ hlt => ?_)
  have hle := s.length_advance_le
  refine Agrees.bind_identifier fun _ _ hlt' => Agrees.bind_expectIn (by simp) fun _ _ hlt'' => ?_
  refine Agrees.bind (Agrees.call hexpr (by omega) (.inl (by omega))) fun _ _ _ _ => ?_
  exact Agrees.bind_expectIn (by simp) fun _ _ _ => Agrees.pure _

theorem parenthesized_agrees (hend : s.current.kind ≠ .endOfInput) (hs : s.pending.length ≤ m)
    (hn : s.pending.length ≤ n) :
    procedures.Agrees n i Unbounded.parenthesized (parenthesized expr) s := by
  have hlt := TokenStream.length_advance_lt hend
  refine Agrees.advance ?_
  refine Agrees.bind (Agrees.call hexpr (by omega) (.inl (by omega))) fun _ _ _ _ => ?_
  exact Agrees.bind_expectIn (by simp) fun _ _ _ => Agrees.pure _

end

theorem arguments_realizes (hexpr : procedures.Realizes m .expression expr) (hb : m ≤ b + 1) :
    procedures.Realizes m .arguments (arguments expr b) :=
  fun _ hs => inParens_agrees hexpr hb hs (by decide)

variable (hb : m ≤ b)

include hexpr hb

theorem varOrCall_agrees (p : Position) (reference : Option Expr) (hs : s.pending.length ≤ m)
    (hn : s.pending.length ≤ n) :
    procedures.Agrees n i (Unbounded.varOrCall p reference) (varOrCall expr b p reference) s := by
  refine Agrees.bind_identifier fun name s₁ hlt => Agrees.kind ?_
  split
  · next hkind =>
      have hlt' := TokenStream.length_advance_lt (s := s₁) (by simp [hkind])
      have hlist := arguments_realizes hexpr (Nat.le_succ_of_le hb)
      refine Agrees.advance ?_
      refine Agrees.bind (Agrees.call hlist (by omega) (.inl (by omega))) fun _ _ _ _ => ?_
      exact Agrees.bind_expectIn (by simp) fun _ _ _ => Agrees.pure _
  · exact Agrees.pure _

theorem qualified_agrees (hs : s.pending.length ≤ m) (hn : s.pending.length ≤ n) :
    procedures.Agrees n i Unbounded.qualified (qualified expr b) s := by
  have hle := s.length_advance_le
  refine Agrees.advance (Agrees.current ?_)
  refine Agrees.bind_expectOr (by simp) fun _ _ hlt => ?_
  exact varOrCall_agrees hexpr hb _ _ (by omega) (by omega)

theorem primary_realizes : procedures.Realizes (m + 1) .primary (primary expr b) := by
  intro s hs
  have hle : s.pending.length ≤ m := by omega
  refine Agrees.current ?_
  generalize hkind : s.current.kind = κ
  cases κ with
  | symbol x =>
      cases x with
      | openParen => exact parenthesized_agrees hexpr (by simp [hkind]) hle (Nat.le_refl _)
      | _ => exact Agrees.unexpected _
  | integer => exact integerConstant_agrees
  | boolean => exact Agrees.advance (Agrees.pure _)
  | string => exact Agrees.advance (Agrees.pure _)
  | keyword k =>
      cases k with
      | kwThis => exact qualified_agrees hexpr hb hle (Nat.le_refl _)
      | kwSuper => exact qualified_agrees hexpr hb hle (Nat.le_refl _)
      | _ => exact Agrees.unexpected _
  | identifier => exact varOrCall_agrees hexpr hb _ _ hle (Nat.le_refl _)
  | endOfInput => exact Agrees.unexpected _

theorem trailing_realizes : procedures.Realizes (m + 1) .trailing (trailing expr b) := by
  intro s hs
  have hprimary := primary_realizes hexpr hb
  refine Agrees.position ?_
  refine Agrees.bind (Agrees.call_of_rank hprimary hs (by decide)) fun _ s₁ _ _ => ?_
  refine Agrees.kind ?_
  cases trailingOp? s₁.current.kind with
  | none => exact Agrees.pure _
  | some op => exact Agrees.advance (Agrees.pure _)

omit hexpr hb in
theorem leading_realizes {operand : Rule Expr}
    (hoperand : procedures.Realizes m .trailing operand) (hb : m ≤ b + 1) :
    procedures.Realizes m .leading (leading operand b) := by
  induction b generalizing m with
  | zero =>
      intro s hs
      have hend := TokenStream.current_kind_of_pending_nil (s := s) (by omega)
      exact Agrees.kind_of_eq hend (Agrees.call_of_rank hoperand hs (by decide))
  | succ b ih =>
      intro s hs
      refine Agrees.kind ?_
      cases hop : leadingOp? s.current.kind with
      | none => exact Agrees.call_of_rank hoperand hs (by decide)
      | some op =>
          have hlt := length_advance_lt_of_op rfl hop
          have hinner := ih (hoperand.mono (Nat.sub_le m 1)) (by omega)
          refine Agrees.advance ?_
          refine Agrees.bind (Agrees.call hinner (by omega) (.inl hlt)) fun _ _ _ _ => ?_
          exact Agrees.pure _

theorem factor_realizes : procedures.Realizes (m + 1) .factor (factor expr b) := by
  intro s hs
  have hleading := Agrees.call_of_rank (i := procedures.rank .factor)
    (leading_realizes (trailing_realizes hexpr hb) (Nat.succ_le_succ hb)) hs (by decide)
  refine Agrees.kind ?_
  cases s.current.kind with
  | keyword k =>
      cases k with
      | kwNew => exact Agrees.call_of_rank creation_realizes hs (by decide)
      | kwCast => exact Agrees.call_of_rank (conversion_realizes hexpr) hs (by decide)
      | _ => exact hleading
  | _ => exact hleading

theorem product_realizes : procedures.Realizes (m + 1) .product (product expr b) :=
  chainRight_realizes rfl rfl (by decide) (factor_realizes hexpr hb) (Nat.succ_le_succ hb)

theorem sum_realizes : procedures.Realizes (m + 1) .sum (sum expr b) :=
  chainRight_realizes rfl rfl (by decide) (product_realizes hexpr hb) (Nat.succ_le_succ hb)

theorem relation_realizes : procedures.Realizes (m + 1) .relation (relation expr b) := by
  intro s hs
  have hsum := sum_realizes hexpr hb
  exact joined_agrees rfl hsum (hsum.mono (Nat.le_succ m)) hs (by decide)

theorem equality_realizes : procedures.Realizes (m + 1) .equality (equality expr b) := by
  intro s hs
  have hrelation := relation_realizes hexpr hb
  exact joined_agrees rfl hrelation (hrelation.mono (Nat.le_succ m)) hs (by decide)

theorem conjunction_realizes : procedures.Realizes (m + 1) .conjunction (conjunction expr b) :=
  fun _ hs => chainLeft_agrees rfl (equality_realizes hexpr hb) hb (by omega) (by decide)

theorem disjunction_realizes : procedures.Realizes (m + 1) .disjunction (disjunction expr b) :=
  fun _ hs => chainLeft_agrees rfl (conjunction_realizes hexpr hb) hb (by omega) (by decide)

theorem assignment_realizes : procedures.Realizes (m + 1) .expression (assignment expr b) := by
  intro s hs
  have hleft := disjunction_realizes hexpr hb
  refine Agrees.position ?_
  refine Agrees.bind (Agrees.call_of_rank hleft hs (by decide)) fun left s₁ _ hle => ?_
  cases left with
  | var q reference name =>
      refine Agrees.kind ?_
      split
      · next hkind =>
          have hlt := TokenStream.length_advance_lt (s := s₁) (by simp [hkind])
          refine Agrees.advance ?_
          refine Agrees.bind (Agrees.call hexpr (by omega) (.inl (by omega))) fun _ _ _ _ => ?_
          exact Agrees.pure _
      · exact Agrees.pure _
  | _ => exact Agrees.pure _

omit hexpr hb in
theorem expression_realizes (b : Nat) :
    procedures.Realizes (b + 1) .expression (expression b) := by
  induction b with
  | zero =>
      intro s hs
      obtain ⟨pending, mark⟩ := s
      obtain rfl := List.length_eq_zero_iff.1 (Nat.lt_one_iff.1 hs)
      exact assignment_realizes (.zero Call.expression (expression 0)) (Nat.le_refl 0) _ hs
  | succ b ih => exact assignment_realizes ih (Nat.le_refl _)

end Expressions

end Grammar

end ClassLang
