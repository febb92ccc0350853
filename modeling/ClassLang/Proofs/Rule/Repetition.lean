import ClassLang.Grammar.Declaration
import ClassLang.Proofs.Rule.Outcome
/-!
Repetitions: what the rules that read items one after the other have read when they succeed. Each
statement builds a relation between two places in the tokens from what the single items satisfy.
Operands without a list of their own are read by one rule with two operands (`joined`).
-/

namespace ClassLang

namespace Rule

variable {α : Type} {item : Rule α} {P : List Token → List Token → List α → Prop}

theorem afterCommas_eq_ok {s s' : TokenStream} {xs : List α} {bound : Nat}
    (hnil : ∀ k, P k k [])
    (hcons : ∀ {c : Token} {s s' : TokenStream} {k : List Token} {x : α} {xs : List α},
      c.kind = .symbol .comma → item s = .ok x s' → P s'.pending k xs →
      P (c :: s.pending) k (x :: xs))
    (h : afterCommas item bound s = .ok xs s') : P s.pending s'.pending xs := by
  induction bound generalizing s xs with
  | zero =>
      cases h
      exact hnil _
  | succ bound ih =>
      rw [afterCommas, kind_bind] at h
      split at h
      · next hkind =>
          rw [advance_bind] at h
          obtain ⟨x, s₁, hx, h⟩ := bind_eq_ok.1 h
          obtain ⟨rest, s₂, hrest, h⟩ := bind_eq_ok.1 h
          cases h
          rw [TokenStream.pending_eq_cons (by simp [hkind])]
          exact hcons hkind hx (ih hrest)
      · cases h
        exact hnil _

theorem inParens_eq_ok {s s' : TokenStream} {l : NodeList α} {bound : Nat}
    (h : inParens item bound s = .ok l s') :
    l.position = s.current.position ∧
      ((l.items = [] ∧ s' = s) ∨
        ∃ x xs s₁, l.items = x :: xs ∧ item s = .ok x s₁ ∧ afterCommas item bound s₁ = .ok xs s') := by
  rw [inParens, position_bind, kind_bind] at h
  split at h
  · cases h
    exact ⟨rfl, .inl ⟨rfl, rfl⟩⟩
  · obtain ⟨x, s₁, hx, h⟩ := bind_eq_ok.1 h
    obtain ⟨xs, s₂, hxs, h⟩ := bind_eq_ok.1 h
    cases h
    exact ⟨rfl, .inr ⟨x, xs, s₁, rfl, hx, hxs⟩⟩

theorem toCloseBrace_eq_ok {construct : String} {s s' : TokenStream} {xs : List α} {bound : Nat}
    (hnil : ∀ k, P k k [])
    (hcons : ∀ {s s' : TokenStream} {k : List Token} {x : α} {xs : List α},
      s.current.kind ≠ .endOfInput → item s = .ok x s' → P s'.pending k xs →
      P s.pending k (x :: xs))
    (h : toCloseBrace construct item bound s = .ok xs s') :
    ∃ z : Token, z.kind = .symbol .closeBrace ∧ P s.pending (z :: s'.pending) xs := by
  induction bound generalizing s xs with
  | zero => cases h
  | succ bound ih =>
      rw [toCloseBrace, kind_bind] at h
      generalize hkind : s.current.kind = kind at h
      split at h
      · rw [advance_bind] at h
        cases h
        rw [TokenStream.pending_eq_cons (by simp [hkind])]
        exact ⟨s.current, hkind, hnil _⟩
      · cases h
      · next hend =>
          obtain ⟨x, s₁, hx, h⟩ := bind_eq_ok.1 h
          obtain ⟨rest, s₂, hrest, h⟩ := bind_eq_ok.1 h
          cases h
          obtain ⟨z, hz, hP⟩ := ih hrest
          exact ⟨z, hz, hcons (hkind ▸ hend) hx hP⟩

theorem toCloseBrace_of_forall {construct : String} {z : Token} {j k : List Token} {xs : List α}
    {mark : EndMark} {n bound : Nat} (hz : z.kind = .symbol .closeBrace)
    (hitems : ∀ {j : List Token} {xs : List α}, j.length ≤ n → P j (z :: k) xs →
      (j = z :: k ∧ xs = []) ∨ ∃ x ys j₁, xs = x :: ys ∧ nextKind j ≠ .symbol .closeBrace ∧
        nextKind j ≠ .endOfInput ∧ item ⟨j, mark⟩ = .ok x ⟨j₁, mark⟩ ∧ j₁.length < j.length ∧
          P j₁ (z :: k) ys)
    (hj : j.length ≤ n) (hbound : j.length ≤ bound) (h : P j (z :: k) xs) :
    toCloseBrace construct item bound ⟨j, mark⟩ = .ok xs ⟨k, mark⟩ := by
  induction bound generalizing j xs with
  | zero =>
      obtain ⟨rfl, -⟩ | ⟨x, ys, j₁, -, -, -, -, hlt, -⟩ := hitems hj h
      · simp at hbound
      · omega
  | succ bound ih =>
      rw [toCloseBrace, kind_bind, TokenStream.kind_current_mk]
      obtain ⟨rfl, rfl⟩ | ⟨x, ys, j₁, rfl, hbrace, hend, hx, hlt, hys⟩ := hitems hj h
      · rw [nextKind_cons, hz]
        rfl
      · generalize hkind : nextKind j = kind at hbrace hend
        split
        · exact absurd rfl hbrace
        · exact absurd rfl hend
        · rw [bind_of_ok hx, bind_of_ok (ih (by omega) (by omega) hys)]
          rfl

end Rule

namespace Grammar

open Rule

/-- One operand, or two with an operator between them, the second read by a rule of its own. -/
def joined (op? : TokenKind → Option BinaryOp) (operand second : Rule Expr) : Rule Expr := do
  let position ← position
  let left ← operand
  match op? (← kind) with
  | none => return left
  | some op =>
      let _ ← advance
      let right ← second
      return .binary position op left right

theorem atMostOne_eq_joined (op? : TokenKind → Option BinaryOp) (operand : Rule Expr) :
    atMostOne op? operand = joined op? operand operand :=
  rfl

theorem chainRight_succ (op? : TokenKind → Option BinaryOp) (operand : Rule Expr) (bound : Nat) :
    chainRight op? operand (bound + 1) = joined op? operand (chainRight op? operand bound) :=
  rfl

theorem toEndOfInput_eq_ok {α : Type} {item : Rule α} {P : List Token → List Token → List α → Prop}
    {s s' : TokenStream} {xs : List α} {bound : Nat} (hbound : s.pending.length ≤ bound)
    (hitem : ∀ {s s' : TokenStream} {x : α}, item s = .ok x s' →
      s'.pending.length < s.pending.length)
    (hnil : ∀ k, P k k [])
    (hcons : ∀ {s s' : TokenStream} {k : List Token} {x : α} {xs : List α},
      item s = .ok x s' → P s'.pending k xs → P s.pending k (x :: xs))
    (h : toEndOfInput item bound s = .ok xs s') :
    s'.current.kind = .endOfInput ∧ P s.pending s'.pending xs := by
  induction bound generalizing s xs with
  | zero =>
      cases h
      exact ⟨TokenStream.current_kind_of_pending_nil (by omega), hnil _⟩
  | succ bound ih =>
      rw [toEndOfInput, kind_bind] at h
      split at h
      · next hkind =>
          cases h
          exact ⟨hkind, hnil _⟩
      · obtain ⟨x, s₁, hx, h⟩ := bind_eq_ok.1 h
        obtain ⟨rest, s₂, hrest, h⟩ := bind_eq_ok.1 h
        cases h
        have hlt := hitem hx
        obtain ⟨hend, hP⟩ := ih (by omega) hrest
        exact ⟨hend, hcons hx hP⟩

end Grammar

end ClassLang
