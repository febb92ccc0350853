import ClassLang.Proofs.Rule.Lockstep
/-!
Rules without a bound. A script says what a rule does, token by token, and calls procedures by name,
as often as it likes and also from inside themselves; an evaluation of it is a finite derivation.
Each derivation stands below a limit, and a call lowers the limit: what it runs has fewer tokens
pending, or no more of them and a procedure of a lower rank. Main statements: an evaluation has one
result (`Evaluates.unique`), and a procedure that an evaluation enters inside one of no higher rank,
such as itself, has fewer tokens pending (`Evaluates.length_lt_of_enters`).
-/

namespace ClassLang

/-- What a rule does: it looks at the current token, takes it, calls a procedure, and ends with a
result or with a complaint about the current token. -/
inductive Script (C : Type → Type 1) (α : Type) : Type 1 where
  | done (x : α)
  | fail (cause : Cause)
  | look (k : Token → Script C α)
  | take (k : Token → Script C α)
  | invoke {β : Type} (c : C β) (k : β → Script C α)

namespace Script

variable {C : Type → Type 1} {α β : Type}

protected def bind : Script C α → (α → Script C β) → Script C β
  | .done x, f => f x
  | .fail cause, _ => .fail cause
  | .look k, f => .look fun t => (k t).bind f
  | .take k, f => .take fun t => (k t).bind f
  | .invoke c k, f => .invoke c fun y => (k y).bind f

instance : Monad (Script C) where
  pure := .done
  bind := .bind

def current : Script C Token :=
  .look .done

def kind : Script C TokenKind :=
  .look fun t => .done t.kind

def position : Script C Position :=
  .look fun t => .done t.position

def advance : Script C Token :=
  .take .done

def reject (cause : Cause) : Script C α :=
  .fail cause

def call (c : C α) : Script C α :=
  .invoke c .done

def unexpected (wanted : String) : Script C α := do
  let token ← current
  reject (.expected wanted token.display)

def expectOr (wanted : TokenKind) (cause : Cause) : Script C Token := do
  if (← kind) = wanted then advance else reject cause

def expect (wanted : TokenKind) : Script C Token := do
  let token ← current
  expectOr wanted (.expected wanted.describe token.display)

def expectIn (wanted : TokenKind) (construct : String) : Script C Token :=
  expectOr wanted (.missing construct wanted.describe)

def identifier : Script C String := do
  let token ← expect .identifier
  return token.value

end Script

/-- The procedures that scripts call, with a rank for each. -/
structure Procedures (C : Type → Type 1) where
  body : {α : Type} → C α → Script C α
  rank : {α : Type} → C α → Nat

/-- So many pending tokens and such a rank are below others. -/
def Below (n i n' i' : Nat) : Prop :=
  n < n' ∨ n ≤ n' ∧ i < i'

theorem Below.trans {n i n' i' n'' i'' : Nat} (h : Below n i n' i') (h' : Below n' i' n'' i'') :
    Below n i n'' i'' := by
  unfold Below at *
  omega

namespace Procedures

variable {C : Type → Type 1} (P : Procedures C)

/-- The script, run at the stream and below the limit, takes so many tokens from the source and
ends so. -/
inductive Evaluates : Nat → Nat → {α : Type} → Script C α → TokenStream → Nat →
    EStateM.Result Diagnostic TokenStream α → Prop
  | done {n i : Nat} {α : Type} {x : α} {s : TokenStream} : Evaluates n i (.done x) s 0 (.ok x s)
  | fail {n i : Nat} {α : Type} {cause : Cause} {s : TokenStream} :
      Evaluates n i (.fail cause : Script C α) s 0 (.error ⟨cause, s.current.position⟩ s)
  | look {n i : Nat} {α : Type} {k : Token → Script C α} {s : TokenStream} {pulls : Nat}
      {o : EStateM.Result Diagnostic TokenStream α} :
      Evaluates n i (k s.current) s pulls o → Evaluates n i (.look k) s pulls o
  | take {n i : Nat} {α : Type} {k : Token → Script C α} {s : TokenStream} {pulls : Nat}
      {o : EStateM.Result Diagnostic TokenStream α} :
      Evaluates n i (k s.current) s.advance pulls o → Evaluates n i (.take k) s (pulls + 1) o
  | invoke {n i : Nat} {α β : Type} {c : C β} {k : β → Script C α} {s s₁ : TokenStream} {y : β}
      {pulls pulls' : Nat} {o : EStateM.Result Diagnostic TokenStream α} :
      Below s.pending.length (P.rank c) n i →
      Evaluates s.pending.length (P.rank c) (P.body c) s pulls (.ok y s₁) →
      Evaluates n i (k y) s₁ pulls' o → Evaluates n i (.invoke c k) s (pulls + pulls') o
  | invokeFail {n i : Nat} {α β : Type} {c : C β} {k : β → Script C α} {s s₁ : TokenStream}
      {d : Diagnostic} {pulls : Nat} :
      Below s.pending.length (P.rank c) n i →
      Evaluates s.pending.length (P.rank c) (P.body c) s pulls (.error d s₁) →
      Evaluates n i (.invoke c k) s pulls (.error d s₁)

/-- The script, run at the first stream, enters the procedure at the second one, by a call of its
own or inside one. -/
inductive Enters : {α : Type} → Script C α → TokenStream → {β : Type} → C β → TokenStream → Prop
  | here {α β : Type} {c : C β} {k : β → Script C α} {s : TokenStream} : Enters (.invoke c k) s c s
  | inside {α β γ : Type} {c : C β} {k : β → Script C α} {d : C γ} {s s' : TokenStream} :
      Enters (P.body c) s d s' → Enters (.invoke c k) s d s'
  | after {n i : Nat} {α β γ : Type} {c : C β} {k : β → Script C α} {d : C γ}
      {s s₁ s' : TokenStream} {y : β} {pulls : Nat} :
      P.Evaluates n i (P.body c) s pulls (.ok y s₁) → Enters (k y) s₁ d s' →
      Enters (.invoke c k) s d s'
  | look {α γ : Type} {k : Token → Script C α} {d : C γ} {s s' : TokenStream} :
      Enters (k s.current) s d s' → Enters (.look k) s d s'
  | take {α γ : Type} {k : Token → Script C α} {d : C γ} {s s' : TokenStream} :
      Enters (k s.current) s.advance d s' → Enters (.take k) s d s'

variable {P}

namespace Evaluates

variable {n i : Nat} {α β : Type} {x : Script C α} {s : TokenStream}
  {pulls pulls' : Nat} {o : EStateM.Result Diagnostic TokenStream α}

theorem unique {n' i' : Nat} {o' : EStateM.Result Diagnostic TokenStream α}
    (h : P.Evaluates n i x s pulls o) (h' : P.Evaluates n' i' x s pulls' o') :
    pulls' = pulls ∧ o' = o := by
  induction h generalizing n' i' pulls' with
  | done =>
      cases h'
      exact ⟨rfl, rfl⟩
  | fail =>
      cases h'
      exact ⟨rfl, rfl⟩
  | look _ ih =>
      cases h' with
      | look h' => exact ih h'
  | take _ ih =>
      cases h' with
      | take h' =>
          obtain ⟨rfl, rfl⟩ := ih h'
          exact ⟨rfl, rfl⟩
  | invoke _ _ _ ih ihk =>
      cases h' with
      | invoke _ h' hk' =>
          obtain ⟨rfl, hy⟩ := ih h'
          cases hy
          obtain ⟨rfl, rfl⟩ := ihk hk'
          exact ⟨rfl, rfl⟩
      | invokeFail _ h' => cases (ih h').2
  | invokeFail _ _ ih =>
      cases h' with
      | invoke _ h' _ => cases (ih h').2
      | invokeFail _ h' =>
          obtain ⟨rfl, hd⟩ := ih h'
          cases hd
          exact ⟨rfl, rfl⟩

theorem suffix (h : P.Evaluates n i x s pulls o) : (Rule.left o).pending <:+ s.pending := by
  induction h with
  | done => exact List.suffix_rfl
  | fail => exact List.suffix_rfl
  | look _ ih => exact ih
  | take _ ih => exact ih.trans (List.tail_suffix _)
  | invoke _ _ _ ih ihk => exact ihk.trans ih
  | invokeFail _ _ ih => exact ih

section Sequence

variable {f : α → Script C β} {s₁ : TokenStream}

theorem bind {y : α} {o' : EStateM.Result Diagnostic TokenStream β}
    (h : P.Evaluates n i x s pulls (.ok y s₁)) (hf : P.Evaluates n i (f y) s₁ pulls' o') :
    P.Evaluates n i (x >>= f) s (pulls + pulls') o' := by
  induction x generalizing s pulls with
  | done x =>
      cases h
      rw [Nat.zero_add]
      exact hf
  | fail cause => cases h
  | look k ih =>
      cases h with
      | look h => exact .look (ih _ h)
  | take k ih =>
      cases h with
      | take h =>
          rw [Nat.add_right_comm]
          exact .take (ih _ h)
  | invoke c k ih =>
      cases h with
      | invoke hbelow hc hk =>
          rw [Nat.add_assoc]
          exact .invoke hbelow hc (ih _ hk)

theorem bind_error {d : Diagnostic} (h : P.Evaluates n i x s pulls (.error d s₁)) :
    P.Evaluates n i (x >>= f) s pulls (.error d s₁) := by
  induction x generalizing s pulls with
  | done x => cases h
  | fail cause =>
      cases h
      exact .fail
  | look k ih =>
      cases h with
      | look h => exact .look (ih _ h)
  | take k ih =>
      cases h with
      | take h => exact .take (ih _ h)
  | invoke c k ih =>
      cases h with
      | invoke hbelow hc hk => exact .invoke hbelow hc (ih _ hk)
      | invokeFail hbelow hc => exact .invokeFail hbelow hc

theorem of_bind {y : β} {s' : TokenStream} (h : P.Evaluates n i (x >>= f) s pulls (.ok y s')) :
    ∃ z s₁ m m', P.Evaluates n i x s m (.ok z s₁) ∧ P.Evaluates n i (f z) s₁ m' (.ok y s') := by
  induction x generalizing s pulls with
  | done z => exact ⟨z, s, _, _, .done, h⟩
  | fail cause => cases h
  | look k ih =>
      cases h with
      | look h =>
          obtain ⟨z, s₁, m, m', hz, hy⟩ := ih _ h
          exact ⟨z, s₁, m, m', .look hz, hy⟩
  | take k ih =>
      cases h with
      | take h =>
          obtain ⟨z, s₁, m, m', hz, hy⟩ := ih _ h
          exact ⟨z, s₁, m + 1, m', .take hz, hy⟩
  | invoke c k ih =>
      cases h with
      | invoke hbelow hc hk =>
          obtain ⟨z, s₁, m, m', hz, hy⟩ := ih _ hk
          exact ⟨z, s₁, _, m', .invoke hbelow hc hz, hy⟩

end Sequence

theorem of_invoke {γ : Type} {c : C γ} {k : γ → Script C α}
    (h : P.Evaluates n i (.invoke c k) s pulls o) :
    Below s.pending.length (P.rank c) n i ∧
      ∃ pulls' o', P.Evaluates s.pending.length (P.rank c) (P.body c) s pulls' o' := by
  cases h with
  | invoke hbelow hc _ => exact ⟨hbelow, _, _, hc⟩
  | invokeFail hbelow hc => exact ⟨hbelow, _, _, hc⟩

/-- A procedure that is entered is itself evaluated, below the limit. -/
theorem of_enters {γ : Type} {d : C γ} {s' : TokenStream} (h : P.Evaluates n i x s pulls o)
    (henters : P.Enters x s d s') :
    Below s'.pending.length (P.rank d) n i ∧
      ∃ pulls' o', P.Evaluates s'.pending.length (P.rank d) (P.body d) s' pulls' o' := by
  induction henters generalizing n i pulls with
  | here => exact h.of_invoke
  | inside _ ih =>
      obtain ⟨hbelow, _, _, hc⟩ := h.of_invoke
      obtain ⟨hbelow', hd⟩ := ih hc
      exact ⟨hbelow'.trans hbelow, hd⟩
  | after hc _ ih =>
      cases h with
      | invoke _ hc' hk =>
          cases (hc'.unique hc).2
          exact ih hk
      | invokeFail _ hc' => cases (hc'.unique hc).2
  | look _ ih =>
      cases h with
      | look h => exact ih h
  | take _ ih =>
      cases h with
      | take h => exact ih h

theorem length_lt_of_enters {γ δ : Type} {c : C γ} {d : C δ} {s₁ s₂ : TokenStream}
    (h : P.Evaluates n i x s pulls o) (h₁ : P.Enters x s c s₁)
    (h₂ : P.Enters (P.body c) s₁ d s₂) (hrank : P.rank c ≤ P.rank d) :
    s₂.pending.length < s₁.pending.length := by
  obtain ⟨-, _, _, hc⟩ := h.of_enters h₁
  rcases (hc.of_enters h₂).1 with hlt | ⟨-, hlt⟩
  · exact hlt
  · exact absurd hlt (Nat.not_lt.2 hrank)

end Evaluates

end Procedures

end ClassLang
