import ClassLang.Proofs.Rule.Script
/-!
Rules and scripts step by step. A rule agrees with a script at a stream if the script evaluates to
what the rule gives there. Main statements: agreement goes through sequences (`Agrees.bind`) and
through calls (`Agrees.call`); a script whose first step takes a token ends, if it succeeds, with
fewer tokens pending (`Consumes`).
-/

namespace ClassLang

theorem TokenStream.length_advance_lt {s : TokenStream} (h : s.current.kind ≠ .endOfInput) :
    s.advance.pending.length < s.pending.length := by
  rw [TokenStream.pending_eq_cons h]
  exact Nat.lt_succ_self _

theorem TokenStream.length_advance_le (s : TokenStream) :
    s.advance.pending.length ≤ s.pending.length :=
  (List.tail_suffix s.pending).length_le

namespace Procedures

variable {C : Type → Type 1} (P : Procedures C) {α β : Type}

/-- The script, run at the stream and below the limit, ends as the rule does. -/
def Agrees (n i : Nat) (x : Script C α) (r : Rule α) (s : TokenStream) : Prop :=
  ∃ pulls, P.Evaluates n i x s pulls (r s)

/-- The rule is the procedure, on streams with fewer pending tokens than so many. -/
def Realizes (m : Nat) (c : C α) (r : Rule α) : Prop :=
  ∀ s : TokenStream, s.pending.length < m →
    P.Agrees s.pending.length (P.rank c) (P.body c) r s

/-- If the script succeeds on a stream with tokens in it, it has taken one. -/
def Consumes (x : Script C α) : Prop :=
  ∀ ⦃n i : Nat⦄ ⦃s s' : TokenStream⦄ ⦃pulls : Nat⦄ ⦃y : α⦄,
    P.Evaluates n i x s pulls (.ok y s') → s.pending ≠ [] → s'.pending.length < s.pending.length

variable {P}

theorem Realizes.mono {m m' : Nat} {c : C α} {r : Rule α} (h : P.Realizes m c r) (hm : m' ≤ m) :
    P.Realizes m' c r :=
  fun s hs => h s (Nat.lt_of_lt_of_le hs hm)

theorem Realizes.zero (c : C α) (r : Rule α) : P.Realizes 0 c r :=
  fun s hs => absurd hs (Nat.not_lt_zero s.pending.length)

namespace Agrees

variable {n i : Nat} {x : Script C α} {r : Rule α} {f : α → Script C β} {g : α → Rule β}
  {s : TokenStream}

theorem length_le {y : α} {s₁ : TokenStream} (h : P.Agrees n i x r s) (hr : r s = .ok y s₁) :
    s₁.pending.length ≤ s.pending.length := by
  obtain ⟨pulls, h⟩ := h
  rw [hr] at h
  exact h.suffix.length_le

theorem pure (y : α) : P.Agrees n i (Pure.pure y) (Pure.pure y) s :=
  ⟨0, .done⟩

theorem reject (cause : Cause) : P.Agrees n i (Script.reject cause : Script C α)
    (Rule.reject cause) s :=
  ⟨0, .fail⟩

theorem bind (h : P.Agrees n i x r s)
    (hf : ∀ y s₁, r s = .ok y s₁ → s₁.pending.length ≤ s.pending.length →
      P.Agrees n i (f y) (g y) s₁) : P.Agrees n i (x >>= f) (r >>= g) s := by
  have hle : ∀ y s₁, r s = .ok y s₁ → s₁.pending.length ≤ s.pending.length :=
    fun _ _ hr => h.length_le hr
  obtain ⟨pulls, h⟩ := h
  cases hr : r s with
  | ok y s₁ =>
      rw [hr] at h
      obtain ⟨pulls', hf⟩ := hf y s₁ hr (hle y s₁ hr)
      refine ⟨pulls + pulls', ?_⟩
      rw [Rule.bind_of_ok hr]
      exact h.bind hf
  | error d s₁ =>
      rw [hr] at h
      refine ⟨pulls, ?_⟩
      rw [Rule.bind_of_error hr]
      exact h.bind_error

theorem current {f : Token → Script C β} {g : Token → Rule β}
    (h : P.Agrees n i (f s.current) (g s.current) s) :
    P.Agrees n i (Script.current >>= f) (Rule.current >>= g) s := by
  obtain ⟨pulls, h⟩ := h
  exact ⟨pulls, .look h⟩

theorem kind {f : TokenKind → Script C β} {g : TokenKind → Rule β}
    (h : P.Agrees n i (f s.current.kind) (g s.current.kind) s) :
    P.Agrees n i (Script.kind >>= f) (Rule.kind >>= g) s := by
  obtain ⟨pulls, h⟩ := h
  exact ⟨pulls, .look h⟩

/-- Where the kind is known, the rule need not look at it. -/
theorem kind_of_eq {f : TokenKind → Script C β} {g : Rule β} {κ : TokenKind}
    (hkind : s.current.kind = κ) (h : P.Agrees n i (f κ) g s) :
    P.Agrees n i (Script.kind >>= f) g s := by
  subst hkind
  obtain ⟨pulls, h⟩ := h
  exact ⟨pulls, .look h⟩

theorem position {f : Position → Script C β} {g : Position → Rule β}
    (h : P.Agrees n i (f s.current.position) (g s.current.position) s) :
    P.Agrees n i (Script.position >>= f) (Rule.position >>= g) s := by
  obtain ⟨pulls, h⟩ := h
  exact ⟨pulls, .look h⟩

theorem advance {f : Token → Script C β} {g : Token → Rule β}
    (h : P.Agrees n i (f s.current) (g s.current) s.advance) :
    P.Agrees n i (Script.advance >>= f) (Rule.advance >>= g) s := by
  obtain ⟨pulls, h⟩ := h
  exact ⟨pulls + 1, .take h⟩

theorem map {f : α → β} (h : P.Agrees n i x r s) : P.Agrees n i (f <$> x) (f <$> r) s := by
  obtain ⟨pulls, h⟩ := h
  cases hr : r s with
  | ok y s₁ =>
      rw [hr] at h
      refine ⟨pulls + 0, ?_⟩
      rw [Rule.map_of_ok hr]
      exact h.bind .done
  | error d s₁ =>
      rw [hr] at h
      refine ⟨pulls, ?_⟩
      rw [Rule.map_of_error hr]
      exact h.bind_error

theorem call {c : C α} {m : Nat} (h : P.Realizes m c r) (hs : s.pending.length < m)
    (hbelow : Below s.pending.length (P.rank c) n i) : P.Agrees n i (Script.call c) r s := by
  obtain ⟨pulls, h⟩ := h s hs
  refine ⟨pulls, ?_⟩
  cases hr : r s with
  | ok y s₁ =>
      rw [hr] at h
      exact .invoke hbelow h .done
  | error d s₁ =>
      rw [hr] at h
      exact .invokeFail hbelow h

/-- A call where its caller started, of a procedure of a lower rank. -/
theorem call_of_rank {c : C α} {m : Nat} (h : P.Realizes m c r) (hs : s.pending.length < m)
    (hrank : P.rank c < i) : P.Agrees s.pending.length i (Script.call c) r s :=
  call h hs (.inr ⟨Nat.le_refl _, hrank⟩)

theorem unexpected (wanted : String) :
    P.Agrees n i (Script.unexpected wanted : Script C α) (Rule.unexpected wanted) s :=
  current (reject _)

theorem expectOr (wanted : TokenKind) (cause : Cause) :
    P.Agrees n i (Script.expectOr wanted cause) (Rule.expectOr wanted cause) s := by
  refine kind ?_
  split
  · exact ⟨1, .take .done⟩
  · exact reject cause

theorem expect (wanted : TokenKind) :
    P.Agrees n i (Script.expect wanted) (Rule.expect wanted) s :=
  current (expectOr _ _)

section Tokens

variable {f : Token → Script C β} {g : Token → Rule β} {wanted : TokenKind}

theorem bind_expectOr {cause : Cause} (hwanted : wanted ≠ .endOfInput)
    (h : ∀ t s₁, s₁.pending.length < s.pending.length → P.Agrees n i (f t) (g t) s₁) :
    P.Agrees n i (Script.expectOr wanted cause >>= f) (Rule.expectOr wanted cause >>= g) s := by
  refine bind (expectOr _ _) fun t s₁ ht _ => h t s₁ ?_
  rw [(Rule.pending_of_expectOr ht hwanted).1]
  exact Nat.lt_succ_self _

theorem bind_expectIn {construct : String} (hwanted : wanted ≠ .endOfInput)
    (h : ∀ t s₁, s₁.pending.length < s.pending.length → P.Agrees n i (f t) (g t) s₁) :
    P.Agrees n i (Script.expectIn wanted construct >>= f) (Rule.expectIn wanted construct >>= g)
      s :=
  bind_expectOr hwanted h

theorem bind_expect (hwanted : wanted ≠ .endOfInput)
    (h : ∀ t s₁, s₁.pending.length < s.pending.length → P.Agrees n i (f t) (g t) s₁) :
    P.Agrees n i (Script.expect wanted >>= f) (Rule.expect wanted >>= g) s := by
  refine bind (expect _) fun t s₁ ht _ => h t s₁ ?_
  rw [(Rule.pending_of_expectOr (s := s) ht hwanted).1]
  exact Nat.lt_succ_self _

end Tokens

theorem identifier : P.Agrees n i Script.identifier Rule.identifier s :=
  bind_expect (by simp) fun _ _ _ => pure _

theorem bind_identifier {f : String → Script C β} {g : String → Rule β}
    (h : ∀ name s₁, s₁.pending.length < s.pending.length → P.Agrees n i (f name) (g name) s₁) :
    P.Agrees n i (Script.identifier >>= f) (Rule.identifier >>= g) s := by
  refine bind identifier fun name s₁ hname _ => h name s₁ ?_
  obtain ⟨t, hs, -⟩ := Rule.pending_of_identifier hname
  rw [hs]
  exact Nat.lt_succ_self _

end Agrees

namespace Consumes

theorem map {x : Script C α} {f : α → β} (h : P.Consumes x) : P.Consumes (f <$> x) := by
  intro n i s s' pulls y hs hne
  obtain ⟨z, s₁, _, _, hz, hy⟩ := hs.of_bind
  exact Nat.lt_of_le_of_lt hy.suffix.length_le (h hz hne)

theorem reject (cause : Cause) : P.Consumes (Script.reject cause : Script C α) := by
  intro n i s s' pulls y h
  cases h

theorem current {f : Token → Script C β} (h : ∀ t, P.Consumes (f t)) :
    P.Consumes (Script.current >>= f) := by
  intro n i s s' pulls y hs hne
  cases hs with
  | look hs => exact h _ hs hne

theorem kind {f : TokenKind → Script C β} (h : ∀ κ, P.Consumes (f κ)) :
    P.Consumes (Script.kind >>= f) := by
  intro n i s s' pulls y hs hne
  cases hs with
  | look hs => exact h _ hs hne

theorem position {f : Position → Script C β} (h : ∀ p, P.Consumes (f p)) :
    P.Consumes (Script.position >>= f) := by
  intro n i s s' pulls y hs hne
  cases hs with
  | look hs => exact h _ hs hne

theorem advance (f : Token → Script C β) : P.Consumes (Script.advance >>= f) := by
  intro n i s s' pulls y hs hne
  cases hs with
  | take hs =>
      have hle := hs.suffix.length_le
      rw [TokenStream.pending_eq_cons_of_ne_nil hne]
      exact Nat.lt_succ_of_le hle

theorem unexpected (wanted : String) : P.Consumes (Script.unexpected wanted : Script C α) :=
  current fun _ => reject _

theorem bind {x : Script C α} {f : α → Script C β} (h : P.Consumes x) : P.Consumes (x >>= f) := by
  intro n i s s' pulls y hs hne
  obtain ⟨z, s₁, _, _, hz, hy⟩ := hs.of_bind
  exact Nat.lt_of_le_of_lt hy.suffix.length_le (h hz hne)

theorem call {c : C α} (h : P.Consumes (P.body c)) : P.Consumes (Script.call c) := by
  intro n i s s' pulls y hs hne
  cases hs with
  | invoke _ hc hk =>
      cases hk
      exact h hc hne

theorem expectOr (wanted : TokenKind) (cause : Cause) :
    P.Consumes (Script.expectOr wanted cause : Script C Token) := by
  refine kind fun κ => ?_
  split
  · exact advance Script.done
  · exact reject cause

theorem identifier : P.Consumes (Script.identifier : Script C String) :=
  bind (current fun _ => expectOr _ _)

end Consumes

end Procedures

end ClassLang
