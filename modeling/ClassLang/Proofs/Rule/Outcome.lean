import ClassLang.Grammar.Rule
/-!
Outcomes of rules: what a sequence of steps ends with, and what the single steps do. Main statement:
a token that is not an end mark is the first pending one (`TokenStream.pending_eq_cons`).
-/

namespace ClassLang

/-- The kind of the first token of a list, which is an end mark where there is none. -/
def nextKind : List Token → TokenKind
  | [] => .endOfInput
  | t :: _ => t.kind

@[simp] theorem nextKind_nil : nextKind [] = .endOfInput := rfl

@[simp] theorem nextKind_cons (t : Token) (ts : List Token) : nextKind (t :: ts) = t.kind := rfl

theorem nextKind_append {κ : TokenKind} {u k k' : List Token}
    (h : nextKind k' = κ → nextKind k = κ) : nextKind (u ++ k') = κ → nextKind (u ++ k) = κ := by
  cases u with
  | nil => exact h
  | cons t u => exact id

namespace TokenStream

theorem kind_current (s : TokenStream) : s.current.kind = nextKind s.pending := by
  obtain ⟨pending, mark⟩ := s
  cases pending <;> rfl

theorem kind_current_mk (k : List Token) (mark : EndMark) :
    (TokenStream.mk k mark).current.kind = nextKind k :=
  kind_current _

theorem pending_eq_cons {s : TokenStream} (h : s.current.kind ≠ .endOfInput) :
    s.pending = s.current :: s.advance.pending := by
  obtain ⟨pending, mark⟩ := s
  cases pending with
  | nil => exact absurd rfl h
  | cons t ts => rfl

theorem pending_eq_cons_of_ne_nil {s : TokenStream} (h : s.pending ≠ []) :
    s.pending = s.current :: s.advance.pending := by
  obtain ⟨pending, mark⟩ := s
  cases pending with
  | nil => exact absurd rfl h
  | cons t ts => rfl

theorem current_kind_of_pending_nil {s : TokenStream} (h : s.pending.length = 0) :
    s.current.kind = .endOfInput := by
  rw [kind_current, List.length_eq_zero_iff.1 h, nextKind_nil]

end TokenStream

namespace Rule

variable {α β : Type}

theorem bind_eq_ok {r : Rule α} {f : α → Rule β} {s s' : TokenStream} {y : β} :
    (r >>= f) s = .ok y s' ↔ ∃ x s₁, r s = .ok x s₁ ∧ f x s₁ = .ok y s' := by
  change (EStateM.bind r f) s = _ ↔ _
  rw [EStateM.bind]
  cases r s with
  | ok x s₁ =>
      constructor
      · intro h; exact ⟨x, s₁, rfl, h⟩
      · rintro ⟨_, _, ⟨⟩, h⟩; exact h
  | error d s₁ => simp

theorem bind_eq_error {r : Rule α} {f : α → Rule β} {s s' : TokenStream} {d : Diagnostic} :
    (r >>= f) s = .error d s' ↔
      r s = .error d s' ∨ ∃ x s₁, r s = .ok x s₁ ∧ f x s₁ = .error d s' := by
  change (EStateM.bind r f) s = _ ↔ _
  rw [EStateM.bind]
  cases r s with
  | ok x s₁ =>
      constructor
      · intro h; exact .inr ⟨x, s₁, rfl, h⟩
      · rintro (⟨⟨⟩⟩ | ⟨_, _, ⟨⟩, h⟩); exact h
  | error e s₁ => simp

theorem bind_of_ok {r : Rule α} {f : α → Rule β} {s s₁ : TokenStream} {x : α}
    (h : r s = .ok x s₁) : (r >>= f) s = f x s₁ := by
  change (EStateM.bind r f) s = _
  rw [EStateM.bind, h]

theorem bind_of_error {r : Rule α} {f : α → Rule β} {s s₁ : TokenStream} {d : Diagnostic}
    (h : r s = .error d s₁) : (r >>= f) s = .error d s₁ := by
  change (EStateM.bind r f) s = _
  rw [EStateM.bind, h]

theorem map_of_ok {r : Rule α} {f : α → β} {s s₁ : TokenStream} {x : α} (h : r s = .ok x s₁) :
    (f <$> r) s = .ok (f x) s₁ := by
  change (EStateM.map f r) s = _
  rw [EStateM.map, h]

theorem map_of_error {r : Rule α} {f : α → β} {s s₁ : TokenStream} {d : Diagnostic}
    (h : r s = .error d s₁) : (f <$> r) s = .error d s₁ := by
  change (EStateM.map f r) s = _
  rw [EStateM.map, h]

section Steps

variable (s : TokenStream)

@[simp] theorem reject_apply (cause : Cause) :
    (reject cause : Rule α) s = .error ⟨cause, s.current.position⟩ s := rfl

@[simp] theorem kind_bind (f : TokenKind → Rule β) : (kind >>= f) s = f s.current.kind s := rfl

@[simp] theorem current_bind (f : Token → Rule β) : (current >>= f) s = f s.current s := rfl

@[simp] theorem position_bind (f : Position → Rule β) :
    (position >>= f) s = f s.current.position s := rfl

@[simp] theorem advance_bind (f : Token → Rule β) :
    (advance >>= f) s = f s.current s.advance := rfl

theorem expectOr_apply (wanted : TokenKind) (cause : Cause) :
    expectOr wanted cause s =
      if s.current.kind = wanted then .ok s.current s.advance
      else .error ⟨cause, s.current.position⟩ s := by
  rw [expectOr, kind_bind]
  split <;> rfl

end Steps

section Expect

variable {s s' : TokenStream} {wanted : TokenKind} {cause : Cause} {t : Token}

theorem expectOr_eq_ok :
    expectOr wanted cause s = .ok t s' ↔
      s.current.kind = wanted ∧ t = s.current ∧ s' = s.advance := by
  rw [expectOr_apply]
  split <;> simp_all [eq_comm]

theorem expectOr_eq_error {d : Diagnostic} :
    expectOr wanted cause s = .error d s' ↔
      s.current.kind ≠ wanted ∧ d = ⟨cause, s.current.position⟩ ∧ s' = s := by
  rw [expectOr_apply]
  split <;> simp_all [eq_comm]

theorem pending_of_expectOr (h : expectOr wanted cause s = .ok t s')
    (hwanted : wanted ≠ .endOfInput) : s.pending = t :: s'.pending ∧ t.kind = wanted := by
  obtain ⟨hkind, rfl, rfl⟩ := expectOr_eq_ok.1 h
  exact ⟨TokenStream.pending_eq_cons (hkind ▸ hwanted), hkind⟩

theorem pending_of_expectIn {construct : String} (h : expectIn wanted construct s = .ok t s')
    (hwanted : wanted ≠ .endOfInput) : s.pending = t :: s'.pending ∧ t.kind = wanted :=
  pending_of_expectOr h hwanted

theorem pending_of_identifier {name : String} (h : identifier s = .ok name s') :
    ∃ t : Token, s.pending = t :: s'.pending ∧ t.kind = .identifier ∧ name = t.value := by
  obtain ⟨t, s₁, ht, hname⟩ := bind_eq_ok.1 h
  cases hname
  obtain ⟨hs, hkind⟩ := pending_of_expectOr (s := s) ht (by simp)
  exact ⟨t, hs, hkind, rfl⟩

theorem expectOr_cons {k : List Token} {mark : EndMark} (h : t.kind = wanted) :
    expectOr wanted cause ⟨t :: k, mark⟩ = .ok t ⟨k, mark⟩ :=
  expectOr_eq_ok.2 ⟨h, rfl, rfl⟩

theorem expectIn_cons {construct : String} {k : List Token} {mark : EndMark}
    (h : t.kind = wanted) : expectIn wanted construct ⟨t :: k, mark⟩ = .ok t ⟨k, mark⟩ :=
  expectOr_cons h

theorem identifier_cons {k : List Token} {mark : EndMark} (h : t.kind = .identifier) :
    identifier ⟨t :: k, mark⟩ = .ok t.value ⟨k, mark⟩ := by
  have ht : expect .identifier ⟨t :: k, mark⟩ = .ok t ⟨k, mark⟩ := expectOr_cons h
  rw [identifier, bind_of_ok ht]
  rfl

end Expect

end Rule

end ClassLang
