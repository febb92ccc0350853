import ClassLang.Grammar.Declaration
import ClassLang.Proofs.Rule.Outcome
/-!
Forms of phrases, and how far a rule gets with one. A rule follows a form if what it takes is a
phrase of the form where it succeeds, and can be made one by further tokens where it fails. Main
statement: rules in sequence follow forms in sequence (`Follows.bind`).

What comes after a phrase matters in one respect only: an `else` there can undo the phrase.
-/

namespace ClassLang

namespace Grammar

open Rule

/-- An `else` comes next at the second place only if one does at the first. -/
def NoNewElse (k k' : List Token) : Prop :=
  nextKind k' = .keyword .kwElse → nextKind k = .keyword .kwElse

theorem NoNewElse.append {k k' : List Token} (h : NoNewElse k k') (u : List Token) :
    NoNewElse (u ++ k) (u ++ k') :=
  nextKind_append h

/-- A form of phrases, given by the two places that a phrase stands between. Some phrase of the form
can be put before anything that does not begin with `else`, and does not begin with `else` there. -/
structure Form where
  span : List Token → List Token → Prop
  productive : ∃ w, ∀ k, nextKind k ≠ .keyword .kwElse →
    nextKind (w ++ k) ≠ .keyword .kwElse ∧ span (w ++ k) k

namespace Form

/-- The tokens from the first place up to the second are a phrase, also before anything else that
brings no new `else`. -/
def Completed (L : Form) (i k : List Token) : Prop :=
  ∃ u, i = u ++ k ∧ ∀ k', NoNewElse k k' → L.span (u ++ k') k'

/-- The tokens from the first place up to the second begin a phrase, which some others complete. -/
def Begun (L : Form) (i k : List Token) : Prop :=
  ∃ u w, i = u ++ k ∧ ∀ k', nextKind k' ≠ .keyword .kwElse →
    NoNewElse i (u ++ (w ++ k')) ∧ L.span (u ++ (w ++ k')) k'

def andThen (A B : Form) : Form where
  span i k := ∃ j, A.span i j ∧ B.span j k
  productive := by
    rcases A.productive with ⟨v, hv⟩
    rcases B.productive with ⟨w, hw⟩
    refine ⟨v ++ w, fun k hk => ?_⟩
    obtain ⟨helse, hB⟩ := hw k hk
    obtain ⟨helse, hA⟩ := hv (w ++ k) helse
    rw [List.append_assoc]
    exact ⟨helse, w ++ k, hA, hB⟩

def token (κ : TokenKind) (h : κ ≠ .keyword .kwElse) : Form where
  span i k := ∃ t : Token, t.kind = κ ∧ i = t :: k
  productive := ⟨[⟨κ, "", .empty .null⟩], fun _ _ => ⟨h, ⟨κ, "", .empty .null⟩, rfl, rfl⟩⟩

def symbol (x : Symbol) : Form :=
  token (.symbol x) nofun

def identifier : Form :=
  token .identifier nofun

/-- A form that the empty phrase has, where no `else` follows it. -/
def lax (span : List Token → List Token → Prop)
    (h : ∀ k, nextKind k ≠ .keyword .kwElse → span k k) : Form where
  span := span
  productive := ⟨[], fun k hk => ⟨hk, h k hk⟩⟩

section

variable {L M A B : Form} {i i₁ j k u : List Token}

theorem Completed.mono (h : M.Completed i k) (hL : ∀ i k, M.span i k → L.span i k) :
    L.Completed i k := by
  rcases h with ⟨u, hu, hM⟩
  exact ⟨u, hu, fun k' hk' => hL _ _ (hM k' hk')⟩

theorem Begun.mono (h : M.Begun i k) (hL : ∀ i k, M.span i k → L.span i k) : L.Begun i k := by
  rcases h with ⟨u, w, hu, hM⟩
  exact ⟨u, w, hu, fun k' hk' => ⟨(hM k' hk').1, hL _ _ (hM k' hk').2⟩⟩

theorem Completed.after (h : M.Completed i₁ k) (hu : i = u ++ i₁)
    (hL : ∀ i k, NoNewElse i₁ i → M.span i k → L.span (u ++ i) k) : L.Completed i k := by
  rcases h with ⟨v, rfl, hM⟩
  refine ⟨u ++ v, by simp [hu], fun k' hk' => ?_⟩
  rw [List.append_assoc]
  exact hL _ _ (hk'.append v) (hM k' hk')

theorem Begun.after (h : M.Begun i₁ k) (hu : i = u ++ i₁)
    (hL : ∀ i k, NoNewElse i₁ i → M.span i k → L.span (u ++ i) k) : L.Begun i k := by
  rcases h with ⟨v, w, rfl, hM⟩
  refine ⟨u ++ v, w, by simp [hu], fun k' hk' => ?_⟩
  obtain ⟨helse, hspan⟩ := hM k' hk'
  rw [List.append_assoc, hu]
  exact ⟨helse.append u, hL _ _ helse hspan⟩

theorem Begun.andThen (h : A.Begun i k) (B : Form) : (A.andThen B).Begun i k := by
  rcases h with ⟨u, w, hu, hA⟩
  rcases B.productive with ⟨v, hv⟩
  refine ⟨u, w ++ v, hu, fun k' hk' => ?_⟩
  obtain ⟨helse, hB⟩ := hv k' hk'
  obtain ⟨helse, hA⟩ := hA (v ++ k') helse
  rw [List.append_assoc]
  exact ⟨helse, v ++ k', hA, hB⟩

theorem begun_self (L : Form) (i : List Token) : L.Begun i i := by
  rcases L.productive with ⟨w, hw⟩
  refine ⟨[], w, rfl, fun k' hk' => ?_⟩
  obtain ⟨helse, hspan⟩ := hw k' hk'
  exact ⟨fun h => absurd h helse, hspan⟩

end

end Form

variable {α β : Type} {L M A B : Form} {s : TokenStream}

/-- From this stream on the rule completes a phrase or, if it fails, has begun one. -/
def Follows (L : Form) (r : Rule α) (s : TokenStream) : Prop :=
  match r s with
  | .ok _ s' => L.Completed s.pending s'.pending
  | .error _ s' => L.Begun s.pending s'.pending

namespace Follows

variable {r : Rule α} {f : α → Rule β}

theorem of_ok {s' : TokenStream} {x : α} (h : r s = .ok x s')
    (hL : L.Completed s.pending s'.pending) : Follows L r s := by
  rw [Follows, h]
  exact hL

theorem of_error {s' : TokenStream} {d : Diagnostic} (h : r s = .error d s')
    (hL : L.Begun s.pending s'.pending) : Follows L r s := by
  rw [Follows, h]
  exact hL

theorem completed {s' : TokenStream} {x : α} (h : Follows L r s) (hr : r s = .ok x s') :
    L.Completed s.pending s'.pending := by
  rw [Follows, hr] at h
  exact h

theorem begun {s' : TokenStream} {d : Diagnostic} (h : Follows L r s) (hr : r s = .error d s') :
    L.Begun s.pending s'.pending := by
  rw [Follows, hr] at h
  exact h

theorem mono (h : Follows M r s) (hL : ∀ i k, M.span i k → L.span i k) : Follows L r s := by
  cases hr : r s with
  | ok x s' => exact of_ok hr ((h.completed hr).mono hL)
  | error d s' => exact of_error hr ((h.begun hr).mono hL)

theorem pure (x : α) (h : ∀ k, NoNewElse s.pending k → L.span k k) :
    Follows L (Pure.pure x : Rule α) s :=
  of_ok rfl ⟨[], rfl, h⟩

theorem reject (cause : Cause) : Follows L (Rule.reject cause : Rule α) s :=
  of_error rfl (L.begun_self s.pending)

theorem unexpected (wanted : String) : Follows L (Rule.unexpected wanted : Rule α) s :=
  of_error rfl (L.begun_self s.pending)

theorem current {g : Token → Rule β} (h : Follows L (g s.current) s) :
    Follows L (Rule.current >>= g) s :=
  h

theorem kind {g : TokenKind → Rule β} (h : Follows L (g s.current.kind) s) :
    Follows L (Rule.kind >>= g) s :=
  h

theorem position {g : Position → Rule β} (h : Follows L (g s.current.position) s) :
    Follows L (Rule.position >>= g) s :=
  h

theorem after {s₁ : TokenStream} {x : α} {u : List Token} (hr : r s = .ok x s₁)
    (hu : s.pending = u ++ s₁.pending)
    (hL : ∀ i k, NoNewElse s₁.pending i → M.span i k → L.span (u ++ i) k)
    (hf : Follows M (f x) s₁) : Follows L (r >>= f) s := by
  cases h : f x s₁ with
  | ok y s' =>
      rw [← bind_of_ok (f := f) hr] at h
      exact of_ok h ((hf.completed ((bind_of_ok hr).symm.trans h)).after hu hL)
  | error d s' =>
      rw [← bind_of_ok (f := f) hr] at h
      exact of_error h ((hf.begun ((bind_of_ok hr).symm.trans h)).after hu hL)

theorem advance {g : Token → Rule β} (hkind : s.current.kind ≠ .endOfInput)
    (hL : ∀ i k, M.span i k → L.span (s.current :: i) k)
    (hg : Follows M (g s.current) s.advance) : Follows L (Rule.advance >>= g) s :=
  after (u := [s.current]) rfl (TokenStream.pending_eq_cons hkind) (fun i k _ => hL i k) hg

theorem advance_pure {g : Token → β} (hkind : s.current.kind ≠ .endOfInput)
    (hL : ∀ k, L.span (s.current :: k) k) :
    Follows L (Rule.advance >>= fun t => Pure.pure (g t)) s :=
  of_ok rfl ⟨[s.current], TokenStream.pending_eq_cons hkind, fun k _ => hL k⟩

theorem bind (hr : Follows A r s) (hf : ∀ x s', Follows B (f x) s') :
    Follows (A.andThen B) (r >>= f) s := by
  cases h : r s with
  | ok x s₁ =>
      obtain ⟨u, hu, hA⟩ := hr.completed h
      exact after h hu (fun i k hi hspan => ⟨i, hA i hi, hspan⟩) (hf x s₁)
  | error d s₁ => exact of_error (bind_of_error h) ((hr.begun h).andThen B)

theorem bind_pure {g : α → β} (hr : Follows L r s) :
    Follows L (r >>= fun x => Pure.pure (g x)) s := by
  cases h : r s with
  | ok x s₁ => exact of_ok (bind_of_ok h) (hr.completed h)
  | error d s₁ => exact of_error (bind_of_error h) (hr.begun h)

section Expect

theorem expectOr {wanted : TokenKind} (cause : Cause) (hend : wanted ≠ .endOfInput)
    (helse : wanted ≠ .keyword .kwElse) :
    Follows (.token wanted helse) (expectOr wanted cause) s := by
  cases h : Rule.expectOr wanted cause s with
  | ok t s' =>
      obtain ⟨hs, ht⟩ := pending_of_expectOr h hend
      exact of_ok h ⟨[t], hs, fun k' _ => ⟨t, ht, rfl⟩⟩
  | error d s' =>
      obtain ⟨-, -, rfl⟩ := expectOr_eq_error.1 h
      exact of_error h (Form.begun_self _ _)

theorem symbol {x : Symbol} {construct : String} :
    Follows (.symbol x) (expectIn (.symbol x) construct) s :=
  expectOr _ (by simp) (by simp)

theorem identifier : Follows .identifier identifier s := by
  have hexpect : Follows .identifier (Rule.expect .identifier) s :=
    expectOr (s := s) _ (by simp) (by simp)
  exact bind_pure hexpect

end Expect

section Repetition

variable {I : Form} {item : Rule α} {bound : Nat}

theorem afterCommas (hitem : ∀ s, Follows I item s) (hnil : ∀ k, L.span k k)
    (hcons : ∀ {c : Token} {i j k : List Token}, c.kind = .symbol .comma → I.span i j →
      L.span j k → L.span (c :: i) k) : Follows L (afterCommas item bound) s := by
  induction bound generalizing s with
  | zero => exact pure [] fun k _ => hnil k
  | succ bound ih =>
      refine kind ?_
      split
      · next hcomma =>
          refine advance (by simp [hcomma]) ?_ (bind (hitem _) fun _ _ => bind_pure ih)
          rintro i k ⟨j, hi, hj⟩
          exact hcons hcomma hi hj
      · exact pure [] fun k _ => hnil k

theorem inParens (hitem : ∀ s, Follows I item s)
    (hmore : ∀ s, Follows M (Rule.afterCommas item bound) s) (hnil : ∀ k, L.span k k)
    (hcons : ∀ {i j k : List Token}, I.span i j → M.span j k → L.span i k) :
    Follows L (inParens item bound) s := by
  refine position (kind ?_)
  split
  · exact pure _ fun k _ => hnil k
  · refine (bind (hitem s) fun _ _ => bind_pure (hmore _)).mono ?_
    rintro i k ⟨j, hi, hj⟩
    exact hcons hi hj

theorem toCloseBrace {construct : String} (hitem : ∀ s, Follows I item s)
    (hnil : ∀ k, L.span k k)
    (hcons : ∀ {i j k : List Token}, I.span i j → L.span j k → L.span i k) :
    Follows (L.andThen (.symbol .closeBrace)) (toCloseBrace construct item bound) s := by
  induction bound generalizing s with
  | zero => exact reject _
  | succ bound ih =>
      refine kind ?_
      generalize hkind : s.current.kind = κ
      split
      · exact advance_pure (by simp [hkind]) fun k => ⟨_, hnil _, s.current, hkind, rfl⟩
      · exact reject _
      · refine (bind (hitem s) fun _ _ => bind_pure ih).mono ?_
        rintro i k ⟨j, hi, j', hj, hz⟩
        exact ⟨j', hcons hi hj, hz⟩

theorem toEndOfInput (hitem : ∀ s, Follows I item s) (hnil : ∀ k, L.span k k)
    (hcons : ∀ {i j k : List Token}, I.span i j → L.span j k → L.span i k) :
    Follows L (toEndOfInput item bound) s := by
  induction bound generalizing s with
  | zero => exact pure [] fun k _ => hnil k
  | succ bound ih =>
      refine kind ?_
      split
      · exact pure [] fun k _ => hnil k
      · refine (bind (hitem s) fun _ _ => bind_pure ih).mono ?_
        rintro i k ⟨j, hi, hj⟩
        exact hcons hi hj

end Repetition

end Follows

end Grammar

end ClassLang
