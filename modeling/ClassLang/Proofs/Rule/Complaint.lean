import ClassLang.Proofs.Rule.Script
/-!
What scripts complain of. A script is followed along all its ways, whatever tokens it finds and
whatever the procedures return that it calls. Main statement: if the bodies of the procedures that
are called complain only as they may, then so does every evaluation that fails, about the token that
it stops at (`Evaluates.of_error`).
-/

namespace ClassLang

namespace TokenStream

/-- All tokens of the stream have the property, and so has its end mark. -/
def All (p : Token → Prop) (s : TokenStream) : Prop :=
  (∀ t ∈ s.pending, p t) ∧ p s.endMark.token

namespace All

variable {p : Token → Prop} {s : TokenStream}

theorem current (h : s.All p) : p s.current := by
  obtain ⟨pending, mark⟩ := s
  cases pending with
  | nil => exact h.2
  | cons t ts => exact h.1 t List.mem_cons_self

theorem advance (h : s.All p) : s.advance.All p :=
  ⟨fun t ht => h.1 t (List.mem_of_mem_tail ht), h.2⟩

theorem ofTokens {body : List Token} {stop : Token} (file : String)
    (hstop : stop.kind = .endOfInput) (h : ∀ t ∈ body ++ [stop], p t) :
    (TokenStream.ofTokens (body ++ [stop]) file).All p := by
  refine ⟨h, ?_⟩
  have hmark : (TokenStream.ofTokens (body ++ [stop]) file).endMark.token = stop := by
    rw [TokenStream.ofTokens, List.getLast?_concat, TokenStream.ofTokens.markAfter, if_pos hstop]
    obtain ⟨kind, value, span⟩ := stop
    cases hstop
    rfl
  rw [hmark]
  exact h stop (by simp)

end All

end TokenStream

/--
What is taken for granted when scripts are followed: a property of all tokens, one of all calls, and
what may be said of a token.
-/
structure Terms (C : Type → Type 1) where
  token : Token → Prop
  call : {α : Type} → C α → Prop
  may : Token → Cause → Prop

namespace Script

variable {C : Type → Type 1} {α β : Type}

/-- Begun at this token, the script makes such calls only, and says of a token only what it may. -/
def Complains (T : Terms C) : Token → Script C α → Prop
  | _, .done _ => True
  | t, .fail cause => T.may t cause
  | t, .look k => (k t).Complains T t
  | t, .take k => ∀ t', T.token t' → (k t).Complains T t'
  | _, .invoke c k => T.call c ∧ ∀ y t', T.token t' → (k y).Complains T t'

namespace Complains

variable {T : Terms C} {t : Token} {x : Script C α} {f : α → Script C β}

theorem pure (y : α) : Complains T t (Pure.pure y : Script C α) :=
  trivial

theorem bind (ht : T.token t) (hx : x.Complains T t)
    (hf : ∀ y t', T.token t' → (f y).Complains T t') : (x >>= f).Complains T t := by
  induction x generalizing t with
  | done y => exact hf y t ht
  | fail cause => exact hx
  | look k ih => exact ih t ht hx
  | take k ih => exact fun t' ht' => ih t ht' (hx t' ht')
  | invoke c k ih => exact ⟨hx.1, fun y t' ht' => ih y ht' (hx.2 y t' ht')⟩

theorem current {g : Token → Script C β} (h : (g t).Complains T t) :
    (Script.current >>= g).Complains T t :=
  h

theorem kind {g : TokenKind → Script C β} (h : (g t.kind).Complains T t) :
    (Script.kind >>= g).Complains T t :=
  h

theorem position {g : Position → Script C β} (h : (g t.position).Complains T t) :
    (Script.position >>= g).Complains T t :=
  h

theorem advance {g : Token → Script C β} (h : ∀ t', T.token t' → (g t).Complains T t') :
    (Script.advance >>= g).Complains T t :=
  h

theorem call {c : C α} (h : T.call c) : (Script.call c).Complains T t :=
  ⟨h, fun y _ _ => pure y⟩

theorem bind_call {c : C α} (h : T.call c) (hf : ∀ y t', T.token t' → (f y).Complains T t') :
    (Script.call c >>= f).Complains T t :=
  ⟨h, hf⟩

theorem expectOr {wanted : TokenKind} {cause : Cause} (h : T.may t cause) :
    (Script.expectOr wanted cause : Script C Token).Complains T t := by
  refine kind ?_
  split
  · exact fun _ _ => pure t
  · exact h

end Complains

end Script

namespace Procedures.Evaluates

variable {C : Type → Type 1} {P : Procedures C} {T : Terms C} {n i : Nat} {α : Type}
  {x : Script C α} {s : TokenStream} {pulls : Nat} {o : EStateM.Result Diagnostic TokenStream α}

theorem all_left {p : Token → Prop} (h : P.Evaluates n i x s pulls o) (hs : s.All p) :
    (Rule.left o).All p := by
  induction h with
  | done => exact hs
  | fail => exact hs
  | look _ ih => exact ih hs
  | take _ ih => exact ih hs.advance
  | invoke _ _ _ ih ihk => exact ihk (ih hs)
  | invokeFail _ _ ih => exact ih hs

theorem of_error
    (hbody : ∀ {β : Type} (c : C β) (t : Token), T.call c → T.token t → (P.body c).Complains T t)
    (h : P.Evaluates n i x s pulls o) (hs : s.All T.token) (hx : x.Complains T s.current) :
    ∀ d s', o = .error d s' →
      T.token s'.current ∧ d.position = s'.current.position ∧ T.may s'.current d.cause := by
  induction h with
  | done => exact nofun
  | fail =>
      rintro d s' ⟨⟩
      exact ⟨hs.current, rfl, hx⟩
  | look _ ih => exact ih hs hx
  | take _ ih => exact ih hs.advance (hx _ hs.advance.current)
  | @invoke n i α β c k s s₁ y pulls pulls' o _ hc _ _ ihk =>
      have hs₁ : s₁.All T.token := hc.all_left hs
      exact ihk hs₁ (hx.2 y _ hs₁.current)
  | @invokeFail n i α β c k s s₁ d pulls _ _ ih =>
      rintro d' s' ⟨⟩
      exact ih hs (hbody c _ hx.1 hs.current) d s₁ rfl

end Procedures.Evaluates

end ClassLang
