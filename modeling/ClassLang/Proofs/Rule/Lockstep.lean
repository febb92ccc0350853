import ClassLang.Proofs.Rule.Outcome
/-!
Rules in lockstep. Two streams that agree up to some token and then part are read alike as long as
that token is not taken, also by two rules that differ in their bounds only. Main statement: rules
in lockstep are put in sequence (`Tracks.bind`).
-/

namespace ClassLang

namespace Rule

variable {α β : Type}

def left : EStateM.Result Diagnostic TokenStream α → TokenStream
  | .ok _ s => s
  | .error _ s => s

/-- What two streams have after the part in which they agree: the last token of that part, and then
each its own rest. -/
structure Fork where
  token : Token
  rest : List Token
  mark : EndMark
  otherRest : List Token
  otherMark : EndMark

namespace Fork

variable (c : Fork)

def one (v : List Token) : TokenStream :=
  ⟨v ++ c.token :: c.rest, c.mark⟩

def other (v : List Token) : TokenStream :=
  ⟨v ++ c.token :: c.otherRest, c.otherMark⟩

/-- The same result at the same place before the fork, or the first stream is read beyond it. -/
def Together (o o' : EStateM.Result Diagnostic TokenStream α) : Prop :=
  (∃ x v, o = .ok x (c.one v) ∧ o' = .ok x (c.other v)) ∨
    (∃ d v, o = .error d (c.one v) ∧ o' = .error d (c.other v)) ∨ (left o).pending <:+ c.rest

theorem current_other (v : List Token) : (c.other v).current = (c.one v).current := by
  cases v <;> rfl

end Fork

/-- The rule takes tokens off the front of the stream, and stops at the token it complains about. -/
structure Steady (r : Rule α) : Prop where
  suffix : ∀ s, (left (r s)).pending <:+ s.pending
  position : ∀ {s s' : TokenStream} {d : Diagnostic}, r s = .error d s' →
    d.position = s'.current.position

/-- The rules read streams alike that agree in fewer than so many tokens before they part. -/
structure Tracks (n : Nat) (r r' : Rule α) : Prop where
  steady : Steady r
  together : ∀ (c : Fork) (v : List Token), v.length < n → c.Together (r (c.one v)) (r' (c.other v))

namespace Steady

theorem bind {r : Rule α} {f : α → Rule β} (hr : Steady r) (hf : ∀ x, Steady (f x)) :
    Steady (r >>= f) := by
  constructor
  · intro s
    have hs := hr.suffix s
    cases h : r s with
    | ok x s₁ =>
        rw [bind_of_ok h]
        rw [h] at hs
        exact ((hf x).suffix s₁).trans hs
    | error d s₁ =>
        rw [bind_of_error h]
        rw [h] at hs
        exact hs
  · intro s s' d h
    rcases bind_eq_error.1 h with h | ⟨x, s₁, -, h⟩
    · exact hr.position h
    · exact (hf x).position h

theorem advance : Steady advance := by
  constructor
  · intro s
    exact List.tail_suffix _
  · intro s s' d h
    cases h

end Steady

namespace Tracks

variable {n : Nat} {r r' : Rule α} {f f' : α → Rule β}

theorem zero (h : Steady r) : Tracks 0 r r' :=
  ⟨h, fun _ v hv => absurd hv (Nat.not_lt_zero v.length)⟩

theorem mono {m : Nat} (h : Tracks n r r') (hm : m ≤ n) : Tracks m r r' :=
  ⟨h.steady, fun c v hv => h.together c v (Nat.lt_of_lt_of_le hv hm)⟩

theorem pure (x : α) : Tracks n (Pure.pure x : Rule α) (Pure.pure x) := by
  refine ⟨⟨fun s => List.suffix_rfl, fun h => by cases h⟩, ?_⟩
  intro c v _
  exact .inl ⟨x, v, rfl, rfl⟩

theorem reject (cause : Cause) : Tracks n (reject cause : Rule α) (reject cause) := by
  refine ⟨⟨fun s => List.suffix_rfl, fun h => by cases h; rfl⟩, ?_⟩
  intro c v _
  refine .inr (.inl ⟨_, v, rfl, ?_⟩)
  rw [reject_apply, c.current_other]

theorem left_bind {s : TokenStream} {k : List Token} (hf : ∀ x, Steady (f x))
    (h : (left (r s)).pending <:+ k) : (left ((r >>= f) s)).pending <:+ k := by
  cases hr : r s with
  | ok x s₁ =>
      rw [bind_of_ok hr]
      rw [hr] at h
      exact ((hf x).suffix s₁).trans h
  | error d s₁ =>
      rw [bind_of_error hr]
      rw [hr] at h
      exact h

theorem bind (hr : Tracks n r r') (hf : ∀ x, Tracks n (f x) (f' x)) :
    Tracks n (r >>= f) (r' >>= f') := by
  refine ⟨hr.steady.bind fun x => (hf x).steady, ?_⟩
  intro c v hv
  have hsuffix := hr.steady.suffix (c.one v)
  rcases hr.together c v hv with ⟨x, w, h, h'⟩ | ⟨d, w, h, h'⟩ | hbeyond
  · rw [bind_of_ok h, bind_of_ok h']
    rw [h] at hsuffix
    have hlength := hsuffix.length_le
    simp only [left, Fork.one, List.length_append, List.length_cons] at hlength
    exact (hf x).together c w (by omega)
  · rw [bind_of_error h, bind_of_error h']
    exact .inr (.inl ⟨d, w, rfl, rfl⟩)
  · exact .inr (.inr (left_bind (fun x => (hf x).steady) hbeyond))

theorem current {g g' : Token → Rule β} (h : ∀ t, Tracks n (g t) (g' t)) :
    Tracks n (current >>= g) (current >>= g') := by
  refine ⟨⟨fun s => (h s.current).steady.suffix s, fun {s _ _} => (h s.current).steady.position⟩, ?_⟩
  intro c v hv
  rw [current_bind, current_bind, c.current_other]
  exact (h _).together c v hv

theorem kind {g g' : TokenKind → Rule β} (h : ∀ κ, Tracks n (g κ) (g' κ)) :
    Tracks n (kind >>= g) (kind >>= g') :=
  current fun t => h t.kind

theorem position {g g' : Position → Rule β} (h : ∀ p, Tracks n (g p) (g' p)) :
    Tracks n (position >>= g) (position >>= g') :=
  current fun t => h t.position

theorem bind_of_lt (hr : Tracks n r r')
    (hlt : ∀ {s s' : TokenStream} {x : α}, r s = .ok x s' → s'.pending.length < s.pending.length)
    (hf : ∀ x, Tracks (n - 1) (f x) (f' x)) : Tracks n (r >>= f) (r' >>= f') := by
  refine ⟨hr.steady.bind fun x => (hf x).steady, ?_⟩
  intro c v hv
  rcases hr.together c v hv with ⟨x, w, h, h'⟩ | ⟨d, w, h, h'⟩ | hbeyond
  · have hlength := hlt h
    simp only [Fork.one, List.length_append, List.length_cons] at hlength
    rw [bind_of_ok h, bind_of_ok h']
    exact (hf x).together c w (by omega)
  · rw [bind_of_error h, bind_of_error h']
    exact .inr (.inl ⟨d, w, rfl, rfl⟩)
  · exact .inr (.inr (left_bind (fun x => (hf x).steady) hbeyond))

theorem advance {g g' : Token → Rule β} (h : ∀ t, Tracks (n - 1) (g t) (g' t)) :
    Tracks n (advance >>= g) (advance >>= g') := by
  refine ⟨Steady.advance.bind fun t => (h t).steady, ?_⟩
  intro c v hv
  cases v with
  | nil => exact .inr (.inr ((h c.token).steady.suffix _))
  | cons t v =>
      rw [List.length_cons] at hv
      exact (h t).together c v (by omega)

theorem expectOr (wanted : TokenKind) (cause : Cause) :
    Tracks n (expectOr wanted cause) (expectOr wanted cause) := by
  refine kind fun κ => ?_
  split
  · have hadvance : Tracks n (Rule.advance >>= fun t => (Pure.pure t : Rule Token))
        (Rule.advance >>= fun t => Pure.pure t) := advance fun t => pure t
    exact hadvance
  · exact reject cause

theorem expectIn (wanted : TokenKind) (construct : String) :
    Tracks n (expectIn wanted construct) (expectIn wanted construct) :=
  expectOr wanted _

theorem expect (wanted : TokenKind) : Tracks n (expect wanted) (expect wanted) :=
  current fun _ => expectOr wanted _

theorem identifier : Tracks n identifier identifier :=
  bind (expect .identifier) fun _ => pure _

theorem unexpected (wanted : String) :
    Tracks n (unexpected wanted : Rule α) (unexpected wanted) :=
  current fun _ => reject _

theorem of_bounds {ι : Type} {R S : Nat → ι → Rule α} (hzero : ∀ i, Steady (R 0 i))
    (hsucc : ∀ m b b', m ≤ n → m ≤ b + 1 → m ≤ b' + 1 →
      (∀ i, Tracks (m - 1) (R b i) (S b' i)) → ∀ i, Tracks m (R (b + 1) i) (S (b' + 1) i))
    {b b' : Nat} (hb : n ≤ b) (hb' : n ≤ b') (i : ι) : Tracks n (R b i) (S b' i) := by
  have hsteady : ∀ b i, Steady (R b i) := by
    intro b
    induction b with
    | zero => exact hzero
    | succ b ih =>
        exact fun i => (hsucc 0 b b (by omega) (by omega) (by omega) (fun i => zero (ih i)) i).steady
  -- each token taken on the way to the inner call uses up one of either bound
  have htracks : ∀ m b b', m ≤ n → m ≤ b → m ≤ b' → ∀ i, Tracks m (R b i) (S b' i) := by
    intro m
    induction m with
    | zero => exact fun b b' _ _ _ i => zero (hsteady b i)
    | succ m ih =>
        intro b b' hm hb hb'
        cases b with
        | zero => omega
        | succ b =>
            cases b' with
            | zero => omega
            | succ b' =>
                exact hsucc (m + 1) b b' hm hb hb' (ih b b' (by omega) (by omega) (by omega))
  exact htracks n b b' (Nat.le_refl n) hb hb' i

section Repetition

variable {item item' : Rule α} {bound bound' : Nat}

theorem afterCommas (hitem : Tracks (n - 1) item item') (hb : n ≤ bound) (hb' : n ≤ bound') :
    Tracks n (afterCommas item bound) (afterCommas item' bound') := by
  refine of_bounds (R := fun b (_ : Unit) => Rule.afterCommas item b)
    (S := fun b _ => Rule.afterCommas item' b) ?_ ?_ hb hb' ()
  · exact fun _ => (pure (n := 0) []).steady
  · intro m b b' hm _ _ ih _
    refine kind fun κ => ?_
    split
    · exact advance fun _ => bind (hitem.mono (by omega)) fun _ => bind (ih ()) fun _ => pure _
    · exact pure []

theorem inParens (hitem : Tracks n item item') (hb : n ≤ bound) (hb' : n ≤ bound') :
    Tracks n (inParens item bound) (inParens item' bound') := by
  refine position fun p => kind fun κ => ?_
  split
  · exact pure _
  · exact bind hitem fun _ => bind (afterCommas (hitem.mono (by omega)) hb hb') fun _ => pure _

theorem toCloseBrace {construct : String} (hitem : Tracks n item item')
    (hlt : ∀ {s s' : TokenStream} {x : α}, item s = .ok x s' →
      s'.pending.length < s.pending.length) (hb : n ≤ bound) (hb' : n ≤ bound') :
    Tracks n (toCloseBrace construct item bound) (toCloseBrace construct item' bound') := by
  refine of_bounds (R := fun b (_ : Unit) => Rule.toCloseBrace construct item b)
    (S := fun b _ => Rule.toCloseBrace construct item' b) ?_ ?_ hb hb' ()
  · exact fun _ => (reject (n := 0) _).steady
  · intro m b b' hm _ _ ih _
    refine kind fun κ => ?_
    split
    · exact advance fun _ => pure []
    · exact reject _
    · exact bind_of_lt (hitem.mono hm) hlt fun _ => bind (ih ()) fun _ => pure _

end Repetition

end Tracks

end Rule

end ClassLang
