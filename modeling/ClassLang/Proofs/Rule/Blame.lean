import ClassLang.Proofs.Rule.Lockstep
import Mathlib.Data.List.Nodup
/-!
What a rule that fails complains about: the token that it stops at, which is something else than
what is wanted there. Main statement: rules that blame the token they stop at are put in sequence
(`Blames.bind`).
-/

namespace ClassLang

namespace TokenKind

def all : List TokenKind :=
  [.endOfInput, .identifier, .integer, .string, .boolean] ++ Keyword.all.map .keyword ++
    Symbol.all.map .symbol

theorem mem_all (κ : TokenKind) : κ ∈ all := by
  cases κ with
  | keyword k => simp [all, Keyword.mem_all]
  | symbol s => simp [all, Symbol.mem_all]
  | _ => simp [all]

theorem describe_injective : Function.Injective describe := by
  have hnodup : (all.map describe).Nodup := by decide +kernel
  intro κ κ' h
  exact List.inj_on_of_nodup_map hnodup (mem_all κ) (mem_all κ') h

end TokenKind

/-- The diagnostic is one about the token. -/
inductive Diagnostic.Blames : Diagnostic → Token → Prop
  | expected {wanted : String} {t : Token} :
      Blames ⟨.expected wanted t.display, t.position⟩ t
  | missing {construct : String} {wanted : TokenKind} {t : Token} :
      t.kind ≠ wanted → Blames ⟨.missing construct wanted.describe, t.position⟩ t
  | badInteger {t : Token} :
      readInteger? t.value.toList = none → Blames ⟨.badInteger t.value, t.position⟩ t

theorem Diagnostic.Blames.stage_eq {d : Diagnostic} {t : Token} (h : d.Blames t) :
    d.stage = .parsing := by
  cases h <;> rfl

namespace Rule

variable {α β : Type}

/-- On a stream with no more tokens than so many, the rule fails about the token it stops at. -/
structure Blames (n : Nat) (r : Rule α) : Prop where
  steady : Steady r
  blames : ∀ {s s' : TokenStream} {d : Diagnostic}, s.pending.length ≤ n → r s = .error d s' →
    d.Blames s'.current

namespace Blames

variable {n : Nat} {r : Rule α} {f : α → Rule β}

theorem mono {m : Nat} (h : Blames n r) (hm : m ≤ n) : Blames m r :=
  ⟨h.steady, fun hs => h.blames (Nat.le_trans hs hm)⟩

theorem pure (x : α) : Blames n (Pure.pure x : Rule α) :=
  ⟨(Tracks.pure (n := 0) x).steady, fun _ h => nomatch h⟩

theorem bind (hr : Blames n r) (hf : ∀ x, Blames n (f x)) : Blames n (r >>= f) := by
  refine ⟨hr.steady.bind fun x => (hf x).steady, ?_⟩
  intro s s' d hs h
  rcases bind_eq_error.1 h with h | ⟨x, s₁, hx, h⟩
  · exact hr.blames hs h
  · have hsuffix := hr.steady.suffix s
    rw [hx] at hsuffix
    exact (hf x).blames (Nat.le_trans hsuffix.length_le hs) h

theorem map {g : α → β} (h : Blames n r) : Blames n (g <$> r) :=
  bind h fun x => pure (g x)

theorem bind_of_lt (hr : Blames n r)
    (hlt : ∀ {s s' : TokenStream} {x : α}, r s = .ok x s' → s'.pending.length < s.pending.length)
    (hf : ∀ x, Blames (n - 1) (f x)) : Blames n (r >>= f) := by
  refine ⟨hr.steady.bind fun x => (hf x).steady, ?_⟩
  intro s s' d hs h
  rcases bind_eq_error.1 h with h | ⟨x, s₁, hx, h⟩
  · exact hr.blames hs h
  · have hless := hlt hx
    exact (hf x).blames (by omega) h

theorem current {g : Token → Rule β} (h : ∀ t, Blames n (g t)) : Blames n (current >>= g) :=
  ⟨⟨fun s => (h s.current).steady.suffix s, fun {s _ _} => (h s.current).steady.position⟩,
    fun {s _ _} => (h s.current).blames⟩

theorem kind {g : TokenKind → Rule β} (h : ∀ κ, Blames n (g κ)) : Blames n (kind >>= g) :=
  current fun t => h t.kind

theorem position {g : Position → Rule β} (h : ∀ p, Blames n (g p)) : Blames n (position >>= g) :=
  current fun t => h t.position

theorem advance {g : Token → Rule β} (h : ∀ t, Blames (n - 1) (g t)) :
    Blames n (advance >>= g) := by
  refine ⟨Steady.advance.bind fun t => (h t).steady, ?_⟩
  intro s s' d hs herror
  have hlength : s.advance.pending.length ≤ n - 1 := by
    rw [TokenStream.advance, List.length_tail]
    omega
  exact (h s.current).blames hlength herror

theorem expectOr {wanted : TokenKind} {cause : Token → Cause}
    (h : ∀ t : Token, t.kind ≠ wanted → Diagnostic.Blames ⟨cause t, t.position⟩ t) :
    Blames n (Rule.current >>= fun t => expectOr wanted (cause t)) := by
  refine ⟨(Tracks.current (n := 0) fun t => Tracks.expectOr wanted (cause t)).steady, ?_⟩
  intro s s' d _ herror
  obtain ⟨hkind, rfl, rfl⟩ := expectOr_eq_error.1 herror
  exact h _ hkind

theorem expect (wanted : TokenKind) : Blames n (expect wanted) :=
  expectOr fun _ _ => .expected

theorem expectIn (wanted : TokenKind) (construct : String) : Blames n (expectIn wanted construct) :=
  expectOr fun _ hkind => .missing hkind

theorem identifier : Blames n identifier :=
  bind (expect .identifier) fun _ => pure _

theorem unexpected (wanted : String) : Blames n (unexpected wanted : Rule α) := by
  refine ⟨(Tracks.unexpected (n := 0) wanted).steady, ?_⟩
  intro s s' d _ h
  cases h
  exact .expected

section Repetition

variable {item : Rule α} {bound : Nat}

theorem afterCommas (hitem : Blames (n - 1) item) : Blames n (afterCommas item bound) := by
  induction bound generalizing n with
  | zero => exact pure []
  | succ bound ih =>
      refine kind fun κ => ?_
      split
      · refine advance fun _ => bind hitem fun _ => bind ?_ fun _ => pure _
        exact ih (hitem.mono (by omega))
      · exact pure []

theorem inParens (hitem : Blames n item) : Blames n (inParens item bound) := by
  refine position fun p => kind fun κ => ?_
  split
  · exact pure _
  · exact bind hitem fun _ => bind (afterCommas (hitem.mono (by omega))) fun _ => pure _

theorem steady_toCloseBrace {construct : String} (hitem : Steady item)
    (hlt : ∀ {s s' : TokenStream} {x : α}, item s = .ok x s' →
      s'.pending.length < s.pending.length) : Steady (toCloseBrace construct item bound) := by
  have htracks : Tracks 0 (toCloseBrace construct item bound) (toCloseBrace construct item bound) :=
    Tracks.toCloseBrace (.zero hitem) hlt (Nat.zero_le _) (Nat.zero_le _)
  exact htracks.steady

theorem toCloseBrace {construct : String} (hitem : Blames n item)
    (hlt : ∀ {s s' : TokenStream} {x : α}, item s = .ok x s' →
      s'.pending.length < s.pending.length) (hbound : n ≤ bound) :
    Blames n (toCloseBrace construct item bound) := by
  refine ⟨steady_toCloseBrace hitem.steady hlt, ?_⟩
  have hmissing : ∀ {s s' : TokenStream} {d : Diagnostic}, s.current.kind = .endOfInput →
      Rule.toCloseBrace.missingBrace (α := α) construct s = .error d s' →
      d.Blames s'.current := by
    intro s s' d hend h
    cases h
    exact .missing (by simp [hend])
  induction bound generalizing n with
  | zero =>
      intro s s' d hs h
      exact hmissing (TokenStream.current_kind_of_pending_nil (by omega)) h
  | succ bound ih =>
      have hrest : Blames (n - 1) (Rule.toCloseBrace construct item bound) :=
        ⟨steady_toCloseBrace hitem.steady hlt, ih (hitem.mono (by omega)) (by omega)⟩
      intro s s' d hs h
      rw [Rule.toCloseBrace, kind_bind] at h
      generalize hkind : s.current.kind = kind at h
      split at h
      · cases h
      · exact hmissing hkind h
      · refine (bind_of_lt hitem hlt fun _ => bind hrest fun _ => pure _).blames hs h

end Repetition

end Blames

end Rule

end ClassLang
