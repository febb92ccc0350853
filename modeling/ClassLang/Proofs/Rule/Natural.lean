import ClassLang.Proofs.Rule.Outcome
import ClassLang.Proofs.Syntax.Relocate
/-!
Rules that carry positions along and never look at them: on a stream with other positions they end
in the same way, with what they return at those other positions. Main statement: such rules are put
in sequence (`Natural.bind`).
-/

namespace ClassLang

namespace Rule

variable {α β : Type} (φ : Position → Position)

/-- An outcome with other positions, those in a result changed by a function of its own. -/
def relocate (f : α → α) :
    EStateM.Result Diagnostic TokenStream α → EStateM.Result Diagnostic TokenStream α
  | .ok x s => .ok (f x) (s.relocate φ)
  | .error d s => .error (d.relocate φ) (s.relocate φ)

/-- At other positions the second rule does what the first one does at the given ones. -/
def Natural (f : α → α) (r r' : Rule α) : Prop :=
  ∀ s, r' (s.relocate φ) = relocate φ f (r s)

namespace Natural

variable {φ : Position → Position} {f : α → α} {g : β → β} {r r' : Rule α} {k k' : α → Rule β}

theorem pure {x x' : α} (h : x' = f x) : Natural φ f (Pure.pure x) (Pure.pure x') := by
  intro s
  rw [h]
  rfl

theorem reject (cause : Cause) : Natural φ f (reject cause) (reject cause) := by
  intro s
  rw [reject_apply, reject_apply, TokenStream.current_relocate]
  rfl

theorem bind (hr : Natural φ f r r') (hk : ∀ x, Natural φ g (k x) (k' (f x))) :
    Natural φ g (r >>= k) (r' >>= k') := by
  intro s
  have hs := hr s
  cases h : r s with
  | ok x s₁ =>
      rw [h] at hs
      rw [bind_of_ok h, bind_of_ok hs]
      exact hk x s₁
  | error d s₁ =>
      rw [h] at hs
      rw [bind_of_error h, bind_of_error hs]
      rfl

theorem current {k k' : Token → Rule β} (h : ∀ t, Natural φ g (k t) (k' (t.relocate φ))) :
    Natural φ g (current >>= k) (current >>= k') := by
  intro s
  rw [current_bind, current_bind, TokenStream.current_relocate]
  exact h s.current s

theorem kind {k k' : TokenKind → Rule β} (h : ∀ κ, Natural φ g (k κ) (k' κ)) :
    Natural φ g (kind >>= k) (kind >>= k') := by
  intro s
  rw [kind_bind, kind_bind, TokenStream.current_relocate]
  exact h s.current.kind s

theorem position {k k' : Position → Rule β} (h : ∀ p, Natural φ g (k p) (k' (φ p))) :
    Natural φ g (position >>= k) (position >>= k') := by
  intro s
  rw [position_bind, position_bind, TokenStream.current_relocate]
  exact h s.current.position s

theorem advance : Natural φ (Token.relocate φ) advance advance := by
  intro s
  change EStateM.Result.ok (s.relocate φ).current (s.relocate φ).advance = _
  rw [TokenStream.current_relocate, TokenStream.advance_relocate]
  rfl

theorem expectOr (wanted : TokenKind) (cause : Cause) :
    Natural φ (Token.relocate φ) (expectOr wanted cause) (expectOr wanted cause) := by
  refine kind fun κ => ?_
  split
  · exact advance
  · exact reject cause

theorem expectIn (wanted : TokenKind) (construct : String) :
    Natural φ (Token.relocate φ) (expectIn wanted construct) (expectIn wanted construct) :=
  expectOr wanted _

theorem expect (wanted : TokenKind) :
    Natural φ (Token.relocate φ) (expect wanted) (expect wanted) :=
  current fun _ => expectOr wanted _

theorem identifier : Natural φ id identifier identifier :=
  bind (expect .identifier) fun _ => pure rfl

theorem unexpected (wanted : String) : Natural φ f (unexpected wanted) (unexpected wanted) :=
  current fun _ => reject _

section Repetition

variable (hr : Natural φ f r r')

include hr

theorem afterCommas (bound : Nat) :
    Natural φ (List.map f) (afterCommas r bound) (afterCommas r' bound) := by
  induction bound with
  | zero => exact pure rfl
  | succ bound ih =>
      refine kind fun κ => ?_
      split
      · exact bind advance fun _ => bind hr fun _ => bind ih fun _ => pure rfl
      · exact pure rfl

theorem inParens (bound : Nat) :
    Natural φ (NodeList.relocate φ f) (inParens r bound) (inParens r' bound) := by
  refine position fun p => kind fun κ => ?_
  split
  · exact pure rfl
  · exact bind hr fun _ => bind (afterCommas hr bound) fun _ => pure rfl

theorem toCloseBrace (construct : String) (bound : Nat) :
    Natural φ (List.map f) (toCloseBrace construct r bound) (toCloseBrace construct r' bound) := by
  induction bound with
  | zero => exact reject _
  | succ bound ih =>
      refine kind fun κ => ?_
      split
      · exact bind advance fun _ => pure rfl
      · exact reject _
      · exact bind hr fun _ => bind ih fun _ => pure rfl

end Repetition

theorem bounded {R : Nat → Rule α} (h : ∀ bound, Natural φ f (R bound) (R bound)) :
    Natural φ f (bounded R) (bounded R) := by
  intro s
  rw [Rule.bounded, Rule.bounded, TokenStream.length_pending_relocate]
  exact h s.pending.length s

end Natural

end Rule

end ClassLang
