import ClassLang.Proofs.Grammar.Termination.Declaration
import ClassLang.Proofs.Grammar.Viability.Declaration
import ClassLang.Proofs.Rule.Lookahead
/-!
What rules look at: the tokens that they take, and the one that they stop at. Main statements: a
rule ends in the same way before the same token on every stream that begins with the tokens it takes
and that one (`EndsBefore.transfer`), and the rule for programs takes no end mark
(`exists_endsBefore_program`).
-/

namespace ClassLang

namespace Grammar

open Rule

/-- The rules, each with the script of what it does. -/
inductive HasScript (file : String) : {α : Type} → (Nat → Rule α) → Script Call α → Prop
  | ruleOf (x : Nonterminal) :
      HasScript file (fun bound => ruleOf file bound x) (Unbounded.scriptOf file x)
  | program : HasScript file (program file) (Script.call (.program file))
  | varOrCall (p : Position) (receiver : Option Expr) :
      HasScript file (fun bound => varOrCall (expression bound) bound p receiver)
        (Unbounded.varOrCall p receiver)
  | optionalExpression (terminator : Symbol) :
      HasScript file (fun bound => optionalExpression (expression bound) terminator)
        (Unbounded.optionalExpression terminator)

/-- Run at the stream, the script takes these tokens, stops at that one, and ends so. -/
structure EndsBefore {α : Type} (x : Script Call α) (s : TokenStream) (u : List Token) (t : Token)
    (o : EStateM.Result Diagnostic TokenStream α) : Prop where
  takes : ∃ n i, procedures.Evaluates n i x s u.length o
  tokens : s.take (u.length + 1) = u ++ [t]

variable {file : String} {α : Type} {rule : Nat → Rule α} {x : Script Call α} {s s' : TokenStream}
  {u : List Token} {t : Token}

theorem HasScript.agrees (h : HasScript file rule x) (s : TokenStream) :
    ∃ n i, procedures.Agrees n i x (rule s.pending.length) s := by
  have hexpr := expression_realizes s.pending.length
  cases h with
  | ruleOf x => exact ⟨_, _, ruleOf_agrees file x (Nat.le_refl _)⟩
  | program =>
      have hprogram := program_realizes file (b := s.pending.length)
      exact ⟨_, _, Procedures.Agrees.call_of_rank hprogram (Nat.lt_succ_self _)
        (Nat.lt_succ_self _)⟩
  | varOrCall p receiver =>
      exact ⟨s.pending.length, 0, varOrCall_agrees (hexpr.mono (Nat.le_succ _)) (Nat.le_refl _) p
        receiver (Nat.le_refl _) (Nat.le_refl _)⟩
  | optionalExpression terminator =>
      exact ⟨s.pending.length + 1, 0, optionalExpression_agrees hexpr terminator
        (Nat.lt_succ_self _) (.inl (Nat.lt_succ_self _))⟩

namespace EndsBefore

variable {o o' : EStateM.Result Diagnostic TokenStream α}

theorem left_eq (h : EndsBefore x s u t o) : left o = s.drop u.length := by
  obtain ⟨_, _, h⟩ := h.takes
  exact h.left_eq

theorem take_eq (h : EndsBefore x s u t o) : s.take u.length = u := by
  have htokens := h.tokens
  rw [TokenStream.take_add] at htokens
  exact (List.append_inj htokens (by simp)).1

theorem transfer (h : EndsBefore x s u t o)
    (h' : ∃ n i pulls, procedures.Evaluates n i x s' pulls o')
    (hs' : s'.take (u.length + 1) = u ++ [t]) :
    EndsBefore x s' u t o' ∧ o' = endingAt (s'.drop u.length) o := by
  obtain ⟨n, i, hs⟩ := h.takes
  obtain ⟨n', i', pulls, h'⟩ := h'
  obtain ⟨rfl, ho⟩ := hs.congr_take h' (h.tokens.trans hs'.symm)
  exact ⟨⟨⟨n', i', h'⟩, hs'⟩, ho⟩

end EndsBefore

theorem HasScript.exists_endsBefore (h : HasScript file rule x) (s : TokenStream) :
    ∃ u t, EndsBefore x s u t (bounded rule s) := by
  obtain ⟨n, i, pulls, hs⟩ := h.agrees s
  refine ⟨s.take pulls, (s.drop pulls).current, ⟨n, i, ?_⟩, ?_⟩
  · rw [TokenStream.length_take]
    exact hs
  · rw [TokenStream.length_take, TokenStream.take_add]
    rfl

theorem HasScript.endsBefore_of_take (h : HasScript file rule x)
    (hs : EndsBefore x s u t (bounded rule s)) (hs' : s'.take (u.length + 1) = u ++ [t]) :
    EndsBefore x s' u t (bounded rule s') ∧
      bounded rule s' = endingAt (s'.drop u.length) (bounded rule s) := by
  obtain ⟨n, i, h'⟩ := h.agrees s'
  exact hs.transfer ⟨n, i, h'⟩ hs'

section EndMarks

theorem DerivesDecl.kind_ne_of_classes {v : List Token} {cs : List ClassDecl}
    (h : DerivesDecl Token.position file .classes v [] cs) : ∀ q ∈ v, q.kind ≠ .endOfInput := by
  intro q hq hend
  have hmem := h.mem_of_endOfInput hend hq
  simp at hmem

theorem exists_taken_of_program (file : String) (bound : Nat) (s : TokenStream) :
    ∃ v, s.pending = v ++ (left (program file bound s)).pending ∧
      ∀ q ∈ v, q.kind ≠ .endOfInput := by
  have hfollows := @program_follows file bound s
  cases h : program file bound s with
  | ok p s' =>
      obtain ⟨v, hv, hk⟩ := hfollows.completed h
      obtain ⟨cs, hcs⟩ := hk [] nofun
      rw [List.append_nil] at hcs
      exact ⟨v, hv, hcs.kind_ne_of_classes⟩
  | error d s' =>
      obtain ⟨v, w, hv, hk⟩ := hfollows.begun h
      obtain ⟨-, cs, hcs⟩ := hk [] nofun
      rw [List.append_nil] at hcs
      exact ⟨v, hv, fun q hq => hcs.kind_ne_of_classes q (List.mem_append_left w hq)⟩

theorem exists_endsBefore_program (file : String) (s : TokenStream) :
    ∃ u t, EndsBefore (Script.call (.program file)) s u t (bounded (program file) s) ∧
      ∀ q ∈ u, q.kind ≠ .endOfInput := by
  have hscript : HasScript file (program file) _ := .program
  obtain ⟨u, t, h⟩ := hscript.exists_endsBefore s
  refine ⟨u, t, h, ?_⟩
  -- an end mark taken past the end of the list could be taken from the list as well
  let s₁ := s.padded u.length
  have htake : s₁.take (u.length + 1) = u ++ [t] := (s.take_padded _ _).trans h.tokens
  have hlength : u.length ≤ s₁.pending.length := by
    simp [s₁, TokenStream.padded]
  obtain ⟨h₁, -⟩ := hscript.endsBefore_of_take h htake
  obtain ⟨v, hv, hkind⟩ := exists_taken_of_program file s₁.pending.length s₁
  have hpending : s₁.take u.length ++ (s₁.drop u.length).pending =
      v ++ (s₁.drop u.length).pending := by
    rw [← TokenStream.pending_eq_take_append hlength, ← h₁.left_eq]
    exact hv
  rw [← h₁.take_eq, List.append_cancel_right hpending]
  exact hkind

end EndMarks

end Grammar

end ClassLang
