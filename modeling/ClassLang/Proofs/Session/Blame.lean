import ClassLang.Proofs.Grammar.Blame
import ClassLang.Session
/-!
Where a parse stops that fails. Main statement: a rule that fails, in whatever state it is run, says
of the token that it leaves as the current one what is wrong with it, and leaves the log alone
(`Grammar.about_current_of_error`).
-/

namespace ClassLang

/-- The diagnostic is at the token, and what it says of the token is so. -/
structure Diagnostic.About (d : Diagnostic) (t : Token) : Prop where
  stage_eq : d.stage = .parsing
  position_eq : d.position = t.span.start
  found_eq : ∀ wanted found, d.cause = .expected wanted found → found = t.display
  missing_ne : ∀ construct wanted, d.cause = .missing construct wanted → wanted ≠ t.kind.describe
  badInteger_eq : ∀ text, d.cause = .badInteger text → text = t.value

theorem Diagnostic.Blames.about {d : Diagnostic} {t : Token} (h : d.Blames t) : d.About t where
  stage_eq := h.stage_eq
  position_eq := by cases h <;> rfl
  found_eq := by
    rintro wanted found hcause
    cases h <;> cases hcause
    rfl
  missing_ne := by
    rintro construct wanted hcause
    cases h with
    | missing hkind =>
        cases hcause
        exact fun heq => hkind (TokenKind.describe_injective heq).symm
    | _ => cases hcause
  badInteger_eq := by
    rintro text hcause
    cases h <;> cases hcause
    rfl

/-- The state of a parse: the tokens still to come, and the log that the parse reports to. -/
structure ParseState where
  stream : TokenStream
  log : DiagnosticLog

/-- Runs a rule in the state of a parse. -/
def Rule.within {α : Type} (r : Rule α) : EStateM Diagnostic ParseState α :=
  fun σ =>
    match r σ.stream with
    | .ok x s => .ok x { σ with stream := s }
    | .error d s => .error d { σ with stream := s }

/-- A parse runs the rule for programs, and then registers the diagnostic if the rule fails. -/
theorem Session.parseStream_eq (s : TokenStream) (file : String) (log : DiagnosticLog) :
    parseStream s file log =
      match (Rule.bounded (Grammar.program file)).within ⟨s, log⟩ with
      | .ok p σ => .ok p σ.log
      | .error d σ => .error (σ.log.register d).snapshot (σ.log.register d) := by
  rw [parseStream, Program.ofStream, Rule.within]
  cases Rule.bounded (Grammar.program file) s <;> rfl

namespace Grammar

/--
The rules: those of the nonterminals, and those that go on from what another rule has read or end
where it says.
-/
inductive IsRule (file : String) : {α : Type} → (Nat → Rule α) → Prop
  | ruleOf (x : Nonterminal) : IsRule file fun bound => ruleOf file bound x
  | varOrCall (p : Position) (receiver : Option Expr) :
      IsRule file fun bound => varOrCall (expression bound) bound p receiver
  | optionalExpression (terminator : Symbol) :
      IsRule file fun bound => optionalExpression (expression bound) terminator

theorem IsRule.blames {file : String} {α : Type} {rule : Nat → Rule α} (h : IsRule file rule)
    (n : Nat) : Rule.Blames n (rule n) := by
  cases h with
  | ruleOf x => exact ruleOf_blames (Nat.le_refl n) x
  | varOrCall p receiver => exact varOrCall_blames expression_blames p receiver
  | optionalExpression terminator => exact optionalExpression_blames expression_blames terminator

theorem about_current_of_error {file : String} {α : Type} {rule : Nat → Rule α}
    (hrule : IsRule file rule) {σ σ' : ParseState} {d : Diagnostic}
    (h : (Rule.bounded rule).within σ = .error d σ') :
    d.About σ'.stream.current ∧ σ'.log = σ.log := by
  rw [Rule.within, Rule.bounded] at h
  cases hs : rule σ.stream.pending.length σ.stream with
  | ok x s => simp [hs] at h
  | error d' s =>
      simp only [hs] at h
      cases h
      exact ⟨((hrule.blames _).blames (Nat.le_refl _) hs).about, rfl⟩

/-- The rule for `while` takes a parenthesis for its first token, and stops at the end mark. -/
theorem about_current_of_misplaced_while :
    let openParen := Token.mk (.symbol .openParen) "(" (.ofBytes "a.cl" 2 1)
    let mark := EndMark.atPosition (.ofBytes "a.cl" 3)
    let log : DiagnosticLog := ⟨[⟨.unterminatedComment, .ofBytes "b.cl" 0⟩]⟩
    let d : Diagnostic := ⟨.missing "while statement" "(", .ofBytes "a.cl" 3⟩
    let rule (bound : Nat) : Rule Phrase := ruleOf "a.cl" bound .whileStatement
    IsRule "a.cl" rule ∧
      (Rule.bounded rule).within ⟨⟨[openParen], mark⟩, log⟩ = .error d ⟨⟨[], mark⟩, log⟩ ∧
      d.About mark.token := by
  intro openParen mark log d rule
  have hrule : IsRule "a.cl" rule := .ruleOf .whileStatement
  have h : (Rule.bounded rule).within ⟨⟨[openParen], mark⟩, log⟩ = .error d ⟨⟨[], mark⟩, log⟩ := rfl
  exact ⟨hrule, h, (about_current_of_error hrule h).1⟩

end Grammar

end ClassLang
