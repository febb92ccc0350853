import ClassLang.Proofs.Grammar.Termination.Statement
/-!
The bounded rules for declarations are the procedures without bounds, and with them those of all
nonterminals. Main statement: a rule started at any stream, wherever end marks stand in it, ends
after finitely many pulls; what is entered inside a procedure of no higher rank, such as the same
rule or the next round of the same loop, has fewer tokens pending; and a rule that succeeds has
taken a token, unless it may read nothing (`terminates`).
-/

namespace ClassLang

namespace Grammar

open Procedures

variable {b : Nat}

theorem typeName_realizes {m : Nat} : procedures.Realizes m .typeName typeName :=
  fun _ _ => Agrees.identifier

theorem formal_realizes {m : Nat} : procedures.Realizes m .formal formal := by
  intro s hs
  refine Agrees.position ?_
  refine Agrees.bind (Agrees.call_of_rank typeName_realizes hs (by decide)) fun _ _ _ _ => ?_
  exact Agrees.bind_identifier fun _ _ _ => Agrees.pure _

theorem formals_realizes : procedures.Realizes (b + 1) .formals (formals b) :=
  fun _ hs => inParens_agrees formal_realizes (Nat.le_refl _) hs (by decide)

theorem block_of_statement_realizes :
    procedures.Realizes (b + 1) .block (block (statement b) b) :=
  block_realizes ((statement_realizes b).mono (Nat.le_succ b)) (Nat.le_succ b)

section Members

variable {s : TokenStream} {n i : Nat}

theorem methodRest_agrees (p : Position) (returnType name : String)
    (hs : s.pending.length ≤ b) (hn : s.pending.length < n) :
    procedures.Agrees n i (Unbounded.methodRest p returnType name)
      (methodRest b p returnType name) s := by
  have hle := s.length_advance_le
  refine Agrees.advance ?_
  refine Agrees.bind (Agrees.call formals_realizes (by omega) (.inl (by omega)))
    fun _ _ _ hle' => ?_
  refine Agrees.bind_expectIn (by simp) fun _ _ hlt => ?_
  refine Agrees.bind (Agrees.call block_of_statement_realizes (by omega) (.inl (by omega)))
    fun _ _ _ _ => ?_
  exact Agrees.pure _

theorem fieldInit_agrees (hs : s.pending.length ≤ b) (hn : s.pending.length < n) :
    procedures.Agrees n i Unbounded.fieldInit (fieldInit b) s := by
  have hle := s.length_advance_le
  refine Agrees.kind ?_
  split
  · refine Agrees.advance ?_
    refine Agrees.bind (Agrees.call (expression_realizes b) (by omega) (.inl (by omega)))
      fun _ _ _ _ => ?_
    exact Agrees.pure _
  · exact Agrees.pure none

theorem parent_agrees : procedures.Agrees n i Unbounded.parent parent s := by
  refine Agrees.kind ?_
  split
  · exact Agrees.advance (Agrees.bind_identifier fun _ _ _ => Agrees.pure _)
  · exact Agrees.pure none

end Members

theorem member_realizes : procedures.Realizes (b + 1) .member (member b) := by
  intro s hs
  refine Agrees.position ?_
  refine Agrees.bind (Agrees.call_of_rank typeName_realizes hs (by decide)) fun _ _ _ hle => ?_
  refine Agrees.bind_identifier fun _ _ hlt => Agrees.kind ?_
  split
  · refine Agrees.bind (methodRest_agrees _ _ _ (by omega) (by omega)) fun _ _ _ _ => ?_
    exact Agrees.pure _
  · refine Agrees.bind (fieldInit_agrees (by omega) (by omega)) fun _ _ _ _ => ?_
    exact Agrees.bind_expectIn (by simp) fun _ _ _ => Agrees.pure _

theorem classDecl_realizes (file : String) :
    procedures.Realizes (b + 1) (.classDecl file) (classDecl file b) := by
  intro s hs
  have hmembers := toCloseBrace_realizes (b := b) member_realizes member_consumes (Nat.le_refl _)
    "class declaration"
  refine Agrees.bind_expect (by simp) fun _ _ hlt => Agrees.bind_identifier fun _ _ hlt₁ => ?_
  refine Agrees.bind parent_agrees fun _ _ _ hle => ?_
  refine Agrees.bind_expectIn (by simp) fun _ _ hlt₂ => Agrees.position ?_
  refine Agrees.bind (Agrees.call hmembers (by omega) (.inl (by omega))) fun _ _ _ _ => ?_
  exact Agrees.pure _

theorem program_realizes (file : String) :
    procedures.Realizes (b + 1) (.program file) (program file b) := by
  intro s hs
  have hclasses := toEndOfInput_realizes (b := b) (classDecl_realizes file)
    (classDecl_consumes file) (Nat.le_refl _)
  refine Agrees.position ?_
  refine Agrees.bind (Agrees.call_of_rank hclasses hs (Nat.lt_succ_self _)) fun _ _ _ _ => ?_
  exact Agrees.pure _

theorem ruleOf_agrees (file : String) (n : Nonterminal) {s : TokenStream}
    (hs : s.pending.length ≤ b) :
    procedures.Agrees (s.pending.length + 1) 0 (Unbounded.scriptOf file n) (ruleOf file b n) s := by
  have hlt : s.pending.length < b + 1 := Nat.lt_succ_of_le hs
  have hcall : ∀ {α : Type} {c : Call α} {r : Rule α} {f : α → Phrase},
      procedures.Realizes (b + 1) c r →
      procedures.Agrees (s.pending.length + 1) 0 (f <$> Script.call c) (f <$> r) s :=
    fun h => Agrees.map (Agrees.call h hlt (.inl (Nat.lt_succ_self _)))
  have hexpr := expression_realizes b
  have hexpr' := hexpr.mono (Nat.le_succ b)
  have hstmt := (statement_realizes b).mono (Nat.le_succ b)
  have hb := Nat.le_refl b
  cases n with
  | program => exact hcall (program_realizes file)
  | classDecl => exact hcall (classDecl_realizes file)
  | member => exact hcall member_realizes
  | formals => exact hcall formals_realizes
  | formal => exact hcall formal_realizes
  | typeName => exact hcall typeName_realizes
  | statement => exact hcall (statement_realizes b)
  | whileStatement => exact hcall (whileStatement_realizes hexpr' hstmt)
  | returnStatement => exact hcall (returnStatement_realizes hexpr)
  | breakStatement => exact hcall breakStatement_realizes
  | expressionStatement => exact hcall (expressionStatement_realizes hexpr)
  | emptyStatement => exact hcall emptyStatement_realizes
  | declarationStatement => exact hcall (declarationStatement_realizes hexpr)
  | forStatement => exact hcall (forStatement_realizes hexpr' hstmt)
  | blockStatement =>
      exact Agrees.map (blockStatement_agrees hstmt (Nat.le_succ b) hs (.inl (Nat.lt_succ_self _)))
  | ifStatement => exact hcall (ifStatement_realizes hexpr' hstmt)
  | expression => exact hcall hexpr
  | disjunction => exact hcall (disjunction_realizes hexpr' hb)
  | conjunction => exact hcall (conjunction_realizes hexpr' hb)
  | equality => exact hcall (equality_realizes hexpr' hb)
  | relation => exact hcall (relation_realizes hexpr' hb)
  | sum => exact hcall (sum_realizes hexpr' hb)
  | product => exact hcall (product_realizes hexpr' hb)
  | factor => exact hcall (factor_realizes hexpr' hb)
  | creation => exact hcall creation_realizes
  | conversion => exact hcall (conversion_realizes hexpr')
  | leading => exact hcall (leading_realizes (trailing_realizes hexpr' hb) (Nat.le_refl _))
  | trailing => exact hcall (trailing_realizes hexpr' hb)
  | primary => exact hcall (primary_realizes hexpr' hb)
  | arguments => exact hcall (arguments_realizes hexpr (Nat.le_refl _))

theorem terminates (file : String) (n : Nonterminal) (s : TokenStream) :
    (∃ pulls, procedures.Evaluates (s.pending.length + 1) 0 (Unbounded.scriptOf file n) s pulls
      (read file n s)) ∧
    (∀ {α β : Type} {c : Call α} {d : Call β} {s₁ s₂ : TokenStream},
      procedures.Enters (Unbounded.scriptOf file n) s c s₁ →
      procedures.Enters (procedures.body c) s₁ d s₂ → procedures.rank c ≤ procedures.rank d →
      s₂.pending.length < s₁.pending.length) ∧
    (n ∉ [.program, .formals, .arguments] → s.pending ≠ [] →
      ∀ {x : Phrase} {s' : TokenStream}, read file n s = .ok x s' →
        s'.pending <:+ s.pending ∧ s'.pending.length < s.pending.length) := by
  obtain ⟨pulls, h⟩ := ruleOf_agrees file n (Nat.le_refl s.pending.length)
  change procedures.Evaluates _ _ _ s pulls (read file n s) at h
  refine ⟨⟨pulls, h⟩, ?_, ?_⟩
  · intro α β c d s₁ s₂ h₁ h₂ hrank
    exact h.length_lt_of_enters h₁ h₂ hrank
  · intro hn hne x s' hx
    rw [hx] at h
    exact ⟨h.suffix, scriptOf_consumes file hn h hne⟩

/-- The expression in the parentheses of `(a)` is read inside the whole, with a token fewer. -/
theorem terminates_of_parenthesized_variable :
    let openParen := Token.mk (.symbol .openParen) "(" (.empty .null)
    let name := Token.mk .identifier "a" (.empty .null)
    let closeParen := Token.mk (.symbol .closeParen) ")" (.empty .null)
    let mark := EndMark.atPosition .null
    let whole := TokenStream.mk [openParen, name, closeParen] mark
    let inner := TokenStream.mk [name, closeParen] mark
    (∃ pulls, procedures.Evaluates 4 0 (Unbounded.scriptOf "a.cl" .expression) whole pulls
      (.ok (.expr (.var .null none "a")) ⟨[], mark⟩)) ∧
    (procedures.Enters (procedures.body .expression) whole .expression inner ∧
      inner.pending.length < whole.pending.length) ∧
    ([] <:+ whole.pending ∧ 0 < whole.pending.length) := by
  intro openParen name closeParen mark whole inner
  have hread : read "a.cl" .expression whole = .ok (.expr (.var .null none "a")) ⟨[], mark⟩ := rfl
  have henters : procedures.Enters (procedures.body .expression) whole Call.expression inner := by
    -- ten levels of precedence, each entered before a token is taken
    iterate 10 refine .look (.inside ?_)
    exact .look (.take .here)
  obtain ⟨hpulls, hagain, hless⟩ := terminates "a.cl" .expression whole
  rw [hread] at hpulls
  exact ⟨hpulls, ⟨henters, hagain .here henters (Nat.le_refl _)⟩, hless (by decide) (by decide) hread⟩

end Grammar

end ClassLang
