import ClassLang.Proofs.Grammar.Derivation.WellFormed
import ClassLang.Proofs.Grammar.Language
import Mathlib
/-!
What parses return. Main statement: the trees that parses return are well formed and stand in the
file (`wellFormed_of_parseSource`).
-/

namespace ClassLang

theorem Program.ofSource_of_tokenize {source file : String} {ts : List Token}
    (h : tokenize source file = .ok ts) :
    ofSource source file = ofStream (TokenStream.ofTokens ts file) file := by
  rw [ofSource, TokenStream.ofSource, h]
  rfl

theorem Program.ofSource_of_tokenize_error {source file : String} {d : Diagnostic}
    (h : tokenize source file = .error d) : ofSource source file = .error d := by
  rw [ofSource, TokenStream.ofSource, h]
  rfl

namespace Session

variable {source file : String} {log log' : DiagnosticLog} {p : Program}

theorem conclude_eq_ok {outcome : Except Diagnostic Program} :
    conclude outcome log = .ok p log' ↔ outcome = .ok p ∧ log' = log := by
  cases outcome with
  | ok q =>
      constructor
      · intro h
        cases h
        exact ⟨rfl, rfl⟩
      · rintro ⟨⟨⟩, rfl⟩
        rfl
  | error d =>
      constructor
      · intro h
        cases h
      · rintro ⟨⟨⟩, -⟩

theorem conclude_eq_error {outcome : Except Diagnostic Program} {e : CompilationError} :
    conclude outcome log = .error e log' ↔
      ∃ d, outcome = .error d ∧ log' = log.register d ∧ e = log'.snapshot := by
  cases outcome with
  | ok q =>
      constructor
      · intro h
        cases h
      · rintro ⟨d, ⟨⟩, -⟩
  | error d =>
      constructor
      · intro h
        cases h
        exact ⟨d, rfl, rfl, rfl⟩
      · rintro ⟨_, ⟨⟩, rfl, rfl⟩
        rfl

theorem exists_tokens_of_parseSource (h : parseSource source file log = .ok p log') :
    ∃ ts, tokenize source file = .ok ts ∧
      Program.ofStream (TokenStream.ofTokens ts file) file = .ok p := by
  obtain ⟨h, -⟩ := conclude_eq_ok.1 h
  cases hts : tokenize source file with
  | error d =>
      rw [Program.ofSource, TokenStream.ofSource, hts] at h
      cases h
  | ok ts =>
      rw [Program.ofSource_of_tokenize hts] at h
      exact ⟨ts, rfl, h⟩

theorem exists_derives_of_parseSource (h : parseSource source file log = .ok p log') :
    ∃ body stop, tokenize source file = .ok (body ++ [stop]) ∧ stop.kind = .endOfInput ∧
      Grammar.DerivesDecl Token.position file .program (body ++ [stop]) [stop] p := by
  obtain ⟨ts, hts, hp⟩ := exists_tokens_of_parseSource h
  obtain ⟨body, stop, rfl, hstop, hbody⟩ := exists_append_of_tokenize hts
  exact ⟨body, stop, hts, hstop, (Grammar.ofStream_eq_ok_iff hbody hstop).1 hp⟩

theorem wellFormed_of_parseSource (h : parseSource source file log = .ok p log') :
    p.wellFormed = true ∧ p.standsIn file = true := by
  obtain ⟨ts, hts, hp⟩ := exists_tokens_of_parseSource h
  obtain ⟨body, stop, rfl, hstop, hbody⟩ := exists_append_of_tokenize hts
  have hderives := (Grammar.ofStream_eq_ok_iff hbody hstop).1 hp
  have hsound := (hderives.sound (lexical_of_mem_tokenize hts)).1
  simp only [Grammar.DeclCategory.sound, Bool.and_eq_true] at hsound
  exact hsound

theorem wellFormed_of_field_with_reference :
    ∃ p, parseSource "class A{A b=this.c;}" "a.cl" .empty = .ok p .empty ∧
      p.wellFormed = true ∧ p.standsIn "a.cl" = true := by
  have h : parseSource "class A{A b=this.c;}" "a.cl" .empty = .ok
      ⟨.ofBytes "a.cl" 0, ⟨.ofBytes "a.cl" 0, [⟨.ofBytes "a.cl" 0, "a.cl", "A", none,
        ⟨.ofBytes "a.cl" 8, [.field ⟨.ofBytes "a.cl" 8, "A", "b",
          some (.var (.ofBytes "a.cl" 12) (some (.var (.ofBytes "a.cl" 12) none "this")) "c")⟩]⟩⟩]⟩⟩
      .empty := by cbv
  exact ⟨_, h, wellFormed_of_parseSource h⟩

end Session

end ClassLang
