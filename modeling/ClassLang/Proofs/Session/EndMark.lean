import ClassLang.Proofs.Session.Lookahead
import ClassLang.Proofs.Session.Relocation
import Mathlib
/-!
Parses of tokens without their end mark. Main statement: they end as with it, but what is blamed on
the end of the input stands at the end of the last token (`Session.sameButEnd_of_tokenize`).
-/

namespace ClassLang

open Grammar Rule

/--
Outcomes of a parse of tokens and of the same tokens without the end mark: the same program, the
same diagnostic about a token, or the same cause at one end of the input and at the other.
-/
inductive SameButEnd (ts : List Token) (file : String) (stop stop' : Position) :
    Except Diagnostic Program → Except Diagnostic Program → Prop
  | ok {p : Program} : SameButEnd ts file stop stop' (.ok p) (.ok p)
  | atToken {d : Diagnostic} {s : TokenStream} :
      bounded (program file) (TokenStream.ofTokens ts file) = .error d s →
      s.current.kind ≠ .endOfInput →
      SameButEnd ts file stop stop' (.error d) (.error d)
  | atEnd {cause : Cause} {s : TokenStream} :
      bounded (program file) (TokenStream.ofTokens ts file) = .error ⟨cause, stop⟩ s →
      s.current.kind = .endOfInput →
      SameButEnd ts file stop stop' (.error ⟨cause, stop⟩) (.error ⟨cause, stop'⟩)

variable {file : String} {body : List Token} {stop stop' : Token}

theorem TokenStream.take_exhausted (u : List Token) (mark : EndMark) :
    (TokenStream.mk u mark).take (u.length + 1) = u ++ [mark.token] := by
  have htake := take_of_append u [] mark
  have hdrop := drop_of_append u [] mark
  rw [List.append_nil] at htake hdrop
  rw [take_add, htake, hdrop]
  rfl

theorem TokenStream.ofTokens_of_getLast? {last : Token} (hlast : body.getLast? = some last)
    (hkind : last.kind ≠ .endOfInput) :
    ofTokens body file = ⟨body, .atPosition last.span.stop⟩ := by
  rw [ofTokens, hlast, ofTokens.markAfter, if_neg hkind]

namespace Program

theorem ofStream_exhausted (body : List Token) (mark : EndMark) :
    ofStream ⟨body, mark⟩ file =
      ofStream (TokenStream.ofTokens (body ++ [mark.token]) file) file := by
  refine ofStream_eq_of_take (n := body.length + 1) ?_ ⟨mark.token, ?_, rfl⟩
  · rw [TokenStream.take_exhausted, TokenStream.take_ofTokens]
  · rw [TokenStream.take_exhausted]
    exact List.mem_append_right body (List.mem_singleton_self mark.token)

theorem ofStream_ok_of_other_end {p : Program} (hbody : ∀ t ∈ body, t.kind ≠ .endOfInput)
    (hne : body ≠ []) (hstop : stop.kind = .endOfInput) (hstop' : stop'.kind = .endOfInput)
    (h : ofStream (TokenStream.ofTokens (body ++ [stop]) file) file = .ok p) :
    ofStream (TokenStream.ofTokens (body ++ [stop']) file) file = .ok p := by
  have hp := (ofStream_eq_ok_iff hbody hstop).1 h
  refine (ofStream_eq_ok_iff hbody hstop').2 ?_
  obtain ⟨t, v, rfl⟩ := List.exists_cons_of_ne_nil hne
  -- the position of the program is that of its first token, which is not the end mark
  cases hp with
  | program hcs _ =>
      obtain ⟨u, hu, hk⟩ := hcs.exists_prefix (by simp)
      have hu' : u = t :: v := (List.append_cancel_right hu).symm
      subst hu'
      exact .program (hk [stop']) hstop'

theorem program_labelled {ts ts' : List Token} (hne : ts ≠ [])
    (hwords : ts.map Token.word = ts'.map Token.word) (file : String) (bound : Nat) :
    program file bound (TokenStream.ofTokens ts' file) =
      Rule.relocate (Position.atLabel ts') (Program.relocate (Position.atLabel ts'))
        (program file bound (TokenStream.ofTokens (ts.mapIdx Token.labelled) file)) := by
  have hlabels : ts.mapIdx Token.labelled ≠ [] := by simpa using hne
  rw [← program_natural file bound, ← TokenStream.ofTokens_map_relocate _ hlabels,
    map_relocate_labelled hwords]

theorem position_of_error_at_end {d : Diagnostic} {s : TokenStream} {bound : Nat}
    (h : program file bound (TokenStream.ofTokens (body ++ [stop]) file) = .error d s)
    (hs : s.pending.length = 1) : d.position = stop.position := by
  have hsteady : Steady (program file bound) := program_steady
  have hsuffix := hsteady.suffix (TokenStream.ofTokens (body ++ [stop]) file)
  rw [h] at hsuffix
  obtain ⟨u, hu⟩ := hsuffix
  obtain ⟨t, ht⟩ := List.length_eq_one_iff.1 hs
  rw [left, ht, TokenStream.pending_ofTokens] at hu
  obtain ⟨-, hlast⟩ := List.append_inj' hu rfl
  rw [hsteady.position h, TokenStream.current, ht]
  cases hlast
  rfl

theorem ofStream_error_of_other_end {d : Diagnostic} {s : TokenStream}
    (hword : stop.word = stop'.word)
    (h : program file (body ++ [stop]).length (TokenStream.ofTokens (body ++ [stop]) file) =
      .error d s)
    (hs : s.pending.length = 1) :
    ofStream (TokenStream.ofTokens (body ++ [stop']) file) file =
      .error ⟨d.cause, stop'.position⟩ := by
  have hwords : (body ++ [stop]).map Token.word = (body ++ [stop']).map Token.word := by
    simp [hword]
  have hlabelled := program_labelled (by simp) (rfl : (body ++ [stop]).map Token.word = _) file
    (body ++ [stop]).length
  have hother := program_labelled (by simp) hwords file (body ++ [stop]).length
  rw [h] at hlabelled
  cases hrun : program file (body ++ [stop]).length
      (TokenStream.ofTokens ((body ++ [stop]).mapIdx Token.labelled) file) with
  | ok p s₀ =>
      rw [hrun] at hlabelled
      cases hlabelled
  | error d₀ s₀ =>
      rw [hrun] at hlabelled hother
      cases hlabelled
      rw [TokenStream.length_pending_relocate] at hs
      rw [List.mapIdx_concat] at hrun
      have hposition := position_of_error_at_end hrun hs
      have hlast : (stop.labelled body.length).relocate (Position.atLabel (body ++ [stop'])) =
          stop' := Token.relocate_labelled (by simp) hword
      have hstop' : Position.atLabel (body ++ [stop']) d₀.position = stop'.position := by
        rw [hposition]
        exact congrArg Token.position hlast
      have hlength : (body ++ [stop']).length = (body ++ [stop]).length := by simp
      rw [← hstop']
      refine Session.ofStream_eq_error.2 ⟨s₀.relocate (Position.atLabel (body ++ [stop'])), ?_⟩
      rw [TokenStream.pending_ofTokens, hlength, hother]
      rfl

end Program

theorem sameButEnd_ofStream {last : Token} (hbody : ∀ t ∈ body, t.kind ≠ .endOfInput)
    (hlast : body.getLast? = some last) (stop : Position) :
    SameButEnd (body ++ [(EndMark.atPosition stop).token]) file stop last.span.stop
      (Program.ofStream
        (TokenStream.ofTokens (body ++ [(EndMark.atPosition stop).token]) file) file)
      (Program.ofStream (TokenStream.ofTokens body file) file) := by
  have hend : ∀ p, (EndMark.atPosition p).token.kind = .endOfInput := fun _ => rfl
  have hmem : last ∈ body := List.mem_of_getLast? hlast
  have hbare := @TokenStream.ofTokens_of_getLast? file body last hlast (hbody last hmem)
  cases h : Program.ofStream
      (TokenStream.ofTokens (body ++ [(EndMark.atPosition stop).token]) file) file with
  | ok p =>
      rw [hbare, Program.ofStream_exhausted, Program.ofStream_ok_of_other_end hbody
        (List.ne_nil_of_mem hmem) (hend stop) (hend _) h]
      exact .ok
  | error d =>
      obtain ⟨s, hs⟩ := Session.ofStream_eq_error.1 h
      obtain ⟨pre, t, post, hsplit, hpending, -⟩ := Session.exists_viable_of_program (hend stop) hs
      have hcurrent : s.current = t := by rw [TokenStream.current, hpending]
      rcases post.eq_nil_or_concat with rfl | ⟨post, q, rfl⟩
      · -- the parse stopped at the end mark
        obtain ⟨-, ht⟩ := List.append_inj' hsplit rfl
        cases ht
        have hlength : s.pending.length = 1 := by rw [hpending]; rfl
        have hposition : d.position = stop := Program.position_of_error_at_end hs hlength
        have hword : (EndMark.atPosition stop).token.word =
            (EndMark.atPosition last.span.stop).token.word := rfl
        have hother : Program.ofStream (TokenStream.ofTokens
            (body ++ [(EndMark.atPosition last.span.stop).token]) file) file =
              .error ⟨d.cause, last.span.stop⟩ :=
          Program.ofStream_error_of_other_end hword hs hlength
        rw [hbare, Program.ofStream_exhausted, hother]
        obtain ⟨cause, position⟩ := d
        cases hposition
        exact .atEnd hs (hcurrent ▸ hend position)
      · -- the parse stopped before it, and never looked at it
        have hpre : body = pre ++ t :: post := by
          rw [List.concat_eq_append, ← List.cons_append, ← List.append_assoc] at hsplit
          exact (List.append_inj' hsplit rfl).1
        have ht : t ∈ body := by simp [hpre]
        rw [Session.ofStream_error_of_append hs hsplit hpending hpre]
        exact .atToken hs (hcurrent ▸ hbody t ht)

namespace Session

theorem sameButEnd_of_tokenize {source file : String} {ts : List Token}
    (hts : tokenize source file = .ok ts) (hword : ∃ t ∈ ts, t.kind ≠ .endOfInput) :
    ∃ last o o', ts.dropLast.getLast? = some last ∧ parseSource source file = conclude o ∧
      parseStream (TokenStream.ofTokens ts.dropLast file) file = conclude o' ∧
      SameButEnd ts file (Position.ofBytes file source.utf8ByteSize) last.span.stop o o' := by
  have hsource := Program.ofSource_of_tokenize hts
  obtain ⟨ls, -, rfl⟩ := tokenize_eq_ok_iff.1 hts
  have hbody : ∀ t ∈ tokensAfter file 0 ls, t.kind ≠ .endOfInput :=
    fun _ ht => kind_ne_endOfInput_of_mem_tokensAfter ht
  obtain ⟨last, hlast⟩ : ∃ last, (tokensAfter file 0 ls).getLast? = some last := by
    obtain ⟨t, ht, hkind⟩ := hword
    rcases List.mem_append.1 ht with ht | ht
    · exact ⟨_, List.getLast?_eq_some_getLast (List.ne_nil_of_mem ht)⟩
    · rw [List.mem_singleton] at ht
      exact absurd (ht ▸ rfl) hkind
  refine ⟨last, _, _, ?_, rfl, rfl, ?_⟩
  · rw [List.dropLast_concat]
    exact hlast
  · rw [hsource, List.dropLast_concat]
    exact sameButEnd_ofStream hbody hlast _

/-- Both parses stop at the end, which two blanks tell from the end of the last token. -/
theorem sameButEnd_of_open_class :
    let source := "class A\x7b  "
    let ts : List Token := [⟨.keyword .kwClass, "class", .ofBytes "a.cl" 0 5⟩,
      ⟨.identifier, "A", .ofBytes "a.cl" 6 1⟩, ⟨.symbol .openBrace, "\x7b", .ofBytes "a.cl" 7 1⟩,
      ⟨.endOfInput, "EOF", .ofBytes "a.cl" 10 0⟩]
    tokenize source "a.cl" = .ok ts ∧ (∃ t ∈ ts, t.kind ≠ .endOfInput) ∧
      ∃ last o o', ts.dropLast.getLast? = some last ∧ parseSource source "a.cl" = conclude o ∧
        parseStream (TokenStream.ofTokens ts.dropLast "a.cl") "a.cl" = conclude o' ∧
        SameButEnd ts "a.cl" (.ofBytes "a.cl" source.utf8ByteSize) last.span.stop o o' := by
  intro source ts
  have hts : tokenize source "a.cl" = .ok ts := by cbv
  have hword : ∃ t ∈ ts, t.kind ≠ .endOfInput := ⟨_, List.mem_cons_self, by decide⟩
  exact ⟨hts, hword, sameButEnd_of_tokenize hts hword⟩

end Session

end ClassLang
