import ClassLang.Proofs.Grammar.Lookahead
import ClassLang.Session
/-!
What parses look at. Main statement: a rule is determined by the tokens that it takes and the one
after them, and a parse by the tokens up to an end mark (`Session.reads_one_ahead`).
-/

namespace ClassLang

open Grammar

variable {file : String} {s s' : TokenStream}

theorem Program.ofStream_eq_of_take {n : Nat} (hagree : s.take n = s'.take n)
    (hend : ∃ q ∈ s.take n, q.kind = .endOfInput) : ofStream s file = ofStream s' file := by
  have hscript : HasScript file (program file) _ := .program
  obtain ⟨u, t, h, hkind⟩ := exists_endsBefore_program file s
  -- the tokens that the parse takes come before the end mark
  have hlt : u.length < n := by
    rcases Nat.lt_or_ge u.length n with hlt | hle
    · exact hlt
    · obtain ⟨k, hk⟩ := Nat.exists_eq_add_of_le hle
      have hu := h.take_eq
      rw [hk, TokenStream.take_add] at hu
      obtain ⟨q, hq, hqend⟩ := hend
      have hmem : q ∈ u := by
        rw [← hu]
        exact List.mem_append_left _ hq
      exact absurd hqend (hkind q hmem)
  have hs' : s'.take (u.length + 1) = u ++ [t] :=
    (TokenStream.take_eq_of_le hagree hlt).symm.trans h.tokens
  obtain ⟨-, hresult⟩ := hscript.endsBefore_of_take h hs'
  rw [ofStream, ofStream, hresult]
  cases Rule.bounded (program file) s <;> rfl

theorem TokenStream.take_ofTokens {u rest : List Token} {stop : Token} :
    (ofTokens (u ++ stop :: rest) file).take (u.length + 1) = u ++ [stop] := by
  have htake := take_of_append (u ++ [stop]) rest (ofTokens (u ++ stop :: rest) file).endMark
  rw [List.append_assoc, List.length_append] at htake
  exact htake

namespace Session

theorem reads_one_ahead (file : String) :
    (∀ {α : Type} {rule : Nat → Rule α} {x : Script Call α}, HasScript file rule x →
      (∀ s, ∃ u t, EndsBefore x s u t (Rule.bounded rule s)) ∧
      ∀ {s s' : TokenStream} {u : List Token} {t : Token},
        EndsBefore x s u t (Rule.bounded rule s) → s'.take (u.length + 1) = u ++ [t] →
        EndsBefore x s' u t (Rule.bounded rule s') ∧
          Rule.bounded rule s' = Rule.endingAt (s'.drop u.length) (Rule.bounded rule s)) ∧
    (∀ s, ∃ u t,
      EndsBefore (Script.call (.program file)) s u t (Rule.bounded (program file) s) ∧
        ∀ q ∈ u, q.kind ≠ .endOfInput) ∧
    ∀ {u rest rest' : List Token} {stop : Token}, stop.kind = .endOfInput →
      parseStream (TokenStream.ofTokens (u ++ stop :: rest) file) file =
        parseStream (TokenStream.ofTokens (u ++ stop :: rest') file) file := by
  refine ⟨?_, exists_endsBefore_program file, ?_⟩
  · intro α rule x hscript
    exact ⟨hscript.exists_endsBefore, fun h hs' => hscript.endsBefore_of_take h hs'⟩
  · intro u rest rest' stop hstop
    have hend : ∃ q ∈ (TokenStream.ofTokens (u ++ stop :: rest) file).take (u.length + 1),
        q.kind = .endOfInput := by
      refine ⟨stop, ?_, hstop⟩
      rw [TokenStream.take_ofTokens]
      exact List.mem_append_right u (List.mem_singleton_self stop)
    have hagree := @TokenStream.take_ofTokens file u rest stop
    rw [← @TokenStream.take_ofTokens file u rest' stop] at hagree
    rw [parseStream, parseStream, Program.ofStream_eq_of_take hagree hend]

/-- The rule for `break` takes an end mark for its first token, wherever the mark stands. -/
theorem reads_one_ahead_of_break_at_end :
    let mark := EndMark.atPosition (.ofBytes "a.cl" 3)
    let name := Token.mk .identifier "b" (.ofBytes "a.cl" 4 1)
    let s := TokenStream.mk [] mark
    let s' := TokenStream.mk [mark.token, mark.token, name] (.atPosition (.ofBytes "a.cl" 5))
    let rule (bound : Nat) : Rule Phrase := ruleOf "a.cl" bound .breakStatement
    let script := Unbounded.scriptOf "a.cl" .breakStatement
    let d : Diagnostic := ⟨.missing "break statement" ";", .ofBytes "a.cl" 3⟩
    HasScript "a.cl" rule script ∧
      EndsBefore script s [mark.token] mark.token (.error d s) ∧
      s'.take 2 = [mark.token, mark.token] ∧
      EndsBefore script s' [mark.token] mark.token (Rule.bounded rule s') ∧
      Rule.bounded rule s' = .error d (s'.drop 1) ∧
      parseStream (TokenStream.ofTokens ([] ++ mark.token :: [name]) "a.cl") "a.cl" =
        parseStream (TokenStream.ofTokens ([] ++ mark.token :: []) "a.cl") "a.cl" := by
  intro mark name s s' rule script d
  have hscript : HasScript "a.cl" rule script := .ruleOf .breakStatement
  have htakes : procedures.Evaluates 1 0 script s 1 (.error d s) :=
    .invokeFail (.inl (by decide)) (.take (.look .fail))
  have h : EndsBefore script s [mark.token] mark.token (Rule.bounded rule s) :=
    ⟨⟨1, 0, htakes⟩, rfl⟩
  obtain ⟨hrules, -, hlists⟩ := reads_one_ahead "a.cl"
  obtain ⟨h', hresult⟩ := (hrules hscript).2 h (rfl : s'.take 2 = _)
  exact ⟨hscript, h, rfl, h', hresult, hlists rfl⟩

end Session

end ClassLang
