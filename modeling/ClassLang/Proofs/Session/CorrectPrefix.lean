import ClassLang.Proofs.Grammar.Locality
import ClassLang.Proofs.Grammar.Viability.Declaration
import ClassLang.Proofs.Session.Outcome
import Mathlib
/-!
Where diagnostics point. Main statement: a parse that fails points at the first token that makes the
program invalid (`exists_first_invalid_of_parseStream`).
-/

namespace ClassLang

namespace Session

/-- Some tokens after these, and an end mark after those, make something that is parsed. -/
def Viable (file : String) (pre : List Token) : Prop :=
  ∃ w, (∀ t ∈ pre ++ w, t.kind ≠ .endOfInput) ∧
    ∀ stop : Token, stop.kind = .endOfInput → ∀ log,
      ∃ p, parseStream (TokenStream.ofTokens (pre ++ w ++ [stop]) file) file log = .ok p log

variable {file : String} {body : List Token} {stop : Token} {s' : TokenStream} {d : Diagnostic}

theorem ofStream_eq_error {s : TokenStream} :
    Program.ofStream s file = .error d ↔
      ∃ s', Grammar.program file s.pending.length s = .error d s' := by
  rw [Program.ofStream, Rule.bounded]
  cases Grammar.program file s.pending.length s with
  | ok p s' => simp
  | error e s' => simp

theorem exists_viable_of_program {mark : EndMark} {bound : Nat} (hstop : stop.kind = .endOfInput)
    (h : Grammar.program file bound ⟨body ++ [stop], mark⟩ = .error d s') :
    ∃ pre t post, body ++ [stop] = pre ++ t :: post ∧ s'.pending = t :: post ∧
      Viable file pre := by
  obtain ⟨u, w, hu, hk⟩ := Grammar.program_follows.begun h
  have hword : ∀ t ∈ u ++ w, t.kind ≠ .endOfInput := by
    intro t ht hend
    obtain ⟨-, cs, hcs⟩ := hk [] nofun
    have hmem := hcs.mem_of_endOfInput hend (by simpa using ht)
    simp at hmem
  cases hs' : s'.pending with
  | nil =>
      rw [hs', List.append_nil] at hu
      have hmem : stop ∈ u := by
        rw [← hu]
        simp
      exact absurd hstop (hword stop (by simp [hmem]))
  | cons t post =>
      refine ⟨u, t, post, hs' ▸ hu, rfl, w, hword, fun stop hstop log => ?_⟩
      obtain ⟨-, cs, hcs⟩ := hk [stop] (by simp [hstop])
      rw [← List.append_assoc] at hcs
      obtain ⟨q, hp⟩ := hcs.program_of_classes hstop
      exact ⟨_, conclude_eq_ok.2 ⟨(Grammar.ofStream_eq_ok_iff hword hstop).2 hp, rfl⟩⟩

theorem ofStream_error_of_append {s s₁ : TokenStream} {pre post post' : List Token} {t : Token}
    (h : Grammar.program file s.pending.length s = .error d s')
    (hs : s.pending = pre ++ t :: post) (hs' : s'.pending = t :: post)
    (hs₁ : s₁.pending = pre ++ t :: post') : Program.ofStream s₁ file = .error d := by
  have htracks : Rule.Tracks (pre.length + 1) (Grammar.program file s.pending.length)
      (Grammar.program file s₁.pending.length) :=
    Grammar.program_tracks (by simp [hs]) (by simp [hs₁])
  rcases s with ⟨pending, mark⟩
  rcases s₁ with ⟨pending', mark'⟩
  subst hs hs₁
  rcases htracks.together ⟨t, post, mark, post', mark'⟩ pre (Nat.lt_succ_self _) with
    ⟨p, v, hp, -⟩ | ⟨d', v, hd, hd'⟩ | hleft
  · exact absurd (h.symm.trans hp) (by simp)
  · cases h.symm.trans hd
    exact ofStream_eq_error.2 ⟨_, hd'⟩
  · change (Rule.left (Grammar.program file _ ⟨pre ++ t :: post, mark⟩)).pending <:+ post at hleft
    rw [h] at hleft
    have hlength := hleft.length_le
    simp only [Rule.left, hs', List.length_cons] at hlength
    omega

theorem exists_first_invalid_of_parseStream {log log' : DiagnosticLog} {e : CompilationError}
    (hstop : stop.kind = .endOfInput)
    (h : parseStream (TokenStream.ofTokens (body ++ [stop]) file) file log = .error e log') :
    ∃ pre t post d, body ++ [stop] = pre ++ t :: post ∧
      log'.entries = log.entries ++ [d] ∧ d.position = t.position ∧ Viable file pre ∧
      ∀ post' log p log',
        parseStream (TokenStream.ofTokens (pre ++ t :: post') file) file log ≠ .ok p log' := by
  obtain ⟨d, hd, rfl, -⟩ := conclude_eq_error.1 h
  obtain ⟨s', hs'⟩ := ofStream_eq_error.1 hd
  obtain ⟨pre, t, post, hsplit, hpending, hviable⟩ := exists_viable_of_program hstop hs'
  have hposition : d.position = t.position := by
    rw [Grammar.program_steady.position hs', TokenStream.current, hpending]
  refine ⟨pre, t, post, d, hsplit, log.entries_register d, hposition, hviable, ?_⟩
  intro post' log₁ p log₂ hparse
  have hreject := ofStream_error_of_append hs' hsplit hpending
    (TokenStream.pending_ofTokens (pre ++ t :: post') file)
  rw [(conclude_eq_ok.1 hparse).1] at hreject
  cases hreject

theorem exists_first_invalid_of_nameless_field :
    let body : List Token := [⟨.keyword .kwClass, "class", .empty (.ofBytes "a.cl" 0)⟩,
      ⟨.identifier, "A", .empty (.ofBytes "a.cl" 6)⟩,
      ⟨.symbol .openBrace, "\x7b", .empty (.ofBytes "a.cl" 7)⟩,
      ⟨.identifier, "int", .empty (.ofBytes "a.cl" 8)⟩,
      ⟨.symbol .semicolon, ";", .empty (.ofBytes "a.cl" 11)⟩,
      ⟨.symbol .closeBrace, "\x7d", .empty (.ofBytes "a.cl" 12)⟩]
    let stop : Token := ⟨.endOfInput, "", .empty (.ofBytes "a.cl" 13)⟩
    let d : Diagnostic := ⟨.expected "identifier" ";", .ofBytes "a.cl" 11⟩
    parseStream (TokenStream.ofTokens (body ++ [stop]) "a.cl") "a.cl" .empty =
        .error ⟨[d]⟩ ⟨[d]⟩ ∧
      ∃ pre t post d', body ++ [stop] = pre ++ t :: post ∧ [d] = [] ++ [d'] ∧
        d'.position = t.position ∧ Viable "a.cl" pre ∧
        ∀ post' log p log', parseStream (TokenStream.ofTokens (pre ++ t :: post') "a.cl") "a.cl"
          log ≠ .ok p log' := by
  intro body stop d
  have h : parseStream (TokenStream.ofTokens (body ++ [stop]) "a.cl") "a.cl" .empty =
      .error ⟨[d]⟩ ⟨[d]⟩ := by cbv
  exact ⟨h, exists_first_invalid_of_parseStream rfl h⟩

end Session

end ClassLang
