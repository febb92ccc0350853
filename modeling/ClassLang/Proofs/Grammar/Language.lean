import ClassLang.Proofs.Grammar.Completeness.Declaration
import ClassLang.Proofs.Grammar.Derivation.Placement
import ClassLang.Proofs.Grammar.Soundness.Declaration
import ClassLang.Session
/-!
The language of programs. Main statement: a program is read off a list of tokens that ends in its
only end mark exactly if the tokens before the mark derive it, and they derive no other
(`ofStream_iff_derives`).
-/

namespace ClassLang

namespace Grammar

/-- The tokens derive the program, which has no positions. -/
def Derives (file : String) (body : List Token) (p : Program) : Prop :=
  ∃ cs, DerivesDecl nowhere file .classes body [] cs ∧ p = ⟨.null, ⟨.null, cs⟩⟩

variable {file : String} {body : List Token} {stop : Token}

theorem DerivesDecl.program_of_classes {place : Token → Position} {cs : List ClassDecl}
    (hstop : stop.kind = .endOfInput)
    (h : DerivesDecl place file .classes (body ++ [stop]) [stop] cs) :
    ∃ t, DerivesDecl place file .program (body ++ [stop]) [stop] ⟨place t, ⟨place t, cs⟩⟩ := by
  obtain ⟨t, i, hi⟩ := List.exists_cons_of_ne_nil (l := body ++ [stop]) (by simp)
  rw [hi] at h ⊢
  exact ⟨t, .program h hstop⟩

theorem derives_iff (hstop : stop.kind = .endOfInput) {p : Program} :
    Derives file body p ↔ DerivesDecl nowhere file .program (body ++ [stop]) [stop] p := by
  constructor
  · rintro ⟨cs, h, rfl⟩
    obtain ⟨u, rfl, hk⟩ := h.exists_prefix (by simp)
    obtain ⟨t, h⟩ := (hk [stop]).program_of_classes hstop
    rw [List.append_nil]
    exact h
  · intro h
    generalize hi : body ++ [stop] = i at h
    cases h with
    | @program t q i k cs hcs hq =>
        obtain ⟨u, hu, hk⟩ := hcs.exists_prefix (by simp)
        rw [hu] at hi
        obtain ⟨rfl, -⟩ := List.append_inj' hi rfl
        exact ⟨cs, by simpa using hk [], rfl⟩

theorem eq_of_append_endOfInput {u k : List Token} {q : Token}
    (hbody : ∀ t ∈ body, t.kind ≠ .endOfInput) (hq : q.kind = .endOfInput)
    (h : u ++ q :: k = body ++ [stop]) : q :: k = [stop] := by
  rcases k.eq_nil_or_concat with rfl | ⟨k', x, rfl⟩
  · exact (List.append_inj' h rfl).2
  · have hu : (u ++ q :: k') ++ [x] = body ++ [stop] := by simpa using h
    obtain ⟨rfl, -⟩ := List.append_inj' hu rfl
    exact absurd hq (hbody q (by simp))

theorem ofStream_eq_ok_iff (hbody : ∀ t ∈ body, t.kind ≠ .endOfInput)
    (hstop : stop.kind = .endOfInput) {p : Program} :
    Program.ofStream (TokenStream.ofTokens (body ++ [stop]) file) file = .ok p ↔
      DerivesDecl Token.position file .program (body ++ [stop]) [stop] p := by
  rw [Program.ofStream, Rule.bounded]
  constructor
  · intro h
    split at h
    · next p' s' hprogram =>
        cases h
        have hmem : stop ∈ (TokenStream.ofTokens (body ++ [stop]) file).pending := by simp
        have hp := program_reads hmem hstop (Nat.le_refl _) hprogram
        rw [TokenStream.pending_ofTokens] at hp
        generalize hi : body ++ [stop] = i at hp
        generalize hk : s'.pending = k at hp
        cases hp with
        | program hcs hq =>
            obtain ⟨u, hu, -⟩ := hcs.exists_prefix (by simp)
            rw [← eq_of_append_endOfInput hbody hq (hu.symm.trans hi.symm)]
            exact .program hcs hq
    · cases h
  · intro h
    rw [TokenStream.ofTokens, program_accepts _ (Nat.le_refl _) h]

theorem ofStream_iff_derives (hbody : ∀ t ∈ body, t.kind ≠ .endOfInput)
    (hstop : stop.kind = .endOfInput) :
    (∀ p, (∃ placed, Program.ofStream (TokenStream.ofTokens (body ++ [stop]) file) file =
        .ok placed ∧ placed.unplaced = p) ↔ Derives file body p) ∧
      ∀ p q, Derives file body p → Derives file body q → p = q := by
  have hlift : ∀ p, (∃ placed, Program.ofStream (TokenStream.ofTokens (body ++ [stop]) file) file =
      .ok placed ∧ placed.unplaced = p) ↔ Derives file body p := by
    intro p
    rw [derives_iff hstop]
    constructor
    · rintro ⟨placed, h, rfl⟩
      obtain ⟨p, hp, hunplaced⟩ := ((ofStream_eq_ok_iff hbody hstop).1 h).exists_placed nowhere
      have hp' := hp.unplaced_eq
      rw [hp'] at hunplaced
      rw [hunplaced] at hp
      exact hp
    · intro h
      obtain ⟨placed, hplaced, hunplaced⟩ := h.exists_placed Token.position
      rw [h.unplaced_eq] at hunplaced
      exact ⟨placed, (ofStream_eq_ok_iff hbody hstop).2 hplaced, hunplaced⟩
  refine ⟨hlift, ?_⟩
  intro p q hp hq
  obtain ⟨placed, h, rfl⟩ := (hlift p).2 hp
  obtain ⟨placed', h', rfl⟩ := (hlift q).2 hq
  rw [h] at h'
  cases h'
  rfl

theorem derives_class_with_field :
    (∀ t ∈ [Token.mk (.keyword .kwClass) "class" (.empty .null), ⟨.identifier, "A", .empty .null⟩,
      ⟨.symbol .openBrace, "\x7b", .empty .null⟩, ⟨.identifier, "int", .empty .null⟩,
      ⟨.identifier, "n", .empty .null⟩, ⟨.symbol .semicolon, ";", .empty .null⟩,
      ⟨.symbol .closeBrace, "\x7d", .empty .null⟩], t.kind ≠ .endOfInput) ∧
    Derives "a.cl" [⟨.keyword .kwClass, "class", .empty .null⟩, ⟨.identifier, "A", .empty .null⟩,
      ⟨.symbol .openBrace, "\x7b", .empty .null⟩, ⟨.identifier, "int", .empty .null⟩,
      ⟨.identifier, "n", .empty .null⟩, ⟨.symbol .semicolon, ";", .empty .null⟩,
      ⟨.symbol .closeBrace, "\x7d", .empty .null⟩]
      ⟨.null, ⟨.null, [⟨.null, "a.cl", "A", none,
        ⟨.null, [.field ⟨.null, "int", "n", none⟩]⟩⟩]⟩⟩ :=
  ⟨by decide, ((ofStream_iff_derives (by decide)
    (rfl : (EndMark.atPosition .null).token.kind = .endOfInput)).1 _).1 ⟨_, rfl, rfl⟩⟩

end Grammar

end ClassLang
