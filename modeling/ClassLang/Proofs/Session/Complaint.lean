import ClassLang.Proofs.Grammar.Complaint
import ClassLang.Proofs.Grammar.Lookahead
import ClassLang.Proofs.Session.Outcome
import ClassLang.Proofs.Token.Coverage
import ClassLang.Proofs.Token.Display
import ClassLang.Proofs.Token.Fault
import Mathlib
/-!
What a parse that fails says of the token that it stops at. Main statements: it stops at one of the
tokens and says of it what the grammar may say (`exists_stopsAt_of_ofStream`), and where something
else is wanted, the end of the file is suggested as the reason at the end and also at an identifier
that is spelt like the mark of the end (`tip_eq_endTip_iff_of_parseSource`).
-/

namespace ClassLang

namespace Cause

/-- The suggestion that goes with the end of a file. -/
def endTip : String :=
  "reached the end of the file, is a `\x7d` missing?"

theorem tip_expected_eq_endTip_iff {wanted found : String} :
    (expected wanted found).tip = some endTip ↔ found = endText := by
  rw [tip]
  split
  · next h => exact ⟨fun _ => h, fun _ => rfl⟩
  · next h => exact ⟨nofun, fun hfound => absurd hfound h⟩

end Cause

/-- The program rule, run on the tokens, stops at the token with the diagnostic. -/
structure StopsAt (ts : List Token) (file : String) (d : Diagnostic) (t : Token) : Prop where
  run : ∃ s, Rule.bounded (Grammar.program file) (TokenStream.ofTokens ts file) = .error d s ∧
    s.current = t
  mem : t ∈ ts
  lexical : t.Lexical file
  position_eq : d.position = t.position
  may : Grammar.MaySay t d.cause

variable {source file : String} {ts : List Token} {d : Diagnostic} {t : Token}

theorem exists_stopsAt_of_ofStream (hts : tokenize source file = .ok ts)
    (h : Program.ofStream (TokenStream.ofTokens ts file) file = .error d) :
    ∃ t, StopsAt ts file d t := by
  have hrun : ∃ s, Rule.bounded (Grammar.program file) (TokenStream.ofTokens ts file) =
      .error d s := by
    rw [Program.ofStream] at h
    cases hresult : Rule.bounded (Grammar.program file) (TokenStream.ofTokens ts file) with
    | ok p s => simp [hresult] at h
    | error d' s =>
        rw [hresult] at h
        cases h
        exact ⟨s, rfl⟩
  obtain ⟨s, hs⟩ := hrun
  obtain ⟨u, t, hends, -⟩ :=
    Grammar.exists_endsBefore_program file (TokenStream.ofTokens ts file)
  obtain ⟨n, i, hevaluates⟩ := hends.takes
  let p (t : Token) : Prop := t ∈ ts ∧ t.Lexical file
  have hall : (TokenStream.ofTokens ts file).All p := by
    obtain ⟨body, stop, rfl, hstop, -⟩ := exists_append_of_tokenize hts
    exact .ofTokens file hstop fun t ht => ⟨ht, lexical_of_mem_tokenize hts t ht⟩
  have hbody : ∀ {α : Type} (c : Grammar.Call α) (t : Token), c.OnOneLine → p t →
      (Grammar.Unbounded.body c).Complains (Grammar.terms p) t :=
    fun c t hc ht => Grammar.Unbounded.body_complains ht ht.2.admits c hc
  have hcall : (Script.call (Grammar.Call.program file)).Complains (Grammar.terms p)
      (TokenStream.ofTokens ts file).current := .call trivial
  obtain ⟨⟨hmem, hlexical⟩, hposition, hmay⟩ := hevaluates.of_error hbody hall hcall d s hs
  exact ⟨s.current, ⟨s, hs, rfl⟩, hmem, hlexical, hposition, hmay⟩

theorem stopsAt_of_ofSource (h : Program.ofSource source file = .error d) :
    tokenize source file = .error d ∨
      ∃ ts t, tokenize source file = .ok ts ∧ StopsAt ts file d t := by
  cases hts : tokenize source file with
  | error d' =>
      rw [Program.ofSource_of_tokenize_error hts] at h
      cases h
      exact .inl rfl
  | ok ts =>
      rw [Program.ofSource_of_tokenize hts] at h
      obtain ⟨t, ht⟩ := exists_stopsAt_of_ofStream hts h
      exact .inr ⟨ts, t, rfl, ht⟩

theorem kind_eq_endOfInput_iff (hsize : source.utf8ByteSize < UInt32.size)
    (hts : tokenize source file = .ok ts) (ht : t ∈ ts) :
    t.kind = .endOfInput ↔ t.start = source.utf8ByteSize := by
  have hcovers := covers_of_tokenize hsize hts
  have hle := hcovers.ends_le
  obtain ⟨body, mark, rfl, hmark, hstart, -, hbody⟩ := hcovers.exists_mark
  rw [Nat.zero_add, byteLength_toList] at hstart hle
  rcases List.mem_append.1 ht with hmem | hmem
  · obtain ⟨hkind, hlt⟩ := hbody t hmem
    have hstop := (hle t ht).2
    exact ⟨fun hend => absurd hend hkind, fun hend => by omega⟩
  · rw [List.mem_singleton.1 hmem]
    exact ⟨fun _ => hstart, fun _ => hmark⟩

namespace Session

variable {log log' : DiagnosticLog} {e : CompilationError}

theorem tip_eq_endTip_iff_of_parseSource (hsize : source.utf8ByteSize < UInt32.size)
    (h : parseSource source file log = .error e log') :
    ∃ d, log'.entries = log.entries ++ [d] ∧
      ∀ wanted found, d.cause = .expected wanted found →
        ∃ ts s, tokenize source file = .ok ts ∧
          Rule.bounded (Grammar.program file) (TokenStream.ofTokens ts file) = .error d s ∧
          (s.current.kind = .endOfInput ↔ d.position.offset.toNat = source.utf8ByteSize) ∧
          (d.tip = some Cause.endTip ↔ s.current.kind = .endOfInput ∨
            s.current.kind = .identifier ∧ s.current.value = Cause.endText) := by
  obtain ⟨d, hd, rfl, -⟩ := conclude_eq_error.1 h
  refine ⟨d, log.entries_register d, fun wanted found hcause => ?_⟩
  rcases stopsAt_of_ofSource hd with hfault | ⟨ts, t, hts, hstop⟩
  · obtain ⟨ls, rest, fault, -, -, rfl⟩ := tokenize_eq_error_iff.1 hfault
    cases fault <;> cases hcause
  · obtain ⟨⟨s, hs, rfl⟩, hmem, hlexical, hposition, hmay⟩ := hstop
    refine ⟨ts, s, hts, hs, ?_, ?_⟩
    · rw [hposition]
      exact kind_eq_endOfInput_iff hsize hts hmem
    · have hfound : found = s.current.display := by
        rw [hcause] at hmay
        cases hmay
        rfl
      rw [Diagnostic.tip, hcause, Cause.tip_expected_eq_endTip_iff, hfound]
      exact Token.display_eq_endText_iff hlexical.admits

theorem tip_eq_endTip_iff_of_open_class :
    let source := "class "
    let d : Diagnostic := ⟨.expected "identifier" "EOF", .ofBytes "a.cl" 6⟩
    source.utf8ByteSize < UInt32.size ∧
      parseSource source "a.cl" .empty = .error ⟨[d]⟩ ⟨[d]⟩ ∧
      ∃ d', [d] = [] ++ [d'] ∧ ∀ wanted found, d'.cause = .expected wanted found →
        ∃ ts s, tokenize source "a.cl" = .ok ts ∧
          Rule.bounded (Grammar.program "a.cl") (TokenStream.ofTokens ts "a.cl") = .error d' s ∧
          (s.current.kind = .endOfInput ↔ d'.position.offset.toNat = source.utf8ByteSize) ∧
          (d'.tip = some Cause.endTip ↔ s.current.kind = .endOfInput ∨
            s.current.kind = .identifier ∧ s.current.value = Cause.endText) := by
  intro source d
  have hsize : source.utf8ByteSize < UInt32.size := by decide
  have h : parseSource source "a.cl" .empty = .error ⟨[d]⟩ ⟨[d]⟩ := by cbv
  exact ⟨hsize, h, tip_eq_endTip_iff_of_parseSource hsize h⟩

/-- An identifier at the start of a text is taken for its end. -/
theorem tip_at_identifier_eq_endTip :
    let source := "EOF"
    let name : Token := ⟨.identifier, "EOF", .ofBytes "a.cl" 0 3⟩
    let mark := EndMark.atPosition (.ofBytes "a.cl" 3)
    let d : Diagnostic := ⟨.expected "class" "EOF", .ofBytes "a.cl" 0⟩
    parseSource source "a.cl" .empty = .error ⟨[d]⟩ ⟨[d]⟩ ∧
      tokenize source "a.cl" = .ok [name, mark.token] ∧
      Rule.bounded (Grammar.program "a.cl")
        (TokenStream.ofTokens [name, mark.token] "a.cl") = .error d ⟨[name, mark.token], mark⟩ ∧
      d.tip = some Cause.endTip ∧ name.kind ≠ .endOfInput ∧
      d.position.offset.toNat ≠ source.utf8ByteSize := by
  intro source name mark d
  have hparse : parseSource source "a.cl" .empty = .error ⟨[d]⟩ ⟨[d]⟩ := by cbv
  have htokens : tokenize source "a.cl" = .ok [name, mark.token] := by cbv
  have hkind : TokenKind.identifier ≠ .endOfInput := by decide
  exact ⟨hparse, htokens, rfl, rfl, hkind, by decide⟩

end Session

end ClassLang
