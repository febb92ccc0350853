import ClassLang.Proofs.Syntax.WellFormed
import ClassLang.Proofs.Text.Numeral
import ClassLang.Token.Lexeme
/-!
What the tokens of a source text are like. Main statement: their values suit their kinds, and they
stand in the file (`lexical_of_mem_tokenize`).
-/

namespace ClassLang

namespace TokenKind

/-- The values that a token of the kind may have in a source text. -/
def Admits : TokenKind → String → Prop
  | .endOfInput, value => value = "EOF"
  | .identifier, value => isName value = true
  | .integer, value => IsDigits value.toList
  | .string, _ => True
  | .boolean, value => value = "true" ∨ value = "false"
  | .keyword k, value => value = k.spelling
  | .symbol s, value => value = s.spelling

end TokenKind

/-- A token as a text in the file has it. -/
structure Token.Lexical (file : String) (t : Token) : Prop where
  admits : t.kind.Admits t.value
  file_eq : t.position.file = file

theorem wordKind_cases (word : String) :
    (wordKind word = .boolean ∧ (word = "true" ∨ word = "false")) ∨
      (∃ k, wordKind word = .keyword k ∧ word = k.spelling) ∨
        (wordKind word = .identifier ∧ reservedKind? word = none) := by
  cases hreserved : reservedKind? word with
  | none => exact .inr (.inr ⟨wordKind_eq_identifier_iff.2 hreserved, rfl⟩)
  | some kind =>
      have hkind : wordKind word = kind := by rw [wordKind, hreserved]; rfl
      rw [reservedKind?] at hreserved
      split at hreserved
      · next hboolean =>
          cases hreserved
          exact .inl ⟨hkind, hboolean⟩
      · obtain ⟨k, hfind, rfl⟩ := Option.map_eq_some_iff.1 hreserved
        have hspelling := List.find?_some hfind
        rw [decide_eq_true_iff] at hspelling
        exact .inr (.inl ⟨k, hkind, hspelling.symm⟩)

theorem admits_wordKind {text rest cs : List Char}
    (h : takeRun? isWordStart isWordRest cs = some (text, rest)) :
    (wordKind (String.ofList text)).Admits (String.ofList text) := by
  rcases wordKind_cases (String.ofList text) with ⟨hkind, hword⟩ | ⟨k, hkind, hword⟩ |
    ⟨hkind, hreserved⟩
  · rw [hkind]
    exact hword
  · rw [hkind]
    exact hword
  · rw [hkind]
    cases cs with
    | nil => simp [takeRun?] at h
    | cons c cs =>
        rw [takeRun?] at h
        split at h
        · next hstart =>
            cases h
            simp only [TokenKind.Admits, isName, String.toList_ofList, hstart, List.all_takeWhile,
              hreserved]
            rfl
        · cases h

theorem all_of_takeRun? {p : Char → Bool} {text rest cs : List Char}
    (h : takeRun? p p cs = some (text, rest)) : text ≠ [] ∧ text.all p = true := by
  cases cs with
  | nil => simp [takeRun?] at h
  | cons c cs =>
      rw [takeRun?] at h
      split at h
      · next hstart =>
          cases h
          refine ⟨by simp, ?_⟩
          rw [List.all_cons, hstart, Bool.true_and, List.all_takeWhile]
      · cases h

theorem exists_take?_of_nextLexeme? {cs rest : List Char} {l : Lexeme}
    (h : nextLexeme? cs = some (l, rest)) : l.pattern.take? cs = some (l.text, rest) := by
  obtain ⟨p, -, hp⟩ := List.exists_of_findSome?_eq_some h
  obtain ⟨⟨text, r⟩, ht, he⟩ := Option.map_eq_some_iff.1 hp
  cases he
  exact ht

theorem exists_take?_of_mem_scan {cs : List Char} {l : Lexeme} (hl : l ∈ (scan cs).lexemes) :
    ∃ ds rest, l.pattern.take? ds = some (l.text, rest) := by
  fun_induction scan cs with
  | case1 => simp at hl
  | case2 => simp at hl
  | case3 => simp at hl
  | case4 c cs m rest h _ ih =>
      rcases List.mem_cons.1 hl with rfl | hl
      · exact ⟨c :: cs, rest, exists_take?_of_nextLexeme? h⟩
      · exact ih hl

theorem admits_of_token? {l : Lexeme} {ds rest : List Char} {span : Span} {t : Token}
    (hl : l.pattern.take? ds = some (l.text, rest)) (ht : l.token? span = some t) :
    t.kind.Admits t.value := by
  obtain ⟨pattern, text⟩ := l
  cases pattern with
  | word =>
      cases ht
      exact admits_wordKind hl
  | digits =>
      cases ht
      change IsDigits (String.ofList text).toList
      rw [String.toList_ofList]
      exact all_of_takeRun? hl
  | quotedText => cases ht; trivial
  | symbol s => cases ht; rfl
  | _ => cases ht

theorem span_of_token? {l : Lexeme} {span : Span} {t : Token} (h : l.token? span = some t) :
    t.span = span := by
  obtain ⟨pattern, text⟩ := l
  cases pattern <;> cases h <;> rfl

theorem kind_ne_endOfInput_of_token? {l : Lexeme} {span : Span} {t : Token}
    (h : l.token? span = some t) : t.kind ≠ .endOfInput := by
  obtain ⟨pattern, text⟩ := l
  cases pattern with
  | word =>
      cases h
      rcases wordKind_cases (String.ofList text) with ⟨hkind, -⟩ | ⟨k, hkind, -⟩ | ⟨hkind, -⟩ <;>
        simp [hkind]
  | _ => cases h <;> simp

theorem kind_ne_endOfInput_of_mem_tokensAfter {file : String} {before : Nat} {ls : List Lexeme}
    {t : Token} (ht : t ∈ tokensAfter file before ls) : t.kind ≠ .endOfInput := by
  induction ls generalizing before with
  | nil => simp [tokensAfter] at ht
  | cons l ls ih =>
      rw [tokensAfter, List.mem_append] at ht
      rcases ht with ht | ht
      · rw [Option.mem_toList] at ht
        exact kind_ne_endOfInput_of_token? ht
      · exact ih ht

theorem tokenize_eq_ok_iff {source file : String} {ts : List Token} :
    tokenize source file = .ok ts ↔ ∃ ls, scan source.toList = ⟨ls, none⟩ ∧
      ts = tokensAfter file 0 ls ++
        [(EndMark.atPosition (Position.ofBytes file source.utf8ByteSize)).token] := by
  rw [tokenize, ← byteLength_toList]
  constructor
  · intro h
    cases hfault : (scan source.toList).fault with
    | some fault => simp [hfault] at h
    | none =>
        simp only [hfault, scan_texts_of_fault_none hfault] at h
        cases h
        refine ⟨(scan source.toList).lexemes, ?_, rfl⟩
        rw [← hfault]
  · rintro ⟨ls, hscan, rfl⟩
    have htext : (scan source.toList).text = source.toList :=
      scan_texts_of_fault_none (by rw [hscan])
    simp only [hscan] at htext ⊢
    rw [htext]

theorem exists_append_of_tokenize {source file : String} {ts : List Token}
    (h : tokenize source file = .ok ts) :
    ∃ body stop, ts = body ++ [stop] ∧ stop.kind = .endOfInput ∧
      ∀ t ∈ body, t.kind ≠ .endOfInput := by
  obtain ⟨ls, -, rfl⟩ := tokenize_eq_ok_iff.1 h
  exact ⟨_, _, rfl, rfl, fun _ ht => kind_ne_endOfInput_of_mem_tokensAfter ht⟩

theorem lexical_of_mem_tokensAfter {file : String} {before : Nat} {ls : List Lexeme} {t : Token}
    (hls : ∀ l ∈ ls, ∃ ds rest, l.pattern.take? ds = some (l.text, rest))
    (ht : t ∈ tokensAfter file before ls) : t.Lexical file := by
  induction ls generalizing before with
  | nil => simp [tokensAfter] at ht
  | cons l ls ih =>
      rw [tokensAfter, List.mem_append] at ht
      rcases ht with ht | ht
      · rw [Option.mem_toList] at ht
        obtain ⟨ds, rest, hl⟩ := hls l (by simp)
        refine ⟨admits_of_token? hl ht, ?_⟩
        rw [Token.position, span_of_token? ht]
        rfl
      · exact ih (fun l hl => hls l (by simp [hl])) ht

theorem lexical_of_mem_tokenize {source file : String} {ts : List Token}
    (h : tokenize source file = .ok ts) : ∀ t ∈ ts, t.Lexical file := by
  intro t ht
  obtain ⟨ls, hscan, rfl⟩ := tokenize_eq_ok_iff.1 h
  rcases List.mem_append.1 ht with ht | ht
  · refine lexical_of_mem_tokensAfter (fun l hl => ?_) ht
    exact exists_take?_of_mem_scan (by rw [hscan]; exact hl)
  · rw [List.mem_singleton] at ht
    subst ht
    exact ⟨rfl, rfl⟩

end ClassLang
