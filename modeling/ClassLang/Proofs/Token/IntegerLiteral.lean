import ClassLang.Proofs.Token.Advance
/-!
Integer literals in source texts. Main statement: the integer constants among the tokens of a text
are the runs of digits that the scanner comes to, in full and at their places
(`mem_tokenize_integer_iff`).
-/

namespace ClassLang

/-- The scanner takes the lexemes and comes to the digits, which no further digit follows. -/
structure IntegerAfter (source : String) (ls : List Lexeme) (digits after : List Char) : Prop where
  reached : Advances source.toList ls (digits ++ after)
  isDigits : IsDigits digits
  ended : ∀ c ∈ after.head?, isDecimal c = false

def Token.ofDigits (file : String) (before : Nat) (digits : List Char) : Token :=
  ⟨.integer, String.ofList digits, Span.ofBytes file before (byteLength digits)⟩

theorem IsDigits.readInteger?_ofDigits {file : String} {before : Nat} {digits : List Char}
    (h : IsDigits digits) :
    readInteger? (Token.ofDigits file before digits).value.toList =
      if decimalValue digits ≤ maxInteger then some (decimalValue digits : Int) else none := by
  rw [Token.ofDigits, String.toList_ofList, readInteger?_digits h.1 h.2]

theorem IntegerAfter.lexemes_eq {source : String} {ls : List Lexeme} {digits after : List Char}
    (h : IntegerAfter source ls digits after) :
    (scan source.toList).lexemes = ls ++ ⟨.digits, digits⟩ :: (scan after).lexemes := by
  have htaken := nextLexeme?_digits h.isDigits h.ended
  rw [h.reached.scan_eq, scan_eq_cons htaken (by simp)]
  rfl

theorem mem_tokensAfter_iff {file : String} {before : Nat} {ls : List Lexeme} {t : Token} :
    t ∈ tokensAfter file before ls ↔ ∃ ls₁ l ls₂, ls = ls₁ ++ l :: ls₂ ∧
      l.token? (Span.ofBytes file (before + byteLength (textOf ls₁)) (byteLength l.text)) =
        some t := by
  constructor
  · intro ht
    induction ls generalizing before with
    | nil => cases ht
    | cons l ls ih =>
        rw [tokensAfter, List.mem_append, Option.mem_toList] at ht
        rcases ht with ht | ht
        · exact ⟨[], l, ls, rfl, ht⟩
        · obtain ⟨ls₁, m, ls₂, rfl, hm⟩ := ih ht
          refine ⟨l :: ls₁, m, ls₂, rfl, ?_⟩
          rw [textOf_cons, byteLength_append, ← Nat.add_assoc]
          exact hm
  · rintro ⟨ls₁, l, ls₂, rfl, hl⟩
    rw [tokensAfter_append, tokensAfter, hl]
    simp

theorem eq_of_token?_integer {l : Lexeme} {span : Span} {t : Token} (h : l.token? span = some t)
    (hkind : t.kind = .integer) :
    l.pattern = .digits ∧ t = ⟨.integer, String.ofList l.text, span⟩ := by
  obtain ⟨pattern, text⟩ := l
  cases pattern with
  | word =>
      cases h
      rcases wordKind_cases (String.ofList text) with ⟨hword, -⟩ | ⟨k, hword, -⟩ | ⟨hword, -⟩
      · exact absurd (hword.symm.trans hkind) (by simp)
      · exact absurd (hword.symm.trans hkind) (by simp)
      · exact absurd (hword.symm.trans hkind) (by simp)
  | digits =>
      cases h
      exact ⟨rfl, rfl⟩
  | quotedText =>
      cases h
      cases hkind
  | symbol s =>
      cases h
      cases hkind
  | _ => cases h

theorem mem_tokenize_integer_iff {source file : String} {ts : List Token} {t : Token}
    (h : tokenize source file = .ok ts) :
    t ∈ ts ∧ t.kind = .integer ↔ ∃ ls digits after, IntegerAfter source ls digits after ∧
      t = Token.ofDigits file (byteLength (textOf ls)) digits := by
  obtain ⟨ls, hscan, rfl⟩ := tokenize_eq_ok_iff.1 h
  constructor
  · rintro ⟨ht, hkind⟩
    have hbody : t ∈ tokensAfter file 0 ls := by
      rcases List.mem_append.1 ht with ht | ht
      · exact ht
      · rw [List.mem_singleton.1 ht] at hkind
        cases hkind
    obtain ⟨ls₁, l, ls₂, rfl, hl⟩ := mem_tokensAfter_iff.1 hbody
    have hfault : (scan source.toList).fault = none := by rw [hscan]
    have hall := advances_of_fault_none hfault
    rw [hscan] at hall
    obtain ⟨mid, hmid, hrest⟩ := Advances.append_iff.1 hall
    obtain ⟨hpattern, rfl⟩ := eq_of_token?_integer hl hkind
    cases hrest with
    | @next _ after _ _ _ hnext _ _ =>
        obtain ⟨rfl, -⟩ := nextLexeme?_spec hnext
        have htake := exists_take?_of_nextLexeme? hnext
        rw [hpattern] at htake
        obtain ⟨-, -, -, -, -, hended⟩ := takeRun?_eq_some_iff.1 htake
        refine ⟨ls₁, l.text, after, ⟨hmid, all_of_takeRun? htake, hended⟩, ?_⟩
        rw [Token.ofDigits, Nat.zero_add]
  · rintro ⟨ls₁, digits, after, hinteger, rfl⟩
    refine ⟨List.mem_append_left _ (mem_tokensAfter_iff.2 ?_), rfl⟩
    have hlexemes := hinteger.lexemes_eq
    rw [hscan] at hlexemes
    refine ⟨ls₁, _, _, hlexemes, ?_⟩
    rw [Nat.zero_add]
    rfl

end ClassLang
