import ClassLang.Proofs.Syntax.Print
/-!
Words laid out with spaces between them are cut at the spaces. Main statements: lexemes that stand
alone between spaces are cut out of the text as they are (`scan_spaced`), and the tokens of a text
that is laid out from words are those words (`tokenize_layout`).
-/

namespace ClassLang

/-- Nothing, or what a space begins. -/
def AtSpace (rest : List Char) : Prop :=
  rest = [] ∨ ∃ cs, rest = ' ' :: cs

theorem takeRun?_of_all {starts continues : Char → Bool} {c : Char} {cs rest : List Char}
    (hc : starts c = true) (hcs : cs.all continues = true)
    (hrest : ∀ d ∈ rest.head?, continues d = false) :
    takeRun? starts continues (c :: (cs ++ rest)) = some (c :: cs, rest) := by
  rw [List.all_eq_true] at hcs
  have hnone : rest.takeWhile continues = [] ∧ rest.dropWhile continues = rest := by
    cases rest with
    | nil => simp
    | cons d ds => simp [hrest d (by simp)]
  rw [takeRun?, if_pos hc, List.takeWhile_append_of_pos hcs, List.dropWhile_append_of_pos hcs,
    hnone.1, hnone.2, List.append_nil]

theorem AtSpace.head {rest : List Char} (h : AtSpace rest) {p : Char → Bool}
    (hspace : p ' ' = false) : ∀ d ∈ rest.head?, p d = false := by
  intro d hd
  rcases h with rfl | ⟨ds, rfl⟩
  · simp at hd
  · simp at hd
    rw [← hd]
    exact hspace

theorem takeRun?_of_atSpace {starts continues : Char → Bool} {c : Char} {cs rest : List Char}
    (hc : starts c = true) (hcs : cs.all continues = true) (hspace : continues ' ' = false)
    (hrest : AtSpace rest) :
    takeRun? starts continues (c :: (cs ++ rest)) = some (c :: cs, rest) :=
  takeRun?_of_all hc hcs (hrest.head hspace)

theorem isWordStart_eq_false_of_isDecimal {c : Char} (h : isDecimal c = true) :
    isWordStart c = false := by
  simp only [isDecimal, isWordStart, Char.le_def, UInt32.le_iff_toNat_le, Bool.and_eq_true,
    decide_eq_true_eq, Bool.or_eq_false_iff, Bool.and_eq_false_iff, decide_eq_false_iff_not] at *
  refine ⟨⟨?_, ?_⟩, ?_⟩
  · exact .inl (by change ¬ 97 ≤ _; have : c.val.toNat ≤ 57 := h.2; omega)
  · exact .inl (by change ¬ 65 ≤ _; have : c.val.toNat ≤ 57 := h.2; omega)
  · rintro rfl
    exact absurd h (by decide)

theorem nextLexeme?_of_isName {cs rest : List Char} {c : Char} (hc : isWordStart c = true)
    (hcs : cs.all isWordRest = true) (hrest : AtSpace rest) :
    nextLexeme? (c :: (cs ++ rest)) = some (⟨.word, c :: cs⟩, rest) := by
  have htake : Pattern.word.take? (c :: (cs ++ rest)) = some (c :: cs, rest) :=
    takeRun?_of_atSpace hc hcs (by decide) hrest
  simp [nextLexeme?, Pattern.table, htake]

theorem nextLexeme?_digits {ds rest : List Char} (h : IsDigits ds)
    (hrest : ∀ d ∈ rest.head?, isDecimal d = false) :
    nextLexeme? (ds ++ rest) = some (⟨.digits, ds⟩, rest) := by
  obtain ⟨hne, hall⟩ := h
  cases ds with
  | nil => exact absurd rfl hne
  | cons c cs =>
      rw [List.all_cons, Bool.and_eq_true] at hall
      have hword : Pattern.word.take? (c :: (cs ++ rest)) = none := by
        have hstart := isWordStart_eq_false_of_isDecimal hall.1
        simp [Pattern.take?, takeRun?, hstart]
      have htake : Pattern.digits.take? (c :: (cs ++ rest)) = some (c :: cs, rest) :=
        takeRun?_of_all hall.1 hall.2 hrest
      simp [nextLexeme?, Pattern.table, hword, htake]

theorem nextLexeme?_of_isDigits {ds rest : List Char} (h : IsDigits ds) (hrest : AtSpace rest) :
    nextLexeme? (ds ++ rest) = some (⟨.digits, ds⟩, rest) :=
  nextLexeme?_digits h (hrest.head (by decide))

theorem nextLexeme?_of_takeQuoted? {cs text rest : List Char}
    (h : takeQuoted? ('"' :: cs) = some (text, rest)) :
    nextLexeme? ('"' :: cs) = some (⟨.quotedText, text⟩, rest) := by
  have htake : Pattern.quotedText.take? ('"' :: cs) = some (text, rest) := h
  have hword : Pattern.word.take? ('"' :: cs) = none := rfl
  have hdigits : Pattern.digits.take? ('"' :: cs) = none := rfl
  have hblanks : Pattern.blanks.take? ('"' :: cs) = none := rfl
  simp [nextLexeme?, Pattern.table, hword, hdigits, hblanks, htake]

theorem nextLexeme?_inQuotes (text rest : List Char) :
    nextLexeme? (inQuotes text ++ rest) = some (⟨.quotedText, inQuotes text⟩, rest) :=
  nextLexeme?_of_takeQuoted? (takeQuoted?_escaped text rest)

theorem nextLexeme?_symbol (s : Symbol) {rest : List Char} (hrest : AtSpace rest) :
    nextLexeme? (s.spelling.toList ++ rest) = some (⟨.symbol s, s.spelling.toList⟩, rest) := by
  rcases hrest with rfl | ⟨cs, rfl⟩
  · cases s <;> decide
  · cases s <;> rfl

/-- The texts that the word pattern takes as a whole. -/
def IsWord (text : List Char) : Prop :=
  ∃ c cs, text = c :: cs ∧ isWordStart c = true ∧ cs.all isWordRest = true

theorem isWord_of_isName {n : String} (h : isName n = true) : IsWord n.toList := by
  unfold isName at h
  split at h
  · exact absurd h (by simp)
  · next c cs htext =>
      simp only [Bool.and_eq_true] at h
      exact ⟨c, cs, htext, h.1.1, h.1.2⟩

theorem isWord_spelling (k : Keyword) : IsWord k.spelling.toList := by
  cases k <;> exact ⟨_, _, rfl, by decide, by decide⟩

theorem reservedKind?_of_isName {n : String} (h : isName n = true) : reservedKind? n = none := by
  unfold isName at h
  split at h
  · exact absurd h (by simp)
  · simp only [Bool.and_eq_true, Option.isNone_iff_eq_none] at h
    exact h.2

theorem toNat_le_of_isWordStart {c : Char} (h : isWordStart c = true) :
    65 ≤ c.toNat ∧ c.toNat ≤ 122 := by
  simp only [isWordStart, Char.le_def, UInt32.le_iff_toNat_le, Bool.or_eq_true, Bool.and_eq_true,
    decide_eq_true_eq] at h
  rcases h with (⟨hl, hu⟩ | ⟨hl, hu⟩) | rfl
  · exact ⟨Nat.le_trans (by decide) hl, hu⟩
  · exact ⟨hl, Nat.le_trans hu (by decide)⟩
  · decide

theorem isBlank_eq_false {c : Char} (hl : 33 ≤ c.toNat) (hu : c.toNat ≤ 126) :
    isBlank c = false := by
  simp only [isBlank, blankRanges, List.any_eq_false, Bool.and_eq_true, decide_eq_true_eq]
  intro range hrange
  simp only [List.mem_cons, List.not_mem_nil, or_false] at hrange
  rcases hrange with rfl | rfl | rfl | rfl | rfl | rfl | rfl | rfl | rfl | rfl <;> omega

theorem isBlank_eq_false_of_isWordStart {c : Char} (h : isWordStart c = true) :
    isBlank c = false := by
  have hrange := toNat_le_of_isWordStart h
  exact isBlank_eq_false (by omega) (by omega)

theorem isBlank_eq_false_of_isDecimal {c : Char} (h : isDecimal c = true) : isBlank c = false := by
  simp only [isDecimal, Char.le_def, UInt32.le_iff_toNat_le, Bool.and_eq_true,
    decide_eq_true_eq] at h
  exact isBlank_eq_false (Nat.le_trans (by decide) h.1) (Nat.le_trans h.2 (by decide))

theorem isWordStart_eq_false_of_isBlank {c : Char} (h : isBlank c = true) :
    isWordStart c = false := by
  cases hstart : isWordStart c with
  | false => rfl
  | true => cases (isBlank_eq_false_of_isWordStart hstart).symm.trans h

theorem isDecimal_eq_false_of_isBlank {c : Char} (h : isBlank c = true) : isDecimal c = false := by
  cases hdecimal : isDecimal c with
  | false => rfl
  | true => cases (isBlank_eq_false_of_isDecimal hdecimal).symm.trans h

theorem nextLexeme?_blank {c : Char} (h : isBlank c = true) (cs : List Char) :
    nextLexeme? (c :: cs) = some (⟨.blanks, c :: cs.takeWhile isBlank⟩, cs.dropWhile isBlank) := by
  have hstart := isWordStart_eq_false_of_isBlank h
  have hdecimal := isDecimal_eq_false_of_isBlank h
  simp [nextLexeme?, Pattern.table, Pattern.take?, takeRun?, hstart, hdecimal, h]

theorem scan_eq_cons {cs rest : List Char} {l : Lexeme} (h : nextLexeme? cs = some (l, rest))
    (hopen : l.pattern ≠ .openComment) : scan cs = (scan rest).cons l := by
  obtain ⟨hcs, hne⟩ := nextLexeme?_spec h
  cases cs with
  | nil => simp [hne] at hcs
  | cons c cs =>
      rw [scan]
      split
      · next hnone => simp [h] at hnone
      · next l' rest' hsome =>
          rw [h] at hsome
          cases hsome
          rw [if_neg hopen]

namespace Lexeme

/-- The token that a lexeme is, without its place. -/
def word? (l : Lexeme) : Option Word :=
  (l.token? (Span.empty .null)).map Token.word

def space : Lexeme :=
  ⟨.blanks, [' ']⟩

theorem map_word_token? (l : Lexeme) (span : Span) : (l.token? span).map Token.word = l.word? := by
  obtain ⟨pattern, text⟩ := l
  cases pattern <;> rfl

/-- The lexeme is a token, and is taken as a whole in front of a space and at the end of a text. -/
structure StandsAlone (l : Lexeme) : Prop where
  isSome_word? : l.word?.isSome
  next : ∀ {rest : List Char}, AtSpace rest → nextLexeme? (l.text ++ rest) = some (l, rest)

namespace StandsAlone

variable {l : Lexeme} (h : l.StandsAlone)

include h

theorem pattern_ne_openComment : l.pattern ≠ .openComment := by
  intro hopen
  have hsome := h.isSome_word?
  simp [word?, token?, hopen] at hsome

theorem exists_text_eq_cons : ∃ c cs, l.text = c :: cs ∧ isBlank c = false := by
  have hnext := h.next (.inl rfl)
  obtain ⟨c, cs, htext⟩ := List.exists_cons_of_ne_nil (nextLexeme?_spec hnext).2
  refine ⟨c, cs, htext, ?_⟩
  -- blanks are no token
  cases hblank : isBlank c with
  | false => rfl
  | true =>
      have hsome := h.isSome_word?
      rw [htext, List.append_nil, nextLexeme?_blank hblank, Option.some.injEq,
        Prod.mk.injEq] at hnext
      rw [← hnext.1] at hsome
      cases hsome

end StandsAlone

end Lexeme

open Lexeme

/-- The lexemes that are tokens. -/
def worded (ls : List Lexeme) : List Lexeme :=
  ls.filter fun l => l.word?.isSome

theorem worded_cons (l : Lexeme) (ls : List Lexeme) :
    worded (l :: ls) = if l.word?.isSome then l :: worded ls else worded ls :=
  List.filter_cons

theorem map_word_tokensAfter (file : String) (before : Nat) (ls : List Lexeme) :
    (tokensAfter file before ls).map Token.word = (worded ls).filterMap word? := by
  induction ls generalizing before with
  | nil => rfl
  | cons l ls ih =>
      rw [tokensAfter, List.map_append, ih, ← Option.toList_map, map_word_token?, worded_cons]
      cases hword : l.word? with
      | none => rfl
      | some w => simp [hword]

theorem scan_spaced {ls : List Lexeme} (h : ∀ l ∈ ls, l.StandsAlone) :
    scan ([' '].intercalate (ls.map Lexeme.text)) = ⟨ls.intersperse space, none⟩ := by
  induction ls with
  | nil => simp [scan]
  | cons l ls ih =>
      have hl := h l (by simp)
      cases ls with
      | nil =>
          have hnext := hl.next (.inl rfl)
          rw [List.append_nil] at hnext
          rw [List.map_singleton, List.intercalate_singleton, scan_eq_cons hnext
            hl.pattern_ne_openComment]
          simp [scan, Scan.cons]
      | cons m ms =>
          have hscan := ih fun l hl => h l (List.mem_cons_of_mem _ hl)
          obtain ⟨c, cs, hm, hc⟩ := (h m (by simp)).exists_text_eq_cons
          generalize hrest : [' '].intercalate ((m :: ms).map Lexeme.text) = rest at hscan
          have hspaced : [' '].intercalate ((l :: m :: ms).map Lexeme.text) =
              l.text ++ ' ' :: rest := by
            rw [← hrest, List.map_cons, List.map_cons, List.intercalate_cons_cons,
              List.append_assoc]
            rfl
          have hspace : nextLexeme? (' ' :: rest) = some (space, rest) := by
            obtain ⟨ds, hds⟩ : ∃ ds, rest = c :: ds := by
              rw [← hrest]
              cases ms <;> simp [hm]
            simp [nextLexeme?_blank isBlank_space, hds, hc, space]
          rw [hspaced, scan_eq_cons (hl.next (.inr ⟨rest, rfl⟩)) hl.pattern_ne_openComment,
            scan_eq_cons hspace (by simp [space]), hscan, List.intersperse_cons_cons]
          rfl

theorem worded_intersperse {ls : List Lexeme} (h : ∀ l ∈ ls, l.StandsAlone) :
    worded (ls.intersperse space) = ls := by
  induction ls with
  | nil => rfl
  | cons l ls ih =>
      have hl := (h l (by simp)).isSome_word?
      cases ls with
      | nil => simp [worded, hl]
      | cons m ms =>
          have hms := ih fun l hl => h l (List.mem_cons_of_mem _ hl)
          rw [List.intersperse_cons_cons, worded_cons, if_pos hl, worded_cons,
            if_neg (by decide), hms]

namespace Word

theorem exists_lexeme {w : Word} (h : w.Admitted) :
    ∃ l : Lexeme, l.StandsAlone ∧ l.text = w.text ∧ l.word? = some w := by
  obtain ⟨kind, value⟩ := w
  obtain ⟨hadmits, hend⟩ := h
  have hword : IsWord value.toList → wordKind value = kind →
      ∃ l : Lexeme, l.StandsAlone ∧ l.text = value.toList ∧ l.word? = some ⟨kind, value⟩ := by
    rintro ⟨c, cs, htext, hc, hcs⟩ hkind
    have hsome : Lexeme.word? ⟨.word, value.toList⟩ = some ⟨kind, value⟩ := by
      simp [word?, token?, Token.word, hkind]
    refine ⟨⟨.word, value.toList⟩, ⟨by rw [hsome]; rfl, fun hrest => ?_⟩, rfl, hsome⟩
    rw [htext]
    exact nextLexeme?_of_isName hc hcs hrest
  cases kind with
  | endOfInput => exact absurd rfl hend
  | identifier =>
      exact hword (isWord_of_isName hadmits)
        (wordKind_eq_identifier_iff.2 (reservedKind?_of_isName hadmits))
  | integer =>
      refine ⟨⟨.digits, value.toList⟩, ⟨rfl, nextLexeme?_of_isDigits hadmits⟩, rfl, ?_⟩
      simp [word?, token?, Token.word]
  | string =>
      have hnext := fun rest => nextLexeme?_inQuotes value.toList rest
      refine ⟨⟨.quotedText, inQuotes value.toList⟩, ⟨rfl, fun _ => hnext _⟩, rfl, ?_⟩
      simp [word?, token?, Token.word, withoutQuotes_inQuotes, unescaped_escaped]
  | boolean =>
      rcases hadmits with rfl | rfl
      · exact hword ⟨_, _, rfl, by decide, by decide⟩ (by decide)
      · exact hword ⟨_, _, rfl, by decide, by decide⟩ (by decide)
  | keyword k =>
      cases hadmits
      exact hword (isWord_spelling k) (wordKind_spelling k)
  | symbol s =>
      cases hadmits
      exact ⟨⟨.symbol s, s.spelling.toList⟩, ⟨rfl, nextLexeme?_symbol s⟩, rfl, rfl⟩

theorem exists_lexemes {ws : List Word} (h : AllAdmitted ws) :
    ∃ ls : List Lexeme, (∀ l ∈ ls, l.StandsAlone) ∧ ls.map Lexeme.text = ws.map text ∧
      ls.filterMap word? = ws := by
  induction ws with
  | nil => exact ⟨[], by simp⟩
  | cons w ws ih =>
      rw [allAdmitted_cons] at h
      obtain ⟨l, hl, htext, hword⟩ := exists_lexeme h.1
      obtain ⟨ls, hls, htexts, hwords⟩ := ih h.2
      refine ⟨l :: ls, List.forall_mem_cons.2 ⟨hl, hls⟩, ?_, ?_⟩
      · rw [List.map_cons, List.map_cons, htext, htexts]
      · rw [List.filterMap_cons_some hword, hwords]

theorem layout_eq_intercalate (ws : List Word) : layout ws = [' '].intercalate (ws.map text) := by
  fun_induction layout ws with
  | case1 => rfl
  | case2 w => simp
  | case3 w ws hne ih =>
      cases ws with
      | nil => exact absurd rfl hne
      | cons v ws => simp [ih]

end Word

open Word

theorem tokenize_layout {ws : List Word} (h : AllAdmitted ws) (file : String) :
    ∃ body stop, tokenize (String.ofList (layout ws)) file = .ok (body ++ [stop]) ∧
      body.map Token.word = ws ∧ stop.kind = .endOfInput := by
  obtain ⟨ls, hls, htexts, hwords⟩ := exists_lexemes h
  have hscan := scan_spaced hls
  rw [htexts, ← layout_eq_intercalate, ← String.toList_ofList (l := layout ws)] at hscan
  refine ⟨_, _, tokenize_eq_ok_iff.2 ⟨_, hscan, rfl⟩, ?_, rfl⟩
  rw [map_word_tokensAfter, worded_intersperse hls, hwords]

end ClassLang
