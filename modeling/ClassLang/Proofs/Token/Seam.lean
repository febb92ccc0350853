import ClassLang.Proofs.Syntax.Relocate
import ClassLang.Proofs.Token.Gap
import ClassLang.Proofs.Token.Layout
/-!
A newline between two texts. Main statement: a text that is cut into tokens, a newline and another
text are cut into the tokens of the one and those of the other, moved by the bytes before them
(`tokenize_append_newline`).
-/

namespace ClassLang

namespace Position

def forward (bytes : Nat) (p : Position) : Position :=
  ofBytes p.file (p.offset.toNat + bytes)

theorem forward_ofBytes (file : String) (before bytes : Nat) :
    (ofBytes file before).forward bytes = ofBytes file (before + bytes) := by
  rw [forward, ofBytes, ofBytes, ofBytes, UInt32.ofNat_add, UInt32.ofNat_add, UInt32.ofNat_toNat]

theorem toNat_offset_forward {bytes : Nat} {p : Position}
    (h : p.offset.toNat + bytes < UInt32.size) :
    (p.forward bytes).offset.toNat = p.offset.toNat + bytes :=
  toNat_offset_ofBytes h

end Position

section Patterns

variable {a b : List Char}

theorem takeWhile_append_newline {p : Char → Bool} (hp : p '\n' = false) :
    (a ++ '\n' :: b).takeWhile p = a.takeWhile p := by
  induction a with
  | nil => simp [hp]
  | cons c a ih => simp [List.takeWhile_cons, ih]

theorem dropWhile_append_newline {p : Char → Bool} (hp : p '\n' = false) :
    (a ++ '\n' :: b).dropWhile p = a.dropWhile p ++ '\n' :: b := by
  induction a with
  | nil => simp [hp]
  | cons c a ih =>
      rw [List.cons_append, List.dropWhile_cons, List.dropWhile_cons, ih]
      split <;> rfl

theorem prefix_append_newline_iff {part : List Char} (hpart : '\n' ∉ part) :
    part <+: a ++ '\n' :: b ↔ part <+: a := by
  induction part generalizing a with
  | nil => simp
  | cons c part ih =>
      rw [List.mem_cons, not_or] at hpart
      cases a with
      | nil => simp [List.cons_prefix_cons, Ne.symm hpart.1]
      | cons d a => rw [List.cons_append, List.cons_prefix_cons, List.cons_prefix_cons, ih hpart.2]

variable (b)

def withNewline (found : List Char × List Char) : List Char × List Char :=
  (found.1, found.2 ++ '\n' :: b)

theorem takeRun?_append_newline {starts continues : Char → Bool} {c : Char}
    (hnewline : continues '\n' = false) :
    takeRun? starts continues (c :: a ++ '\n' :: b) =
      (takeRun? starts continues (c :: a)).map (withNewline b) := by
  rw [List.cons_append, takeRun?, takeRun?, takeWhile_append_newline hnewline,
    dropWhile_append_newline hnewline]
  split <;> rfl

theorem takeExact?_append_newline {part : List Char} (hpart : '\n' ∉ part) :
    takeExact? part (a ++ '\n' :: b) = (takeExact? part a).map (withNewline b) := by
  have hiff : part.isPrefixOf (a ++ '\n' :: b) = part.isPrefixOf a := by
    rw [Bool.eq_iff_iff, List.isPrefixOf_iff_prefix, List.isPrefixOf_iff_prefix,
      prefix_append_newline_iff hpart]
  rw [takeExact?, takeExact?, hiff]
  split
  · next hprefix =>
      have hlength := (List.isPrefixOf_iff_prefix.1 hprefix).length_le
      simp [withNewline, List.drop_append_of_le_length hlength]
  · rfl

theorem takeToQuote?_append_newline :
    takeToQuote? (a ++ '\n' :: b) = (takeToQuote? a).map (withNewline b) := by
  fun_induction takeToQuote? a with
  | case1 => simp [takeToQuote?]
  | case2 cs => simp [takeToQuote?, withNewline]
  | case3 cs => simp [takeToQuote?]
  | case4 c cs hnewline ih => simp [takeToQuote?, hnewline, ih, withNewline, Function.comp_def]
  | case5 c cs hquote hescape hstop =>
      rcases hstop with rfl | rfl
      · simp [takeToQuote?]
      · cases cs with
        | nil => simp [takeToQuote?]
        | cons d cs => exact absurd rfl (hescape d cs rfl)
  | case6 c cs hquote hescape hplain ih =>
      rw [List.cons_append, takeToQuote?]
      · simp [hplain, ih, withNewline, Function.comp_def]
      · exact hquote
      · rintro d ds rfl -
        exact hplain (.inr rfl)

theorem takeToCommentEnd?_append {cs text rest : List Char} (more : List Char)
    (h : takeToCommentEnd? cs = some (text, rest)) :
    takeToCommentEnd? (cs ++ more) = some (text, rest ++ more) := by
  obtain ⟨comment, rfl, hinfix⟩ := exists_comment_of_takeToCommentEnd? h
  rw [takeToCommentEnd?_spec h, List.append_assoc, List.append_assoc]
  exact takeToCommentEnd?_of_not_infix hinfix (rest ++ more)

theorem spelling_no_newline (s : Symbol) : '\n' ∉ s.spelling.toList := by
  cases s <;> decide

theorem takeBlockComment?_eq_none {cs : List Char} (h : ¬ ['/', '*'] <+: cs) :
    takeBlockComment? cs = none := by
  unfold takeBlockComment?
  split
  · next cs => exact absurd (List.prefix_append ['/', '*'] cs) h
  · rfl

theorem take?_append_newline {c : Char} (p : Pattern) (hblank : isBlank c = false)
    (hcomment : ¬ ['/', '*'] <+: c :: a) :
    p.take? (c :: a ++ '\n' :: b) = (p.take? (c :: a)).map (withNewline b) := by
  cases p with
  | word => exact takeRun?_append_newline b (by decide)
  | digits => exact takeRun?_append_newline b (by decide)
  | blanks => simp [Pattern.take?, takeRun?, hblank]
  | quotedText =>
      simp only [Pattern.take?, List.cons_append, takeQuoted?]
      split
      · next cs hcs =>
          cases hcs
          simp [takeToQuote?_append_newline, withNewline, Function.comp_def]
      · next hquote =>
          split
          · next cs hcs =>
              cases hcs
              exact absurd rfl (hquote _)
          · rfl
  | lineComment =>
      let p (c : Char) : Bool := c ≠ '\n'
      have hp : p '\n' = false := by decide
      simp only [Pattern.take?, List.cons_append, takeLineComment?]
      split
      · next cs hcs =>
          cases a with
          | nil => cases hcs
          | cons d a =>
              cases hcs
              change some ('/' :: '/' :: (a ++ '\n' :: b).takeWhile p,
                (a ++ '\n' :: b).dropWhile p) = _
              rw [takeWhile_append_newline hp, dropWhile_append_newline hp]
              rfl
      · next hslashes =>
          split
          · next cs hcs =>
              cases hcs
              exact absurd rfl (hslashes _)
          · rfl
  | blockComment =>
      have hcomment' : ¬ ['/', '*'] <+: c :: a ++ '\n' :: b := by
        rw [prefix_append_newline_iff (by decide)]
        exact hcomment
      simp only [Pattern.take?]
      rw [takeBlockComment?_eq_none hcomment, takeBlockComment?_eq_none hcomment']
      rfl
  | openComment => exact takeExact?_append_newline b (by decide)
  | symbol s => exact takeExact?_append_newline b (spelling_no_newline s)

theorem nextLexeme?_append_newline {c : Char} (hblank : isBlank c = false)
    (hcomment : ¬ ['/', '*'] <+: c :: a) :
    nextLexeme? (c :: a ++ '\n' :: b) =
      (nextLexeme? (c :: a)).map fun found => (found.1, found.2 ++ '\n' :: b) := by
  rw [nextLexeme?, nextLexeme?, List.map_findSome?]
  refine congrArg (Pattern.table.findSome? ·) (funext fun p => ?_)
  rw [take?_append_newline b p hblank hcomment]
  simp [withNewline, Function.comp_def]

theorem nextLexeme?_comment (cs : List Char) :
    nextLexeme? ('/' :: '*' :: cs) = some
      (match takeToCommentEnd? cs with
      | some (text, rest) => (⟨.blockComment, '/' :: '*' :: text⟩, rest)
      | none => (⟨.openComment, ['/', '*']⟩, cs)) := by
  have hword : Pattern.word.take? ('/' :: '*' :: cs) = none := rfl
  have hdigits : Pattern.digits.take? ('/' :: '*' :: cs) = none := rfl
  have hblanks : Pattern.blanks.take? ('/' :: '*' :: cs) = none := rfl
  have hquoted : Pattern.quotedText.take? ('/' :: '*' :: cs) = none := rfl
  have hline : Pattern.lineComment.take? ('/' :: '*' :: cs) = none := rfl
  have hblock : Pattern.blockComment.take? ('/' :: '*' :: cs) =
      (takeToCommentEnd? cs).map fun found => ('/' :: '*' :: found.1, found.2) := rfl
  have hopen : Pattern.openComment.take? ('/' :: '*' :: cs) = some (['/', '*'], cs) := rfl
  cases h : takeToCommentEnd? cs <;>
    simp [nextLexeme?, Pattern.table, hword, hdigits, hblanks, hquoted, hline, hblock, hopen, h]

theorem nextLexeme?_append_newline_of_some {c : Char} {l : Lexeme} {rest : List Char}
    (hblank : isBlank c = false) (h : nextLexeme? (c :: a) = some (l, rest))
    (hopen : l.pattern ≠ .openComment) :
    nextLexeme? (c :: a ++ '\n' :: b) = some (l, rest ++ '\n' :: b) := by
  by_cases hcomment : ['/', '*'] <+: c :: a
  · obtain ⟨cs, hcs⟩ := hcomment
    rw [← hcs] at h ⊢
    change nextLexeme? ('/' :: '*' :: cs) = _ at h
    change nextLexeme? ('/' :: '*' :: (cs ++ '\n' :: b)) = _
    rw [nextLexeme?_comment] at h ⊢
    cases hend : takeToCommentEnd? cs with
    | none =>
        rw [hend] at h
        cases h
        exact absurd rfl hopen
    | some found =>
        rw [hend] at h
        rw [takeToCommentEnd?_append ('\n' :: b) hend]
        cases h
        rfl
  · rw [nextLexeme?_append_newline b hblank hcomment, h]
    rfl

end Patterns

section Tokens

/-- The tokens of a text that so many bytes of the file come before. -/
def tokensFrom (file : String) (before : Nat) (cs : List Char) : Except Diagnostic (List Token) :=
  let s := scan cs
  let stop := Position.ofBytes file (before + byteLength s.text)
  match s.fault with
  | none => .ok (tokensAfter file before s.lexemes ++ [(EndMark.atPosition stop).token])
  | some fault => .error ⟨fault.cause, stop⟩

/-- Tokens, or what is wrong with their text, as they are with that many more bytes before them. -/
def moveTokens (bytes : Nat) : Except Diagnostic (List Token) → Except Diagnostic (List Token)
  | .ok ts => .ok (ts.map (Token.relocate (Position.forward bytes)))
  | .error d => .error (d.relocate (Position.forward bytes))

variable (file : String) (before : Nat)

theorem tokenize_eq_tokensFrom (source : String) :
    tokenize source file = tokensFrom file 0 source.toList := by
  cases h : (scan source.toList).fault <;> simp [tokenize, tokensFrom, h]

theorem token?_relocate (φ : Position → Position) (l : Lexeme) (span : Span) :
    l.token? (span.relocate φ) = (l.token? span).map (Token.relocate φ) := by
  obtain ⟨pattern, text⟩ := l
  cases pattern <;> rfl

theorem tokensAfter_forward (bytes : Nat) (ls : List Lexeme) :
    tokensAfter file (before + bytes) ls =
      (tokensAfter file before ls).map (Token.relocate (Position.forward bytes)) := by
  induction ls generalizing before with
  | nil => rfl
  | cons l ls ih =>
      have hspan : Span.ofBytes file (before + bytes) (byteLength l.text) =
          (Span.ofBytes file before (byteLength l.text)).relocate (Position.forward bytes) := by
        rw [Span.relocate, Span.ofBytes, Span.ofBytes, Position.forward_ofBytes,
          Position.forward_ofBytes, Nat.add_right_comm]
      rw [tokensAfter, tokensAfter, hspan, token?_relocate, Nat.add_right_comm, ih, List.map_append,
        Option.toList_map]

theorem tokensFrom_forward (bytes : Nat) (cs : List Char) :
    tokensFrom file (before + bytes) cs = moveTokens bytes (tokensFrom file before cs) := by
  have hstop : ∀ n, Position.ofBytes file (before + bytes + n) =
      (Position.ofBytes file (before + n)).forward bytes := by
    intro n
    rw [Position.forward_ofBytes, Nat.add_right_comm]
  simp only [tokensFrom, hstop, tokensAfter_forward]
  cases (scan cs).fault with
  | none => simp only [moveTokens, List.map_append]; rfl
  | some fault => rfl

theorem tokensFrom_of_nextLexeme? {cs rest : List Char} {l : Lexeme}
    (h : nextLexeme? cs = some (l, rest)) (hopen : l.pattern ≠ .openComment) :
    tokensFrom file before cs = (tokensFrom file (before + byteLength l.text) rest).map
      ((l.token? (Span.ofBytes file before (byteLength l.text))).toList ++ ·) := by
  have htext : ∀ s : Scan, (s.cons l).text = l.text ++ s.text := fun _ => rfl
  simp only [tokensFrom, scan_eq_cons h hopen, htext, byteLength_append, Nat.add_assoc]
  cases hfault : (scan rest).fault with
  | none => simp [Scan.cons, hfault, tokensAfter, Except.map]
  | some fault => simp [Scan.cons, hfault, Except.map]

theorem tokensFrom_of_blanks {c : Char} (h : isBlank c = true) (cs : List Char) :
    tokensFrom file before (c :: cs) =
      tokensFrom file (before + byteLength (c :: cs.takeWhile isBlank)) (cs.dropWhile isBlank) := by
  rw [tokensFrom_of_nextLexeme? file before (nextLexeme?_blank h cs) (by simp)]
  cases tokensFrom file (before + byteLength (c :: cs.takeWhile isBlank)) (cs.dropWhile isBlank) <;>
    rfl

theorem tokensFrom_blank {c : Char} (h : isBlank c = true) (cs : List Char) :
    tokensFrom file before (c :: cs) = tokensFrom file (before + c.utf8Size) cs := by
  rw [tokensFrom_of_blanks file before h]
  cases cs with
  | nil => rfl
  | cons d ds =>
      cases hd : isBlank d with
      | true =>
          rw [tokensFrom_of_blanks file (before + c.utf8Size) hd]
          simp [hd, Nat.add_assoc]
      | false => simp [hd]

theorem tokensFrom_append_blanks {text : List Char} (h : text.all isBlank = true)
    (cs : List Char) :
    tokensFrom file before (text ++ cs) = tokensFrom file (before + byteLength text) cs := by
  induction text generalizing before with
  | nil => rfl
  | cons c text ih =>
      rw [List.all_cons, Bool.and_eq_true] at h
      rw [List.cons_append, tokensFrom_blank file before h.1, ih _ h.2, byteLength_cons,
        Nat.add_assoc]

theorem tokensFrom_append_newline {a : List Char} (h : (scan a).fault = none) (b : List Char) :
    tokensFrom file before (a ++ '\n' :: b) =
      (tokensFrom file (before + (byteLength a + 1)) b).map
        (tokensAfter file before (scan a).lexemes ++ ·) := by
  fun_induction scan a generalizing before with
  | case1 =>
      rw [List.nil_append, tokensFrom_blank file before (by decide)]
      cases h : tokensFrom file (before + (byteLength [] + 1)) b <;> exact h
  | case2 => cases h
  | case3 => cases h
  | case4 c cs l rest hl hopen ih =>
      have hcs := (nextLexeme?_spec hl).1
      have hlength : before + byteLength l.text + (byteLength rest + 1) =
          before + (byteLength (c :: cs) + 1) := by
        rw [hcs, byteLength_append]
        omega
      cases hblank : isBlank c with
      | true =>
          -- the blanks of `a` may go on in `b`, so they are skipped one by one
          have hblanks := hl.symm.trans (nextLexeme?_blank hblank cs)
          cases hblanks
          have hall : (c :: cs.takeWhile isBlank).all isBlank = true := by
            rw [List.all_cons, hblank, Bool.true_and, List.all_takeWhile]
          rw [hcs, List.append_assoc, tokensFrom_append_blanks file before hall, ih _ h, hlength,
            ← hcs]
          rfl
      | false =>
          rw [tokensFrom_of_nextLexeme? file before
            (nextLexeme?_append_newline_of_some b hblank hl hopen) hopen, ih _ h, hlength]
          cases tokensFrom file (before + (byteLength (c :: cs) + 1)) b with
          | ok ts => simp [Except.map, Scan.cons, tokensAfter]
          | error d => rfl

end Tokens

theorem tokenize_append_newline {a : String} {file : String} {ts : List Token} (b : String)
    (h : tokenize a file = .ok ts) :
    ∃ body stop, ts = body ++ [stop] ∧ stop.kind = .endOfInput ∧
      (∀ t ∈ body, t.kind ≠ .endOfInput) ∧
      tokenize (a ++ "\n" ++ b) file =
        (moveTokens (a.utf8ByteSize + 1) (tokenize b file)).map (body ++ ·) := by
  obtain ⟨ls, hscan, rfl⟩ := tokenize_eq_ok_iff.1 h
  refine ⟨_, _, rfl, rfl, fun t ht => kind_ne_endOfInput_of_mem_tokensAfter ht, ?_⟩
  have happend : (a ++ "\n" ++ b).toList = a.toList ++ '\n' :: b.toList := by simp
  rw [tokenize_eq_tokensFrom, happend, tokensFrom_append_newline file 0 (by rw [hscan]), hscan,
    tokensFrom_forward, tokenize_eq_tokensFrom, byteLength_toList]

end ClassLang
