import ClassLang.Proofs.Token.Advance
import Mathlib
/-!
What the scanner rejects. Main statements: no pattern takes anything exactly where no token, white
space or comment can begin (`nextLexeme?_eq_none_iff`), and a source text is rejected for the first
thing in it that is no token and no closed comment, which a newline and more text after it do not
mend (`exists_firstFault_of_tokenize`).
-/

namespace ClassLang

/-- The characters that are symbols by themselves. -/
def symbolChars : List Char :=
  ['\x7b', '\x7d', '(', ')', '=', '!', '<', '>', '.', ';', ',', '+', '-', '/', '*', '%']

/-- A character, in front of the rest of a text, that nothing known to the scanner begins with. -/
structure Unrecognisable (c : Char) (rest : List Char) : Prop where
  not_blank : isBlank c = false
  not_word : isWordRest c = false
  not_symbol : c ∉ symbolChars
  not_or : ¬ ['|', '|'] <+: c :: rest
  not_and : ¬ ['&', '&'] <+: c :: rest
  not_closed : c = '"' → ∀ raw text after, StandsFor raw text → rest ≠ raw ++ '"' :: after

theorem takeExact?_eq_none_iff {part cs : List Char} :
    takeExact? part cs = none ↔ ¬ part <+: cs := by
  rw [takeExact?, ite_eq_right_iff, ← List.isPrefixOf_iff_prefix]
  exact ⟨fun h hprefix => Option.some_ne_none _ (h hprefix), fun h hprefix => absurd hprefix h⟩

theorem takeRun?_eq_none_iff {starts continues : Char → Bool} {c : Char} {cs : List Char} :
    takeRun? starts continues (c :: cs) = none ↔ starts c = false := by
  rw [takeRun?, ite_eq_right_iff, ← Bool.not_eq_true]
  exact ⟨fun h hstart => Option.some_ne_none _ (h hstart), fun h hstart => absurd hstart h⟩

theorem takeToCommentEnd?_eq_none_iff {cs : List Char} :
    takeToCommentEnd? cs = none ↔ ¬ ['*', '/'] <:+: cs := by
  fun_induction takeToCommentEnd? cs with
  | case1 => simp
  | case2 cs => simpa using (List.prefix_append ['*', '/'] cs).isInfix
  | case3 c cs hclose ih =>
      rw [Option.map_eq_none_iff, ih, List.infix_cons_iff, not_or]
      refine ⟨fun h => ⟨?_, h⟩, And.right⟩
      rintro ⟨ds, hds⟩
      cases hds
      exact hclose ds rfl rfl

theorem takeToQuote?_eq_none_iff {cs : List Char} :
    takeToQuote? cs = none ↔
      ∀ raw text after, StandsFor raw text → cs ≠ raw ++ '"' :: after := by
  constructor
  · rintro h raw text after hraw rfl
    rw [takeToQuote?_of_standsFor hraw] at h
    cases h
  · intro h
    refine Option.eq_none_iff_forall_not_mem.2 fun found hfound => ?_
    obtain ⟨raw, htext, hraw⟩ := standsFor_of_takeToQuote? hfound
    refine h raw _ found.2 hraw ?_
    rw [takeToQuote?_spec hfound, htext, List.append_assoc]
    rfl

theorem takeQuoted?_eq_none_iff {c : Char} {cs : List Char} :
    takeQuoted? (c :: cs) = none ↔ c = '"' → takeToQuote? cs = none := by
  by_cases hc : c = '"'
  · subst hc
    rw [takeQuoted?, Option.map_eq_none_iff]
    exact ⟨fun h _ => h, fun h => h rfl⟩
  · have hnone : takeQuoted? (c :: cs) = none := by
      unfold takeQuoted?
      split
      · next hcs => cases hcs; exact absurd rfl hc
      · rfl
    exact ⟨fun _ h => absurd h hc, fun _ => hnone⟩

theorem mem_symbolChars_of_starts {s : Symbol} {c : Char} {rest : List Char}
    (h : s.spelling.toList <+: c :: rest) (hor : s ≠ .or) (hand : s ≠ .and) :
    c ∈ symbolChars := by
  have hfirst : ∃ d ds, s.spelling.toList = d :: ds ∧ d ∈ symbolChars := by
    cases s with
    | or => exact absurd rfl hor
    | and => exact absurd rfl hand
    | _ => exact ⟨_, _, rfl, by decide⟩
  obtain ⟨d, ds, hspelling, hmem⟩ := hfirst
  rw [hspelling, List.cons_prefix_cons] at h
  exact h.1 ▸ hmem

theorem exists_spelling_of_mem_symbolChars :
    ∀ c ∈ symbolChars, ∃ s : Symbol, s.spelling.toList = [c] := by
  simp only [symbolChars, List.forall_mem_cons]
  exact ⟨⟨.openBrace, rfl⟩, ⟨.closeBrace, rfl⟩, ⟨.openParen, rfl⟩, ⟨.closeParen, rfl⟩,
    ⟨.assign, rfl⟩, ⟨.not, rfl⟩, ⟨.less, rfl⟩, ⟨.greater, rfl⟩, ⟨.dot, rfl⟩, ⟨.semicolon, rfl⟩,
    ⟨.comma, rfl⟩, ⟨.plus, rfl⟩, ⟨.minus, rfl⟩, ⟨.slash, rfl⟩, ⟨.star, rfl⟩, ⟨.percent, rfl⟩, nofun⟩

theorem nextLexeme?_eq_none_iff {c : Char} {rest : List Char} :
    nextLexeme? (c :: rest) = none ↔ Unrecognisable c rest := by
  have hall : nextLexeme? (c :: rest) = none ↔ ∀ p : Pattern, p.take? (c :: rest) = none := by
    rw [nextLexeme?, List.findSome?_eq_none_iff]
    constructor
    · exact fun h p => Option.map_eq_none_iff.1 (h p p.mem_table)
    · exact fun h p _ => Option.map_eq_none_iff.2 (h p)
  rw [hall]
  constructor
  · intro h
    refine ⟨takeRun?_eq_none_iff.1 (h .blanks), ?_, fun hmem => ?_, ?_, ?_, fun hc => ?_⟩
    · rw [isWordRest, Bool.or_eq_false_iff]
      exact ⟨takeRun?_eq_none_iff.1 (h .word), takeRun?_eq_none_iff.1 (h .digits)⟩
    · obtain ⟨s, hs⟩ := exists_spelling_of_mem_symbolChars c hmem
      refine takeExact?_eq_none_iff.1 (h (.symbol s)) ?_
      rw [hs]
      exact List.prefix_append [c] rest
    · exact takeExact?_eq_none_iff.1 (h (.symbol .or))
    · exact takeExact?_eq_none_iff.1 (h (.symbol .and))
    · exact takeToQuote?_eq_none_iff.1 (takeQuoted?_eq_none_iff.1 (h .quotedText) hc)
  · intro h p
    have hslash : c ≠ '/' := by
      rintro rfl
      exact h.not_symbol (by decide)
    have hcomment : ¬ ['/', '*'] <+: c :: rest := fun hprefix =>
      hslash (List.cons_prefix_cons.1 hprefix).1.symm
    have hword := h.not_word
    rw [isWordRest, Bool.or_eq_false_iff] at hword
    cases p with
    | word => exact takeRun?_eq_none_iff.2 hword.1
    | digits => exact takeRun?_eq_none_iff.2 hword.2
    | blanks => exact takeRun?_eq_none_iff.2 h.not_blank
    | quotedText =>
        exact takeQuoted?_eq_none_iff.2 fun hc => takeToQuote?_eq_none_iff.2 (h.not_closed hc)
    | lineComment =>
        change takeLineComment? (c :: rest) = none
        unfold takeLineComment?
        split
        · next hcs => cases hcs; exact absurd rfl hslash
        · rfl
    | blockComment => exact takeBlockComment?_eq_none hcomment
    | openComment => exact takeExact?_eq_none_iff.2 hcomment
    | symbol s =>
        refine takeExact?_eq_none_iff.2 fun hprefix => ?_
        by_cases hor : s = .or
        · subst hor
          exact h.not_or hprefix
        by_cases hand : s = .and
        · subst hand
          exact h.not_and hprefix
        · exact h.not_symbol (mem_symbolChars_of_starts hprefix hor hand)

theorem exists_comment_of_openComment {cs rest : List Char} {l : Lexeme}
    (h : nextLexeme? cs = some (l, rest)) (hopen : l.pattern = .openComment) :
    ∃ ds, cs = '/' :: '*' :: ds ∧ ¬ ['*', '/'] <:+: ds := by
  have htake := exists_take?_of_nextLexeme? h
  rw [hopen] at htake
  obtain ⟨htext, hcs⟩ := takeExact?_spec htake
  rw [htext] at hcs
  subst hcs
  refine ⟨rest, rfl, takeToCommentEnd?_eq_none_iff.1 ?_⟩
  change nextLexeme? ('/' :: '*' :: rest) = _ at h
  rw [nextLexeme?_comment] at h
  split at h
  · cases h
    cases hopen
  · assumption

namespace Stuck

variable {cs : List Char} {fault : LexicalFault}

theorem ne_nil (h : Stuck cs fault) : cs ≠ [] := by
  cases h with
  | unterminatedComment hl _ =>
      rintro rfl
      cases hl
  | unrecognised => exact List.cons_ne_nil _ _

theorem scan_eq (h : Stuck cs fault) : scan cs = ⟨[], some fault⟩ := by
  cases h with
  | @unterminatedComment _ rest l hl hopen =>
      obtain ⟨ds, rfl, -⟩ := exists_comment_of_openComment hl hopen
      rw [scan]
      split
      · next hnone => cases hnone.symm.trans hl
      · next l' rest' hsome =>
          cases hsome.symm.trans hl
          rw [if_pos hopen]
  | unrecognised hnone =>
      rw [scan]
      split
      · rfl
      · next hsome => cases hnone.symm.trans hsome

theorem tokensFrom_eq (h : Stuck cs fault) (file : String) (before : Nat) :
    tokensFrom file before cs = .error ⟨fault.cause, Position.ofBytes file before⟩ := by
  rw [tokensFrom, h.scan_eq]
  rfl

theorem append_newline {c : Char} {rest : List Char} (h : Stuck (c :: rest) (.unrecognised c))
    (b : List Char) : Stuck (c :: rest ++ '\n' :: b) (.unrecognised c) := by
  cases h with
  | unrecognised hnone =>
      have hcomment : ¬ ['/', '*'] <+: c :: rest := by
        rintro ⟨ds, hds⟩
        rw [← hds] at hnone
        cases (nextLexeme?_comment ds).symm.trans hnone
      refine .unrecognised (?_ : nextLexeme? (c :: rest ++ '\n' :: b) = none)
      rw [nextLexeme?_append_newline b (nextLexeme?_eq_none_iff.1 hnone).not_blank hcomment, hnone]
      rfl

end Stuck

theorem nextLexeme?_append_of_isBlank {c : Char} {cs rest : List Char} {l : Lexeme}
    (hblank : isBlank c = true) (h : nextLexeme? (c :: cs) = some (l, rest)) (hne : rest ≠ [])
    (more : List Char) : nextLexeme? (c :: cs ++ more) = some (l, rest ++ more) := by
  cases (nextLexeme?_blank hblank cs).symm.trans h
  obtain ⟨d, ds, hrest⟩ := List.exists_cons_of_ne_nil hne
  have hd : ¬ isBlank d = true := by
    have hhead := List.head?_dropWhile_not isBlank cs
    rw [hrest] at hhead
    simpa using hhead
  have hrun : ∀ e ∈ cs.takeWhile isBlank, isBlank e = true :=
    List.all_eq_true.1 List.all_takeWhile
  have hcs : cs ++ more = cs.takeWhile isBlank ++ (d :: (ds ++ more)) := by
    rw [← List.cons_append, ← hrest, ← List.append_assoc, List.takeWhile_append_dropWhile]
  rw [List.cons_append, nextLexeme?_blank hblank, hcs, List.takeWhile_append_of_pos hrun,
    List.dropWhile_append_of_pos hrun, List.takeWhile_cons_of_neg hd, List.dropWhile_cons_of_neg hd,
    List.append_nil, hrest, List.cons_append]

theorem Advances.append_newline {cs stop : List Char} {ls : List Lexeme} (h : Advances cs ls stop)
    (hstop : stop ≠ []) (b : List Char) :
    Advances (cs ++ '\n' :: b) ls (stop ++ '\n' :: b) := by
  induction h with
  | here => exact .here
  | @next cs rest stop l ls hl hopen hrest ih =>
      refine .next ?_ hopen (ih hstop)
      have hne : rest ≠ [] := by
        rw [hrest.eq_append]
        exact List.append_ne_nil_of_right_ne_nil _ hstop
      cases cs with
      | nil => cases hl
      | cons c cs =>
          cases hblank : isBlank c with
          | false => exact nextLexeme?_append_newline_of_some b hblank hl hopen
          | true => exact nextLexeme?_append_of_isBlank hblank hl hne _

theorem tokenize_eq_error_iff {source file : String} {d : Diagnostic} :
    tokenize source file = .error d ↔ ∃ ls stop fault, Advances source.toList ls stop ∧
      Stuck stop fault ∧ d = ⟨fault.cause, Position.ofBytes file (byteLength (textOf ls))⟩ := by
  constructor
  · intro h
    rw [tokenize] at h
    cases hfault : (scan source.toList).fault with
    | none => simp [hfault] at h
    | some fault =>
        simp only [hfault] at h
        cases h
        obtain ⟨stop, hadvances, hstuck⟩ := exists_advances_of_fault hfault
        exact ⟨_, stop, fault, hadvances, hstuck, rfl⟩
  · rintro ⟨ls, stop, fault, hadvances, hstuck, rfl⟩
    rw [tokenize_eq_tokensFrom, hadvances.tokensFrom_eq, hstuck.tokensFrom_eq, Nat.zero_add]
    rfl

/--
A diagnostic about the first place in a source text where the scanner cannot go on: at a comment that
is not closed, or at a character that nothing begins with, whatever lines follow.
-/
structure FirstFault (source file : String) (d : Diagnostic) (before : List Char) (c : Char)
    (rest : List Char) : Prop where
  source_eq : source.toList = before ++ c :: rest
  file_eq : d.position.file = file
  offset_eq : d.position.offset.toNat = byteLength before
  offset_lt : d.position.offset.toNat < source.utf8ByteSize
  tokenizes : ∃ ts, tokenize (String.ofList before) file = .ok ts
  justified :
    (d.cause = .unterminatedComment ∧
        ∃ comment, c :: rest = '/' :: '*' :: comment ∧ ¬ ['*', '/'] <:+: comment) ∨
      (d.cause = .unrecognised (String.ofList [c]) ∧ Unrecognisable c rest ∧
        ∀ more, tokenize (source ++ "\n" ++ more) file = .error d)

theorem exists_firstFault_of_tokenize {source file : String} {d : Diagnostic}
    (hsize : source.utf8ByteSize < UInt32.size) (h : tokenize source file = .error d) :
    ∃ before c rest, FirstFault source file d before c rest := by
  obtain ⟨ls, stop, fault, hadvances, hstuck, rfl⟩ := tokenize_eq_error_iff.1 h
  obtain ⟨c, rest, rfl⟩ := List.exists_cons_of_ne_nil hstuck.ne_nil
  have hsource := hadvances.eq_append
  have hlt : byteLength (textOf ls) < source.utf8ByteSize := by
    have hpos := byteLength_pos_of_ne_nil hstuck.ne_nil
    rw [← byteLength_toList, hsource, byteLength_append]
    omega
  have hoffset : (Position.ofBytes file (byteLength (textOf ls))).offset.toNat =
      byteLength (textOf ls) := Position.toNat_offset_ofBytes (Nat.lt_trans hlt hsize)
  have hbefore : ∃ ts, tokenize (String.ofList (textOf ls)) file = .ok ts := by
    rw [tokenize_eq_tokensFrom, String.toList_ofList, hadvances.truncate.tokensFrom_eq,
      tokensFrom_nil]
    exact ⟨_, rfl⟩
  refine ⟨textOf ls, c, rest, hsource, rfl, hoffset, hoffset.symm ▸ hlt, hbefore, ?_⟩
  cases hstuck with
  | unterminatedComment hl hopen => exact .inl ⟨rfl, exists_comment_of_openComment hl hopen⟩
  | unrecognised hnone =>
      refine .inr ⟨rfl, nextLexeme?_eq_none_iff.1 hnone, fun more => ?_⟩
      have happend : (source ++ "\n" ++ more).toList = source.toList ++ '\n' :: more.toList := by
        simp
      have hfar := hadvances.append_newline (List.cons_ne_nil c rest) more.toList
      rw [← happend] at hfar
      have hstill := (Stuck.unrecognised hnone).append_newline more.toList
      exact tokenize_eq_error_iff.2 ⟨ls, _, _, hfar, hstill, rfl⟩

theorem exists_firstFault_of_escaped_quote :
    let source := "a /**/ \"b\\\""
    let d : Diagnostic := ⟨.unrecognised "\"", .ofBytes "a.cl" 7⟩
    source.utf8ByteSize < UInt32.size ∧ tokenize source "a.cl" = .error d ∧
      ∃ before c rest, FirstFault source "a.cl" d before c rest := by
  intro source d
  have hsize : source.utf8ByteSize < UInt32.size := by decide
  have h : tokenize source "a.cl" = .error d := by cbv
  exact ⟨hsize, h, exists_firstFault_of_tokenize hsize h⟩

end ClassLang
