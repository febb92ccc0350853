import ClassLang.Proofs.Token.Gap
import ClassLang.Proofs.Token.Layout
import Mathlib.Data.List.MinMax
/-!
Longest matches. Main statements: wherever two patterns take a part of the same text, the one that
is tried first takes more (`Pattern.pairwise_table`), so that the scanner, which goes by the order
of the patterns, takes the longest lexeme at every place, whatever their order
(`tokenize_eq_tokenizeLongest`).
-/

namespace ClassLang

/-- The kinds of first characters that tell patterns apart. -/
inductive Opening where
  | letter
  | digit
  | blank
  | quote
  | sign
  deriving DecidableEq, Repr

def Opening.ofChar (c : Char) : Opening :=
  if isWordStart c then .letter
  else if isDecimal c then .digit
  else if isBlank c then .blank
  else if c = '"' then .quote
  else .sign

theorem starts_of_takeRun? {starts continues : Char → Bool} {c : Char} {cs : List Char}
    {found : List Char × List Char} (h : takeRun? starts continues (c :: cs) = some found) :
    starts c = true := by
  rw [takeRun?] at h
  split at h
  · assumption
  · cases h

namespace Pattern

def opening : Pattern → Opening
  | .word => .letter
  | .digits => .digit
  | .blanks => .blank
  | .quotedText => .quote
  | .lineComment => .sign
  | .blockComment => .sign
  | .openComment => .sign
  | .symbol _ => .sign

def comments : List Pattern :=
  [.lineComment, .blockComment, .openComment]

/-- Wherever both patterns take a part of a text, the first takes more. -/
def Outmatches (p q : Pattern) : Prop :=
  ∀ ⦃cs text rest text' rest' : List Char⦄, p.take? cs = some (text, rest) →
    q.take? cs = some (text', rest') → text'.length < text.length

variable {p q : Pattern} {s t : Symbol} {cs text rest : List Char}

theorem opening_eq_of_take? {c : Char} (h : p.take? (c :: cs) = some (text, rest)) :
    p.opening = .ofChar c := by
  obtain ⟨hcs, hne⟩ := take?_spec h
  obtain ⟨d, ds, rfl⟩ := List.exists_cons_of_ne_nil hne
  cases hcs
  cases p with
  | word => rw [Opening.ofChar, if_pos (starts_of_takeRun? h), opening]
  | digits =>
      have hdecimal := starts_of_takeRun? h
      simp [Opening.ofChar, opening, isWordStart_eq_false_of_isDecimal hdecimal, hdecimal]
  | blanks =>
      have hblank := starts_of_takeRun? h
      have hletter := isWordStart_eq_false_of_isBlank hblank
      have hdecimal := isDecimal_eq_false_of_isBlank hblank
      simp [Opening.ofChar, opening, hletter, hdecimal, hblank]
  | quotedText =>
      obtain ⟨raw, htext, -⟩ := standsFor_of_takeQuoted? h
      cases htext
      decide
  | lineComment =>
      obtain ⟨comment, htext, -⟩ := exists_comment_of_takeLineComment? h
      cases htext
      decide
  | blockComment =>
      obtain ⟨comment, htext, -⟩ := exists_comment_of_takeBlockComment? h
      cases htext
      decide
  | openComment =>
      obtain ⟨htext, -⟩ := takeExact?_spec h
      cases htext
      decide
  | symbol s =>
      obtain ⟨htext, -⟩ := takeExact?_spec h
      have hsign : s.spelling.toList.head?.map Opening.ofChar = some .sign := by
        cases s <;> rfl
      rw [← htext] at hsign
      exact (Option.some.inj hsign).symm

theorem outmatches_of_opening_ne (h : p.opening ≠ q.opening) : p.Outmatches q := by
  intro cs text rest text' rest' hp hq
  obtain ⟨hcs, hne⟩ := take?_spec hp
  cases cs with
  | nil => exact absurd (List.append_eq_nil_iff.1 hcs.symm).1 hne
  | cons c cs => exact absurd ((opening_eq_of_take? hp).trans (opening_eq_of_take? hq).symm) h

theorem exists_cons_of_take?_comment (hp : p ∈ comments) (h : p.take? cs = some (text, rest)) :
    ∃ c ds, text = '/' :: c :: ds ∧ (c = '/' ↔ p = .lineComment) := by
  simp only [comments, List.mem_cons, List.not_mem_nil, or_false] at hp
  rcases hp with rfl | rfl | rfl
  · obtain ⟨comment, rfl, -⟩ := exists_comment_of_takeLineComment? h
    exact ⟨_, comment, rfl, by simp⟩
  · obtain ⟨comment, rfl, -⟩ := exists_comment_of_takeBlockComment? h
    exact ⟨_, comment ++ ['*', '/'], rfl, by simp⟩
  · obtain ⟨rfl, -⟩ := takeExact?_spec h
    exact ⟨_, [], rfl, by simp⟩

theorem lineComment_outmatches (hq : q ∈ comments) (hne : q ≠ .lineComment) :
    lineComment.Outmatches q := by
  intro cs text rest text' rest' hp hq'
  obtain ⟨c, ds, rfl, hc⟩ := exists_cons_of_take?_comment (by decide) hp
  obtain ⟨c', ds', rfl, hc'⟩ := exists_cons_of_take?_comment hq hq'
  -- both would take their second characters from one place
  have hcs := (take?_spec hp).1.symm.trans (take?_spec hq').1
  simp only [List.cons_append, List.cons.injEq, true_and] at hcs
  exact absurd (hc'.1 (hcs.1 ▸ hc.2 rfl)) hne

theorem blockComment_outmatches_openComment : blockComment.Outmatches .openComment := by
  intro cs text rest text' rest' hp hq
  obtain ⟨comment, rfl, -⟩ := exists_comment_of_takeBlockComment? hp
  obtain ⟨rfl, -⟩ := takeExact?_spec hq
  simp

theorem outmatches_symbol (hp : p ∈ comments) (s : Symbol) : p.Outmatches (.symbol s) := by
  intro cs text rest text' rest' hp' hs
  obtain ⟨c, ds, rfl, -⟩ := exists_cons_of_take?_comment hp hp'
  obtain ⟨rfl, hcs⟩ := takeExact?_spec hs
  have hslash : s.spelling.toList.head? = some '/' := by
    obtain ⟨d, es, hspelling⟩ := List.exists_cons_of_ne_nil s.spelling_ne_nil
    rw [hspelling, (take?_spec hp').1, List.cons_append, List.cons_append] at hcs
    rw [hspelling, ← (List.cons.inj hcs).1, List.head?_cons]
  have hlength : s.spelling.toList.length = 1 := by
    revert hslash
    cases s <;> decide
  simp only [hlength, List.length_cons]
  omega

theorem symbol_outmatches (h : ¬ s.spelling.toList <+: t.spelling.toList) :
    (symbol s).Outmatches (.symbol t) := by
  intro cs text rest text' rest' hs ht
  obtain ⟨rfl, hcs⟩ := takeExact?_spec hs
  obtain ⟨rfl, hcs'⟩ := takeExact?_spec ht
  by_contra hlength
  rw [Nat.not_lt] at hlength
  exact h (List.prefix_of_prefix_length_le ⟨rest, hcs.symm⟩ ⟨rest', hcs'.symm⟩ hlength)

theorem pairwise_table : table.Pairwise Outmatches := by
  rw [table, List.pairwise_append]
  refine ⟨?_, ?_, ?_⟩
  · have hpairs : [word, digits, blanks, quotedText, lineComment, blockComment,
        openComment].Pairwise fun p q => p.opening ≠ q.opening ∨
          p = .lineComment ∧ q ∈ comments ∧ q ≠ .lineComment ∨
          p = .blockComment ∧ q = .openComment := by decide
    refine hpairs.imp fun {p q} hpq => ?_
    rcases hpq with hopening | ⟨rfl, hq, hne⟩ | ⟨rfl, rfl⟩
    · exact outmatches_of_opening_ne hopening
    · exact lineComment_outmatches hq hne
    · exact blockComment_outmatches_openComment
  · have hall : Symbol.all.Pairwise fun s t => ¬ s.spelling.toList <+: t.spelling.toList := by
      decide
    exact List.pairwise_map.2 (hall.imp symbol_outmatches)
  · intro p hp q hq
    obtain ⟨s, -, rfl⟩ := List.mem_map.1 hq
    have hcases : p.opening ≠ .sign ∨ p ∈ comments := by
      revert p
      decide
    rcases hcases with hopening | hcomment
    · exact outmatches_of_opening_ne hopening
    · exact outmatches_symbol hcomment s

theorem length_lt_of_find? {text' rest' : List Char}
    (hfirst : table.find? (fun p => (p.take? cs).isSome) = some p)
    (hp : p.take? cs = some (text, rest)) (hq : q.take? cs = some (text', rest')) (hne : q ≠ p) :
    text'.length < text.length := by
  obtain ⟨-, before, after, htable, hbefore⟩ := List.find?_eq_some_iff_append.1 hfirst
  have hpairs := pairwise_table
  have hmem := q.mem_table
  rw [htable, List.mem_append, List.mem_cons] at hmem
  rcases hmem with hmem | rfl | hmem
  · have hnone := hbefore q hmem
    simp [hq] at hnone
  · exact absurd rfl hne
  · rw [htable, List.pairwise_append, List.pairwise_cons] at hpairs
    exact hpairs.2.1.1 q hmem hp hq

def lexeme? (p : Pattern) (cs : List Char) : Option (Lexeme × List Char) :=
  (p.take? cs).map fun found => (⟨p, found.1⟩, found.2)

theorem lexeme?_eq_some_iff {found : Lexeme × List Char} :
    p.lexeme? cs = some found ↔
      found.1.pattern = p ∧ p.take? cs = some (found.1.text, found.2) := by
  obtain ⟨⟨p', text⟩, rest⟩ := found
  rw [lexeme?, Option.map_eq_some_iff]
  constructor
  · rintro ⟨_, htake, ⟨⟩⟩
    exact ⟨rfl, htake⟩
  · rintro ⟨rfl, htake⟩
    exact ⟨_, htake, rfl⟩

end Pattern

/-- The longest lexeme that one of the patterns takes from the front of a text, and what follows. -/
def longestLexeme? (order : List Pattern) (cs : List Char) : Option (Lexeme × List Char) :=
  (order.filterMap fun p => p.lexeme? cs).argmax fun found => found.1.text.length

theorem length_lt_of_longestLexeme? {order : List Pattern} {cs rest : List Char} {l : Lexeme}
    (h : longestLexeme? order cs = some (l, rest)) : rest.length < cs.length := by
  obtain ⟨p, -, hp⟩ := List.mem_filterMap.1 (List.argmax_mem h)
  obtain ⟨hcs, hne⟩ := Pattern.take?_spec (Pattern.lexeme?_eq_some_iff.1 hp).2
  have hpos : 0 < l.text.length := List.length_pos_iff.2 hne
  have hlength : cs.length = l.text.length + rest.length := by rw [hcs, List.length_append]
  omega

def scanLongest (order : List Pattern) : List Char → Scan
  | [] => ⟨[], none⟩
  | c :: cs =>
      match _ : longestLexeme? order (c :: cs) with
      | none => ⟨[], some (.unrecognised c)⟩
      | some (l, rest) =>
          if l.pattern = .openComment then ⟨[], some .unterminatedComment⟩
          else (scanLongest order rest).cons l
termination_by cs => cs.length
decreasing_by exact length_lt_of_longestLexeme? (by assumption)

theorem scanLongest_cons (order : List Pattern) (c : Char) (cs : List Char) :
    scanLongest order (c :: cs) =
      match longestLexeme? order (c :: cs) with
      | none => ⟨[], some (.unrecognised c)⟩
      | some (l, rest) =>
          if l.pattern = .openComment then ⟨[], some .unterminatedComment⟩
          else (scanLongest order rest).cons l := by
  rw [scanLongest]
  split <;> simp [*]

def Scan.tokens (file : String) (s : Scan) : Except Diagnostic (List Token) :=
  let stop := Position.ofBytes file (byteLength s.text)
  match s.fault with
  | none => .ok (tokensAfter file 0 s.lexemes ++ [(EndMark.atPosition stop).token])
  | some fault => .error ⟨fault.cause, stop⟩

/-- The tokens of a source text, cut out by the longest lexeme at every place. -/
def tokenizeLongest (order : List Pattern) (source file : String) :
    Except Diagnostic (List Token) :=
  (scanLongest order source.toList).tokens file

theorem nextLexeme?_eq_some_iff {cs rest : List Char} {l : Lexeme} :
    nextLexeme? cs = some (l, rest) ↔
      Pattern.table.find? (fun p => (p.take? cs).isSome) = some l.pattern ∧
        l.pattern.take? cs = some (l.text, rest) := by
  have hnone : ∀ before : List Pattern, (∀ p ∈ before, p.lexeme? cs = none) ↔
      ∀ p ∈ before, (!(p.take? cs).isSome) = true := by
    simp [Pattern.lexeme?]
  constructor
  · intro h
    obtain ⟨before, p, after, htable, hp, hbefore⟩ := List.findSome?_eq_some_iff.1 h
    obtain ⟨rfl, hp⟩ := Pattern.lexeme?_eq_some_iff.1 hp
    rw [List.find?_eq_some_iff_append]
    exact ⟨⟨by rw [hp]; rfl, before, after, htable, (hnone before).1 hbefore⟩, hp⟩
  · rintro ⟨hfind, hp⟩
    obtain ⟨-, before, after, htable, hbefore⟩ := List.find?_eq_some_iff_append.1 hfind
    exact List.findSome?_eq_some_iff.2 ⟨before, l.pattern, after, htable,
      Pattern.lexeme?_eq_some_iff.2 ⟨rfl, hp⟩, (hnone before).2 hbefore⟩

section Order

variable {order : List Pattern} (horder : ∀ p, p ∈ order)

include horder

theorem longestLexeme?_eq_nextLexeme? (cs : List Char) :
    longestLexeme? order cs = nextLexeme? cs := by
  cases hnext : nextLexeme? cs with
  | none =>
      refine List.argmax_eq_none.2 (List.filterMap_eq_nil_iff.2 fun p _ => ?_)
      exact List.findSome?_eq_none_iff.1 hnext p p.mem_table
  | some first =>
      obtain ⟨hfirst, hp⟩ := nextLexeme?_eq_some_iff.1 hnext
      have hmem : first ∈ order.filterMap fun p => p.lexeme? cs :=
        List.mem_filterMap.2 ⟨first.1.pattern, horder _, Pattern.lexeme?_eq_some_iff.2 ⟨rfl, hp⟩⟩
      cases hfound : longestLexeme? order cs with
      | none => simp [List.argmax_eq_none.1 hfound] at hmem
      | some found =>
          obtain ⟨q, -, hq⟩ := List.mem_filterMap.1 (List.argmax_mem hfound)
          obtain ⟨rfl, hq⟩ := Pattern.lexeme?_eq_some_iff.1 hq
          have hlongest := List.le_of_mem_argmax hmem hfound
          -- another pattern would have taken less than the first one
          have hsame : found.1.pattern = first.1.pattern := by
            by_contra hne
            exact Nat.not_lt.2 hlongest (Pattern.length_lt_of_find? hfirst hp hq hne)
          obtain ⟨⟨p, text⟩, rest⟩ := found
          cases hsame
          cases hq.symm.trans hp
          rfl

theorem scanLongest_eq_scan (cs : List Char) : scanLongest order cs = scan cs := by
  fun_induction scan cs with
  | case1 => rw [scanLongest]
  | case2 c cs hnone => rw [scanLongest_cons, longestLexeme?_eq_nextLexeme? horder, hnone]
  | case3 c cs l rest hl hopen =>
      rw [scanLongest_cons, longestLexeme?_eq_nextLexeme? horder, hl]
      exact if_pos hopen
  | case4 c cs l rest hl hopen ih =>
      rw [scanLongest_cons, longestLexeme?_eq_nextLexeme? horder, hl, ← ih]
      exact if_neg hopen

end Order

theorem tokenize_eq_tokenizeLongest :
    (∀ cs : List Char, (∃ q : Pattern, (q.take? cs).isSome) →
      ∃ (p : Pattern) (text rest : List Char),
        Pattern.table.find? (fun p => (p.take? cs).isSome) = some p ∧
        p.take? cs = some (text, rest) ∧
        ∀ (q : Pattern) (text' rest' : List Char), q ≠ p → q.take? cs = some (text', rest') →
          text'.length < text.length) ∧
    ∀ order : List Pattern, order.Perm Pattern.table → ∀ source file : String,
      tokenize source file = tokenizeLongest order source file := by
  constructor
  · rintro cs ⟨q, hq⟩
    cases hfirst : Pattern.table.find? fun p => (p.take? cs).isSome with
    | none => exact absurd hq (List.find?_eq_none.1 hfirst q q.mem_table)
    | some p =>
        have hsome : (p.take? cs).isSome = true := (List.find?_eq_some_iff_append.1 hfirst).1
        obtain ⟨⟨text, rest⟩, hp⟩ := Option.isSome_iff_exists.1 hsome
        refine ⟨p, text, rest, rfl, hp, ?_⟩
        intro q text' rest' hne hq
        exact Pattern.length_lt_of_find? hfirst hp hq hne
  · intro order horder source file
    have hmem : ∀ p : Pattern, p ∈ order := fun p => horder.mem_iff.2 p.mem_table
    rw [tokenizeLongest, scanLongest_eq_scan hmem]
    rfl

theorem tokenize_eq_tokenizeLongest_reverse :
    let cs := "/*a*/==".toList
    let slash := Pattern.symbol .slash
    let order := Pattern.table.reverse
    (slash.take? cs).isSome ∧ order.Perm Pattern.table ∧
      (∃ (p : Pattern) (text rest : List Char), p.take? cs = some (text, rest) ∧ slash ≠ p ∧
        slash.take? cs = some (['/'], "*a*/==".toList) ∧ ['/'].length < text.length) ∧
      tokenize "/*a*/==" "a.cl" = tokenizeLongest order "/*a*/==" "a.cl" := by
  intro cs slash order
  have hslash : slash.take? cs = some (['/'], "*a*/==".toList) := by decide
  have hsome : (slash.take? cs).isSome := by rw [hslash]; rfl
  have horder : order.Perm Pattern.table := List.reverse_perm _
  obtain ⟨p, text, rest, hfirst, hp, hless⟩ := tokenize_eq_tokenizeLongest.1 cs ⟨slash, hsome⟩
  have hne : slash ≠ p := by
    rintro rfl
    exact absurd hfirst (by decide)
  exact ⟨hsome, horder, ⟨p, text, rest, hp, hne, hslash, hless slash _ _ hne hslash⟩,
    tokenize_eq_tokenizeLongest.2 order horder _ _⟩

end ClassLang
