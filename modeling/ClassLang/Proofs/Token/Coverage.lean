import ClassLang.Proofs.Token.Gap
import ClassLang.Proofs.Token.Layout
import Mathlib
/-!
Tokens and the text they are read from. Main statement: the tokens of a source text lie in it in
order, each where the text spells it, with nothing but white space and comments around them
(`exists_tokenizes_of_tokenize`).
-/

namespace ClassLang

/-- The part of a text from one offset to another, with what follows it. -/
def IsSlice (source : List Char) (start stop : Nat) (text after : List Char) : Prop :=
  ∃ before, source = before ++ text ++ after ∧ byteLength before = start ∧
    start + byteLength text = stop

namespace Token

def start (t : Token) : Nat :=
  t.span.start.offset.toNat

def stop (t : Token) : Nat :=
  t.span.stop.offset.toNat

/-- The token is the word that a text spells. -/
structure Reads (t : Token) (text : String) : Prop where
  value_eq : t.value = text
  display_eq : t.display = text
  keyword_iff : ∀ k, t.kind = .keyword k ↔ text = k.spelling
  boolean_iff : t.kind = .boolean ↔ text = "true" ∨ text = "false"
  not_reserved : t.kind = .identifier → reservedKind? text = none

/-- The text of a token: a string constant in its quotes, or the word that the token is. -/
def Spells (t : Token) (text : List Char) : Prop :=
  if t.kind = .string then ∃ raw, text = '"' :: (raw ++ ['"']) ∧ StandsFor raw t.value.toList
  else t.Reads (String.ofList text)

/-- The gaps before tokens: from the end of the token before, or the given offset, to the start. -/
def gapsAfter : Nat → List Token → List (Nat × Nat)
  | _, [] => []
  | offset, t :: ts => (offset, t.start) :: gapsAfter t.stop ts

end Token

/-- Lexemes that a text consists of, each as its pattern takes it in front of those after it. -/
inductive Cut : List Char → List Lexeme → Prop
  | nil : Cut [] []
  | cons {l : Lexeme} {rest : List Char} {ls : List Lexeme} :
      l.pattern.take? (l.text ++ rest) = some (l.text, rest) → l.pattern ≠ .openComment →
      Cut rest ls → Cut (l.text ++ rest) (l :: ls)

theorem cut_scan {cs : List Char} {ls : List Lexeme} (h : scan cs = ⟨ls, none⟩) : Cut cs ls := by
  fun_induction scan cs generalizing ls with
  | case1 =>
      cases h
      exact .nil
  | case2 => cases h
  | case3 => cases h
  | case4 c cs l rest hl hopen ih =>
      rw [Scan.cons, Scan.mk.injEq] at h
      obtain ⟨rfl, hfault⟩ := h
      have htake := exists_take?_of_nextLexeme? hl
      rw [(nextLexeme?_spec hl).1] at htake ⊢
      exact .cons htake hopen (ih (by rw [← hfault]))

/--
What a text is read as that so many bytes precede: a gap and a token in turn, and at last a gap and
the mark of the end.
-/
inductive Covers : Nat → List Char → List Token → Prop
  | mark {before : Nat} {gap : List Char} {t : Token} :
      Gap [] gap → t.kind = .endOfInput → t.start = before + byteLength gap → t.stop = t.start →
      Covers before gap [t]
  | token {before : Nat} {gap text rest : List Char} {t : Token} {ts : List Token} :
      Gap (text ++ rest) gap → text ≠ [] → t.kind ≠ .endOfInput → t.Spells text →
      t.start = before + byteLength gap → t.stop = t.start + byteLength text →
      Covers t.stop rest ts → Covers before (gap ++ (text ++ rest)) (t :: ts)

section Words

theorem wordKind_eq_keyword_iff {word : String} {k : Keyword} :
    wordKind word = .keyword k ↔ word = k.spelling := by
  constructor
  · intro h
    rcases wordKind_cases word with ⟨hkind, -⟩ | ⟨k', hkind, rfl⟩ | ⟨hkind, -⟩
    · simp [hkind] at h
    · rw [hkind] at h
      cases h
      rfl
    · simp [hkind] at h
  · rintro rfl
    exact Word.wordKind_spelling k

theorem wordKind_eq_boolean_iff {word : String} :
    wordKind word = .boolean ↔ word = "true" ∨ word = "false" := by
  constructor
  · intro h
    rcases wordKind_cases word with ⟨-, hword⟩ | ⟨k, hkind, -⟩ | ⟨hkind, -⟩
    · exact hword
    · simp [hkind] at h
    · simp [hkind] at h
  · rintro (rfl | rfl) <;> decide

theorem display_of_wordKind {word : String} {span : Span} :
    (Token.mk (wordKind word) word span).display = word := by
  rcases wordKind_cases word with ⟨hkind, -⟩ | ⟨k, hkind, hword⟩ | ⟨hkind, -⟩
  · rw [Token.display, hkind]
  · rw [Token.display, hkind]
    exact hword.symm
  · rw [Token.display, hkind]

theorem reads_word (word : String) (span : Span) :
    (Token.mk (wordKind word) word span).Reads word where
  value_eq := rfl
  display_eq := display_of_wordKind
  keyword_iff _ := wordKind_eq_keyword_iff
  boolean_iff := wordKind_eq_boolean_iff
  not_reserved := wordKind_eq_identifier_iff.1

/-- A token that is no word: what it spells does not begin as a word does. -/
theorem reads_of_not_isWord {t : Token} {text : String} (hvalue : t.value = text)
    (hdisplay : t.display = text) (htext : ¬ IsWord text.toList)
    (hkeyword : ∀ k, t.kind ≠ .keyword k) (hboolean : t.kind ≠ .boolean)
    (hidentifier : t.kind ≠ .identifier) : t.Reads text where
  value_eq := hvalue
  display_eq := hdisplay
  keyword_iff k := by
    refine ⟨fun h => absurd h (hkeyword k), ?_⟩
    rintro rfl
    exact absurd (isWord_spelling k) htext
  boolean_iff := by
    refine ⟨fun h => absurd h hboolean, ?_⟩
    rintro (rfl | rfl)
    · exact absurd ⟨_, _, rfl, by decide, by decide⟩ htext
    · exact absurd ⟨_, _, rfl, by decide, by decide⟩ htext
  not_reserved h := absurd h hidentifier

theorem not_isWord_of_isDigits {text : List Char} (h : IsDigits text) : ¬ IsWord text := by
  rintro ⟨c, cs, rfl, hc, -⟩
  have hdecimal : isDecimal c = true := by
    have hall := h.2
    rw [List.all_cons, Bool.and_eq_true] at hall
    exact hall.1
  rw [isWordStart_eq_false_of_isDecimal hdecimal] at hc
  cases hc

theorem not_isWord_symbol (s : Symbol) : ¬ IsWord s.spelling.toList := by
  rintro ⟨c, cs, hcs, hc, -⟩
  have hstart : s.spelling.toList.head?.all isWordStart = false := by cases s <;> decide
  rw [hcs, List.head?_cons, Option.all_some, hc] at hstart
  cases hstart

end Words

theorem spells_of_token? {l : Lexeme} {rest : List Char} {span : Span} {t : Token}
    (hl : l.pattern.take? (l.text ++ rest) = some (l.text, rest)) (ht : l.token? span = some t) :
    t.Spells l.text := by
  obtain ⟨pattern, text⟩ := l
  cases pattern with
  | word =>
      cases ht
      have hstring : wordKind (String.ofList text) ≠ .string := by
        rcases wordKind_cases (String.ofList text) with ⟨hkind, -⟩ | ⟨k, hkind, -⟩ | ⟨hkind, -⟩ <;>
          simp [hkind]
      rw [Token.Spells, if_neg hstring]
      exact reads_word _ span
  | digits =>
      cases ht
      have hdigits : IsDigits (String.ofList text).toList := by
        rw [String.toList_ofList]
        exact all_of_takeRun? hl
      rw [Token.Spells, if_neg (by simp)]
      exact reads_of_not_isWord rfl rfl (not_isWord_of_isDigits hdigits) nofun nofun nofun
  | quotedText =>
      cases ht
      obtain ⟨raw, htext, hraw⟩ := standsFor_of_takeQuoted? hl
      rw [Token.Spells, if_pos rfl, String.toList_ofList]
      exact ⟨raw, htext, hraw⟩
  | symbol s =>
      cases ht
      obtain ⟨rfl, -⟩ := takeExact?_spec hl
      rw [Token.Spells, if_neg (by simp), String.ofList_toList]
      exact reads_of_not_isWord rfl rfl (not_isWord_symbol s) nofun nofun nofun
  | _ => cases ht

theorem ends_of_token? {l : Lexeme} {file : String} {before : Nat} {t : Token}
    (hsize : before + byteLength l.text < UInt32.size)
    (h : l.token? (Span.ofBytes file before (byteLength l.text)) = some t) :
    t.start = before ∧ t.stop = before + byteLength l.text := by
  rw [Token.start, Token.stop, span_of_token? h]
  exact ⟨Position.toNat_offset_ofBytes (by omega), Position.toNat_offset_ofBytes hsize⟩

theorem pattern_of_token?_eq_none {l : Lexeme} {span : Span} (h : l.token? span = none)
    (hopen : l.pattern ≠ .openComment) :
    l.pattern = .blanks ∨ l.pattern = .lineComment ∨ l.pattern = .blockComment := by
  obtain ⟨pattern, text⟩ := l
  cases pattern with
  | blanks => exact .inl rfl
  | lineComment => exact .inr (.inl rfl)
  | blockComment => exact .inr (.inr rfl)
  | openComment => exact absurd rfl hopen
  | _ => cases h

namespace Covers

theorem prepend {before : Nat} {l : Lexeme} {rest : List Char} {ts : List Token}
    (hl : l.pattern.take? (l.text ++ rest) = some (l.text, rest))
    (hpattern : l.pattern = .blanks ∨ l.pattern = .lineComment ∨ l.pattern = .blockComment)
    (h : Covers (before + byteLength l.text) rest ts) : Covers before (l.text ++ rest) ts := by
  cases h with
  | mark hgap hkind hstart hstop =>
      rw [← List.append_nil rest] at hl
      refine .mark (hgap.prepend hl hpattern) hkind ?_ hstop
      rw [hstart, byteLength_append, Nat.add_assoc]
  | @token _ gap text rest t ts hgap hne hkind hspells hstart hstop hts =>
      rw [← List.append_assoc]
      refine .token (hgap.prepend hl hpattern) hne hkind hspells ?_ hstop hts
      rw [hstart, byteLength_append, Nat.add_assoc]

theorem of_cut (file : String) {before : Nat} {cs : List Char} {ls : List Lexeme}
    (hsize : before + byteLength cs < UInt32.size) (h : Cut cs ls) :
    Covers before cs (tokensAfter file before ls ++
      [(EndMark.atPosition (Position.ofBytes file (before + byteLength cs))).token]) := by
  induction h generalizing before with
  | nil => exact .mark .nil rfl (Position.toNat_offset_ofBytes hsize) rfl
  | @cons l rest ls hl hopen _ ih =>
      rw [byteLength_append, ← Nat.add_assoc] at hsize ⊢
      have hrest := ih hsize
      rw [tokensAfter]
      cases ht : l.token? (Span.ofBytes file before (byteLength l.text)) with
      | none => exact hrest.prepend hl (pattern_of_token?_eq_none ht hopen)
      | some t =>
          obtain ⟨hstart, hstop⟩ := ends_of_token? (by omega) ht
          exact .token .nil (Pattern.take?_spec hl).2 (kind_ne_endOfInput_of_token? ht)
            (spells_of_token? hl ht) hstart (by rw [hstop, hstart]) (hstop ▸ hrest)

variable {before : Nat} {cs : List Char} {ts : List Token}

theorem exists_mark (h : Covers before cs ts) :
    ∃ body mark, ts = body ++ [mark] ∧ mark.kind = .endOfInput ∧
      mark.start = before + byteLength cs ∧ mark.stop = before + byteLength cs ∧
      ∀ t ∈ body, t.kind ≠ .endOfInput ∧ t.start < t.stop := by
  induction h with
  | @mark before gap t _ hkind hstart hstop =>
      exact ⟨[], t, rfl, hkind, hstart, hstop.trans hstart, by simp⟩
  | @token before gap text rest t ts _ hne hkind _ hstart hstop _ ih =>
      obtain ⟨body, mark, rfl, hmark, hfirst, hlast, hbody⟩ := ih
      have hpos := byteLength_pos_of_ne_nil hne
      refine ⟨t :: body, mark, rfl, hmark, ?_, ?_, ?_⟩
      · simp only [byteLength_append]
        omega
      · simp only [byteLength_append]
        omega
      · intro u hu
        rcases List.mem_cons.1 hu with rfl | hu
        · exact ⟨hkind, by omega⟩
        · exact hbody u hu

theorem le_start (h : Covers before cs ts) : ∀ t ∈ ts, before ≤ t.start := by
  induction h with
  | mark _ _ hstart _ =>
      intro u hu
      rw [List.mem_singleton.1 hu]
      omega
  | token _ _ _ _ hstart hstop _ ih =>
      intro u hu
      rcases List.mem_cons.1 hu with rfl | hu
      · omega
      · have := ih u hu
        omega

theorem pairwise (h : Covers before cs ts) :
    ts.Pairwise fun t u => t.start < u.start ∧ t.stop ≤ u.start := by
  induction h with
  | mark => exact List.pairwise_singleton _ _
  | token _ hne _ _ hstart hstop hts ih =>
      have hpos := byteLength_pos_of_ne_nil hne
      refine .cons (fun u hu => ?_) ih
      have := hts.le_start u hu
      omega

theorem ends_le (h : Covers before cs ts) :
    ∀ t ∈ ts, t.start ≤ before + byteLength cs ∧ t.stop ≤ before + byteLength cs := by
  obtain ⟨body, mark, rfl, -, hstart, hstop, -⟩ := h.exists_mark
  intro t ht
  rcases List.mem_append.1 ht with ht | ht
  · have hlt := (List.pairwise_append.1 h.pairwise).2.2 t ht mark (by simp)
    omega
  · rw [List.mem_singleton.1 ht, hstart, hstop]
    exact ⟨Nat.le_refl _, Nat.le_refl _⟩

theorem slices (h : Covers before cs ts) (pre : List Char) (hpre : byteLength pre = before) :
    ∀ t ∈ ts, t.kind ≠ .endOfInput →
      ∃ text after, IsSlice (pre ++ cs) t.start t.stop text after ∧ t.Spells text := by
  induction h generalizing pre with
  | mark _ hkind _ _ =>
      intro u hu hu'
      rw [List.mem_singleton.1 hu] at hu'
      exact absurd hkind hu'
  | @token before gap text rest t ts _ _ _ hspells hstart hstop _ ih =>
      intro u hu hu'
      rcases List.mem_cons.1 hu with rfl | hu
      · exact ⟨text, rest, ⟨pre ++ gap, by simp, by simp [hpre, hstart], hstop.symm⟩, hspells⟩
      · have hpre' : byteLength (pre ++ gap ++ text) = t.stop := by
          simp [hpre, hstart, hstop, Nat.add_assoc]
        simpa using ih _ hpre' u hu hu'

theorem gaps (h : Covers before cs ts) (pre : List Char) (hpre : byteLength pre = before) :
    ∀ ends ∈ Token.gapsAfter before ts,
      ∃ gap after, IsSlice (pre ++ cs) ends.1 ends.2 gap after ∧ Gap after gap := by
  induction h generalizing pre with
  | @mark before gap t hgap _ hstart _ =>
      intro ends hends
      rw [Token.gapsAfter, Token.gapsAfter, List.mem_singleton] at hends
      subst hends
      exact ⟨gap, [], ⟨pre, by simp, hpre, hstart.symm⟩, hgap⟩
  | @token before gap text rest t ts hgap _ _ _ hstart hstop _ ih =>
      intro ends hends
      rcases List.mem_cons.1 hends with rfl | hends
      · exact ⟨gap, text ++ rest, ⟨pre, by simp, hpre, hstart.symm⟩, hgap⟩
      · have hpre' : byteLength (pre ++ gap ++ text) = t.stop := by
          simp [hpre, hstart, hstop, Nat.add_assoc]
        simpa using ih _ hpre' ends hends

end Covers

theorem covers_of_tokenize {source file : String} {ts : List Token}
    (hsize : source.utf8ByteSize < UInt32.size) (h : tokenize source file = .ok ts) :
    Covers 0 source.toList ts := by
  obtain ⟨ls, hscan, rfl⟩ := tokenize_eq_ok_iff.1 h
  have hbytes : 0 + byteLength source.toList < UInt32.size := by
    rw [Nat.zero_add, byteLength_toList]
    exact hsize
  have hcovers := Covers.of_cut file hbytes (cut_scan hscan)
  rwa [Nat.zero_add, byteLength_toList] at hcovers

/-- Tokens that a source text is read as, and the mark of its end. -/
structure Tokenizes (source : String) (body : List Token) (mark : Token) : Prop where
  kind_mark : mark.kind = .endOfInput
  start_mark : mark.start = source.utf8ByteSize
  stop_mark : mark.stop = source.utf8ByteSize
  kind_ne : ∀ t ∈ body, t.kind ≠ .endOfInput
  start_lt_stop : ∀ t ∈ body, t.start < t.stop
  spells : ∀ t ∈ body, ∃ text after, IsSlice source.toList t.start t.stop text after ∧ t.Spells text
  ordered : body.Pairwise fun t u => t.start < u.start ∧ t.stop ≤ u.start
  gaps : ∀ ends ∈ Token.gapsAfter 0 (body ++ [mark]),
    ∃ gap after, IsSlice source.toList ends.1 ends.2 gap after ∧ Gap after gap

theorem exists_tokenizes_of_tokenize {source file : String} {ts : List Token}
    (hsize : source.utf8ByteSize < UInt32.size) (h : tokenize source file = .ok ts) :
    ∃ body mark, ts = body ++ [mark] ∧ Tokenizes source body mark := by
  have hcovers := covers_of_tokenize hsize h
  obtain ⟨body, mark, rfl, hmark, hstart, hstop, hbody⟩ := hcovers.exists_mark
  rw [Nat.zero_add, byteLength_toList] at hstart hstop
  refine ⟨body, mark, rfl, hmark, hstart, hstop, ?_, ?_, ?_, ?_, hcovers.gaps [] rfl⟩
  · exact fun t ht => (hbody t ht).1
  · exact fun t ht => (hbody t ht).2
  · intro t ht
    exact hcovers.slices [] rfl t (List.mem_append_left _ ht) (hbody t ht).1
  · exact (List.pairwise_append.1 hcovers.pairwise).1

theorem tokenizes_of_comment_and_string :
    let source := "/*é**/if\"\\\"é\"// ü"
    let body : List Token := [⟨.keyword .kwIf, "if", .ofBytes "a.cl" 7 2⟩,
      ⟨.string, "\"é", .ofBytes "a.cl" 9 6⟩]
    let mark : Token := ⟨.endOfInput, "EOF", .ofBytes "a.cl" 20 0⟩
    source.utf8ByteSize < UInt32.size ∧ tokenize source "a.cl" = .ok (body ++ [mark]) ∧
      ∃ body' mark', body ++ [mark] = body' ++ [mark'] ∧ Tokenizes source body' mark' := by
  intro source body mark
  have hsize : source.utf8ByteSize < UInt32.size := by decide
  have h : tokenize source "a.cl" = .ok (body ++ [mark]) := by cbv
  exact ⟨hsize, h, exists_tokenizes_of_tokenize hsize h⟩

end ClassLang
