import ClassLang.Proofs.Token.Longest
import ClassLang.Proofs.Token.StringLiteral
import ClassLang.Token.Lexer
/-!
The scanner as a loop that moves a cursor by bytes. Main statements: the handler of the first
pattern that takes a lexeme moves the loop past that lexeme (`Lexer.run_handler`), so that the loop
goes from lexeme to lexeme (`Lexer.loop_eq_of_advances`), cuts texts only between characters, and
comes to an end with the tokens of the source (`Lexer.tokenize_safe`).
-/

namespace ClassLang

/-- The raw texts that are still to be decoded before some round of the decoding of the first. -/
inductive Decodes (raw : List Char) : List Char → Prop
  | start : Decodes raw raw
  | round {rest added rest' : List Char} :
      Decodes raw rest → decodeRound? rest = some (added, rest') → Decodes raw rest'

section Decoding

variable {raw text added rest : List Char}

theorem eq_nil_of_decodeRound? (h : decodeRound? raw = none) : raw = [] := by
  unfold decodeRound? at h
  split at h
  · rfl
  · cases h
  · cases h

theorem unescaped_of_decodeRound? (h : decodeRound? raw = some (added, rest)) :
    unescaped raw = added ++ unescaped rest := by
  unfold decodeRound? at h
  split at h
  · cases h
  · cases h
    rw [unescaped]
  · next c cs hpair =>
      cases h
      rw [unescaped]
      · rfl
      · exact hpair

theorem decoded_eq (text raw : List Char) : decoded text raw = text ++ unescaped raw := by
  fun_induction decoded text raw with
  | case1 text raw hnone =>
      rw [eq_nil_of_decodeRound? hnone, unescaped, List.append_nil]
  | case2 text raw added rest hround ih =>
      rw [ih, unescaped_of_decodeRound? hround, List.append_assoc]

/-- A backslash between the quotes of a string constant has its character after it. -/
theorem StandsFor.ne_backslash (h : StandsFor raw text) : raw ≠ ['\\'] := by
  rintro rfl
  cases h with
  | plain _ hescape => exact hescape rfl

theorem StandsFor.exists_of_decodeRound? (h : StandsFor raw text)
    (hround : decodeRound? raw = some (added, rest)) : ∃ text', StandsFor rest text' := by
  cases h with
  | nil => cases hround
  | @plain c raw text _ hescape _ hraw =>
      rw [decodeRound?] at hround
      · cases hround
        exact ⟨text, hraw⟩
      · exact fun _ _ hc _ => hescape hc
  | @escape c raw text _ hraw =>
      cases hround
      exact ⟨text, hraw⟩

theorem StandsFor.exists_of_decodes (h : StandsFor raw text) (hrest : Decodes raw rest) :
    ∃ text', StandsFor rest text' := by
  induction hrest with
  | start => exact ⟨text, h⟩
  | round _ hround ih =>
      obtain ⟨text', htext'⟩ := ih
      exact htext'.exists_of_decodeRound? hround

end Decoding

theorem sliceBytes?_literal (raw : List Char) :
    sliceBytes? 1 (byteLength (literal raw) - 1) (literal raw) = some raw := by
  refine sliceBytes?_eq_some_iff.2 ⟨['"'], ['"'], rfl, rfl, ?_⟩
  have hquote : '"'.utf8Size = 1 := rfl
  simp only [literal, List.singleton_append, byteLength_cons, byteLength_append, byteLength_nil,
    hquote]
  omega

namespace Lexer

theorem handlerOf_eq_string_iff {p : Pattern} : handlerOf p = .string ↔ p = .quotedText := by
  cases p <;> simp [handlerOf]

theorem selected?_eq_some_iff {cs : List Char} {row : Row} :
    selected? cs = some row ↔
      ∃ l rest, nextLexeme? cs = some (l, rest) ∧ row = ⟨l.pattern, handlerOf l.pattern⟩ := by
  rw [selected?, rows_eq, List.find?_map, Option.map_eq_some_iff]
  constructor
  · rintro ⟨p, hfind, rfl⟩
    have hsome : (p.take? cs).isSome = true := (List.find?_eq_some_iff_append.1 hfind).1
    obtain ⟨⟨text, rest⟩, htake⟩ := Option.isSome_iff_exists.1 hsome
    exact ⟨⟨p, text⟩, rest, nextLexeme?_eq_some_iff.2 ⟨hfind, htake⟩, rfl⟩
  · rintro ⟨l, rest, hnext, rfl⟩
    exact ⟨l.pattern, (nextLexeme?_eq_some_iff.1 hnext).1, rfl⟩

theorem selected?_of_nextLexeme? {cs rest : List Char} {l : Lexeme}
    (h : nextLexeme? cs = some (l, rest)) :
    selected? cs = some ⟨l.pattern, handlerOf l.pattern⟩ :=
  selected?_eq_some_iff.2 ⟨l, rest, h, rfl⟩

theorem selected?_eq_none {cs : List Char} (h : nextLexeme? cs = none) : selected? cs = none := by
  cases hrow : selected? cs with
  | none => rfl
  | some row =>
      obtain ⟨l, rest, hnext, -⟩ := selected?_eq_some_iff.1 hrow
      cases h.symm.trans hnext

/-- The state after a lexeme at the cursor. -/
def pass (s : Lexer) (l : Lexeme) : Lexer :=
  { s.advance (byteLength l.text) with
    tokens := s.tokens ++ (l.token? (s.cursor.span (byteLength l.text))).toList }

section Handlers

variable {s s' : Lexer} {p : Pattern} {l : Lexeme} {cs text rest : List Char}

theorem takeToken_of_take? {read : List Char → Option (TokenKind × List Char)} {kind : TokenKind}
    {value : List Char} (hcs : s.cursor.remainder? = some cs) (h : p.take? cs = some (text, rest))
    (hread : read text = some (kind, value)) :
    s.takeToken p read = some ((s.advance (byteLength text)).push
      ⟨kind, String.ofList value, s.cursor.span (byteLength text)⟩) := by
  simp [takeToken, find?_of_take? hcs h, hread]

theorem readString_literal (raw : List Char) :
    readString (literal raw) = some (.string, unescaped (withoutQuotes (literal raw))) := by
  simp [readString, sliceBytes?_literal, decoded_eq]

theorem run_handler (hcs : s.cursor.remainder? = some cs)
    (h : l.pattern.take? cs = some (l.text, rest)) (hopen : l.pattern ≠ .openComment) :
    (handlerOf l.pattern).run s l.pattern = some (s.pass l) := by
  obtain ⟨p, text⟩ := l
  have hskip : handlerOf p = .skip →
      Lexeme.token? ⟨p, text⟩ (s.cursor.span (byteLength text)) = none →
      (handlerOf p).run s p = some (s.pass ⟨p, text⟩) := by
    intro hhandler hnone
    rw [hhandler, Handler.run, find?_of_take? hcs h, pass, hnone, Option.toList_none,
      List.append_nil]
    rfl
  cases p with
  | word => exact takeToken_of_take? hcs h rfl
  | digits => exact takeToken_of_take? hcs h rfl
  | blanks => exact hskip rfl rfl
  | lineComment => exact hskip rfl rfl
  | blockComment => exact hskip rfl rfl
  | quotedText =>
      obtain ⟨raw, rfl, -⟩ := standsFor_of_takeQuoted? h
      exact takeToken_of_take? hcs h (readString_literal raw)
  | openComment => exact absurd rfl hopen
  | symbol symbol =>
      obtain ⟨rfl, -⟩ := takeExact?_spec h
      simp only [pass, byteLength_toList]
      rfl

theorem run_unterminatedComment (hcs : s.cursor.remainder? = some cs) :
    Handler.unterminatedComment.run s p = some { s.advance (byteLength cs) with
      error := some ⟨.unterminatedComment, s.cursor.position⟩ } := by
  simp [Handler.run, hcs]

theorem round_of_nextLexeme? (hcs : s.cursor.remainder? = some cs) (herror : s.error = none)
    (h : nextLexeme? cs = some (l, rest)) (hopen : l.pattern ≠ .openComment) :
    s.round = some (.ok (s.pass l)) := by
  have hrun := run_handler hcs (exists_take?_of_nextLexeme? h) hopen
  have hpass : (s.pass l).error = none := herror
  simp [round, hcs, selected?_of_nextLexeme? h, hrun, hpass]

theorem round_of_stuck {fault : LexicalFault} (hcs : s.cursor.remainder? = some cs)
    (h : Stuck cs fault) : s.round = some (.error ⟨fault.cause, s.cursor.position⟩) := by
  cases h with
  | @unterminatedComment _ rest l hnext hopen =>
      have hrow := selected?_of_nextLexeme? hnext
      rw [hopen] at hrow
      simp [round, hcs, hrow, handlerOf, run_unterminatedComment hcs, LexicalFault.cause]
  | unrecognised hnone =>
      simp [round, hcs, selected?_eq_none hnone, LexicalFault.cause]

theorem loop_of_atEnd (h : s.cursor.atEnd = true) : loop s = some (.ok s) := by
  rw [loop, dif_pos h]

theorem loop_of_round (h : s.cursor.atEnd = false) (hround : s.round = some (.ok s')) :
    loop s = loop s' := by
  rw [loop, dif_neg (Bool.eq_false_iff.1 h)]
  split
  · next hnone => cases hnone.symm.trans hround
  · next herror => cases herror.symm.trans hround
  · next hok =>
      cases hok.symm.trans hround
      rfl

theorem loop_of_round_error {d : Diagnostic} (h : s.cursor.atEnd = false)
    (hround : s.round = some (.error d)) : loop s = some (.error d) := by
  rw [loop, dif_neg (Bool.eq_false_iff.1 h)]
  split
  · next hnone => cases hnone.symm.trans hround
  · next herror =>
      cases herror.symm.trans hround
      rfl
  · next hok => cases hok.symm.trans hround

end Handlers

/-- The state of the loop behind lexemes of the source. -/
def behind (source file : String) (ls : List Lexeme) : Lexer where
  cursor := ⟨source.toList, file, byteLength (textOf ls)⟩
  tokens := tokensAfter file 0 ls

section Behind

variable {source file : String} {ls ls' : List Lexeme} {rest stop : List Char}

theorem pass_behind (l : Lexeme) :
    (behind source file ls).pass l = behind source file (ls ++ [l]) := by
  rw [behind, behind, textOf_append, textOf_cons, textOf_nil, List.append_nil, byteLength_append,
    tokensAfter_append, Nat.zero_add, tokensAfter, tokensAfter, List.append_nil]
  rfl

theorem remainder?_behind (file : String) (h : source.toList = textOf ls ++ rest) :
    (behind source file ls).cursor.remainder? = some rest := by
  rw [behind, h]
  exact Cursor.remainder?_of_append

theorem byteLength_eq_of_append (h : source.toList = textOf ls ++ rest) :
    byteLength source.toList = byteLength (textOf ls) + byteLength rest := by
  rw [h, byteLength_append]

theorem atEnd_behind_iff (file : String) (h : source.toList = textOf ls ++ rest) :
    (behind source file ls).cursor.atEnd = true ↔ rest = [] := by
  rw [Cursor.atEnd, decide_eq_true_iff]
  change byteLength source.toList ≤ byteLength (textOf ls) ↔ _
  rw [byteLength_eq_of_append h]
  constructor
  · intro hle
    exact eq_nil_of_byteLength_eq_zero (by omega)
  · rintro rfl
    exact Nat.le_refl _

theorem atEnd_behind_eq_false_iff (file : String) (h : source.toList = textOf ls ++ rest) :
    (behind source file ls).cursor.atEnd = false ↔ rest ≠ [] := by
  rw [← Bool.not_eq_true, atEnd_behind_iff file h]

theorem toList_eq_of_nextLexeme? {l : Lexeme} {after : List Char}
    (hls : source.toList = textOf ls ++ rest) (h : nextLexeme? rest = some (l, after)) :
    source.toList = textOf (ls ++ [l]) ++ after := by
  rw [hls, (nextLexeme?_spec h).1, textOf_append, textOf_cons, textOf_nil, List.append_nil,
    List.append_assoc]

theorem loop_eq_of_advances (hls : source.toList = textOf ls ++ rest) (h : Advances rest ls' stop) :
    loop (behind source file ls) = loop (behind source file (ls ++ ls')) := by
  induction h generalizing ls with
  | here => rw [List.append_nil]
  | @next cs rest stop l ls' hl hopen _ ih =>
      obtain ⟨hcs, hne⟩ := nextLexeme?_spec hl
      have hend := (atEnd_behind_eq_false_iff file hls).2 (by simp [hcs, hne])
      have hround := round_of_nextLexeme? (remainder?_behind file hls) rfl hl hopen
      rw [loop_of_round hend hround, pass_behind, ih (toList_eq_of_nextLexeme? hls hl),
        List.append_assoc, List.singleton_append]

theorem tokenize_eq_some (source file : String) :
    Lexer.tokenize source file = some (ClassLang.tokenize source file) := by
  have hstart : source.toList = textOf [] ++ source.toList := rfl
  have hloop : ∀ {ls stop}, Advances source.toList ls stop →
      loop (ofSource source file) = loop (behind source file ls) := loop_eq_of_advances hstart
  cases hfault : (scan source.toList).fault with
  | none =>
      have hadvances := advances_of_fault_none hfault
      have hend := (atEnd_behind_iff file hadvances.eq_append).2 rfl
      rw [Lexer.tokenize, hloop hadvances, loop_of_atEnd hend, tokenize_eq_tokensFrom,
        hadvances.tokensFrom_eq, Nat.zero_add, tokensFrom_nil]
      rfl
  | some fault =>
      obtain ⟨stop, hadvances, hstuck⟩ := exists_advances_of_fault hfault
      have hend := (atEnd_behind_eq_false_iff file hadvances.eq_append).2 hstuck.ne_nil
      have hround := round_of_stuck (remainder?_behind file hadvances.eq_append) hstuck
      rw [Lexer.tokenize, hloop hadvances, loop_of_round_error hend hround, tokenize_eq_tokensFrom,
        hadvances.tokensFrom_eq, Nat.zero_add, hstuck.tokensFrom_eq]
      rfl

end Behind

/-- The states in which the loop begins a round or finds itself at the end. -/
inductive Reached (source file : String) : Lexer → Prop
  | start : Reached source file (ofSource source file)
  | round {s s' : Lexer} : Reached source file s → s.cursor.atEnd = false →
      s.round = some (.ok s') → Reached source file s'

/-- The part of the remaining text that a handler takes. An open comment is not looked at again. -/
def Handler.ownMatch? (s : Lexer) (p : Pattern) : Handler → Option (List Char)
  | .unterminatedComment => none
  | .fixed _ spelling => some spelling.toList
  | _ => (s.find? p).join

/-- A cursor in the source that stands between two characters, or at one of the ends. -/
structure OnBoundary (source : String) (c : Cursor) : Prop where
  source_eq : c.source = source.toList
  offset_eq : ∃ before after, source.toList = before ++ after ∧ c.offset = byteLength before ∧
    c.remainder? = some after
  offset_le : c.offset ≤ source.utf8ByteSize

/-- The handler of the row takes the text of its pattern, and cuts it where it may be cut. -/
structure Handles (source : String) (s : Lexer) (row : Row) (text : List Char) : Prop where
  text_ne_nil : text ≠ []
  ownMatch?_eq : row.handler = .unterminatedComment ∨
    row.handler.ownMatch? s row.pattern = some text
  runs : ∃ s', row.handler.run s row.pattern = some s' ∧ OnBoundary source s'.cursor ∧
    (row.handler ≠ .unterminatedComment → s'.cursor.offset = s.cursor.offset + byteLength text)
  slices : row.handler = .string → ∃ raw, text = literal raw ∧
    sliceBytes? 1 (byteLength text - 1) text = some raw ∧
    ∀ rest, Decodes raw rest → rest ≠ ['\\']

/-- Nothing goes wrong in a round of the loop from the state. -/
structure Sound (source : String) (s : Lexer) : Prop where
  onBoundary : OnBoundary source s.cursor
  rounds : s.cursor.atEnd = false → ∃ outcome, s.round = some outcome ∧
    ∀ s', outcome = .ok s' → s.cursor.offset < s'.cursor.offset
  handles : ∀ rest row, s.cursor.remainder? = some rest → selected? rest = some row →
    ∃ text after, row.pattern.take? rest = some (text, after) ∧ Handles source s row text

/-- There is a round after every round. -/
def Endless (source file : String) : Prop :=
  ∃ run : Nat → Lexer, run 0 = ofSource source file ∧
    ∀ n, (run n).cursor.atEnd = false ∧ (run n).round = some (.ok (run (n + 1)))

section Safety

variable {source file : String} {s : Lexer} {ls : List Lexeme} {l : Lexeme}
  {before after rest : List Char}

theorem next_or_stuck (hne : rest ≠ []) :
    (∃ l after, nextLexeme? rest = some (l, after) ∧ l.pattern ≠ .openComment) ∨
      ∃ fault, Stuck rest fault := by
  obtain ⟨c, cs, rfl⟩ := List.exists_cons_of_ne_nil hne
  cases hnext : nextLexeme? (c :: cs) with
  | none => exact .inr ⟨_, .unrecognised hnext⟩
  | some found =>
      by_cases hopen : found.1.pattern = .openComment
      · exact .inr ⟨_, .unterminatedComment hnext hopen⟩
      · exact .inl ⟨found.1, found.2, rfl, hopen⟩

theorem Reached.exists_behind (h : Reached source file s) :
    ∃ ls rest, Advances source.toList ls rest ∧ s = behind source file ls := by
  induction h with
  | start => exact ⟨[], source.toList, .here, rfl⟩
  | @round s s' _ hend hround ih =>
      obtain ⟨ls, rest, hls, rfl⟩ := ih
      have hcs := remainder?_behind file hls.eq_append
      have hne := (atEnd_behind_eq_false_iff file hls.eq_append).1 hend
      rcases next_or_stuck hne with ⟨l, after, hnext, hopen⟩ | ⟨fault, hstuck⟩
      · rw [round_of_nextLexeme? hcs rfl hnext hopen] at hround
        cases hround
        exact ⟨ls ++ [l], after, Advances.append_iff.2 ⟨rest, hls, .next hnext hopen .here⟩,
          pass_behind l⟩
      · rw [round_of_stuck hcs hstuck] at hround
        cases hround

theorem onBoundary_of_append (file : String) (h : source.toList = before ++ after) :
    OnBoundary source ⟨source.toList, file, byteLength before⟩ where
  source_eq := rfl
  offset_eq := ⟨before, after, h, rfl, h ▸ Cursor.remainder?_of_append⟩
  offset_le := by
    rw [← byteLength_toList, h, byteLength_append]
    exact Nat.le_add_right _ _

theorem onBoundary_behind (file : String) (h : source.toList = textOf ls ++ rest) :
    OnBoundary source (behind source file ls).cursor :=
  onBoundary_of_append file h

theorem ownMatch?_handler (hcs : s.cursor.remainder? = some rest)
    (h : l.pattern.take? rest = some (l.text, after)) :
    handlerOf l.pattern = .unterminatedComment ∨
      (handlerOf l.pattern).ownMatch? s l.pattern = some l.text := by
  have hfind : (s.find? l.pattern).join = some l.text := by
    rw [find?_of_take? hcs h]
    rfl
  obtain ⟨p, text⟩ := l
  cases p with
  | openComment => exact .inl rfl
  | symbol symbol =>
      obtain ⟨rfl, -⟩ := takeExact?_spec h
      exact .inr rfl
  | _ => exact .inr hfind

theorem handles_behind (hls : source.toList = textOf ls ++ rest)
    (h : nextLexeme? rest = some (l, after)) :
    Handles source (behind source file ls) ⟨l.pattern, handlerOf l.pattern⟩ l.text where
  text_ne_nil := (nextLexeme?_spec h).2
  ownMatch?_eq := ownMatch?_handler (remainder?_behind file hls) (exists_take?_of_nextLexeme? h)
  runs := by
    have hcs := remainder?_behind file hls
    by_cases hopen : l.pattern = .openComment
    · rw [hopen]
      have hend := onBoundary_of_append file (List.append_nil source.toList).symm
      rw [byteLength_eq_of_append hls] at hend
      exact ⟨_, run_unterminatedComment hcs, hend, fun hne => absurd rfl hne⟩
    · refine ⟨_, run_handler hcs (exists_take?_of_nextLexeme? h) hopen, ?_, fun _ => rfl⟩
      rw [pass_behind]
      exact onBoundary_behind file (toList_eq_of_nextLexeme? hls h)
  slices := by
    intro hstring
    have htake := exists_take?_of_nextLexeme? h
    rw [handlerOf_eq_string_iff.1 hstring] at htake
    obtain ⟨raw, htext, hraw⟩ := standsFor_of_takeQuoted? htake
    refine ⟨raw, htext, htext ▸ sliceBytes?_literal raw, fun left hleft => ?_⟩
    obtain ⟨value', hvalue'⟩ := hraw.exists_of_decodes hleft
    exact hvalue'.ne_backslash

theorem Reached.sound (h : Reached source file s) : Sound source s := by
  obtain ⟨ls, rest, hls, rfl⟩ := h.exists_behind
  have hcs := remainder?_behind file hls.eq_append
  refine ⟨onBoundary_behind file hls.eq_append, ?_, ?_⟩
  · intro hend
    have hne := (atEnd_behind_eq_false_iff file hls.eq_append).1 hend
    rcases next_or_stuck hne with ⟨l, after, hnext, hopen⟩ | ⟨fault, hstuck⟩
    · refine ⟨_, round_of_nextLexeme? hcs rfl hnext hopen, fun s' hs' => ?_⟩
      cases hs'
      exact Nat.lt_add_of_pos_right (byteLength_pos_of_ne_nil (nextLexeme?_spec hnext).2)
    · refine ⟨_, round_of_stuck hcs hstuck, fun s' hs' => ?_⟩
      cases hs'
  · intro rest' row hcs' hrow
    cases hcs.symm.trans hcs'
    obtain ⟨l, after, hnext, rfl⟩ := selected?_eq_some_iff.1 hrow
    exact ⟨l.text, after, exists_take?_of_nextLexeme? hnext, handles_behind hls.eq_append hnext⟩

theorem not_endless (source file : String) : ¬ Endless source file := by
  rintro ⟨run, hstart, hstep⟩
  have hreached : ∀ n, Reached source file (run n) := by
    intro n
    induction n with
    | zero => exact hstart ▸ .start
    | succ n ih => exact .round ih (hstep n).1 (hstep n).2
  have hoffset : ∀ n, n ≤ (run n).cursor.offset := by
    intro n
    induction n with
    | zero => exact Nat.zero_le _
    | succ n ih =>
        obtain ⟨outcome, hround, hlt⟩ := (hreached n).sound.rounds (hstep n).1
        have hok : outcome = .ok (run (n + 1)) := Option.some.inj (hround.symm.trans (hstep n).2)
        have hnext := hlt _ hok
        omega
  -- the offset cannot go past the end of the source
  have hle := (hreached (source.utf8ByteSize + 1)).sound.onBoundary.offset_le
  have hgt := hoffset (source.utf8ByteSize + 1)
  omega

theorem tokenize_safe (source file : String) :
    (∀ s, Reached source file s → Sound source s) ∧ ¬ Endless source file ∧
      Lexer.tokenize source file = some (ClassLang.tokenize source file) :=
  ⟨fun _ hs => hs.sound, not_endless source file, tokenize_eq_some source file⟩

theorem tokenize_safe_at_escape :
    let source := "\"é\\n\"/**/"
    let s : Lexer := ⟨⟨source.toList, "a.cl", 6⟩, [⟨.string, "é\n", Span.ofBytes "a.cl" 0 6⟩], none⟩
    Reached source "a.cl" s ∧ Sound source s ∧ ¬ Endless source "a.cl" ∧
      Lexer.tokenize source "a.cl" = some (ClassLang.tokenize source "a.cl") := by
  intro source s
  have hround : (ofSource source "a.cl").round = some (.ok s) := by
    simp only [source, s]
    cbv
  have hreached : Reached source "a.cl" s := .round .start (by decide) hround
  obtain ⟨hsound, hends, hresult⟩ := tokenize_safe source "a.cl"
  exact ⟨hreached, hsound s hreached, hends, hresult⟩

end Safety

end Lexer

end ClassLang
