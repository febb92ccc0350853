import ClassLang.Proofs.Token.Coverage
import ClassLang.Proofs.Token.StringLiteral
import Mathlib
/-!
Source texts with single spaces between their tokens. Main statement: a text that is cut into tokens
is cut into the same words when the pieces of it that the tokens are read from are put together with
single spaces, and these are the pieces of the new text again (`tokenize_respaced`).
-/

namespace ClassLang

/-- The part of a text from one offset to another, if both lie between characters. -/
def sliceBetween (source : List Char) (start stop : Nat) : List Char :=
  match dropBytes? start source, dropBytes? stop source with
  | some cs, some after => cs.take (cs.length - after.length)
  | _, _ => []

theorem sliceBetween_of_isSlice {source text after : List Char} {start stop : Nat}
    (h : IsSlice source start stop text after) : sliceBetween source start stop = text := by
  obtain ⟨before, rfl, rfl, rfl⟩ := h
  have hstop := dropBytes?_append (before ++ text) after
  rw [byteLength_append] at hstop
  rw [sliceBetween, hstop, List.append_assoc, dropBytes?_append]
  simp

/-- The part of a source text that a token is read from. -/
def Token.slice (source : List Char) (t : Token) : List Char :=
  sliceBetween source t.start t.stop

/-- The parts of a source text that its tokens are read from, with a space between any two. -/
def respaced (source : String) (ts : List Token) : String :=
  String.ofList ([' '].intercalate
    ((ts.filter fun t => t.kind ≠ .endOfInput).map (Token.slice source.toList)))

theorem map_slice_tokensAfter (file : String) (pre : List Char) (ls : List Lexeme)
    (hsize : byteLength (pre ++ textOf ls) < UInt32.size) :
    (tokensAfter file (byteLength pre) ls).map (Token.slice (pre ++ textOf ls)) =
      (worded ls).map Lexeme.text := by
  induction ls generalizing pre with
  | nil => rfl
  | cons l ls ih =>
      rw [textOf_cons, ← List.append_assoc] at hsize ⊢
      have hrest := ih (pre ++ l.text) hsize
      rw [byteLength_append] at hrest
      have hword := l.map_word_token? (Span.ofBytes file (byteLength pre) (byteLength l.text))
      rw [tokensAfter, List.map_append, hrest, worded_cons, ← hword]
      cases ht : l.token? (Span.ofBytes file (byteLength pre) (byteLength l.text)) with
      | none => rfl
      | some t =>
          have hends : byteLength pre + byteLength l.text < UInt32.size := by
            simp only [byteLength_append] at hsize
            omega
          obtain ⟨hstart, hstop⟩ := ends_of_token? hends ht
          have hslice : t.slice (pre ++ l.text ++ textOf ls) = l.text := by
            rw [Token.slice, hstart, hstop]
            exact sliceBetween_of_isSlice ⟨pre, rfl, rfl, rfl⟩
          rw [Option.toList_some, List.map_singleton, hslice]
          rfl

theorem respaced_tokensAfter {source : String} {ls : List Lexeme} {mark : Token}
    (hsource : source.toList = textOf ls) (hsize : source.utf8ByteSize < UInt32.size)
    (hmark : mark.kind = .endOfInput) (file : String) :
    respaced source (tokensAfter file 0 ls ++ [mark]) =
      String.ofList ([' '].intercalate ((worded ls).map Lexeme.text)) := by
  have hslices := map_slice_tokensAfter file [] ls
  rw [List.nil_append, ← hsource, byteLength_toList] at hslices
  have hbody : (tokensAfter file 0 ls).filter (fun t => t.kind ≠ .endOfInput) =
      tokensAfter file 0 ls :=
    List.filter_eq_self.2 fun t ht => decide_eq_true (kind_ne_endOfInput_of_mem_tokensAfter ht)
  rw [respaced, List.filter_append, hbody, List.filter_cons_of_neg (by simp [hmark]),
    List.filter_nil, List.append_nil]
  exact congrArg (fun texts => String.ofList ([' '].intercalate texts)) (hslices hsize)

theorem standsAlone_of_take? {l : Lexeme} {rest : List Char}
    (hl : l.pattern.take? (l.text ++ rest) = some (l.text, rest)) (hword : l.word?.isSome) :
    l.StandsAlone := by
  refine ⟨hword, fun {rest'} hspace => ?_⟩
  obtain ⟨pattern, text⟩ := l
  cases pattern with
  | word =>
      obtain ⟨c, cs, rfl, hc, hcs, -⟩ := takeRun?_eq_some_iff.1 hl
      exact nextLexeme?_of_isName hc hcs hspace
  | digits => exact nextLexeme?_of_isDigits (all_of_takeRun? hl) hspace
  | quotedText =>
      obtain ⟨raw, rfl, hraw⟩ := standsFor_of_takeQuoted? hl
      exact nextLexeme?_literal hraw rest'
  | symbol s =>
      obtain ⟨rfl, -⟩ := takeExact?_spec hl
      exact nextLexeme?_symbol s hspace
  | _ => cases hword

theorem Cut.standsAlone {cs : List Char} {ls : List Lexeme} (h : Cut cs ls) :
    ∀ l ∈ worded ls, l.StandsAlone := by
  intro l hl
  obtain ⟨hmem, hword⟩ := List.mem_filter.1 hl
  clear hl
  induction h with
  | nil => cases hmem
  | cons htake _ _ ih =>
      rcases List.mem_cons.1 hmem with rfl | hmem
      · exact standsAlone_of_take? htake hword
      · exact ih hmem

theorem textOf_of_scan {cs : List Char} {ls : List Lexeme} (h : scan cs = ⟨ls, none⟩) :
    cs = textOf ls := by
  have htext := scan_texts_of_fault_none (by rw [h] : (scan cs).fault = none)
  rw [h] at htext
  exact htext.symm

theorem tokenize_respaced {source file : String} {ts : List Token}
    (hsize : source.utf8ByteSize < UInt32.size) (h : tokenize source file = .ok ts)
    (hrespaced : (respaced source ts).utf8ByteSize < UInt32.size) :
    ∃ ts', tokenize (respaced source ts) file = .ok ts' ∧
      ts'.map Token.word = ts.map Token.word ∧
      respaced (respaced source ts) ts' = respaced source ts := by
  obtain ⟨ls, hscan, rfl⟩ := tokenize_eq_ok_iff.1 h
  have hcut := cut_scan hscan
  have hrespaced_eq := respaced_tokensAfter (textOf_of_scan hscan) hsize
    (EndMark.kind_token (EndMark.atPosition (Position.ofBytes file source.utf8ByteSize))) file
  generalize respaced source _ = r at hrespaced hrespaced_eq ⊢
  have hspaced : scan r.toList = ⟨(worded ls).intersperse Lexeme.space, none⟩ := by
    rw [hrespaced_eq, String.toList_ofList]
    exact scan_spaced hcut.standsAlone
  have hworded := worded_intersperse hcut.standsAlone
  refine ⟨_, tokenize_eq_ok_iff.2 ⟨_, hspaced, rfl⟩, ?_, ?_⟩
  · simp only [List.map_append, map_word_tokensAfter, hworded]
    rfl
  · rw [respaced_tokensAfter (textOf_of_scan hspaced) hrespaced rfl, hworded, hrespaced_eq]

end ClassLang
