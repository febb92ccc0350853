import ClassLang.Diagnostic.Report
import ClassLang.Proofs.Source.Line
import ClassLang.Proofs.Text.Numeral
import ClassLang.Proofs.Token.Seam
import Mathlib
/-!
The excerpt of a report. Main statements: the place found is on the line that the text is cut on
there (`LinePlace.exists_lineAt`), the line is shown without the blanks at its ends
(`exists_stripped`), and the caret is under the character after the place if that is no white space,
and behind the line at the end of the text (`Report.points`).
-/

namespace ClassLang

/-- The line of a text that it is cut on: `head` ends the first part, `tail` starts the second. -/
structure LineAt (pre post head tail : List Char) : Prop where
  starts : ∃ before, pre = before ++ head ∧ (before = [] ∨ before.getLast? = some '\n')
  ends : ∃ after, post = tail ++ after ∧ (after = [] ∨ after.head? = some '\n')
  newline_notMem : '\n' ∉ head ++ tail

namespace LineAt

variable {pre post head tail : List Char}

theorem exists_tail {c : Char} {rest : List Char} (h : LineAt pre (c :: rest) head tail)
    (hc : c ≠ '\n') : ∃ tail', tail = c :: tail' := by
  obtain ⟨after, hpost, hafter⟩ := h.ends
  cases tail with
  | nil =>
      rw [List.nil_append] at hpost
      rw [← hpost] at hafter
      simp [hc] at hafter
  | cons d tail =>
      cases hpost
      exact ⟨tail, rfl⟩

theorem tail_eq_nil (h : LineAt pre [] head tail) : tail = [] := by
  obtain ⟨after, hpost, -⟩ := h.ends
  exact (List.append_eq_nil_iff.1 hpost.symm).1

end LineAt

namespace LinePlace

variable {place : LinePlace} {before after pre post : List Char} {offset : Nat}

theorem charColumn_append {number column : Nat} {head rest : List Char}
    (h : byteLength head = column) : charColumn ⟨number, head ++ rest, column⟩ = head.length := by
  subst h
  simp [charColumn, dropBytes?_append]

theorem Between.exists_head (h : Between before after place (byteLength pre))
    (hsource : pre ++ post = before ++ (place.text ++ after)) :
    ∃ head rest, pre = before ++ head ∧ place.text = head ++ rest ∧ post = rest ++ after ∧
      byteLength head = place.column := by
  have hoffset := h.offset_eq
  obtain ⟨e, rfl, hpost⟩ | ⟨head, rfl, hrest⟩ := List.append_eq_append_iff.1 hsource
  · rw [byteLength_append] at hoffset
    have he : e = [] := eq_nil_of_byteLength_eq_zero (by omega)
    subst he
    have hcolumn : byteLength [] = place.column := by
      rw [byteLength_nil] at hoffset ⊢
      omega
    exact ⟨[], place.text, by simp, rfl, hpost, hcolumn⟩
  · rw [byteLength_append] at hoffset
    have hcolumn : byteLength head = place.column := by omega
    obtain ⟨e, hhead, hafter⟩ | ⟨rest, htext, hpost⟩ := List.append_eq_append_iff.1 hrest
    · have hle := h.column_le
      rw [← hcolumn, hhead, byteLength_append] at hle
      have he : e = [] := eq_nil_of_byteLength_eq_zero (by omega)
      subst he
      rw [List.append_nil] at hhead
      exact ⟨head, [], rfl, by rw [hhead, List.append_nil], hafter.symm, hcolumn⟩
    · exact ⟨head, rest, rfl, htext, hpost, hcolumn⟩

theorem Between.exists_body (h : Between before after place offset) :
    ∃ body, '\n' ∉ body ∧ (place.text = body ++ ['\n'] ∨ place.text = body ∧ after = []) := by
  by_cases hlast : place.text.getLast? = some '\n'
  · obtain ⟨body, hbody⟩ := List.getLast?_eq_some_iff.1 hlast
    have hnotMem := h.newline_notMem
    rw [hbody, List.dropLast_concat] at hnotMem
    exact ⟨body, hnotMem, .inl hbody⟩
  · refine ⟨place.text, fun hmem => ?_, .inr ⟨rfl, h.ends.resolve_left hlast⟩⟩
    have hne := List.ne_nil_of_mem hmem
    rw [← List.dropLast_concat_getLast hne, List.mem_append, List.mem_singleton] at hmem
    rcases hmem with hmem | hmem
    · exact h.newline_notMem hmem
    · exact hlast (by rw [List.getLast?_eq_some_getLast hne, ← hmem])

/-- The place is before the newline of its line. -/
theorem Between.rest_ne_nil {head rest body : List Char} (h : Between before after place offset)
    (htext : place.text = head ++ rest) (hcolumn : byteLength head = place.column)
    (hbody : place.text = body ++ ['\n']) : rest ≠ [] := by
  rintro rfl
  rw [List.append_nil] at htext
  refine (h.at_end (by rw [htext, hcolumn])).2 ?_
  rw [hbody, List.getLast?_concat]

theorem exists_lineAt (h : lineAt? (pre ++ post) (byteLength pre) = some place) :
    ∃ head tail ending, LineAt pre post head tail ∧ place.text = head ++ tail ++ ending ∧
      (ending = [] ∨ ending = ['\n']) ∧ place.charColumn = head.length ∧
      place.number = 1 + pre.count '\n' := by
  obtain ⟨before, after, hsource, hplace⟩ := exists_between_of_lineAt? h
  have hnumber := hplace.number_eq
  rw [← hsource, count_take_utf8Bytes] at hnumber
  rw [List.append_assoc] at hsource
  obtain ⟨head, rest, rfl, htext, rfl, hcolumn⟩ := hplace.exists_head hsource
  have hchars : place.charColumn = head.length := by
    obtain ⟨number, text, column⟩ := place
    rw [show text = head ++ rest from htext]
    exact charColumn_append hcolumn
  obtain ⟨body, hbody, hline | ⟨hline, rfl⟩⟩ := hplace.exists_body
  · have hrest := hplace.rest_ne_nil htext hcolumn hline
    obtain rfl | ⟨tail, c, rfl⟩ := List.eq_nil_or_concat' rest
    · exact absurd rfl hrest
    · rw [htext, ← List.append_assoc] at hline
      obtain ⟨rfl, hc⟩ := List.append_inj' hline rfl
      cases hc
      refine ⟨head, tail, ['\n'], ⟨⟨before, rfl, hplace.starts⟩, ?_, hbody⟩, ?_, .inr rfl, hchars,
        hnumber⟩
      · exact ⟨'\n' :: after, by simp, .inr rfl⟩
      · rw [htext, List.append_assoc]
  · rw [← hline, htext] at hbody
    refine ⟨head, rest, [], ⟨⟨before, rfl, hplace.starts⟩, ⟨[], rfl, .inl rfl⟩, hbody⟩, ?_, .inl rfl,
      hchars, hnumber⟩
    rw [htext, List.append_nil]

end LinePlace

section Strip

variable {text indent shown trail : List Char}

theorem isBlank_eq_false_of_getLast?_dropBlanksAtEnd {cs : List Char} {c : Char}
    (h : (dropBlanksAtEnd cs).getLast? = some c) : isBlank c = false := by
  induction cs with
  | nil => cases h
  | cons d cs ih =>
      rw [dropBlanksAtEnd] at h
      split at h
      · split at h
        · cases h
        · next hd =>
            rw [List.getLast?_singleton, Option.some.injEq] at h
            rw [← h]
            exact Bool.eq_false_iff.2 hd
      · next e es hcs =>
          rw [List.getLast?_cons_cons, ← hcs] at h
          exact ih h

theorem dropBlanksAtEnd_append_newline (cs : List Char) :
    dropBlanksAtEnd (cs ++ ['\n']) = dropBlanksAtEnd cs := by
  induction cs with
  | nil => rfl
  | cons c cs ih => rw [List.cons_append, dropBlanksAtEnd, dropBlanksAtEnd, ih]

/-- A line without the spaces and tabs that it starts with and the white space at its end. -/
structure Stripped (text indent shown trail : List Char) : Prop where
  text_eq : text = indent ++ shown ++ trail
  indented : ∀ c ∈ indent, c = ' ' ∨ c = '\t'
  starts : ∀ c, (shown ++ trail).head? = some c → c ≠ ' ' ∧ c ≠ '\t'
  ends : ∀ c, shown.getLast? = some c → isBlank c = false
  blank : ∀ c ∈ trail, isBlank c = true

theorem exists_stripped (text : List Char) :
    ∃ trail, Stripped text (text.takeWhile LinePlace.isIndent)
      (dropBlanksAtEnd (text.dropWhile LinePlace.isIndent)) trail := by
  obtain ⟨trail, hbody, htrail⟩ :=
    exists_dropBlanksAtEnd_append (text.dropWhile LinePlace.isIndent)
  refine ⟨trail, ?_, fun c hc => ?_, fun c hc => ?_, fun c => ?_, List.all_eq_true.1 htrail⟩
  · rw [List.append_assoc, ← hbody, List.takeWhile_append_dropWhile]
  · simpa [LinePlace.isIndent] using List.all_eq_true.1 List.all_takeWhile c hc
  · have hhead := List.head?_dropWhile_not LinePlace.isIndent text
    rw [hbody, hc] at hhead
    simpa [LinePlace.isIndent] using hhead
  · exact isBlank_eq_false_of_getLast?_dropBlanksAtEnd

theorem LinePlace.shown_append {place : LinePlace} {ending : List Char}
    (htext : place.text = text ++ ending) (hending : ending = [] ∨ ending = ['\n']) :
    place.text.takeWhile isIndent = text.takeWhile isIndent ∧
      place.shown = dropBlanksAtEnd (text.dropWhile isIndent) := by
  rw [shown, htext]
  obtain rfl | rfl := hending
  · rw [List.append_nil]
    exact ⟨rfl, rfl⟩
  · rw [takeWhile_append_newline (by decide), dropWhile_append_newline (by decide),
      dropBlanksAtEnd_append_newline]
    exact ⟨rfl, rfl⟩

namespace Stripped

theorem isBlank_of_mem_indent (h : Stripped text indent shown trail) :
    ∀ c ∈ indent, isBlank c = true := by
  intro c hc
  obtain rfl | rfl := h.indented c hc <;> decide

theorem newline_notMem (h : Stripped text indent shown trail) (htext : '\n' ∉ text) :
    '\n' ∉ shown := by
  rw [h.text_eq] at htext
  intro hmem
  exact htext (List.mem_append_left _ (List.mem_append_right _ hmem))

theorem getElem?_shown (h : Stripped text indent shown trail) {i : Nat} {c : Char}
    (hi : text[i]? = some c) (hc : isBlank c = false) :
    shown[i - indent.length]? = some c := by
  rw [h.text_eq, List.append_assoc] at hi
  have hindent : indent.length ≤ i := by
    apply Decidable.byContradiction
    intro hlt
    rw [List.getElem?_append_left (by omega)] at hi
    exact absurd hc (by simp [h.isBlank_of_mem_indent c (List.mem_of_getElem? hi)])
  rw [List.getElem?_append_right hindent] at hi
  by_cases hlt : i - indent.length < shown.length
  · rwa [List.getElem?_append_left hlt] at hi
  · rw [List.getElem?_append_right (by omega)] at hi
    exact absurd hc (by simp [h.blank c (List.mem_of_getElem? hi)])

end Stripped

end Strip

namespace Report

/-- The number of the line that a text is cut on. -/
def label (pre : List Char) : List Char :=
  (toString (1 + pre.count '\n')).toList

def bar (label : List Char) : List Char :=
  List.replicate (label.length + 1) ' ' ++ ['|']

def sourceLine (label shown : List Char) : List Char :=
  label ++ [' ', '|', ' '] ++ shown

def caretLine (label : List Char) (column : Nat) : List Char :=
  bar label ++ [' '] ++ List.replicate column '-' ++ ['^']

/--
The last two lines of a report, about the place that a text is cut at: the line of the place, and
the caret, which is under the character after the place, or behind the line at the end of the text.
-/
structure Points (pre post shownLine pointer : List Char) : Prop where
  shows : ∃ head tail indent shown trail, LineAt pre post head tail ∧
    Stripped (head ++ tail) indent shown trail ∧ shownLine = sourceLine (label pre) shown ∧
    (post = [] → pointer.idxOf '^' =
      (sourceLine (label pre) []).length + ((head ++ tail).length - indent.length))
  dashed : ∃ column, pointer = caretLine (label pre) column
  under : ∀ c, post.head? = some c → shownLine[pointer.idxOf '^']? = some c

variable {pre post head tail indent shown trail : List Char} {column : Nat}

theorem newline_notMem_label (pre : List Char) : '\n' ∉ label pre := by
  rw [label, Nat.toString_eq_repr, Nat.toList_repr]
  intro hmem
  exact absurd (List.all_eq_true.1 (isDigits_toDigits _).2 _ hmem) (by decide)

theorem newline_notMem_bar (label : List Char) : '\n' ∉ bar label := by
  simp [bar]

theorem newline_notMem_sourceLine (hshown : '\n' ∉ shown) :
    '\n' ∉ sourceLine (label pre) shown := by
  simp [sourceLine, newline_notMem_label, hshown]

theorem newline_notMem_caretLine (label : List Char) (column : Nat) :
    '\n' ∉ caretLine label column := by
  simp [caretLine, newline_notMem_bar]

theorem idxOf_caretLine (label : List Char) (column : Nat) :
    (caretLine label column).idxOf '^' = (sourceLine label []).length + column := by
  have hnotMem : '^' ∉ bar label ++ [' '] ++ List.replicate column '-' := by
    simp [bar]
  rw [caretLine, List.idxOf_append_of_notMem hnotMem]
  simp [bar, sourceLine]
  omega

theorem points (hline : LineAt pre post head tail)
    (hstripped : Stripped (head ++ tail) indent shown trail)
    (hpost : ∀ c, post.head? = some c → isBlank c = false) :
    Points pre post (sourceLine (label pre) shown)
      (caretLine (label pre) (head.length - indent.length)) where
  shows := by
    refine ⟨head, tail, indent, shown, trail, hline, hstripped, rfl, ?_⟩
    rintro rfl
    rw [hline.tail_eq_nil, List.append_nil, idxOf_caretLine]
  dashed := ⟨_, rfl⟩
  under := by
    intro c hc
    have hblank := hpost c hc
    obtain ⟨rest, rfl⟩ := List.head?_eq_some_iff.1 hc
    have hne : c ≠ '\n' := by
      rintro rfl
      exact absurd hblank (by decide)
    obtain ⟨tail, rfl⟩ := hline.exists_tail hne
    have hget : (head ++ c :: tail)[head.length]? = some c := by simp
    have hshown := hstripped.getElem?_shown hget hblank
    rw [idxOf_caretLine, sourceLine, sourceLine, List.append_nil,
      List.getElem?_append_right (Nat.le_add_right _ _), Nat.add_sub_cancel_left]
    exact hshown

theorem map_toList_excerpt (place : LinePlace) :
    place.excerpt.map String.toList =
      [bar (toString place.number).toList,
        sourceLine (toString place.number).toList place.shown,
        caretLine (toString place.number).toList place.shownColumn] := by
  simp only [LinePlace.excerpt, List.map_cons, List.map_nil, String.toList_append,
    String.toList_ofList, bar, sourceLine, caretLine, String.length_toList]
  simp

end Report

end ClassLang
