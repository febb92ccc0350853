import ClassLang.Source.Line
/-!
The place of a byte offset, said without a search through the lines: its line is a whole line of the
text, and the newlines among the bytes before the offset number it. Main statement: an offset in a
text has exactly one such place, which is the one found (`LinePlace.lineAt_exact`).
-/

namespace ClassLang

/-- The bytes of a text in UTF-8. -/
def utf8Bytes (cs : List Char) : List UInt8 :=
  cs.flatMap String.utf8EncodeChar

section Bytes

variable {body rest : List Char}

theorem length_utf8Bytes (cs : List Char) : (utf8Bytes cs).length = byteLength cs := by
  induction cs with
  | nil => rfl
  | cons c cs ih =>
      rw [utf8Bytes, List.flatMap_cons, List.length_append, String.length_utf8EncodeChar]
      exact congrArg _ ih

theorem utf8Bytes_append (cs ds : List Char) :
    utf8Bytes (cs ++ ds) = utf8Bytes cs ++ utf8Bytes ds :=
  List.flatMap_append

theorem ten_eq_ofNat_iff (n : Nat) : 10 = UInt8.ofNat n ↔ n % 256 = 10 :=
  ⟨fun h => (congrArg UInt8.toNat h).symm, fun h => UInt8.toNat_inj.1 h.symm⟩

theorem newline_of_mem_utf8EncodeChar {c : Char} (h : 10 ∈ String.utf8EncodeChar c) :
    c = '\n' := by
  apply Char.toNat_inj.1
  change c.val.toNat = 10
  rw [String.utf8EncodeChar] at h
  -- the bytes of a longer encoding are all at least 128
  repeat' split at h
  all_goals
    simp only [List.mem_cons, List.not_mem_nil, or_false, ten_eq_ofNat_iff] at h
    omega

theorem count_utf8EncodeChar (c : Char) :
    (String.utf8EncodeChar c).count 10 = if c = '\n' then 1 else 0 := by
  split
  · next hc => subst hc; decide
  · next hc => exact List.count_eq_zero.2 fun hmem => hc (newline_of_mem_utf8EncodeChar hmem)

theorem count_utf8Bytes (cs : List Char) : (utf8Bytes cs).count 10 = cs.count '\n' := by
  induction cs with
  | nil => rfl
  | cons c cs ih =>
      change (String.utf8EncodeChar c ++ utf8Bytes cs).count 10 = _
      rw [List.count_append, count_utf8EncodeChar, List.count_cons, ih, Nat.add_comm]
      simp

theorem count_utf8Bytes_eq_zero (h : '\n' ∉ body) : (utf8Bytes body).count 10 = 0 := by
  rw [count_utf8Bytes]
  exact List.count_eq_zero.2 h

theorem count_take_of_notMem {n : Nat} (h : '\n' ∉ body) (hn : n ≤ byteLength body) :
    ((utf8Bytes (body ++ rest)).take n).count 10 = 0 := by
  have hnotMem := List.count_eq_zero.1 (count_utf8Bytes_eq_zero h)
  rw [utf8Bytes_append, List.take_append_of_le_length (by rwa [length_utf8Bytes])]
  exact List.count_eq_zero.2 fun hmem => hnotMem (List.mem_of_mem_take hmem)

theorem count_take_utf8Bytes (pre post : List Char) :
    ((utf8Bytes (pre ++ post)).take (byteLength pre)).count 10 = pre.count '\n' := by
  rw [utf8Bytes_append, ← length_utf8Bytes, List.take_left, count_utf8Bytes]

theorem count_take_line (n : Nat) (h : '\n' ∉ body) :
    ((utf8Bytes (body ++ ['\n'] ++ rest)).take (byteLength (body ++ ['\n']) + n)).count 10 =
      1 + ((utf8Bytes rest).take n).count 10 := by
  rw [utf8Bytes_append, ← length_utf8Bytes, List.take_length_add_append, List.count_append,
    utf8Bytes_append, List.count_append, count_utf8Bytes_eq_zero h]
  rfl

end Bytes

/-- The lines of a text: each ends with its only newline, but the last may lack it. -/
inductive AreLines : List (List Char) → Prop
  | nil : AreLines []
  | unended {line : List Char} : line ≠ [] → '\n' ∉ line → AreLines [line]
  | ended {body : List Char} {lines : List (List Char)} :
      '\n' ∉ body → AreLines lines → AreLines ((body ++ ['\n']) :: lines)

theorem areLines_splitLines (cs : List Char) : AreLines (splitLines cs) := by
  induction cs with
  | nil => exact .nil
  | cons c cs ih =>
      rw [splitLines]
      split
      · next hc =>
          subst hc
          exact .ended List.not_mem_nil ih
      · next hc =>
          have hnotMem : ∀ {l : List Char}, '\n' ∉ l → '\n' ∉ c :: l := by
            intro l hl
            simpa using ⟨Ne.symm hc, hl⟩
          generalize splitLines cs = lines at ih
          cases ih with
          | nil => exact .unended (List.cons_ne_nil c []) (hnotMem List.not_mem_nil)
          | unended _ hl => exact .unended (List.cons_ne_nil c _) (hnotMem hl)
          | ended hbody hlines => exact .ended (hnotMem hbody) hlines

theorem AreLines.newline_notMem {line : List Char} {lines : List (List Char)} (h : AreLines lines)
    (hmem : line ++ ['\n'] ∈ lines) : '\n' ∉ line := by
  induction h with
  | nil => cases hmem
  | unended _ hline =>
      rw [List.mem_singleton] at hmem
      exact absurd (hmem ▸ by simp) hline
  | ended hbody _ ih =>
      rcases List.mem_cons.1 hmem with heq | hmem
      · rwa [List.append_cancel_right heq]
      · exact ih hmem

theorem splitLines_append_newline (cs ds : List Char) :
    splitLines (cs ++ '\n' :: ds) = splitLines (cs ++ ['\n']) ++ splitLines ds := by
  induction cs with
  | nil => rfl
  | cons c cs ih =>
      rw [List.cons_append, List.cons_append, splitLines, splitLines]
      split
      · rw [ih, List.cons_append]
      · rw [ih]
        cases hlines : splitLines (cs ++ ['\n']) with
        | nil =>
            have hflatten := flatten_splitLines (cs ++ ['\n'])
            rw [hlines] at hflatten
            simp at hflatten
        | cons line lines => rfl

theorem splitLines_line {line : List Char} (h : '\n' ∉ line) :
    splitLines (line ++ ['\n']) = [line ++ ['\n']] := by
  induction line with
  | nil => rfl
  | cons c line ih =>
      rw [List.mem_cons, not_or] at h
      rw [List.cons_append, splitLines, if_neg (Ne.symm h.1), ih h.2]

theorem splitLines_lines {lines : List (List Char)} (h : ∀ line ∈ lines, '\n' ∉ line) :
    splitLines (lines.flatMap (· ++ ['\n'])) = lines.map (· ++ ['\n']) := by
  induction lines with
  | nil => rfl
  | cons line lines ih =>
      have hrest := ih fun l hl => h l (List.mem_cons_of_mem line hl)
      rw [List.flatMap_cons, List.append_assoc, List.singleton_append, splitLines_append_newline,
        splitLines_line (h line List.mem_cons_self), hrest, List.map_cons, List.singleton_append]

theorem splitLines_lines_append {lines' : List (List Char)} (lines : List (List Char))
    (h : ∀ line ∈ lines', '\n' ∉ line) :
    splitLines ((lines ++ lines').flatMap (· ++ ['\n'])) =
      splitLines (lines.flatMap (· ++ ['\n'])) ++ lines'.map (· ++ ['\n']) := by
  obtain rfl | ⟨front, last, rfl⟩ := List.eq_nil_or_concat lines
  · rw [List.nil_append, splitLines_lines h]
    rfl
  · have hfront : (front.concat last).flatMap (· ++ ['\n']) =
        front.flatMap (· ++ ['\n']) ++ last ++ ['\n'] := by
      simp
    rw [List.flatMap_append, hfront, List.append_assoc, List.singleton_append,
      splitLines_append_newline, splitLines_lines h]

namespace LinePlace

/--
The place is that of the offset, in the text with `before` and `after` around its line. Newlines are
counted as bytes, since the offset may be inside a character.
-/
structure Between (before after : List Char) (place : LinePlace) (offset : Nat) : Prop where
  number_eq : place.number =
    1 + ((utf8Bytes (before ++ place.text ++ after)).take offset).count 10
  offset_eq : byteLength before + place.column = offset
  starts : before = [] ∨ before.getLast? = some '\n'
  ends : place.text.getLast? = some '\n' ∨ after = []
  newline_notMem : '\n' ∉ place.text.dropLast
  column_le : place.column ≤ byteLength place.text
  at_end : place.column = byteLength place.text →
    offset = byteLength (before ++ place.text ++ after) ∧ place.text.getLast? ≠ some '\n'

variable {place place' : LinePlace} {before before' after after' body : List Char} {offset : Nat}

theorem find_succ (n offset : Nat) (lines : List (List Char)) :
    find (n + 1) offset lines =
      { find n offset lines with number := (find n offset lines).number + 1 } := by
  induction lines generalizing n offset with
  | nil => rfl
  | cons line lines ih =>
      rw [find, find]
      split
      · rfl
      · exact ih (n + 1) _

namespace Between

theorem of_lt_line (hbody : '\n' ∉ body) (h : offset < byteLength (body ++ ['\n'])) :
    Between [] after ⟨1, body ++ ['\n'], offset⟩ offset where
  number_eq := by
    have hle : offset ≤ byteLength body := by
      rw [byteLength_append] at h
      exact Nat.le_of_lt_succ h
    rw [List.nil_append, List.append_assoc, count_take_of_notMem hbody hle]
  offset_eq := Nat.zero_add _
  starts := .inl rfl
  ends := .inl List.getLast?_concat
  newline_notMem := by simpa using hbody
  column_le := Nat.le_of_lt h
  at_end := fun heq => absurd heq (Nat.ne_of_lt h)

theorem of_le_unended (hbody : '\n' ∉ body) (h : offset ≤ byteLength body) :
    Between [] [] ⟨1, body, offset⟩ offset where
  number_eq := by
    rw [List.nil_append, count_take_of_notMem hbody h]
  offset_eq := Nat.zero_add _
  starts := .inl rfl
  ends := .inr rfl
  newline_notMem := fun hmem => hbody (List.dropLast_subset _ hmem)
  column_le := h
  at_end := by
    intro heq
    refine ⟨by simpa using heq, fun hlast => hbody ?_⟩
    exact List.mem_of_getLast? hlast

theorem after_line (hbody : '\n' ∉ body) (h : Between before after place offset) :
    Between (body ++ ['\n'] ++ before) after { place with number := place.number + 1 }
      (byteLength (body ++ ['\n']) + offset) := by
  have hsource : body ++ ['\n'] ++ before ++ place.text ++ after =
      body ++ ['\n'] ++ (before ++ place.text ++ after) := by
    simp only [List.append_assoc]
  refine ⟨?_, ?_, .inr ?_, h.ends, h.newline_notMem, h.column_le, fun heq => ?_⟩
  · rw [hsource, count_take_line offset hbody, ← h.number_eq, Nat.add_comm]
  · rw [byteLength_append, Nat.add_assoc, h.offset_eq]
  · rw [List.getLast?_append]
    obtain hnil | hlast := h.starts
    · rw [hnil, List.getLast?_nil, Option.none_or, List.getLast?_concat]
    · rw [hlast, Option.some_or]
  · obtain ⟨hend, hlast⟩ := h.at_end heq
    rw [hsource, byteLength_append _ (before ++ place.text ++ after), ← hend]
    exact ⟨rfl, hlast⟩

theorem offset_le (h : Between before after place offset) :
    offset ≤ byteLength (before ++ place.text ++ after) := by
  have hle := h.column_le
  rw [← h.offset_eq, byteLength_append, byteLength_append]
  omega

end Between

theorem exists_between {lines : List (List Char)} (h : AreLines lines)
    (hoffset : offset ≤ byteLength lines.flatten) :
    ∃ before after, lines.flatten = before ++ (find 1 offset lines).text ++ after ∧
      Between before after (find 1 offset lines) offset := by
  induction h generalizing offset with
  | nil =>
      rw [Nat.le_zero.1 hoffset]
      exact ⟨[], [], rfl, .of_le_unended List.not_mem_nil (Nat.le_refl 0)⟩
  | @unended line _ hline =>
      have hlast : line.getLast? ≠ some '\n' := fun h => hline (List.mem_of_getLast? h)
      rw [List.flatten_singleton] at hoffset ⊢
      rw [find, if_pos (.inr hlast)]
      exact ⟨[], [], (List.append_nil line).symm, .of_le_unended hline hoffset⟩
  | @ended body lines hbody _ ih =>
      rw [List.flatten_cons] at hoffset ⊢
      by_cases hlt : offset < byteLength (body ++ ['\n'])
      · rw [find, if_pos (.inl hlt)]
        exact ⟨[], lines.flatten, rfl, .of_lt_line hbody hlt⟩
      · have hin : ¬ (offset < byteLength (body ++ ['\n']) ∨
            (body ++ ['\n']).getLast? ≠ some '\n') := by
          rw [List.getLast?_concat]
          exact not_or.2 ⟨hlt, not_not_intro rfl⟩
        rw [byteLength_append] at hoffset
        rw [find, if_neg hin, find_succ]
        obtain ⟨before, after, hflatten, hplace⟩ :=
          @ih (offset - byteLength (body ++ ['\n'])) (by omega)
        refine ⟨body ++ ['\n'] ++ before, after, ?_, ?_⟩
        · rw [hflatten]
          simp only [List.append_assoc]
        · have hafter := hplace.after_line hbody
          rwa [Nat.add_sub_cancel' (Nat.le_of_not_lt hlt)] at hafter

/-- A line goes no further than its newline, and a line without one as far as the text. -/
theorem eq_nil_of_line_append {t e k : List Char} (ht : t.getLast? = some '\n' ∨ e ++ k = [])
    (hline : '\n' ∉ (t ++ e).dropLast) : e = [] := by
  obtain ht | hnil := ht
  · cases e with
    | nil => rfl
    | cons c e =>
        rw [List.dropLast_append_of_ne_nil (List.cons_ne_nil c e)] at hline
        exact absurd (List.mem_append_left _ (List.mem_of_getLast? ht)) hline
  · exact (List.append_eq_nil_iff.1 hnil).1

namespace Between

theorem text_eq (h : Between before after place offset) (h' : Between before' after' place' offset)
    (hrest : place.text ++ after = place'.text ++ after') : place.text = place'.text := by
  obtain ⟨e, htext, hafter⟩ | ⟨e, htext, hafter⟩ := List.append_eq_append_iff.1 hrest
  · have he := eq_nil_of_line_append (hafter ▸ h.ends) (htext ▸ h'.newline_notMem)
    rw [htext, he, List.append_nil]
  · have he := eq_nil_of_line_append (hafter ▸ h'.ends) (htext ▸ h.newline_notMem)
    rw [htext, he, List.append_nil]

theorem eq_nil_of_before {d : List Char} (h : Between before after place offset)
    (h' : Between (before ++ d) after' place' offset)
    (hrest : place.text ++ after = d ++ (place'.text ++ after')) : d = [] := by
  apply Decidable.byContradiction
  intro hd
  have hlast : d.getLast? = some '\n' := by
    obtain hnil | hlast := h'.starts
    · exact absurd (List.append_eq_nil_iff.1 hnil).2 hd
    · rwa [List.getLast?_append, Option.or_of_isSome (List.getLast?_isSome.2 hd)] at hlast
  -- the whole line lies before the other place
  have hline : ∃ e, d = place.text ++ e := by
    obtain ⟨e, hprefix, -⟩ | ⟨e, htext, -⟩ := List.append_eq_append_iff.1 hrest
    · exact ⟨e, hprefix⟩
    · have he := eq_nil_of_line_append (k := []) (.inl hlast) (htext ▸ h.newline_notMem)
      rw [he, List.append_nil] at htext
      exact ⟨[], by rw [htext, List.append_nil]⟩
  obtain ⟨e, rfl⟩ := hline
  have hoffset := h.offset_eq.trans h'.offset_eq.symm
  rw [byteLength_append, byteLength_append] at hoffset
  have hle := h.column_le
  have he : e = [] := eq_nil_of_byteLength_eq_zero (by omega)
  subst he
  rw [List.append_nil] at hlast
  exact (h.at_end (by omega)).2 hlast

theorem before_eq (h : Between before after place offset)
    (h' : Between before' after' place' offset)
    (hsource : before ++ (place.text ++ after) = before' ++ (place'.text ++ after')) :
    before = before' := by
  obtain ⟨d, rfl, hrest⟩ | ⟨d, rfl, hrest⟩ := List.append_eq_append_iff.1 hsource
  · rw [h.eq_nil_of_before h' hrest, List.append_nil]
  · rw [h'.eq_nil_of_before h hrest, List.append_nil]

theorem unique (h : Between before after place offset)
    (h' : Between before' after' place' offset)
    (hsource : before ++ place.text ++ after = before' ++ place'.text ++ after') :
    place = place' := by
  have hnumber : place.number = place'.number := by
    rw [h.number_eq, h'.number_eq, hsource]
  rw [List.append_assoc, List.append_assoc] at hsource
  have hbefore := h.before_eq h' hsource
  subst hbefore
  have htext := h.text_eq h' (List.append_cancel_left hsource)
  have hcolumn := Nat.add_left_cancel (h.offset_eq.trans h'.offset_eq.symm)
  obtain ⟨number, text, column⟩ := place
  obtain ⟨number', text', column'⟩ := place'
  rw [LinePlace.mk.injEq]
  exact ⟨hnumber, htext, hcolumn⟩

end Between

variable {source : List Char}

theorem exists_between_of_lineAt? (h : lineAt? source offset = some place) :
    ∃ before after, source = before ++ place.text ++ after ∧
      Between before after place offset := by
  rw [lineAt?] at h
  split at h
  · next hle =>
      cases h
      rw [← flatten_splitLines source] at hle
      have hplace := exists_between (areLines_splitLines source) hle
      rwa [flatten_splitLines] at hplace
  · cases h

theorem lineAt_exact (source : List Char) (offset : Nat) :
    (lineAt? source offset = none ↔ byteLength source < offset) ∧
      ∀ place, lineAt? source offset = some place ↔
        ∃ before after, source = before ++ place.text ++ after ∧
          Between before after place offset := by
  refine ⟨lineAt?_eq_none_iff, fun place => ⟨exists_between_of_lineAt?, ?_⟩⟩
  rintro ⟨before, after, hsource, hplace⟩
  cases hfound : lineAt? source offset with
  | none =>
      have hle := hplace.offset_le
      rw [← hsource] at hle
      exact absurd (lineAt?_eq_none_iff.1 hfound) (Nat.not_lt_of_le hle)
  | some found =>
      obtain ⟨before', after', hsource', hfound'⟩ := exists_between_of_lineAt? hfound
      rw [hfound'.unique hplace (hsource'.symm.trans hsource)]

/-- The second byte of a character has a place as well. -/
example : lineAt? ['\n', 'é', 'x'] 2 = some ⟨2, ['é', 'x'], 1⟩ := by decide

end LinePlace

end ClassLang
