import ClassLang.Proofs.Token.Lexical
/-!
What stands between tokens and inside the quotes of string constants. Main statements: white space
and comments that patterns take are gaps (`Gap.prepend`), and the text of a string constant is a
text in quotes that stands for its value (`standsFor_of_takeQuoted?`).
-/

namespace ClassLang

/--
White space and comments in front of the rest of a text. A line comment runs up to a newline or to
the end of the text, and a block comment up to the first closing mark after its opening mark.
-/
inductive Gap (rest : List Char) : List Char → Prop
  | nil : Gap rest []
  | blank {c : Char} {cs : List Char} : isBlank c = true → Gap rest cs → Gap rest (c :: cs)
  | lineComment {comment cs : List Char} :
      '\n' ∉ comment → (∀ c ∈ (cs ++ rest).head?, c = '\n') → Gap rest cs →
      Gap rest ('/' :: '/' :: (comment ++ cs))
  | blockComment {comment cs : List Char} :
      ¬ ['*', '/'] <:+: comment ++ ['*'] → Gap rest cs →
      Gap rest ('/' :: '*' :: (comment ++ '*' :: '/' :: cs))

/-- What stands between the quotes of a string constant, and the text that it stands for. -/
inductive StandsFor : List Char → List Char → Prop
  | nil : StandsFor [] []
  | plain {c : Char} {raw text : List Char} :
      c ≠ '"' → c ≠ '\\' → c ≠ '\n' → StandsFor raw text → StandsFor (c :: raw) (c :: text)
  | escape {c : Char} {raw text : List Char} :
      c ≠ '\n' → StandsFor raw text → StandsFor ('\\' :: c :: raw) (unescapedPair c ++ text)

theorem exists_comment_of_takeLineComment? {cs text rest : List Char}
    (h : takeLineComment? cs = some (text, rest)) :
    ∃ comment, text = '/' :: '/' :: comment ∧ '\n' ∉ comment ∧ ∀ c ∈ rest.head?, c = '\n' := by
  unfold takeLineComment? at h
  split at h
  · next cs =>
      cases h
      refine ⟨_, rfl, ?_, ?_⟩
      · intro hmem
        have hall : (cs.takeWhile (· ≠ '\n')).all (· ≠ '\n') = true := List.all_takeWhile
        simpa using List.all_eq_true.1 hall _ hmem
      · intro c hc
        have hhead := List.head?_dropWhile_not (· ≠ '\n') cs
        rw [Option.mem_def.1 hc] at hhead
        simpa using hhead
  · cases h

theorem exists_comment_of_takeToCommentEnd? {cs text rest : List Char}
    (h : takeToCommentEnd? cs = some (text, rest)) :
    ∃ comment, text = comment ++ ['*', '/'] ∧ ¬ ['*', '/'] <:+: comment ++ ['*'] := by
  fun_induction takeToCommentEnd? cs generalizing text with
  | case1 => cases h
  | case2 cs =>
      cases h
      refine ⟨[], rfl, ?_⟩
      intro hinfix
      have hlength := hinfix.length_le
      simp at hlength
  | case3 c cs hclose ih =>
      obtain ⟨⟨t, r⟩, ht, he⟩ := Option.map_eq_some_iff.1 h
      cases he
      obtain ⟨comment, rfl, hinfix⟩ := ih ht
      refine ⟨c :: comment, rfl, ?_⟩
      rw [List.cons_append, List.infix_cons_iff]
      rintro (hstart | htail)
      · -- the closing mark would already begin at `c`
        rw [List.cons_prefix_cons] at hstart
        obtain ⟨rfl, hslash⟩ := hstart
        cases comment with
        | nil => simp at hslash
        | cons d comment =>
            obtain ⟨rfl, -⟩ := List.cons_prefix_cons.1 hslash
            exact hclose _ rfl (takeToCommentEnd?_spec ht)
      · exact hinfix htail

theorem takeToCommentEnd?_of_not_infix {comment : List Char}
    (h : ¬ ['*', '/'] <:+: comment ++ ['*']) (after : List Char) :
    takeToCommentEnd? (comment ++ '*' :: '/' :: after) = some (comment ++ ['*', '/'], after) := by
  induction comment with
  | nil => rfl
  | cons c comment ih =>
      rw [List.cons_append, List.infix_cons_iff, not_or] at h
      rw [List.cons_append, takeToCommentEnd?, ih h.2]
      · rfl
      · -- a slash right after `c` would be the first of the comment
        rintro ds rfl hds
        cases comment with
        | nil => cases hds
        | cons d comment =>
            cases hds
            exact h.1 (List.prefix_append ['*', '/'] (comment ++ ['*']))

theorem exists_comment_of_takeBlockComment? {cs text rest : List Char}
    (h : takeBlockComment? cs = some (text, rest)) :
    ∃ comment, text = '/' :: '*' :: (comment ++ ['*', '/']) ∧
      ¬ ['*', '/'] <:+: comment ++ ['*'] := by
  unfold takeBlockComment? at h
  split at h
  · obtain ⟨⟨t, r⟩, ht, he⟩ := Option.map_eq_some_iff.1 h
    cases he
    obtain ⟨comment, rfl, hinfix⟩ := exists_comment_of_takeToCommentEnd? ht
    exact ⟨comment, rfl, hinfix⟩
  · cases h

theorem takeBlockComment?_of_not_infix {comment : List Char}
    (h : ¬ ['*', '/'] <:+: comment ++ ['*']) (after : List Char) :
    takeBlockComment? ('/' :: '*' :: (comment ++ ['*', '/']) ++ after) =
      some ('/' :: '*' :: (comment ++ ['*', '/']), after) := by
  have hend := takeToCommentEnd?_of_not_infix h after
  simp [takeBlockComment?, hend]

theorem Gap.prepend {l : Lexeme} {cs rest : List Char}
    (hl : l.pattern.take? (l.text ++ (cs ++ rest)) = some (l.text, cs ++ rest))
    (hpattern : l.pattern = .blanks ∨ l.pattern = .lineComment ∨ l.pattern = .blockComment)
    (h : Gap rest cs) : Gap rest (l.text ++ cs) := by
  obtain ⟨pattern, text⟩ := l
  rcases hpattern with hp | hp | hp
  · cases hp
    have hall := (all_of_takeRun? hl).2
    clear hl
    induction text with
    | nil => exact h
    | cons c text ih =>
        rw [List.all_cons, Bool.and_eq_true] at hall
        exact .blank hall.1 (ih hall.2)
  · cases hp
    obtain ⟨comment, rfl, hnewline, hhead⟩ := exists_comment_of_takeLineComment? hl
    exact .lineComment hnewline hhead h
  · cases hp
    obtain ⟨comment, rfl, hinfix⟩ := exists_comment_of_takeBlockComment? hl
    have hgap := Gap.blockComment hinfix h
    simpa using hgap

theorem standsFor_of_takeToQuote? {cs text rest : List Char}
    (h : takeToQuote? cs = some (text, rest)) :
    ∃ raw, text = raw ++ ['"'] ∧ StandsFor raw (unescaped raw) := by
  fun_induction takeToQuote? cs generalizing text with
  | case1 => cases h
  | case2 cs =>
      cases h
      exact ⟨[], rfl, .nil⟩
  | case3 => cases h
  | case4 c cs hnewline ih =>
      obtain ⟨⟨t, r⟩, ht, he⟩ := Option.map_eq_some_iff.1 h
      cases he
      obtain ⟨raw, rfl, hraw⟩ := ih ht
      exact ⟨'\\' :: c :: raw, rfl, by simpa [unescaped] using .escape hnewline hraw⟩
  | case5 => cases h
  | case6 c cs hquote _ hplain ih =>
      obtain ⟨⟨t, r⟩, ht, he⟩ := Option.map_eq_some_iff.1 h
      cases he
      obtain ⟨raw, rfl, hraw⟩ := ih ht
      rw [not_or] at hplain
      refine ⟨c :: raw, rfl, ?_⟩
      rw [unescaped]
      · exact .plain hquote hplain.2 hplain.1 hraw
      · exact fun _ _ hc _ => hplain.2 hc

theorem takeToQuote?_of_standsFor {raw text : List Char} (h : StandsFor raw text)
    (after : List Char) : takeToQuote? (raw ++ '"' :: after) = some (raw ++ ['"'], after) := by
  induction h with
  | nil => rfl
  | @plain c raw text hquote hescape hnewline _ ih =>
      rw [List.cons_append, takeToQuote?, if_neg (by simp [hnewline, hescape]), ih]
      · rfl
      · exact hquote
      · exact fun _ _ hc _ => hescape hc
  | @escape c raw text hnewline _ ih =>
      rw [List.cons_append, List.cons_append, takeToQuote?, if_neg hnewline, ih]
      rfl

theorem standsFor_of_takeQuoted? {cs text rest : List Char}
    (h : takeQuoted? cs = some (text, rest)) :
    ∃ raw, text = '"' :: (raw ++ ['"']) ∧ StandsFor raw (unescaped (withoutQuotes text)) := by
  unfold takeQuoted? at h
  split at h
  · obtain ⟨⟨t, r⟩, ht, he⟩ := Option.map_eq_some_iff.1 h
    cases he
    obtain ⟨raw, rfl, hraw⟩ := standsFor_of_takeToQuote? ht
    exact ⟨raw, rfl, by simpa [withoutQuotes] using hraw⟩
  · cases h

end ClassLang
