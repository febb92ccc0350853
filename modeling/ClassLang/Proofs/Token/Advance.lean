import ClassLang.Proofs.Token.Seam
/-!
How far the scanner gets in a text. Main statements: the scanner goes on from where it has got to as
from the start of a text (`Advances.scan_eq`, `Advances.tokensFrom_eq`), it gets to the place of the
first fault (`exists_advances_of_fault`), and in the text before the place it has got to it takes
the same lexemes (`Advances.truncate`).
-/

namespace ClassLang

/-- From the first text on, the scanner takes the lexemes and gets to the second text. -/
inductive Advances : List Char → List Lexeme → List Char → Prop
  | here {cs : List Char} : Advances cs [] cs
  | next {cs rest stop : List Char} {l : Lexeme} {ls : List Lexeme} :
      nextLexeme? cs = some (l, rest) → l.pattern ≠ .openComment → Advances rest ls stop →
      Advances cs (l :: ls) stop

/-- The scanner cannot go on from the text because of the fault. -/
inductive Stuck : List Char → LexicalFault → Prop
  | unterminatedComment {cs rest : List Char} {l : Lexeme} :
      nextLexeme? cs = some (l, rest) → l.pattern = .openComment → Stuck cs .unterminatedComment
  | unrecognised {c : Char} {cs : List Char} :
      nextLexeme? (c :: cs) = none → Stuck (c :: cs) (.unrecognised c)

def textOf (ls : List Lexeme) : List Char :=
  ls.flatMap Lexeme.text

@[simp] theorem textOf_nil : textOf [] = [] := rfl

@[simp] theorem textOf_cons (l : Lexeme) (ls : List Lexeme) :
    textOf (l :: ls) = l.text ++ textOf ls :=
  List.flatMap_cons

theorem textOf_append (ls ls' : List Lexeme) : textOf (ls ++ ls') = textOf ls ++ textOf ls' :=
  List.flatMap_append

theorem tokensAfter_append (file : String) (before : Nat) (ls ls' : List Lexeme) :
    tokensAfter file before (ls ++ ls') =
      tokensAfter file before ls ++ tokensAfter file (before + byteLength (textOf ls)) ls' := by
  induction ls generalizing before with
  | nil => rfl
  | cons l ls ih =>
      rw [List.cons_append, tokensAfter, ih, tokensAfter, textOf_cons, byteLength_append,
        Nat.add_assoc, List.append_assoc]

theorem tokensFrom_nil (file : String) (before : Nat) :
    tokensFrom file before [] =
      .ok [(EndMark.atPosition (Position.ofBytes file before)).token] := by
  rw [tokensFrom, scan]
  rfl

namespace Advances

variable {cs stop : List Char} {ls : List Lexeme}

theorem eq_append (h : Advances cs ls stop) : cs = textOf ls ++ stop := by
  induction h with
  | here => rfl
  | next hl _ _ ih =>
      obtain ⟨hcs, -⟩ := nextLexeme?_spec hl
      rw [hcs, textOf_cons, List.append_assoc, ← ih]

theorem append_iff {ls' : List Lexeme} :
    Advances cs (ls ++ ls') stop ↔ ∃ mid, Advances cs ls mid ∧ Advances mid ls' stop := by
  induction ls generalizing cs with
  | nil =>
      constructor
      · intro h
        exact ⟨cs, .here, h⟩
      · rintro ⟨_, ⟨⟩, h⟩
        exact h
  | cons l ls ih =>
      constructor
      · rintro (_ | ⟨hl, hopen, h⟩)
        obtain ⟨mid, hmid, hstop⟩ := ih.1 h
        exact ⟨mid, .next hl hopen hmid, hstop⟩
      · rintro ⟨mid, _ | ⟨hl, hopen, hmid⟩, hstop⟩
        exact .next hl hopen (ih.2 ⟨mid, hmid, hstop⟩)

theorem scan_eq (h : Advances cs ls stop) :
    scan cs = ⟨ls ++ (scan stop).lexemes, (scan stop).fault⟩ := by
  induction h with
  | here => rfl
  | next hl hopen _ ih =>
      rw [scan_eq_cons hl hopen, ih]
      rfl

theorem tokensFrom_eq (h : Advances cs ls stop) (file : String) (before : Nat) :
    tokensFrom file before cs = (tokensFrom file (before + byteLength (textOf ls)) stop).map
      (tokensAfter file before ls ++ ·) := by
  induction h generalizing before with
  | @here cs =>
      rw [textOf_nil, byteLength_nil, Nat.add_zero]
      cases tokensFrom file before cs <;> rfl
  | @next cs rest stop l ls hl hopen _ ih =>
      rw [tokensFrom_of_nextLexeme? file before hl hopen, ih, textOf_cons, byteLength_append,
        Nat.add_assoc]
      cases tokensFrom file (before + (byteLength l.text + byteLength (textOf ls))) stop with
      | ok ts => simp [Except.map, tokensAfter]
      | error d => rfl

end Advances

theorem advances_of_fault_none {cs : List Char} (h : (scan cs).fault = none) :
    Advances cs (scan cs).lexemes [] := by
  fun_induction scan cs with
  | case1 => exact .here
  | case2 => cases h
  | case3 => cases h
  | case4 c cs l rest hl hopen ih => exact .next hl hopen (ih h)

theorem exists_advances_of_fault {cs : List Char} {fault : LexicalFault}
    (h : (scan cs).fault = some fault) :
    ∃ stop, Advances cs (scan cs).lexemes stop ∧ Stuck stop fault := by
  fun_induction scan cs with
  | case1 => cases h
  | case2 c cs hnone =>
      cases h
      exact ⟨c :: cs, .here, .unrecognised hnone⟩
  | case3 c cs l rest hl hopen =>
      cases h
      exact ⟨c :: cs, .here, .unterminatedComment hl hopen⟩
  | case4 c cs l rest hl hopen ih =>
      obtain ⟨stop, hstop, hstuck⟩ := ih h
      exact ⟨stop, .next hl hopen hstop, hstuck⟩

section Patterns

variable {starts continues : Char → Bool} {part cs text rest : List Char}

theorem takeRun?_eq_some_iff :
    takeRun? starts continues (text ++ rest) = some (text, rest) ↔
      ∃ c run, text = c :: run ∧ starts c = true ∧ run.all continues = true ∧
        ∀ d ∈ rest.head?, continues d = false := by
  constructor
  · intro h
    cases text with
    | nil => exact absurd rfl (takeRun?_spec h).2
    | cons c run =>
        rw [List.cons_append, takeRun?] at h
        split at h
        · next hstart =>
            simp only [Option.some.injEq, Prod.mk.injEq, List.cons.injEq, true_and] at h
            obtain ⟨hrun, hrest⟩ := h
            refine ⟨c, run, rfl, hstart, ?_, fun d hd => ?_⟩
            · rw [← hrun, List.all_takeWhile]
            · have hhead := List.head?_dropWhile_not continues (run ++ rest)
              rw [hrest, Option.mem_def.1 hd] at hhead
              simpa using hhead
        · cases h
  · rintro ⟨c, run, rfl, hstart, hrun, hhead⟩
    exact takeRun?_of_all hstart hrun hhead

theorem takeToQuote?_replace (after : List Char) (h : takeToQuote? cs = some (text, rest)) :
    takeToQuote? (text ++ after) = some (text, after) := by
  obtain ⟨raw, rfl, hraw⟩ := standsFor_of_takeToQuote? h
  rw [List.append_assoc]
  exact takeToQuote?_of_standsFor hraw after

theorem takeExact?_append (part rest : List Char) :
    takeExact? part (part ++ rest) = some (part, rest) := by
  rw [takeExact?, if_pos (List.isPrefixOf_iff_prefix.2 (List.prefix_append part rest)),
    List.drop_left]

theorem takeLineComment?_eq_some_iff :
    takeLineComment? (text ++ rest) = some (text, rest) ↔
      ∃ comment, text = '/' :: '/' :: comment ∧ '\n' ∉ comment ∧ ∀ c ∈ rest.head?, c = '\n' := by
  constructor
  · exact exists_comment_of_takeLineComment?
  · rintro ⟨comment, rfl, hcomment, hrest⟩
    have hall : ∀ c ∈ comment, (decide (c ≠ '\n')) = true := by
      intro c hc
      exact decide_eq_true fun h => hcomment (h ▸ hc)
    have hnone : rest.takeWhile (· ≠ '\n') = [] ∧ rest.dropWhile (· ≠ '\n') = rest := by
      cases rest with
      | nil => simp
      | cons d ds => simp [hrest d (by simp)]
    rw [List.cons_append, List.cons_append, takeLineComment?, List.takeWhile_append_of_pos hall,
      List.dropWhile_append_of_pos hall, hnone.1, hnone.2, List.append_nil]

theorem exists_take?_append {p : Pattern} {found : List Char × List Char} (more : List Char)
    (h : p.take? cs = some found) : ∃ found', p.take? (cs ++ more) = some found' := by
  have hrun : ∀ {starts continues : Char → Bool}, takeRun? starts continues cs = some found →
      ∃ found', takeRun? starts continues (cs ++ more) = some found' := by
    intro starts continues h
    cases cs with
    | nil => cases h
    | cons c cs =>
        rw [takeRun?] at h
        rw [List.cons_append, takeRun?]
        split at h
        · next hstart => exact ⟨_, if_pos hstart⟩
        · cases h
  have hexact : ∀ {part : List Char}, takeExact? part cs = some found →
      ∃ found', takeExact? part (cs ++ more) = some found' := by
    intro part h
    obtain ⟨hpart, hcs⟩ := takeExact?_spec h
    rw [hcs, hpart, List.append_assoc]
    exact ⟨_, takeExact?_append _ _⟩
  cases p with
  | word => exact hrun h
  | digits => exact hrun h
  | blanks => exact hrun h
  | quotedText =>
      change takeQuoted? cs = some found at h
      unfold takeQuoted? at h
      split at h
      · obtain ⟨⟨t, r⟩, ht, -⟩ := Option.map_eq_some_iff.1 h
        have happend := takeToQuote?_replace (r ++ more) ht
        rw [← List.append_assoc, ← takeToQuote?_spec ht] at happend
        exact ⟨_, congrArg (Option.map _) happend⟩
      · cases h
  | lineComment =>
      change takeLineComment? cs = some found at h
      unfold takeLineComment? at h
      split at h
      · exact ⟨_, rfl⟩
      · cases h
  | blockComment =>
      obtain ⟨text, rest⟩ := found
      have hcs := (Pattern.take?_spec h).1
      obtain ⟨comment, rfl, hinfix⟩ := exists_comment_of_takeBlockComment? h
      rw [hcs, List.append_assoc]
      exact ⟨_, takeBlockComment?_of_not_infix hinfix (rest ++ more)⟩
  | openComment => exact hexact h
  | symbol s => exact hexact h

theorem take?_truncate {p : Pattern} {more : List Char}
    (h : p.take? (text ++ (rest ++ more)) = some (text, rest ++ more)) :
    p.take? (text ++ rest) = some (text, rest) := by
  have hhead : ∀ d ∈ rest.head?, d ∈ (rest ++ more).head? := by
    intro d hd
    rw [List.head?_append, Option.mem_def.1 hd]
    rfl
  have hrun : ∀ {starts continues : Char → Bool},
      takeRun? starts continues (text ++ (rest ++ more)) = some (text, rest ++ more) →
        takeRun? starts continues (text ++ rest) = some (text, rest) := by
    intro starts continues h
    obtain ⟨c, run, rfl, hstart, hrun, hrest⟩ := takeRun?_eq_some_iff.1 h
    exact takeRun?_eq_some_iff.2 ⟨c, run, rfl, hstart, hrun, fun d hd => hrest d (hhead d hd)⟩
  have hexact : ∀ {part : List Char},
      takeExact? part (text ++ (rest ++ more)) = some (text, rest ++ more) →
        takeExact? part (text ++ rest) = some (text, rest) := by
    intro part h
    obtain ⟨rfl, -⟩ := takeExact?_spec h
    exact takeExact?_append _ _
  cases p with
  | word => exact hrun h
  | digits => exact hrun h
  | blanks => exact hrun h
  | quotedText =>
      change takeQuoted? (text ++ (rest ++ more)) = _ at h
      change takeQuoted? (text ++ rest) = _
      obtain ⟨raw, rfl, -⟩ := standsFor_of_takeQuoted? h
      obtain ⟨⟨t, r⟩, ht, he⟩ := Option.map_eq_some_iff.1 h
      cases he
      exact congrArg (Option.map _) (takeToQuote?_replace rest ht)
  | lineComment =>
      obtain ⟨comment, rfl, hcomment, hrest⟩ := takeLineComment?_eq_some_iff.1 h
      exact takeLineComment?_eq_some_iff.2
        ⟨comment, rfl, hcomment, fun c hc => hrest c (hhead c hc)⟩
  | blockComment =>
      obtain ⟨comment, rfl, hinfix⟩ := exists_comment_of_takeBlockComment? h
      exact takeBlockComment?_of_not_infix hinfix rest
  | openComment => exact hexact h
  | symbol s => exact hexact h

end Patterns

theorem nextLexeme?_truncate {l : Lexeme} {rest more : List Char}
    (h : nextLexeme? (l.text ++ (rest ++ more)) = some (l, rest ++ more)) :
    nextLexeme? (l.text ++ rest) = some (l, rest) := by
  obtain ⟨passed, p, others, htable, hp, hpassed⟩ := List.findSome?_eq_some_iff.1 h
  obtain ⟨⟨text, r⟩, htake, he⟩ := Option.map_eq_some_iff.1 hp
  cases he
  refine List.findSome?_eq_some_iff.2 ⟨passed, p, others, htable, ?_, fun q hq => ?_⟩
  · rw [take?_truncate htake]
    rfl
  · have hnone := Option.map_eq_none_iff.1 (hpassed q hq)
    refine Option.map_eq_none_iff.2 (Option.eq_none_iff_forall_not_mem.2 fun found hfound => ?_)
    obtain ⟨found', hfound'⟩ := exists_take?_append more hfound
    rw [List.append_assoc, hnone] at hfound'
    cases hfound'

theorem Advances.truncate {cs stop : List Char} {ls : List Lexeme} (h : Advances cs ls stop) :
    Advances (textOf ls) ls [] := by
  induction h with
  | here => exact .here
  | @next cs rest stop l ls hl hopen hrest ih =>
      obtain ⟨hcs, -⟩ := nextLexeme?_spec hl
      rw [hrest.eq_append] at hl hcs
      rw [hcs] at hl
      rw [textOf_cons]
      exact .next (nextLexeme?_truncate hl) hopen ih

end ClassLang
