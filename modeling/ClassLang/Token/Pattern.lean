import ClassLang.Text.Blank
import ClassLang.Text.Integer
import ClassLang.Token.Basic
/-!
Lexical patterns: the shapes of the pieces that a source text consists of. Each pattern takes a
leading part of a text. Main statement: what it takes is not empty, and with what it leaves it is
the text again (`Pattern.take?_spec`).
-/

namespace ClassLang

/-- ASCII letters and the underscore begin a word. -/
def isWordStart (c : Char) : Bool :=
  ('a' ≤ c && c ≤ 'z') || ('A' ≤ c && c ≤ 'Z') || c = '_'

def isWordRest (c : Char) : Bool :=
  isWordStart c || isDecimal c

/-- The longest leading run of a text, if the text begins with a character that starts one. -/
def takeRun? (starts continues : Char → Bool) : List Char → Option (List Char × List Char)
  | [] => none
  | c :: cs => if starts c then some (c :: cs.takeWhile continues, cs.dropWhile continues) else none

def takeExact? (part cs : List Char) : Option (List Char × List Char) :=
  if part.isPrefixOf cs then some (part, cs.drop part.length) else none

/--
A text up to and including its first quote. A backslash takes the character after it along, which
must not be a newline, and no other newline may come before the quote.
-/
def takeToQuote? : List Char → Option (List Char × List Char)
  | [] => none
  | '"' :: cs => some (['"'], cs)
  | '\\' :: c :: cs =>
      if c = '\n' then none
      else (takeToQuote? cs).map fun found => ('\\' :: c :: found.1, found.2)
  | c :: cs =>
      if c = '\n' ∨ c = '\\' then none
      else (takeToQuote? cs).map fun found => (c :: found.1, found.2)

def takeToCommentEnd? : List Char → Option (List Char × List Char)
  | [] => none
  | '*' :: '/' :: cs => some (['*', '/'], cs)
  | c :: cs => (takeToCommentEnd? cs).map fun found => (c :: found.1, found.2)

def takeQuoted? : List Char → Option (List Char × List Char)
  | '"' :: cs => (takeToQuote? cs).map fun found => ('"' :: found.1, found.2)
  | _ => none

/-- A comment that runs up to the next newline or the end of the text. -/
def takeLineComment? : List Char → Option (List Char × List Char)
  | '/' :: '/' :: cs => some ('/' :: '/' :: cs.takeWhile (· ≠ '\n'), cs.dropWhile (· ≠ '\n'))
  | _ => none

def takeBlockComment? : List Char → Option (List Char × List Char)
  | '/' :: '*' :: cs => (takeToCommentEnd? cs).map fun found => ('/' :: '*' :: found.1, found.2)
  | _ => none

inductive Pattern where
  | word
  | digits
  | blanks
  | quotedText
  | lineComment
  | blockComment
  /-- The opening mark of a block comment that is not closed. -/
  | openComment
  | symbol (s : Symbol)
  deriving DecidableEq, Repr

namespace Pattern

/-- The leading part of a text that has the shape, and what follows it. -/
def take? : Pattern → List Char → Option (List Char × List Char)
  | .word => takeRun? isWordStart isWordRest
  | .digits => takeRun? isDecimal isDecimal
  | .blanks => takeRun? isBlank isBlank
  | .quotedText => takeQuoted?
  | .lineComment => takeLineComment?
  | .blockComment => takeBlockComment?
  | .openComment => takeExact? ['/', '*']
  | .symbol s => takeExact? s.spelling.toList

/-- All patterns, in the order in which they are tried. -/
def table : List Pattern :=
  [.word, .digits, .blanks, .quotedText, .lineComment, .blockComment, .openComment] ++
    Symbol.all.map .symbol

theorem mem_table (p : Pattern) : p ∈ table := by
  cases p with
  | symbol s => exact List.mem_append_right _ (List.mem_map_of_mem (Symbol.mem_all s))
  | _ => exact List.mem_append_left _ (by decide)

end Pattern

theorem takeRun?_spec {starts continues : Char → Bool} {cs text rest : List Char}
    (h : takeRun? starts continues cs = some (text, rest)) : cs = text ++ rest ∧ text ≠ [] := by
  cases cs with
  | nil => simp [takeRun?] at h
  | cons c cs =>
      rw [takeRun?] at h
      split at h
      · cases h; exact ⟨by simp [List.takeWhile_append_dropWhile], by simp⟩
      · simp at h

theorem takeExact?_spec {part cs text rest : List Char}
    (h : takeExact? part cs = some (text, rest)) : text = part ∧ cs = text ++ rest := by
  rw [takeExact?] at h
  split at h
  · next hpart =>
      cases h
      obtain ⟨tail, rfl⟩ := List.isPrefixOf_iff_prefix.1 hpart
      exact ⟨rfl, by simp⟩
  · simp at h

theorem takeToQuote?_spec {cs text rest : List Char} (h : takeToQuote? cs = some (text, rest)) :
    cs = text ++ rest := by
  fun_induction takeToQuote? cs generalizing text with
  | case1 => simp at h
  | case2 cs => cases h; rfl
  | case3 => simp at h
  | case4 c cs _ ih =>
      obtain ⟨⟨t, r⟩, ht, he⟩ := Option.map_eq_some_iff.1 h
      cases he
      simp [ih ht]
  | case5 => simp at h
  | case6 c cs _ _ _ ih =>
      obtain ⟨⟨t, r⟩, ht, he⟩ := Option.map_eq_some_iff.1 h
      cases he
      simp [ih ht]

theorem takeToCommentEnd?_spec {cs text rest : List Char}
    (h : takeToCommentEnd? cs = some (text, rest)) : cs = text ++ rest := by
  fun_induction takeToCommentEnd? cs generalizing text with
  | case1 => simp at h
  | case2 cs => cases h; rfl
  | case3 c cs _ ih =>
      obtain ⟨⟨t, r⟩, ht, he⟩ := Option.map_eq_some_iff.1 h
      cases he
      simp [ih ht]

theorem takeQuoted?_spec {cs text rest : List Char} (h : takeQuoted? cs = some (text, rest)) :
    cs = text ++ rest ∧ text ≠ [] := by
  unfold takeQuoted? at h
  split at h
  · obtain ⟨⟨t, r⟩, ht, he⟩ := Option.map_eq_some_iff.1 h
    cases he
    exact ⟨by simp [takeToQuote?_spec ht], by simp⟩
  · simp at h

theorem takeLineComment?_spec {cs text rest : List Char}
    (h : takeLineComment? cs = some (text, rest)) : cs = text ++ rest ∧ text ≠ [] := by
  unfold takeLineComment? at h
  split at h
  · cases h
    exact ⟨by simp [List.takeWhile_append_dropWhile], by simp⟩
  · simp at h

theorem takeBlockComment?_spec {cs text rest : List Char}
    (h : takeBlockComment? cs = some (text, rest)) : cs = text ++ rest ∧ text ≠ [] := by
  unfold takeBlockComment? at h
  split at h
  · obtain ⟨⟨t, r⟩, ht, he⟩ := Option.map_eq_some_iff.1 h
    cases he
    exact ⟨by simp [takeToCommentEnd?_spec ht], by simp⟩
  · simp at h

theorem Symbol.spelling_ne_nil (s : Symbol) : s.spelling.toList ≠ [] := by
  cases s <;> decide

theorem Pattern.take?_spec {p : Pattern} {cs text rest : List Char}
    (h : p.take? cs = some (text, rest)) : cs = text ++ rest ∧ text ≠ [] := by
  cases p with
  | word => exact takeRun?_spec h
  | digits => exact takeRun?_spec h
  | blanks => exact takeRun?_spec h
  | quotedText => exact takeQuoted?_spec h
  | lineComment => exact takeLineComment?_spec h
  | blockComment => exact takeBlockComment?_spec h
  | openComment =>
      obtain ⟨rfl, hcs⟩ := takeExact?_spec h
      exact ⟨hcs, by simp⟩
  | symbol s =>
      obtain ⟨rfl, hcs⟩ := takeExact?_spec h
      exact ⟨hcs, s.spelling_ne_nil⟩

end ClassLang
