import ClassLang.Diagnostic.Basic
import ClassLang.Text.Bytes
import ClassLang.Token.Literal
import ClassLang.Token.Pattern
/-!
Lexemes, and the scanner that cuts a source text into them. Main statements: the lexemes are the
text in order, up to the fault if there is one (`scan_texts`, `scan_texts_of_fault_none`), and none
of them is empty (`text_ne_nil_of_mem_scan`).
-/

namespace ClassLang

structure Lexeme where
  pattern : Pattern
  text : List Char
  deriving DecidableEq, Repr

/-- The first lexeme of a text by the first pattern that takes one, and what follows it. -/
def nextLexeme? (cs : List Char) : Option (Lexeme × List Char) :=
  Pattern.table.findSome? fun p => (p.take? cs).map fun found => (⟨p, found.1⟩, found.2)

theorem nextLexeme?_spec {cs rest : List Char} {l : Lexeme} (h : nextLexeme? cs = some (l, rest)) :
    cs = l.text ++ rest ∧ l.text ≠ [] := by
  obtain ⟨p, -, hp⟩ := List.exists_of_findSome?_eq_some h
  obtain ⟨⟨text, r⟩, ht, he⟩ := Option.map_eq_some_iff.1 hp
  cases he
  exact Pattern.take?_spec ht

theorem length_lt_of_nextLexeme? {cs rest : List Char} {l : Lexeme}
    (h : nextLexeme? cs = some (l, rest)) : rest.length < cs.length := by
  obtain ⟨hcs, hne⟩ := nextLexeme?_spec h
  have := List.length_pos_iff.2 hne
  rw [hcs, List.length_append]
  omega

/-- What stops the scanner before the end of the source. -/
inductive LexicalFault where
  | unterminatedComment
  | unrecognised (c : Char)
  deriving DecidableEq, Repr

namespace LexicalFault

def cause : LexicalFault → Cause
  | .unterminatedComment => .unterminatedComment
  | .unrecognised c => .unrecognised (String.ofList [c])

end LexicalFault

/-- A text cut into lexemes, up to the place of a fault. -/
structure Scan where
  lexemes : List Lexeme
  fault : Option LexicalFault
  deriving DecidableEq, Repr

namespace Scan

def cons (l : Lexeme) (s : Scan) : Scan :=
  ⟨l :: s.lexemes, s.fault⟩

def text (s : Scan) : List Char :=
  s.lexemes.flatMap Lexeme.text

end Scan

def scan : List Char → Scan
  | [] => ⟨[], none⟩
  | c :: cs =>
      match _ : nextLexeme? (c :: cs) with
      | none => ⟨[], some (.unrecognised c)⟩
      | some (l, rest) =>
          if l.pattern = .openComment then ⟨[], some .unterminatedComment⟩
          else (scan rest).cons l
termination_by cs => cs.length
decreasing_by exact length_lt_of_nextLexeme? (by assumption)

theorem scan_texts (cs : List Char) : ∃ rest, cs = (scan cs).text ++ rest := by
  fun_induction scan cs with
  | case1 => exact ⟨[], rfl⟩
  | case2 c cs _ => exact ⟨c :: cs, rfl⟩
  | case3 c cs l rest _ _ => exact ⟨c :: cs, rfl⟩
  | case4 c cs l rest h _ ih =>
      obtain ⟨tail, htail⟩ := ih
      refine ⟨tail, ?_⟩
      rw [(nextLexeme?_spec h).1, Scan.cons, Scan.text, List.flatMap_cons, List.append_assoc]
      rw [Scan.text] at htail
      exact congrArg (l.text ++ ·) htail

theorem scan_texts_of_fault_none {cs : List Char} (hfault : (scan cs).fault = none) :
    (scan cs).text = cs := by
  fun_induction scan cs with
  | case1 => rfl
  | case2 => simp at hfault
  | case3 => simp at hfault
  | case4 c cs l rest h _ ih =>
      rw [(nextLexeme?_spec h).1, Scan.cons, Scan.text, List.flatMap_cons]
      exact congrArg (l.text ++ ·) (ih hfault)

theorem text_ne_nil_of_mem_scan {cs : List Char} {l : Lexeme} (hl : l ∈ (scan cs).lexemes) :
    l.text ≠ [] := by
  fun_induction scan cs with
  | case1 => simp at hl
  | case2 => simp at hl
  | case3 => simp at hl
  | case4 c cs m rest h _ ih =>
      rcases List.mem_cons.1 hl with rfl | hl
      · exact (nextLexeme?_spec h).2
      · exact ih hl

namespace Lexeme

/-- The token that a lexeme is, placed at a span. White space and comments are none. -/
def token? (l : Lexeme) (span : Span) : Option Token :=
  match l.pattern with
  | .word => some ⟨wordKind (String.ofList l.text), String.ofList l.text, span⟩
  | .digits => some ⟨.integer, String.ofList l.text, span⟩
  | .quotedText => some ⟨.string, String.ofList (unescaped (withoutQuotes l.text)), span⟩
  | .symbol s => some ⟨.symbol s, s.spelling, span⟩
  | .blanks => none
  | .lineComment => none
  | .blockComment => none
  | .openComment => none

end Lexeme

/-- The tokens among lexemes that follow so many bytes of a file. -/
def tokensAfter (file : String) : Nat → List Lexeme → List Token
  | _, [] => []
  | before, l :: ls =>
      let length := byteLength l.text
      (l.token? (Span.ofBytes file before length)).toList ++ tokensAfter file (before + length) ls

/--
The tokens of a source text, the last of them the mark of its end, or the first thing in the text
that is no token.
-/
def tokenize (source file : String) : Except Diagnostic (List Token) :=
  let s := scan source.toList
  let stop := Position.ofBytes file (byteLength s.text)
  match s.fault with
  | none => .ok (tokensAfter file 0 s.lexemes ++ [(EndMark.atPosition stop).token])
  | some fault => .error ⟨fault.cause, stop⟩

end ClassLang
