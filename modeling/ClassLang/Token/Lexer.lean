import ClassLang.Source.Cursor
import ClassLang.Token.Lexeme
/-!
The scanner as a loop that moves a cursor over the source by bytes. In each round the first pattern
that takes a part of the text at the cursor selects a handler, and the handler looks at the text
again, moves the cursor and adds a token. A handler that cuts a text at an offset past its end or
inside a character has no outcome, and then the loop has none. Main statement: a round moves the
cursor on, and so the loop comes to an end (`exists_advance_of_round`).
-/

namespace ClassLang

/-- One round of the decoding of a string constant: what it adds, and what it leaves to decode. -/
def decodeRound? : List Char → Option (List Char × List Char)
  | [] => none
  | '\\' :: c :: cs => some (unescapedPair c, cs)
  | c :: cs => some ([c], cs)

theorem length_lt_of_decodeRound? {raw added rest : List Char}
    (h : decodeRound? raw = some (added, rest)) : rest.length < raw.length := by
  unfold decodeRound? at h
  split at h
  · cases h
  · cases h
    simp only [List.length_cons]
    omega
  · cases h
    simp

/-- The text that has been decoded, and then the rest of a raw text decoded in rounds. -/
def decoded (text raw : List Char) : List Char :=
  match _ : decodeRound? raw with
  | none => text
  | some (added, rest) => decoded (text ++ added) rest
termination_by raw.length
decreasing_by exact length_lt_of_decodeRound? (by assumption)

/-- What the loop keeps from round to round. -/
structure Lexer where
  cursor : Cursor
  tokens : List Token := []
  /-- What a handler rejects the source for. -/
  error : Option Diagnostic := none
  deriving DecidableEq, Repr

namespace Lexer

def ofSource (source file : String) : Lexer :=
  { cursor := Cursor.ofSource source file }

def advance (s : Lexer) (bytes : Nat) : Lexer :=
  { s with cursor := s.cursor.advance bytes }

def push (s : Lexer) (t : Token) : Lexer :=
  { s with tokens := s.tokens ++ [t] }

/-- What a pattern takes at the cursor, if the text can be shown from there. -/
def find? (s : Lexer) (p : Pattern) : Option (Option (List Char)) := do
  let rest ← s.cursor.remainder?
  return (p.take? rest).map Prod.fst

/-- Moves over what a pattern takes, and adds the token whose kind and value it is read as. -/
def takeToken (s : Lexer) (p : Pattern)
    (read : List Char → Option (TokenKind × List Char)) : Option Lexer := do
  match ← s.find? p with
  | none => return s
  | some text =>
      let (kind, value) ← read text
      let span := s.cursor.span (byteLength text)
      return (s.advance (byteLength text)).push ⟨kind, String.ofList value, span⟩

/-- The kind and value of a string constant, whose first and last byte are its quotes. -/
def readString (text : List Char) : Option (TokenKind × List Char) := do
  let raw ← sliceBytes? 1 (byteLength text - 1) text
  return (.string, decoded [] raw)

/-- The ways to take the text that a pattern has been selected for. -/
inductive Handler where
  | word
  | number
  | string
  | skip
  | unterminatedComment
  /-- A token with a fixed spelling, which is not looked for again. -/
  | fixed (kind : TokenKind) (spelling : String)
  deriving DecidableEq, Repr

def Handler.run (s : Lexer) (p : Pattern) : Handler → Option Lexer
  | .word => s.takeToken p fun text => some (wordKind (String.ofList text), text)
  | .number => s.takeToken p fun text => some (.integer, text)
  | .string => s.takeToken p readString
  | .skip => do
      match ← s.find? p with
      | none => return s
      | some text => return s.advance (byteLength text)
  | .unterminatedComment => do
      let rest ← s.cursor.remainder?
      return { s.advance (byteLength rest) with
        error := some ⟨.unterminatedComment, s.cursor.position⟩ }
  | .fixed kind spelling =>
      let length := spelling.utf8ByteSize
      some ((s.push ⟨kind, spelling, s.cursor.span length⟩).advance length)

/-- A pattern, and the handler of the texts that it is selected for. -/
structure Row where
  pattern : Pattern
  handler : Handler
  deriving DecidableEq, Repr

def Row.ofSymbol (s : Symbol) (spelling : String) : Row :=
  ⟨.symbol s, .fixed (.symbol s) spelling⟩

/-- All rows, in the order in which their patterns are tried. -/
def rows : List Row :=
  [⟨.word, .word⟩, ⟨.digits, .number⟩, ⟨.blanks, .skip⟩, ⟨.quotedText, .string⟩,
   ⟨.lineComment, .skip⟩, ⟨.blockComment, .skip⟩, ⟨.openComment, .unterminatedComment⟩,
   .ofSymbol .openBrace "\x7b", .ofSymbol .closeBrace "\x7d", .ofSymbol .openParen "(",
   .ofSymbol .closeParen ")", .ofSymbol .equal "==", .ofSymbol .notEqual "!=", .ofSymbol .not "!",
   .ofSymbol .assign "=", .ofSymbol .lessEqual "<=", .ofSymbol .less "<",
   .ofSymbol .greaterEqual ">=", .ofSymbol .greater ">", .ofSymbol .or "||", .ofSymbol .and "&&",
   .ofSymbol .dot ".", .ofSymbol .semicolon ";", .ofSymbol .comma ",", .ofSymbol .increment "++",
   .ofSymbol .decrement "--", .ofSymbol .plus "+", .ofSymbol .minus "-", .ofSymbol .slash "/",
   .ofSymbol .star "*", .ofSymbol .percent "%"]

/-- The handler that goes with a pattern. -/
def handlerOf : Pattern → Handler
  | .word => .word
  | .digits => .number
  | .blanks => .skip
  | .quotedText => .string
  | .lineComment => .skip
  | .blockComment => .skip
  | .openComment => .unterminatedComment
  | .symbol s => .fixed (.symbol s) s.spelling

/-- The rows have all patterns in the order of the scanner, and spell every symbol as it is. -/
theorem rows_eq : rows = Pattern.table.map fun p => ⟨p, handlerOf p⟩ := rfl

/-- The first row whose pattern takes a part of the text. -/
def selected? (rest : List Char) : Option Row :=
  rows.find? fun row => (row.pattern.take? rest).isSome

/-- A round of the loop: the state after it, or what the source is rejected for. -/
def round (s : Lexer) : Option (Except Diagnostic Lexer) := do
  let rest ← s.cursor.remainder?
  match selected? rest with
  | none => return .error ⟨.unrecognised (String.ofList rest.head?.toList), s.cursor.position⟩
  | some row =>
      let s ← row.handler.run s row.pattern
      match s.error with
      | none => return .ok s
      | some d => return .error d

section Progress

variable {s s' : Lexer} {p : Pattern} {cs text rest : List Char}

theorem find?_of_take? (hcs : s.cursor.remainder? = some cs) (h : p.take? cs = some (text, rest)) :
    s.find? p = some (some text) := by
  simp [find?, hcs, h]

theorem cursor_of_takeToken {read : List Char → Option (TokenKind × List Char)}
    (hfind : s.find? p = some (some text)) (h : s.takeToken p read = some s') :
    s'.cursor = s.cursor.advance (byteLength text) := by
  rw [takeToken, hfind, Option.bind_eq_bind, Option.bind_some] at h
  obtain ⟨found, -, h⟩ := Option.bind_eq_some_iff.1 h
  cases h
  rfl

theorem cursor_of_run (hcs : s.cursor.remainder? = some cs) (htake : p.take? cs = some (text, rest))
    (h : (handlerOf p).run s p = some s') (herror : s'.error = none) :
    s'.cursor = s.cursor.advance (byteLength text) := by
  have hfind := find?_of_take? hcs htake
  have hskip : Handler.skip.run s p = some s' → s'.cursor = s.cursor.advance (byteLength text) := by
    intro h
    rw [Handler.run, hfind] at h
    cases h
    rfl
  cases p with
  | word => exact cursor_of_takeToken hfind h
  | digits => exact cursor_of_takeToken hfind h
  | quotedText => exact cursor_of_takeToken hfind h
  | blanks => exact hskip h
  | lineComment => exact hskip h
  | blockComment => exact hskip h
  | openComment =>
      rw [handlerOf, Handler.run, hcs] at h
      cases h
      cases herror
  | symbol symbol =>
      obtain ⟨rfl, -⟩ := takeExact?_spec htake
      cases h
      rw [byteLength_toList]
      rfl

theorem exists_take?_of_selected? {row : Row} (h : selected? cs = some row) :
    row.handler = handlerOf row.pattern ∧
      ∃ text rest, row.pattern.take? cs = some (text, rest) := by
  rw [selected?] at h
  have hmem := List.mem_of_find?_eq_some h
  rw [rows_eq] at hmem
  obtain ⟨p, -, rfl⟩ := List.mem_map.1 hmem
  have hsome : (p.take? cs).isSome = true := (List.find?_eq_some_iff_append.1 h).1
  obtain ⟨⟨text, rest⟩, htake⟩ := Option.isSome_iff_exists.1 hsome
  exact ⟨rfl, text, rest, htake⟩

theorem exists_advance_of_round (h : s.round = some (.ok s')) :
    ∃ bytes, 0 < bytes ∧ s'.cursor = s.cursor.advance bytes := by
  rw [round] at h
  obtain ⟨cs, hcs, h⟩ := Option.bind_eq_some_iff.1 h
  split at h
  · cases h
  · next row hrow =>
      obtain ⟨after, hrun, h⟩ := Option.bind_eq_some_iff.1 h
      split at h
      · next herror =>
          cases h
          obtain ⟨hhandler, text, rest, htake⟩ := exists_take?_of_selected? hrow
          rw [hhandler] at hrun
          have hpos := byteLength_pos_of_ne_nil (Pattern.take?_spec htake).2
          exact ⟨byteLength text, hpos, cursor_of_run hcs htake hrun herror⟩
      · cases h

theorem left_lt_of_round (hend : ¬ s.cursor.atEnd = true) (h : s.round = some (.ok s')) :
    byteLength s'.cursor.source - s'.cursor.offset <
      byteLength s.cursor.source - s.cursor.offset := by
  obtain ⟨bytes, hpos, hcursor⟩ := exists_advance_of_round h
  rw [Cursor.atEnd, decide_eq_true_iff] at hend
  simp only [hcursor, Cursor.advance]
  omega

end Progress

/-- Rounds up to the end of the source. -/
def loop (s : Lexer) : Option (Except Diagnostic Lexer) :=
  if _ : s.cursor.atEnd then some (.ok s)
  else
    match _ : s.round with
    | none => none
    | some (.error d) => some (.error d)
    | some (.ok s') => loop s'
termination_by byteLength s.cursor.source - s.cursor.offset
decreasing_by exact left_lt_of_round (by assumption) (by assumption)

/-- The tokens of the source when the loop has come to its end. -/
def finish (s : Lexer) : List Token :=
  (s.push ⟨.endOfInput, TokenKind.endOfInput.describe, s.cursor.span 0⟩).tokens

/-- What comes of the loop on a source text. -/
def tokenize (source file : String) : Option (Except Diagnostic (List Token)) :=
  (loop (ofSource source file)).map fun outcome => outcome.map finish

end Lexer

end ClassLang
