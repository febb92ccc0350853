import ClassLang.Source.Position
/-!
Tokens: the words, constants and symbols of a program, with their places in the source. Main
statement: the reserved words are told from identifiers by their spelling alone
(`wordKind_eq_identifier_iff`).
-/

namespace ClassLang

/-- The reserved words, the two boolean constants apart. -/
inductive Keyword where
  | kwClass
  | kwExtends
  | kwVar
  | kwNew
  | kwCast
  | kwReturn
  | kwIf
  | kwElse
  | kwWhile
  | kwFor
  | kwBreak
  | kwThis
  | kwSuper
  deriving DecidableEq, Repr

namespace Keyword

def spelling : Keyword → String
  | .kwClass => "class"
  | .kwExtends => "extends"
  | .kwVar => "var"
  | .kwNew => "new"
  | .kwCast => "cast"
  | .kwReturn => "return"
  | .kwIf => "if"
  | .kwElse => "else"
  | .kwWhile => "while"
  | .kwFor => "for"
  | .kwBreak => "break"
  | .kwThis => "this"
  | .kwSuper => "super"

def all : List Keyword :=
  [.kwClass, .kwExtends, .kwVar, .kwNew, .kwCast, .kwReturn, .kwIf, .kwElse, .kwWhile, .kwFor,
   .kwBreak, .kwThis, .kwSuper]

theorem mem_all (k : Keyword) : k ∈ all := by
  cases k <;> decide

end Keyword

/-- Brackets, operators and separators. -/
inductive Symbol where
  | openBrace
  | closeBrace
  | openParen
  | closeParen
  | equal
  | notEqual
  | not
  | assign
  | lessEqual
  | less
  | greaterEqual
  | greater
  | or
  | and
  | dot
  | semicolon
  | comma
  | increment
  | decrement
  | plus
  | minus
  | slash
  | star
  | percent
  deriving DecidableEq, Repr

namespace Symbol

def spelling : Symbol → String
  | .openBrace => "\x7b"
  | .closeBrace => "\x7d"
  | .openParen => "("
  | .closeParen => ")"
  | .equal => "=="
  | .notEqual => "!="
  | .not => "!"
  | .assign => "="
  | .lessEqual => "<="
  | .less => "<"
  | .greaterEqual => ">="
  | .greater => ">"
  | .or => "||"
  | .and => "&&"
  | .dot => "."
  | .semicolon => ";"
  | .comma => ","
  | .increment => "++"
  | .decrement => "--"
  | .plus => "+"
  | .minus => "-"
  | .slash => "/"
  | .star => "*"
  | .percent => "%"

/-- All symbols, each before those that begin its spelling. -/
def all : List Symbol :=
  [.openBrace, .closeBrace, .openParen, .closeParen, .equal, .notEqual, .not, .assign, .lessEqual,
   .less, .greaterEqual, .greater, .or, .and, .dot, .semicolon, .comma, .increment, .decrement,
   .plus, .minus, .slash, .star, .percent]

theorem mem_all (s : Symbol) : s ∈ all := by
  cases s <;> decide

end Symbol

inductive TokenKind where
  | endOfInput
  | identifier
  | integer
  | string
  | boolean
  | keyword (k : Keyword)
  | symbol (s : Symbol)
  deriving DecidableEq, Repr

namespace TokenKind

/-- The kind as diagnostics name it. -/
def describe : TokenKind → String
  | .endOfInput => "EOF"
  | .identifier => "identifier"
  | .integer => "integer constant"
  | .string => "string constant"
  | .boolean => "boolean constant"
  | .keyword k => k.spelling
  | .symbol s => s.spelling

end TokenKind

def reservedKind? (word : String) : Option TokenKind :=
  if word = "true" ∨ word = "false" then some .boolean
  else (Keyword.all.find? fun k => k.spelling = word).map .keyword

/-- The kind of a word: that of the reserved word it spells, else it is an identifier. -/
def wordKind (word : String) : TokenKind :=
  (reservedKind? word).getD .identifier

theorem wordKind_eq_identifier_iff {word : String} :
    wordKind word = .identifier ↔ reservedKind? word = none := by
  rw [wordKind]
  cases h : reservedKind? word with
  | none => simp
  | some kind =>
      rw [reservedKind?] at h
      split at h
      · cases h; simp
      · obtain ⟨k, -, rfl⟩ := Option.map_eq_some_iff.1 h
        simp

/--
A token. Its value is the spelling, or for a string constant the text it stands for.
-/
structure Token where
  kind : TokenKind
  value : String
  span : Span
  deriving DecidableEq, Repr

namespace Token

/-- The token as diagnostics show it. -/
def display (t : Token) : String :=
  match t.kind with
  | .identifier => t.value
  | .integer => t.value
  | .boolean => t.value
  | .string => "\"" ++ t.value ++ "\""
  | kind => kind.describe

/-- The position that a diagnostic about the token is given. -/
def position (t : Token) : Position :=
  t.span.start

end Token

structure EndMark where
  value : String := TokenKind.endOfInput.describe
  span : Span
  deriving DecidableEq, Repr

namespace EndMark

def token (mark : EndMark) : Token :=
  ⟨.endOfInput, mark.value, mark.span⟩

def atPosition (position : Position) : EndMark :=
  { span := Span.empty position }

@[simp] theorem kind_token (mark : EndMark) : mark.token.kind = .endOfInput := rfl

end EndMark

end ClassLang
