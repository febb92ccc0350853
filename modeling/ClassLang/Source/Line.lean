import ClassLang.Text.Bytes
/-!
Lines of a source text, and the line that a byte offset falls into. Main statements: the lines are
the text again (`flatten_splitLines`), and every offset up to the length of the text has a line
(`lineAt?_eq_none_iff`).
-/

namespace ClassLang

/-- The lines of a text, each with the newline that ends it. -/
def splitLines : List Char → List (List Char)
  | [] => []
  | c :: cs =>
      if c = '\n' then [c] :: splitLines cs
      else
        match splitLines cs with
        | [] => [[c]]
        | line :: lines => (c :: line) :: lines

theorem flatten_splitLines (cs : List Char) : (splitLines cs).flatten = cs := by
  induction cs with
  | nil => rfl
  | cons c cs ih =>
      rw [splitLines]
      split
      · simp [ih]
      · split
        · next h =>
            rw [h, List.flatten_nil] at ih
            simp [← ih]
        · next line lines h =>
            rw [h, List.flatten_cons] at ih
            simp [ih]

/-- A place in a text: the number of its line from 1 on, the line, and the bytes before it there. -/
structure LinePlace where
  number : Nat
  text : List Char
  column : Nat
  deriving DecidableEq, Repr

namespace LinePlace

/--
The place of an offset in a list of lines. A line reaches up to its newline; the place after the
last newline is on a line of its own, and a last line without one includes its end.
-/
def find (number : Nat) : Nat → List (List Char) → LinePlace
  | _, [] => ⟨number, [], 0⟩
  | offset, line :: lines =>
      if offset < byteLength line ∨ line.getLast? ≠ some '\n' then ⟨number, line, offset⟩
      else find (number + 1) (offset - byteLength line) lines

/-- The number of characters before the place, or of bytes if these end inside a character. -/
def charColumn (place : LinePlace) : Nat :=
  match dropBytes? place.column place.text with
  | some rest => place.text.length - rest.length
  | none => place.column

end LinePlace

/-- The place of a byte offset in a text. Its end has a place, what lies after it has none. -/
def lineAt? (source : List Char) (offset : Nat) : Option LinePlace :=
  if offset ≤ byteLength source then some (LinePlace.find 1 offset (splitLines source)) else none

theorem lineAt?_eq_none_iff {source : List Char} {offset : Nat} :
    lineAt? source offset = none ↔ byteLength source < offset := by
  rw [lineAt?]
  split
  · simp; omega
  · simp; omega

end ClassLang
