import ClassLang.Source.Position
import ClassLang.Text.Bytes
/-!
A cursor that is moved over a source text by bytes. It may be moved to any offset, also past the
end or into a character, but shows the text only from offsets between two characters.
-/

namespace ClassLang

/-- A place in a source text, counted in bytes. -/
structure Cursor where
  source : List Char
  file : String
  offset : Nat := 0
  deriving DecidableEq, Repr

namespace Cursor

def ofSource (source file : String) : Cursor :=
  { source := source.toList, file }

def advance (c : Cursor) (bytes : Nat) : Cursor :=
  { c with offset := c.offset + bytes }

/-- The text from the cursor on, if the cursor stands between two characters. -/
def remainder? (c : Cursor) : Option (List Char) :=
  dropBytes? c.offset c.source

def atEnd (c : Cursor) : Bool :=
  byteLength c.source ≤ c.offset

def position (c : Cursor) : Position :=
  Position.ofBytes c.file c.offset

def span (c : Cursor) (bytes : Nat) : Span :=
  Span.ofBytes c.file c.offset bytes

theorem remainder?_of_append {before after : List Char} {file : String} :
    (Cursor.mk (before ++ after) file (byteLength before)).remainder? = some after :=
  dropBytes?_append before after

end Cursor

end ClassLang
