/-!
Positions and spans in source files.
-/

namespace ClassLang

/-- A byte offset into a source file, tagged with the name of the file. -/
structure Position where
  offset : UInt32
  file : String
  deriving DecidableEq, Repr

namespace Position

/-- The position after a number of bytes of a file. Offsets have 32 bits and wrap. -/
def ofBytes (file : String) (bytes : Nat) : Position :=
  ⟨UInt32.ofNat bytes, file⟩

/-- The position of what belongs to no file. -/
def null : Position :=
  ⟨0, "<null>"⟩

theorem toNat_offset_ofBytes {file : String} {bytes : Nat} (h : bytes < UInt32.size) :
    (ofBytes file bytes).offset.toNat = bytes :=
  UInt32.toNat_ofNat_of_lt h

end Position

/-- A part of a source file, from a first position to the one after its end. -/
structure Span where
  start : Position
  stop : Position
  deriving DecidableEq, Repr

namespace Span

/-- The span of so many bytes after a first part of so many bytes. -/
def ofBytes (file : String) (before length : Nat) : Span :=
  ⟨Position.ofBytes file before, Position.ofBytes file (before + length)⟩

def empty (position : Position) : Span :=
  ⟨position, position⟩

end Span

end ClassLang
