import ClassLang.Text.Quoted
/-!
Guarded texts: texts that a terminal shows and does not obey. The control characters that terminals
take for commands are written by their numbers; line breaks, tabs and the rest stay.
-/

namespace ClassLang

/-- Bell, backspace, form feed, escape and delete. -/
def isCommandByte (c : Char) : Bool :=
  c = '\x07' || c = '\x08' || c = '\x0c' || c = '\x1b' || c = '\x7f'

/-- The control characters above the ASCII range, which may stand for an escape sequence. -/
def isHighControl (c : Char) : Bool :=
  0x80 ≤ c.toNat && c.toNat ≤ 0x9F

def guardedChar (c : Char) : List Char :=
  if isCommandByte c then
    ['\\', 'x', Nat.digitChar (c.toNat / 16), Nat.digitChar (c.toNat % 16)]
  else if isHighControl c then numbered c
  else [c]

/-- The text with its terminal commands written by their numbers. -/
def guarded (text : String) : String :=
  String.ofList (text.toList.flatMap guardedChar)

end ClassLang
