/-!
Integer constants: decimal numbers that fit in 32 bits with a sign. Main statement: a text of
digits is read as its decimal value up to the limit, and is refused above it
(`readInteger?_digits`).
-/

namespace ClassLang

def maxInteger : Nat := 2147483647

def isDecimal (c : Char) : Bool :=
  '0' ≤ c && c ≤ '9'

/-- The decimal value of a list of digits, most significant first. -/
def decimalValue (digits : List Char) : Nat :=
  digits.foldl (fun value digit => 10 * value + (digit.toNat - '0'.toNat)) 0

/-- The value of a text that is nothing but digits, and not empty. -/
def decimalValue? : List Char → Option Nat
  | [] => none
  | c :: cs => if (c :: cs).all isDecimal then some (decimalValue (c :: cs)) else none

theorem decimalValue?_of_all {digits : List Char} (hne : digits ≠ [])
    (h : digits.all isDecimal = true) : decimalValue? digits = some (decimalValue digits) := by
  cases digits with
  | nil => exact absurd rfl hne
  | cons c cs => rw [decimalValue?, if_pos h]

/--
Reads an integer constant: digits after an optional sign, whose value lies between `-2147483648`
and `2147483647`.
-/
def readInteger? : List Char → Option Int
  | '-' :: digits =>
      match decimalValue? digits with
      | some value => if value ≤ maxInteger + 1 then some (-(value : Int)) else none
      | none => none
  | '+' :: digits => nonNegative digits
  | digits => nonNegative digits
where
  nonNegative (digits : List Char) : Option Int :=
    match decimalValue? digits with
    | some value => if value ≤ maxInteger then some value else none
    | none => none

theorem readInteger?_digits {digits : List Char} (hne : digits ≠ [])
    (h : digits.all isDecimal = true) :
    readInteger? digits =
      if decimalValue digits ≤ maxInteger then some (decimalValue digits : Int) else none := by
  have hvalue := decimalValue?_of_all hne h
  unfold readInteger?
  split
  · simp [isDecimal] at h
  · simp [isDecimal] at h
  · rw [readInteger?.nonNegative, hvalue]

end ClassLang
