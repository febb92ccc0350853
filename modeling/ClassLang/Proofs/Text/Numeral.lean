import ClassLang.Text.Integer
/-!
Numerals: the texts that stand for integer constants, as a relation. Main statement: reading an
integer constant succeeds on numerals only, with the integer they stand for
(`readInteger?_eq_some_iff`).
-/

namespace ClassLang

def IsDigits (text : List Char) : Prop :=
  text ≠ [] ∧ text.all isDecimal = true

/-- The integer that a text stands for: digits up to the limit, which a sign may precede. -/
inductive Numeral : List Char → Int → Prop
  | plain {digits : List Char} : IsDigits digits → decimalValue digits ≤ maxInteger →
      Numeral digits (decimalValue digits)
  | plus {digits : List Char} : IsDigits digits → decimalValue digits ≤ maxInteger →
      Numeral ('+' :: digits) (decimalValue digits)
  | minus {digits : List Char} : IsDigits digits → decimalValue digits ≤ maxInteger + 1 →
      Numeral ('-' :: digits) (-(decimalValue digits : Int))

theorem Numeral.bounds_of_isDigits {text : List Char} {value : Int} (h : Numeral text value)
    (htext : IsDigits text) : 0 ≤ value ∧ value ≤ maxInteger := by
  cases h with
  | plain _ hle => omega
  | plus _ _ => exact absurd htext.2 (by simp [isDecimal])
  | minus _ _ => exact absurd htext.2 (by simp [isDecimal])

theorem decimalValue?_eq_some_iff {text : List Char} {value : Nat} :
    decimalValue? text = some value ↔ IsDigits text ∧ decimalValue text = value := by
  cases text with
  | nil => simp [decimalValue?, IsDigits]
  | cons c cs =>
      rw [decimalValue?, IsDigits]
      by_cases h : (c :: cs).all isDecimal = true
      · rw [if_pos h]; simp [h]
      · rw [if_neg h]; simp [h]

theorem nonNegative_eq_some_iff {text : List Char} {value : Int} :
    readInteger?.nonNegative text = some value ↔
      IsDigits text ∧ decimalValue text ≤ maxInteger ∧ (decimalValue text : Int) = value := by
  rw [readInteger?.nonNegative]
  cases h : decimalValue? text with
  | none =>
      have hnot : ¬ IsDigits text := by
        intro hd
        have hs := decimalValue?_eq_some_iff.2 ⟨hd, rfl⟩
        simp [h] at hs
      simp [hnot]
  | some n =>
      obtain ⟨hd, rfl⟩ := decimalValue?_eq_some_iff.1 h
      by_cases hle : decimalValue text ≤ maxInteger
      · simp [hd, hle]
      · simp [hle]

theorem readInteger?_eq_some_iff {text : List Char} {value : Int} :
    readInteger? text = some value ↔ Numeral text value := by
  constructor
  · intro h
    unfold readInteger? at h
    split at h
    · next digits =>
        cases hv : decimalValue? digits with
        | none => simp [hv] at h
        | some n =>
            obtain ⟨hd, rfl⟩ := decimalValue?_eq_some_iff.1 hv
            simp only [hv] at h
            split at h
            · cases h; exact .minus hd ‹_›
            · simp at h
    · obtain ⟨hd, hle, rfl⟩ := nonNegative_eq_some_iff.1 h
      exact .plus hd hle
    · obtain ⟨hd, hle, rfl⟩ := nonNegative_eq_some_iff.1 h
      exact .plain hd hle
  · intro h
    cases h with
    | plain hd hle => rw [readInteger?_digits hd.1 hd.2, if_pos hle]
    | plus hd hle => exact nonNegative_eq_some_iff.2 ⟨hd, hle, rfl⟩
    | minus hd hle =>
        rw [readInteger?, decimalValue?_eq_some_iff.2 ⟨hd, rfl⟩]
        exact if_pos hle

theorem isDigits_toDigits (n : Nat) : IsDigits (Nat.toDigits 10 n) := by
  refine ⟨Nat.toDigits_ne_nil, ?_⟩
  rw [List.all_eq_true]
  intro c hc
  have hdigit := Nat.isDigit_of_mem_toDigits (by omega) (by omega) hc
  simpa [isDecimal, Char.isDigit, Char.le_def] using hdigit

theorem decimalValue_toDigits (n : Nat) : decimalValue (Nat.toDigits 10 n) = n := by
  have hvalue := Nat.ofDigitChars_ten_toDigits (n := n)
  rw [Nat.ofDigitChars_eq_foldl] at hvalue
  exact hvalue

theorem numeral_toDigits {n : Nat} (h : n ≤ maxInteger) : Numeral (Nat.toDigits 10 n) n := by
  have hnumeral := Numeral.plain (isDigits_toDigits n) (by rw [decimalValue_toDigits]; exact h)
  rw [decimalValue_toDigits] at hnumeral
  exact hnumeral

end ClassLang
