/-!
White space, by the Unicode property of that name.
-/

namespace ClassLang

/-- The code points with the Unicode property `White_Space`, as ranges in increasing order. -/
def blankRanges : List (Nat × Nat) :=
  [(0x9, 0xD), (0x20, 0x20), (0x85, 0x85), (0xA0, 0xA0), (0x1680, 0x1680), (0x2000, 0x200A),
   (0x2028, 0x2029), (0x202F, 0x202F), (0x205F, 0x205F), (0x3000, 0x3000)]

/-- White space between tokens and at the end of a line. -/
def isBlank (c : Char) : Bool :=
  blankRanges.any fun range => range.1 ≤ c.toNat && c.toNat ≤ range.2

theorem isBlank_space : isBlank ' ' = true := by decide

/-- The text without the white space at its end. -/
def dropBlanksAtEnd : List Char → List Char
  | [] => []
  | c :: cs =>
      match dropBlanksAtEnd cs with
      | [] => if isBlank c then [] else [c]
      | d :: ds => c :: d :: ds

theorem exists_dropBlanksAtEnd_append (cs : List Char) :
    ∃ blanks, cs = dropBlanksAtEnd cs ++ blanks ∧ blanks.all isBlank = true := by
  induction cs with
  | nil => exact ⟨[], rfl, rfl⟩
  | cons c cs ih =>
      obtain ⟨blanks, hcs, hall⟩ := ih
      cases hd : dropBlanksAtEnd cs with
      | nil =>
          rw [hd, List.nil_append] at hcs
          cases hc : isBlank c with
          | true =>
              exact ⟨c :: blanks, by simp [dropBlanksAtEnd, hd, hc, ← hcs], by simp [hc, hall]⟩
          | false => exact ⟨blanks, by simp [dropBlanksAtEnd, hd, hc, ← hcs], hall⟩
      | cons d ds =>
          rw [hd] at hcs
          exact ⟨blanks, by simp only [dropBlanksAtEnd, hd]; rw [hcs]; simp, hall⟩

end ClassLang
