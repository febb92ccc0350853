import ClassLang.Proofs.Token.Fault
/-!
Texts written as string constants. Main statements: what a text may be written as between quotes
stands for the text (`Encodes.standsFor`), and the scanner takes it with its quotes as one string
constant with the text as its value, whatever comes before and after it (`tokenize_literal`,
`tokenize_append_literal`).
-/

namespace ClassLang

/-- Characters that a backslash and a letter may be written for, each with its letter. -/
def escapes : List (Char × Char) :=
  [('\\', '\\'), ('"', '"'), ('\n', 'n'), ('\t', 't'), ('\r', 'r'), ('\x0c', 'f'), ('\x00', '0')]

/--
A text, and what it may be written as between quotes. A backslash, a quote and a newline have to be
escaped; of the other characters that have an escape, each may be.
-/
inductive Encodes : List Char → List Char → Prop
  | nil : Encodes [] []
  | plain {c : Char} {text raw : List Char} :
      c ≠ '\\' → c ≠ '"' → c ≠ '\n' → Encodes text raw → Encodes (c :: text) (c :: raw)
  | escaped {c letter : Char} {text raw : List Char} :
      (c, letter) ∈ escapes → Encodes text raw → Encodes (c :: text) ('\\' :: letter :: raw)

theorem unescapedPair_of_mem_escapes {c letter : Char} (h : (c, letter) ∈ escapes) :
    unescapedPair letter = [c] ∧ letter ≠ '\n' := by
  have hall : ∀ e ∈ escapes, unescapedPair e.2 = [e.1] ∧ e.2 ≠ '\n' := by decide
  exact hall _ h

theorem encodes_escaped (text : List Char) : Encodes text (escaped text) := by
  induction text with
  | nil => exact .nil
  | cons c text ih =>
      rw [escaped, List.flatMap_cons, ← escaped]
      fun_cases escapedChar c with
      | case8 hn ht hr hf hz hq hb => exact .plain hb hq hn ih
      | _ =>
          subst_vars
          exact .escaped (by decide) ih

theorem Encodes.standsFor {text raw : List Char} (h : Encodes text raw) : StandsFor raw text := by
  induction h with
  | nil => exact .nil
  | plain hescape hquote hnewline _ ih => exact .plain hquote hescape hnewline ih
  | escaped hmem _ ih =>
      obtain ⟨hpair, hnewline⟩ := unescapedPair_of_mem_escapes hmem
      have hescape := StandsFor.escape hnewline ih
      rw [hpair] at hescape
      exact hescape

theorem StandsFor.unescaped_eq {raw text : List Char} (h : StandsFor raw text) :
    unescaped raw = text := by
  induction h with
  | nil => rfl
  | plain _ hescape _ _ ih =>
      rw [unescaped, ih]
      exact fun _ _ hc _ => hescape hc
  | escape _ _ ih => rw [unescaped, ih]

def literal (raw : List Char) : List Char :=
  '"' :: (raw ++ ['"'])

@[simp] theorem withoutQuotes_literal (raw : List Char) : withoutQuotes (literal raw) = raw := by
  simp [withoutQuotes, literal]

/-- The string constant with the value that is written as given, after so many bytes of a file. -/
def Token.ofLiteral (file : String) (before : Nat) (raw : List Char) (value : String) : Token :=
  ⟨.string, value, Span.ofBytes file before (byteLength (literal raw))⟩

theorem nextLexeme?_literal {raw text : List Char} (h : StandsFor raw text) (rest : List Char) :
    nextLexeme? (literal raw ++ rest) = some (⟨.quotedText, literal raw⟩, rest) := by
  have hclose := takeToQuote?_of_standsFor h rest
  refine nextLexeme?_of_takeQuoted? ?_
  simp [literal, takeQuoted?, hclose]

theorem tokensFrom_literal {value : String} {raw : List Char} (h : Encodes value.toList raw)
    (file : String) (before : Nat) (rest : List Char) :
    tokensFrom file before (literal raw ++ rest) =
      (tokensFrom file (before + byteLength (literal raw)) rest).map
        (Token.ofLiteral file before raw value :: ·) := by
  have hvalue : unescaped (withoutQuotes (literal raw)) = value.toList := by
    rw [withoutQuotes_literal, h.standsFor.unescaped_eq]
  rw [tokensFrom_of_nextLexeme? file before (nextLexeme?_literal h.standsFor rest) (by simp)]
  simp only [Lexeme.token?, hvalue, String.ofList_toList]
  rfl

theorem tokenize_append_literal {source : String} {value : String} {ls : List Lexeme}
    {raw after : List Char} (h : Encodes value.toList raw)
    (hls : Advances source.toList ls (literal raw ++ after)) (file : String) :
    tokenize source file =
      (moveTokens (byteLength (textOf ls) + byteLength (literal raw))
        (tokenize (String.ofList after) file)).map (tokensAfter file 0 ls ++
          Token.ofLiteral file (byteLength (textOf ls)) raw value :: ·) := by
  rw [tokenize_eq_tokensFrom, hls.tokensFrom_eq, Nat.zero_add, tokensFrom_literal h,
    tokenize_eq_tokensFrom, String.toList_ofList, ← tokensFrom_forward, Nat.zero_add]
  cases tokensFrom file (byteLength (textOf ls) + byteLength (literal raw)) after <;> rfl

theorem tokenize_literal {value : String} {raw : List Char} (h : Encodes value.toList raw)
    (file : String) :
    tokenize (String.ofList (literal raw)) file = .ok [Token.ofLiteral file 0 raw value,
      (EndMark.atPosition (Position.ofBytes file (byteLength (literal raw)))).token] := by
  have hliteral := tokensFrom_literal h file 0 []
  rw [List.append_nil, tokensFrom_nil, Nat.zero_add] at hliteral
  rw [tokenize_eq_tokensFrom, String.toList_ofList, hliteral]
  rfl

end ClassLang
