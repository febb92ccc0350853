import ClassLang.Token.Pattern
import ClassLang.Token.Literal
/-!
Escaped texts, as string constants are written. Main statements: between quotes an escaped text is a
string constant as a whole (`takeQuoted?_escaped`), and it stands for the text
(`unescaped_escaped`).
-/

namespace ClassLang

def escapedChar (c : Char) : List Char :=
  if c = '\n' then ['\\', 'n']
  else if c = '\t' then ['\\', 't']
  else if c = '\r' then ['\\', 'r']
  else if c = '\x0c' then ['\\', 'f']
  else if c = '\x00' then ['\\', '0']
  else if c = '"' then ['\\', '"']
  else if c = '\\' then ['\\', '\\']
  else [c]

def escaped (text : List Char) : List Char :=
  text.flatMap escapedChar

def inQuotes (text : List Char) : List Char :=
  '"' :: (escaped text ++ ['"'])

theorem escapedChar_cases (c : Char) :
    (∃ d, escapedChar c = ['\\', d] ∧ unescapedPair d = [c] ∧ d ≠ '\n') ∨
      (escapedChar c = [c] ∧ c ≠ '"' ∧ c ≠ '\\' ∧ c ≠ '\n') := by
  by_cases hn : c = '\n'
  · subst hn; exact .inl ⟨'n', rfl, rfl, by decide⟩
  by_cases ht : c = '\t'
  · subst ht; exact .inl ⟨'t', rfl, rfl, by decide⟩
  by_cases hr : c = '\r'
  · subst hr; exact .inl ⟨'r', rfl, rfl, by decide⟩
  by_cases hf : c = '\x0c'
  · subst hf; exact .inl ⟨'f', rfl, rfl, by decide⟩
  by_cases hz : c = '\x00'
  · subst hz; exact .inl ⟨'0', rfl, rfl, by decide⟩
  by_cases hq : c = '"'
  · subst hq; exact .inl ⟨'"', rfl, rfl, by decide⟩
  by_cases hb : c = '\\'
  · subst hb; exact .inl ⟨'\\', rfl, rfl, by decide⟩
  · exact .inr ⟨by simp [escapedChar, hn, ht, hr, hf, hz, hq, hb], hq, hb, hn⟩

theorem unescaped_escaped (text : List Char) : unescaped (escaped text) = text := by
  induction text with
  | nil => rfl
  | cons c cs ih =>
      rw [escaped, List.flatMap_cons, ← escaped]
      obtain ⟨d, hd, hpair, -⟩ | ⟨hc, -, hb, -⟩ := escapedChar_cases c
      · rw [hd, List.cons_append, List.cons_append, unescaped, hpair, List.nil_append, ih]
        rfl
      · simp [hc, unescaped, hb, ih]

theorem takeToQuote?_escaped (text rest : List Char) :
    takeToQuote? (escaped text ++ '"' :: rest) = some (escaped text ++ ['"'], rest) := by
  induction text with
  | nil => rfl
  | cons c cs ih =>
      rw [escaped, List.flatMap_cons, ← escaped, List.append_assoc]
      obtain ⟨d, hd, -, hn⟩ | ⟨hc, hq, hb, hn⟩ := escapedChar_cases c
      · simp [hd, takeToQuote?, hn, ih]
      · simp [hc, takeToQuote?, hb, hn, ih]

theorem takeQuoted?_escaped (text rest : List Char) :
    takeQuoted? (inQuotes text ++ rest) = some (inQuotes text, rest) := by
  simp [inQuotes, takeQuoted?, takeToQuote?_escaped]

theorem withoutQuotes_inQuotes (text : List Char) : withoutQuotes (inQuotes text) = escaped text := by
  simp [withoutQuotes, inQuotes]

end ClassLang
