import ClassLang.Proofs.Session.Relocation
import ClassLang.Proofs.Token.Respacing
/-!
Parses of source texts with other spaces. Main statement: a source text that is cut into tokens has
the same words and is parsed alike when single spaces stand between the pieces that the tokens are
read from, and doing so once more changes nothing (`Session.parseSource_respaced`).
-/

namespace ClassLang

namespace Session

theorem parseSource_respaced {source file : String} {ts : List Token}
    (hsize : source.utf8ByteSize < UInt32.size) (h : tokenize source file = .ok ts)
    (hrespaced : (respaced source ts).utf8ByteSize < UInt32.size) :
    ∃ ts', tokenize (respaced source ts) file = .ok ts' ∧
      ts'.map Token.word = ts.map Token.word ∧
      respaced (respaced source ts) ts' = respaced source ts ∧
      ∃ o o', parseSource source file = conclude o ∧
        parseSource (respaced source ts) file = conclude o' ∧
        Corresponds ts ts' file file o o' := by
  obtain ⟨ts', hts', hwords, hagain⟩ := tokenize_respaced hsize h hrespaced
  refine ⟨ts', hts', hwords, hagain, _, _, rfl, rfl, ?_⟩
  rw [Program.ofSource_of_tokenize h, Program.ofSource_of_tokenize hts']
  exact corresponds_of_words (endsWithMark_of_tokenize h) hwords.symm

theorem parseSource_respaced_of_string_and_comment :
    let source := "class A\x7b/* é */String s=\"\\q\t\";\x7d//"
    ∃ ts, source.utf8ByteSize < UInt32.size ∧ tokenize source "a.cl" = .ok ts ∧
      respaced source ts = "class A \x7b String s = \"\\q\t\" ; \x7d" ∧
      (respaced source ts).utf8ByteSize < UInt32.size ∧
      ∃ ts', tokenize (respaced source ts) "a.cl" = .ok ts' ∧
        ts'.map Token.word = ts.map Token.word ∧
        respaced (respaced source ts) ts' = respaced source ts ∧
        ∃ o o', parseSource source "a.cl" = conclude o ∧
          parseSource (respaced source ts) "a.cl" = conclude o' ∧
          Corresponds ts ts' "a.cl" "a.cl" o o' := by
  intro source
  let token (kind : TokenKind) (value : String) (start length : Nat) : Token :=
    ⟨kind, value, .ofBytes "a.cl" start length⟩
  let ts : List Token :=
    [token (.keyword .kwClass) "class" 0 5, token .identifier "A" 6 1,
     token (.symbol .openBrace) "\x7b" 7 1, token .identifier "String" 16 6,
     token .identifier "s" 23 1, token (.symbol .assign) "=" 24 1, token .string "\\q\t" 25 5,
     token (.symbol .semicolon) ";" 30 1, token (.symbol .closeBrace) "\x7d" 31 1,
     token .endOfInput "EOF" 34 0]
  have hsize : source.utf8ByteSize < UInt32.size := by decide
  have h : tokenize source "a.cl" = .ok ts := by cbv
  have hslices : respaced source ts = "class A \x7b String s = \"\\q\t\" ; \x7d" := by cbv
  have hrespaced : (respaced source ts).utf8ByteSize < UInt32.size := by
    rw [hslices]
    decide
  exact ⟨ts, hsize, h, hslices, hrespaced, parseSource_respaced hsize h hrespaced⟩

end Session

end ClassLang
