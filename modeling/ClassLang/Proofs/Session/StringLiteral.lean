import ClassLang.Proofs.Grammar.Derivation.Constants
import ClassLang.Proofs.Session.Outcome
import ClassLang.Proofs.Token.StringLiteral
/-!
String constants from the source to the tree. Main statement: whatever way a text is escaped, it is
the value of the token and of the constant in the tree that it is written for (`reads_literal`).
-/

namespace ClassLang

namespace Session

variable {source file : String} {log log' : DiagnosticLog} {p : Program}

theorem map_constants_of_parseSource (h : parseSource source file log = .ok p log')
    {ts : List Token} (hts : tokenize source file = .ok ts) :
    p.constants.map some = ts.flatMap Token.readings := by
  obtain ⟨body, stop, hbody, hstop, hderives⟩ := exists_derives_of_parseSource h
  cases hbody.symm.trans hts
  have hreadings := hderives.readings_eq
  have hend : [stop].flatMap Token.readings = [] := by
    simp [Token.readings, hstop]
  rw [hend, List.append_nil] at hreadings
  exact hreadings.symm

theorem string_mem_constants_of_parseSource (h : parseSource source file log = .ok p log')
    {ts : List Token} (hts : tokenize source file = .ok ts) {t : Token} (ht : t ∈ ts)
    (hkind : t.kind = .string) : .string t.position t.value ∈ p.constants := by
  have hreading : some (.string t.position t.value) ∈ ts.flatMap Token.readings := by
    refine List.mem_flatMap.2 ⟨t, ht, ?_⟩
    rw [Token.readings, hkind]
    exact List.mem_singleton_self _
  rw [← map_constants_of_parseSource h hts] at hreading
  obtain ⟨e, he, heq⟩ := List.mem_map.1 hreading
  cases heq
  exact he

/-- The kinds of the tokens of a class with a single field, up to the value that it is given. -/
def fieldOpening : List TokenKind :=
  [.keyword .kwClass, .identifier, .symbol .openBrace, .identifier, .identifier, .symbol .assign]

/-- The kinds of the tokens that follow the value. -/
def fieldClosing : List TokenKind :=
  [.symbol .semicolon, .symbol .closeBrace, .endOfInput]

theorem parseSource_field_of_tokenize {u w : List Token} {s : Token}
    (hts : tokenize source file = .ok (u ++ s :: w)) (hu : u.map Token.kind = fieldOpening)
    (hs : s.kind = .string) (hw : w.map Token.kind = fieldClosing) :
    ∃ p c f, parseSource source file log = .ok p log ∧ p.classes.items = [c] ∧
      c.members.items = [.field f] ∧ f.init = some (.string s.position s.value) := by
  simp only [fieldOpening, fieldClosing, List.map_eq_cons_iff, List.map_eq_nil_iff] at hu hw
  obtain ⟨k, _, rfl, hk, c, _, rfl, hc, b, _, rfl, hb, t, _, rfl, ht, x, _, rfl, hx, a, _, rfl, ha,
    rfl⟩ := hu
  obtain ⟨q, _, rfl, hq, z, _, rfl, hz, stop, _, rfl, hstop, rfl⟩ := hw
  have hbody : ∀ u ∈ [k, c, b, t, x, a, s, q, z], u.kind ≠ .endOfInput := by
    simp [hk, hc, hb, ht, hx, ha, hs, hq, hz]
  have hvalue : Grammar.DerivesExpr Token.position (.level .expression) [s, q, z, stop] [q, z, stop]
      (.string s.position s.value) := .of_primary (.string hs) _
  have hfield : Grammar.DerivesDecl Token.position file .member [t, x, a, s, q, z, stop] [z, stop]
      _ := .field ht hx (.present ha hvalue) hq
  have hclass := Grammar.DerivesDecl.classDecl hk hc .absent hb (.members hfield .noMembers) hz
  have hprogram := Grammar.DerivesDecl.program (.classes hclass .noClasses) hstop
  have hstream := (Grammar.ofStream_eq_ok_iff hbody hstop).2 hprogram
  have hparse := (Program.ofSource_of_tokenize hts).trans hstream
  exact ⟨_, _, _, conclude_eq_ok.2 ⟨hparse, rfl⟩, rfl, rfl, rfl⟩

/--
How a source text is read in which lexemes, a string constant that is written as given, and more
text follow one another.
-/
structure ReadsLiteral (source file : String) (ls : List Lexeme) (raw after : List Char)
    (v : String) : Prop where
  tokens : tokenize source file =
    (moveTokens (byteLength (textOf ls) + byteLength (literal raw))
      (tokenize (String.ofList after) file)).map (tokensAfter file 0 ls ++
        Token.ofLiteral file (byteLength (textOf ls)) raw v :: ·)
  constant : ∀ {log p log'}, parseSource source file log = .ok p log' →
    .string (Position.ofBytes file (byteLength (textOf ls))) v ∈ p.constants
  field : ∀ {us}, (tokensAfter file 0 ls).map Token.kind = fieldOpening →
    tokenize (String.ofList after) file = .ok us → us.map Token.kind = fieldClosing →
    ∀ log, ∃ p c f, parseSource source file log = .ok p log ∧ p.classes.items = [c] ∧
      c.members.items = [.field f] ∧
      f.init = some (.string (Position.ofBytes file (byteLength (textOf ls))) v)

theorem reads_literal {v : String} {raw : List Char} (h : Encodes v.toList raw) (file : String) :
    tokenize (String.ofList (literal raw)) file = .ok [Token.ofLiteral file 0 raw v,
      (EndMark.atPosition (Position.ofBytes file (byteLength (literal raw)))).token] ∧
    ∀ {source : String} {ls : List Lexeme} {after : List Char},
      Advances source.toList ls (literal raw ++ after) →
      ReadsLiteral source file ls raw after v := by
  refine ⟨tokenize_literal h file, fun {source ls after} hls => ?_⟩
  have htokens := tokenize_append_literal h hls file
  constructor
  case tokens => exact htokens
  case constant =>
    intro log p log' hp
    obtain ⟨ts, hts, -⟩ := exists_tokens_of_parseSource hp
    rw [hts] at htokens
    generalize moveTokens _ _ = rest at htokens
    cases rest with
    | error d => cases htokens
    | ok us =>
        cases htokens
        let t := Token.ofLiteral file (byteLength (textOf ls)) raw v
        have ht : t ∈ tokensAfter file 0 ls ++ t :: us := by simp
        exact string_mem_constants_of_parseSource hp hts ht rfl
  case field =>
    intro us hopening hafter hclosing log
    rw [hafter] at htokens
    have hkinds : ∀ φ, (us.map (Token.relocate φ)).map Token.kind = us.map Token.kind := by
      simp [Function.comp_def]
    exact parseSource_field_of_tokenize htokens hopening rfl ((hkinds _).trans hclosing)

theorem reads_literal_of_backslash_and_tab :
    let v := String.ofList ['\\', 'n', '\t', '\x00']
    let raw := ['\\', '\\', 'n', '\t', '\\', '0']
    let before := "class A\x7bS s=".toList
    let source := String.ofList (before ++ (literal raw ++ [';', '\x7d']))
    Encodes v.toList raw ∧ (∃ ls, Advances source.toList ls (literal raw ++ [';', '\x7d'])) ∧
      ∃ p c f, parseSource source "a.cl" .empty = .ok p .empty ∧ p.classes.items = [c] ∧
        c.members.items = [.field f] ∧
        f.init = some (.string (Position.ofBytes "a.cl" (byteLength before)) v) := by
  intro v raw before source
  have h : Encodes v.toList raw := by
    rw [String.toList_ofList]
    refine .escaped (by decide) (.plain ?_ ?_ ?_ (.plain ?_ ?_ ?_ (.escaped (by decide) .nil))) <;>
      decide
  obtain ⟨ls, hls, hopening⟩ : ∃ ls, Advances source.toList ls (literal raw ++ [';', '\x7d']) ∧
      (tokensAfter "a.cl" 0 ls).map Token.kind = fieldOpening := by
    rw [String.toList_ofList]
    exact ⟨_, .next rfl (by decide) <| .next rfl (by decide) <| .next rfl (by decide) <|
      .next rfl (by decide) <| .next rfl (by decide) <| .next rfl (by decide) <|
        .next rfl (by decide) <| .next rfl (by decide) .here, by decide⟩
  have hbefore : before = textOf ls :=
    List.append_cancel_right ((String.toList_ofList ..).symm.trans hls.eq_append)
  have hafter : tokenize (String.ofList [';', '\x7d']) "a.cl" = .ok [⟨.symbol .semicolon, ";",
      .ofBytes "a.cl" 0 1⟩, ⟨.symbol .closeBrace, "\x7d", .ofBytes "a.cl" 1 1⟩,
      (EndMark.atPosition (.ofBytes "a.cl" 2)).token] := by cbv
  refine ⟨h, ⟨ls, hls⟩, ?_⟩
  rw [hbefore]
  exact ((reads_literal h "a.cl").2 hls).field hopening hafter rfl .empty

end Session

end ClassLang
