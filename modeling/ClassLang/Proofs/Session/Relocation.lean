import ClassLang.Proofs.Grammar.Naturality
import ClassLang.Proofs.Session.CorrectPrefix
import ClassLang.Proofs.Syntax.Print
import Mathlib
/-!
Parses at other positions. Main statement: a list of tokens with other positions is parsed to what
the list is parsed to, with those positions, so that sources that consist of the same words are
parsed alike (`Session.parse_natural`).
-/

namespace ClassLang

def EndsWithMark (ts : List Token) : Prop :=
  ∃ mark ∈ ts.getLast?, mark.kind = .endOfInput

/-- An outcome with other positions. -/
def Program.relocateOutcome (φ : Position → Position) :
    Except Diagnostic Program → Except Diagnostic Program
  | .ok p => .ok (p.relocate φ)
  | .error d => .error (d.relocate φ)

/--
Outcomes for two lists of tokens that are alike: the same program apart from its positions, each in
its own file, or the same cause at tokens with the same index.
-/
inductive Corresponds (ts ts' : List Token) (file file' : String) :
    Except Diagnostic Program → Except Diagnostic Program → Prop
  | ok {p p' : Program} :
      p.inFile file = p → p'.unplaced = (p.inFile file').unplaced →
      Corresponds ts ts' file file' (.ok p) (.ok p')
  | error {cause : Cause} {i : Nat} {t t' : Token} :
      ts[i]? = some t → ts'[i]? = some t' →
      Corresponds ts ts' file file' (.error ⟨cause, t.position⟩) (.error ⟨cause, t'.position⟩)

namespace Program

theorem ofStream_relocate (φ : Position → Position) (s : TokenStream) (file : String) :
    ofStream (s.relocate φ) file = relocateOutcome φ (ofStream s file) := by
  have hnatural : Rule.Natural φ (relocate φ) (Rule.bounded (Grammar.program file))
      (Rule.bounded (Grammar.program file)) :=
    .bounded fun bound => Grammar.program_natural file bound
  rw [ofStream, ofStream, hnatural s]
  cases Rule.bounded (Grammar.program file) s <;> rfl

theorem ofStream_inFile (s : TokenStream) (file file' : String) :
    ofStream s file' = (ofStream s file).map (inFile file') := by
  rw [ofStream, ofStream, Rule.bounded, Rule.bounded, Grammar.program_inFile file file']
  cases h : Grammar.program file s.pending.length s with
  | ok p s' =>
      rw [Rule.map_of_ok h]
      rfl
  | error d s' =>
      rw [Rule.map_of_error h]
      rfl

theorem inFile_of_ofStream {s : TokenStream} {file : String} {p : Program}
    (h : ofStream s file = .ok p) : p.inFile file = p := by
  have hmap := ofStream_inFile s file file
  rw [h] at hmap
  exact (Except.ok.inj hmap).symm

theorem unplaced_inFile (p : Program) (file : String) :
    (p.inFile file).unplaced = p.unplaced.inFile file := by
  simp [inFile, unplaced, NodeList.unplacedWith, ClassDecl.inFile, ClassDecl.unplaced]

end Program

section Labels

/-- A position that stands for one end of the token with an index. -/
def Position.label (i : Nat) (offset : UInt32) : Position :=
  ⟨offset, String.ofList (List.replicate i ' ')⟩

def Position.atLabel (ts : List Token) (p : Position) : Position :=
  match ts[p.file.length]? with
  | none => p
  | some t => if p.offset = 0 then t.span.start else t.span.stop

def Token.labelled (i : Nat) (t : Token) : Token :=
  { t with span := ⟨.label i 0, .label i 1⟩ }

variable {ts ts' : List Token}

theorem Token.relocate_labelled {i : Nat} {t t' : Token} (ht' : ts'[i]? = some t')
    (hword : t.word = t'.word) : (t.labelled i).relocate (Position.atLabel ts') = t' := by
  obtain ⟨kind, value, start, stop⟩ := t'
  cases hword
  simp [relocate, labelled, Span.relocate, Position.atLabel, Position.label, ht']

theorem map_relocate_labelled (hwords : ts.map Token.word = ts'.map Token.word) :
    (ts.mapIdx Token.labelled).map (Token.relocate (Position.atLabel ts')) = ts' := by
  refine List.ext_getElem? fun i => ?_
  have hi := congrArg (fun ws => ws[i]?) hwords
  simp only [List.getElem?_map] at hi
  rw [List.getElem?_map, List.getElem?_mapIdx]
  cases ht' : ts'[i]? with
  | none =>
      rw [ht', Option.map_none, Option.map_eq_none_iff] at hi
      rw [hi]
      rfl
  | some t' =>
      rw [ht', Option.map_some] at hi
      obtain ⟨t, ht, hword⟩ := Option.map_eq_some_iff.1 hi
      rw [ht]
      exact congrArg some (Token.relocate_labelled ht' hword)

theorem endsWithMark_labelled (h : EndsWithMark ts) :
    EndsWithMark (ts.mapIdx Token.labelled) := by
  obtain ⟨mark, hmark, hkind⟩ := h
  refine ⟨mark.labelled (ts.length - 1), ?_, hkind⟩
  rw [List.getLast?_mapIdx, hmark]
  rfl

end Labels

section Words

variable {ts ts' : List Token} {file file' : String}

theorem exists_getElem?_of_error {d : Diagnostic} (hmark : EndsWithMark ts)
    (h : Program.ofStream (TokenStream.ofTokens ts file) file = .error d) :
    ∃ (i : Nat) (t : Token), ts[i]? = some t ∧ d.position = t.position := by
  obtain ⟨stop, hlast, hstop⟩ := hmark
  obtain ⟨body, rfl⟩ := List.getLast?_eq_some_iff.1 hlast
  obtain ⟨s', h⟩ := Session.ofStream_eq_error.1 h
  obtain ⟨pre, t, post, hsplit, hpending, -⟩ := Session.exists_viable_of_program hstop h
  refine ⟨pre.length, t, by rw [hsplit]; simp, ?_⟩
  rw [Grammar.program_steady.position h]
  obtain ⟨pending, mark⟩ := s'
  cases hpending
  rfl

theorem EndsWithMark.ne_nil (h : EndsWithMark ts) : ts ≠ [] := by
  rintro rfl
  obtain ⟨mark, hmark, -⟩ := h
  cases hmark

theorem corresponds_of_map (φ φ' : Position → Position) (hmark : EndsWithMark ts) :
    Corresponds (ts.map (Token.relocate φ)) (ts.map (Token.relocate φ')) file file'
      (Program.ofStream (TokenStream.ofTokens (ts.map (Token.relocate φ)) file) file)
      (Program.ofStream (TokenStream.ofTokens (ts.map (Token.relocate φ')) file') file') := by
  let s := TokenStream.ofTokens ts file
  have hs : TokenStream.ofTokens (ts.map (Token.relocate φ)) file = s.relocate φ :=
    TokenStream.ofTokens_map_relocate φ hmark.ne_nil file
  have hs' : TokenStream.ofTokens (ts.map (Token.relocate φ')) file' = s.relocate φ' := by
    rw [TokenStream.ofTokens_map_relocate φ' hmark.ne_nil file',
      TokenStream.ofTokens_eq_of_ne_nil hmark.ne_nil file' file]
  rw [hs, hs', Program.ofStream_relocate φ, Program.ofStream_relocate φ',
    Program.ofStream_inFile s file file']
  cases h : Program.ofStream s file with
  | ok p =>
      have hrelocate := Program.ofStream_relocate φ s file
      rw [h] at hrelocate
      refine .ok (Program.inFile_of_ofStream hrelocate) ?_
      rw [Program.unplaced_relocate, Program.unplaced_inFile, Program.unplaced_inFile,
        Program.unplaced_relocate]
  | error d =>
      obtain ⟨i, t, ht, hposition⟩ := exists_getElem?_of_error hmark h
      have hmap : ∀ ψ : Position → Position,
          (ts.map (Token.relocate ψ))[i]? = some (t.relocate ψ) := by
        intro ψ
        rw [List.getElem?_map, ht]
        rfl
      obtain ⟨cause, position⟩ := d
      cases hposition
      exact .error (hmap φ) (hmap φ')

theorem corresponds_of_words (hmark : EndsWithMark ts)
    (hwords : ts.map Token.word = ts'.map Token.word) :
    Corresponds ts ts' file file' (Program.ofStream (TokenStream.ofTokens ts file) file)
      (Program.ofStream (TokenStream.ofTokens ts' file') file') := by
  -- both lists come from one, whose positions say which token they belong to
  have hmap : Corresponds _ _ file file' _ _ :=
    corresponds_of_map (Position.atLabel ts) (Position.atLabel ts') (endsWithMark_labelled hmark)
  rwa [map_relocate_labelled rfl, map_relocate_labelled hwords] at hmap

end Words

theorem endsWithMark_of_tokenize {source file : String} {ts : List Token}
    (h : tokenize source file = .ok ts) : EndsWithMark ts := by
  obtain ⟨body, stop, rfl, hstop, -⟩ := exists_append_of_tokenize h
  exact ⟨stop, by simp, hstop⟩

namespace Session

theorem parse_natural :
    (∀ (φ : Position → Position) (ts : List Token) (file : String), EndsWithMark ts →
      parseStream (TokenStream.ofTokens (ts.map (Token.relocate φ)) file) file =
        conclude (Program.relocateOutcome φ
          (Program.ofStream (TokenStream.ofTokens ts file) file))) ∧
    ∀ (source source' file file' : String) (ts ts' : List Token),
      tokenize source file = .ok ts → tokenize source' file' = .ok ts' →
      ts.map Token.word = ts'.map Token.word →
      ∃ o o', parseSource source file = conclude o ∧ parseSource source' file' = conclude o' ∧
        Corresponds ts ts' file file' o o' := by
  constructor
  · intro φ ts file hmark
    rw [TokenStream.ofTokens_map_relocate φ hmark.ne_nil, parseStream, Program.ofStream_relocate]
  · intro source source' file file' ts ts' hts hts' hwords
    refine ⟨_, _, rfl, rfl, ?_⟩
    rw [Program.ofSource_of_tokenize hts, Program.ofSource_of_tokenize hts']
    exact corresponds_of_words (endsWithMark_of_tokenize hts) hwords

theorem parse_natural_of_open_class :
    let source := "class A\x7b"
    let source' := " class/**/A\n\x7b"
    let tokens (file : String) (a b c d : Nat) : List Token :=
      [⟨.keyword .kwClass, "class", .ofBytes file a 5⟩, ⟨.identifier, "A", .ofBytes file b 1⟩,
       ⟨.symbol .openBrace, "\x7b", .ofBytes file c 1⟩, ⟨.endOfInput, "EOF", .ofBytes file d 0⟩]
    let ts := tokens "a.cl" 0 6 7 8
    let ts' := tokens "b.cl" 1 10 12 13
    let φ (p : Position) : Position := ⟨p.offset + 3, p.file⟩
    EndsWithMark ts ∧ tokenize source "a.cl" = .ok ts ∧ tokenize source' "b.cl" = .ok ts' ∧
      ts.map Token.word = ts'.map Token.word ∧
      parseStream (TokenStream.ofTokens (ts.map (Token.relocate φ)) "a.cl") "a.cl" =
        conclude (Program.relocateOutcome φ
          (Program.ofStream (TokenStream.ofTokens ts "a.cl") "a.cl")) ∧
      ∃ o o', parseSource source "a.cl" = conclude o ∧ parseSource source' "b.cl" = conclude o' ∧
        Corresponds ts ts' "a.cl" "b.cl" o o' := by
  intro source source' tokens ts ts' φ
  have hmark : EndsWithMark ts := ⟨_, rfl, rfl⟩
  have hts : tokenize source "a.cl" = .ok ts := by cbv
  have hts' : tokenize source' "b.cl" = .ok ts' := by cbv
  have hwords : ts.map Token.word = ts'.map Token.word := rfl
  exact ⟨hmark, hts, hts', hwords, parse_natural.1 φ ts "a.cl" hmark,
    parse_natural.2 source source' "a.cl" "b.cl" ts ts' hts hts' hwords⟩

end Session

end ClassLang
