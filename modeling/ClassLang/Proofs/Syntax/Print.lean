import ClassLang.Proofs.Syntax.WellFormed
import ClassLang.Proofs.Text.Escape
import ClassLang.Proofs.Token.Lexical
/-!
Printed trees: the words of a program in the order in which it is written, and its text, in which
single spaces separate them. Parentheses stand around the operands of operators, around what is
assigned and around what is converted. Main statement: the words of a well-formed program are such
as a source text may have (`Program.admitted_words`).
-/

namespace ClassLang

/-- A token without its place. -/
structure Word where
  kind : TokenKind
  value : String
  deriving DecidableEq, Repr

def Token.word (t : Token) : Word :=
  ⟨t.kind, t.value⟩

namespace Word

def symbol (s : Symbol) : Word :=
  ⟨.symbol s, s.spelling⟩

def keyword (k : Keyword) : Word :=
  ⟨.keyword k, k.spelling⟩

def name (n : String) : Word :=
  ⟨.identifier, n⟩

def integer (v : Int) : Word :=
  ⟨.integer, String.ofList (Nat.toDigits 10 v.toNat)⟩

def boolean (b : Bool) : Word :=
  ⟨.boolean, if b then "true" else "false"⟩

def string (text : String) : Word :=
  ⟨.string, text⟩

def text (w : Word) : List Char :=
  match w.kind with
  | .string => inQuotes w.value.toList
  | _ => w.value.toList

def Admitted (w : Word) : Prop :=
  w.kind.Admits w.value ∧ w.kind ≠ .endOfInput

def grouped (ws : List Word) : List Word :=
  symbol .openParen :: (ws ++ [symbol .closeParen])

def separated : List (List Word) → List Word
  | [] => []
  | ws :: wss => ws ++ wss.flatMap (symbol .comma :: ·)

/-- `this` or `super` with its dot, or nothing. -/
def qualifier : Option String → List Word
  | none => []
  | some word => [⟨wordKind word, word⟩, symbol .dot]

/-- The text of words, with a space between any two. -/
def layout : List Word → List Char
  | [] => []
  | [w] => w.text
  | w :: ws => w.text ++ ' ' :: layout ws

end Word

open Word

def BinaryOp.sign : BinaryOp → Symbol
  | .add => .plus
  | .subtract => .minus
  | .multiply => .star
  | .divide => .slash
  | .modulo => .percent
  | .less => .less
  | .greater => .greater
  | .lessEqual => .lessEqual
  | .greaterEqual => .greaterEqual
  | .equal => .equal
  | .notEqual => .notEqual
  | .and => .and
  | .or => .or

def UnaryOp.sign : UnaryOp → Symbol
  | .negate => .minus
  | .not => .not
  | .increment => .increment
  | .decrement => .decrement

namespace Expr

mutual

def words : Expr → List Word
  | .integer _ v => [Word.integer v]
  | .boolean _ v => [Word.boolean v]
  | .string _ v => [Word.string v]
  | .var _ r n => qualifier (r.bind varName?) ++ [name n]
  | .assign _ q n v => qualifier q ++ name n :: symbol .assign :: grouped v.words
  | .call _ r m ⟨_, es⟩ => qualifier (r.bind varName?) ++ name m :: grouped (separated (wordsList es))
  | .create _ n => keyword .kwNew :: name n :: grouped []
  | .cast _ target e => keyword .kwCast :: grouped (name target :: symbol .comma :: grouped e.words)
  | .binary _ op l r => grouped l.words ++ symbol op.sign :: grouped r.words
  | .unary _ op e afterOperand =>
      if afterOperand then grouped e.words ++ [symbol op.sign]
      else symbol op.sign :: grouped e.words

def wordsList : List Expr → List (List Word)
  | [] => []
  | e :: es => e.words :: wordsList es

end

@[simp] theorem wordsList_eq_map (es : List Expr) : wordsList es = es.map words := by
  induction es with
  | nil => simp [wordsList]
  | cons e es ih => simp [wordsList, ih]

def optionWords (v : Option Expr) : List Word :=
  v.elim [] words

end Expr

namespace Stmt

mutual

def words : Stmt → List Word
  | .conditional _ e s t => keyword .kwIf :: grouped e.words ++ s.words ++ elseWords t
  | .whileLoop _ e s => keyword .kwWhile :: grouped e.words ++ s.words
  | .forLoop _ a b c s =>
      keyword .kwFor :: grouped (Expr.optionWords a ++ symbol .semicolon :: Expr.optionWords b ++
        symbol .semicolon :: Expr.optionWords c) ++ s.words
  | .block _ ⟨_, ss⟩ => symbol .openBrace :: wordsList ss ++ [symbol .closeBrace]
  | .returnValue _ v => keyword .kwReturn :: Expr.optionWords v ++ [symbol .semicolon]
  | .breakLoop _ => [keyword .kwBreak, symbol .semicolon]
  | .declaration _ n e =>
      keyword .kwVar :: name n :: symbol .assign :: e.words ++ [symbol .semicolon]
  | .expression _ e => e.words ++ [symbol .semicolon]

def elseWords : Option Stmt → List Word
  | none => []
  | some s => keyword .kwElse :: s.words

def wordsList : List Stmt → List Word
  | [] => []
  | s :: ss => s.words ++ wordsList ss

end

end Stmt

def Formal.words (f : Formal) : List Word :=
  [Word.name f.typeName, Word.name f.name]

def Field.words (f : Field) : List Word :=
  Word.name f.typeName :: Word.name f.name ::
    (f.init.elim [] fun e => symbol .assign :: e.words) ++ [symbol .semicolon]

def Method.words (m : Method) : List Word :=
  Word.name m.returnType :: Word.name m.name :: grouped (separated (m.formals.items.map Formal.words)) ++
    symbol .openBrace :: Stmt.wordsList m.body.items ++ [symbol .closeBrace]

def Member.words : Member → List Word
  | .field f => f.words
  | .method m => m.words

def ClassDecl.words (c : ClassDecl) : List Word :=
  keyword .kwClass :: Word.name c.name ::
    (c.parent.elim [] fun p => [keyword .kwExtends, Word.name p]) ++
      symbol .openBrace :: c.members.items.flatMap Member.words ++ [symbol .closeBrace]

def Program.words (p : Program) : List Word :=
  p.classes.items.flatMap ClassDecl.words

def Program.print (p : Program) : String :=
  String.ofList (layout p.words)

namespace Word

def AllAdmitted (ws : List Word) : Prop :=
  ∀ w ∈ ws, w.Admitted

section Admitted

variable {w : Word} {ws vs : List Word}

@[simp] theorem allAdmitted_nil : AllAdmitted [] := by
  simp [AllAdmitted]

@[simp] theorem allAdmitted_cons : AllAdmitted (w :: ws) ↔ w.Admitted ∧ AllAdmitted ws := by
  simp [AllAdmitted]

@[simp] theorem allAdmitted_append :
    AllAdmitted (ws ++ vs) ↔ AllAdmitted ws ∧ AllAdmitted vs := by
  simp [AllAdmitted, or_imp, forall_and]

@[simp] theorem admitted_symbol (s : Symbol) : (symbol s).Admitted :=
  ⟨rfl, by simp [symbol]⟩

@[simp] theorem admitted_keyword (k : Keyword) : (keyword k).Admitted :=
  ⟨rfl, by simp [keyword]⟩

@[simp] theorem admitted_name {n : String} : (name n).Admitted ↔ isName n = true := by
  simp [Admitted, TokenKind.Admits, name]

@[simp] theorem admitted_integer (v : Int) : (integer v).Admitted := by
  refine ⟨?_, by simp [integer]⟩
  simp only [integer, TokenKind.Admits, String.toList_ofList]
  exact isDigits_toDigits _

@[simp] theorem admitted_boolean (b : Bool) : (boolean b).Admitted := by
  cases b <;> exact ⟨by simp [boolean, TokenKind.Admits], by simp [boolean]⟩

@[simp] theorem admitted_string (t : String) : (string t).Admitted :=
  ⟨trivial, by simp [string]⟩

@[simp] theorem allAdmitted_grouped : AllAdmitted (grouped ws) ↔ AllAdmitted ws := by
  simp [grouped]

theorem allAdmitted_separated {wss : List (List Word)} (h : ∀ ws ∈ wss, AllAdmitted ws) :
    AllAdmitted (separated wss) := by
  cases wss with
  | nil => simp [separated]
  | cons ws wss =>
      rw [separated, allAdmitted_append]
      refine ⟨h ws (by simp), ?_⟩
      intro w hw
      obtain ⟨vs, hvs, hw⟩ := List.mem_flatMap.1 hw
      rcases List.mem_cons.1 hw with rfl | hw
      · exact admitted_symbol _
      · exact h vs (by simp [hvs]) w hw

theorem wordKind_spelling (k : Keyword) : wordKind k.spelling = .keyword k := by
  cases k <;> decide

theorem allAdmitted_qualifier {q : Option String} (h : q.all isQualifier = true) :
    AllAdmitted (qualifier q) := by
  cases q with
  | none => simp [qualifier]
  | some word =>
      simp only [Option.all_some, isQualifier, Bool.or_eq_true, decide_eq_true_eq] at h
      obtain ⟨k, rfl⟩ : ∃ k : Keyword, word = k.spelling := by
        rcases h with h | h
        · exact ⟨_, h⟩
        · exact ⟨_, h⟩
      rw [qualifier, wordKind_spelling, allAdmitted_cons, allAdmitted_cons]
      exact ⟨admitted_keyword k, admitted_symbol _, allAdmitted_nil⟩

end Admitted

end Word

namespace Expr

mutual

theorem admitted_words : (e : Expr) → e.wellFormed = true → AllAdmitted e.words
  | .integer _ v, _ => by simp [words]
  | .boolean _ v, _ => by simp [words]
  | .string _ v, _ => by simp [words]
  | .var _ r n, h => by
      simp only [wellFormed, Bool.and_eq_true] at h
      have hq := allAdmitted_qualifier (all_isQualifier_of_isReference h.1)
      simp [words, hq, h.2]
  | .assign _ q n v, h => by
      simp only [wellFormed, Bool.and_eq_true] at h
      have hq := allAdmitted_qualifier h.1.1
      have hv := admitted_words v h.2
      simp [words, hq, h.1.2, hv]
  | .call _ r m ⟨_, es⟩, h => by
      simp only [wellFormed, Bool.and_eq_true] at h
      have hq := allAdmitted_qualifier (all_isQualifier_of_isReference h.1.1)
      have hes := allAdmitted_separated (admitted_wordsList es h.2)
      simp only [wordsList_eq_map] at hes
      simp [words, hq, h.1.2, hes]
  | .create _ n, h => by
      simp only [wellFormed] at h
      simp [words, h]
  | .cast _ target e, h => by
      simp only [wellFormed, Bool.and_eq_true] at h
      have he := admitted_words e h.2
      simp [words, h.1, he]
  | .binary _ op l r, h => by
      simp only [wellFormed, Bool.and_eq_true] at h
      have hl := admitted_words l h.1
      have hr := admitted_words r h.2
      simp [words, hl, hr]
  | .unary _ op e afterOperand, h => by
      simp only [wellFormed, Bool.and_eq_true] at h
      have he := admitted_words e h.2
      cases afterOperand <;> simp [words, he]

theorem admitted_wordsList : (es : List Expr) → wellFormedList es = true →
    ∀ ws ∈ wordsList es, AllAdmitted ws
  | [], _ => by simp
  | e :: es, h => by
      simp only [wellFormedList, Bool.and_eq_true] at h
      have he := admitted_words e h.1
      have hes := admitted_wordsList es h.2
      intro ws hws
      rw [wordsList] at hws
      rcases List.mem_cons.1 hws with rfl | hws
      · exact he
      · exact hes ws hws

end

theorem admitted_optionWords {v : Option Expr} (h : v.all wellFormed = true) :
    AllAdmitted (optionWords v) := by
  cases v with
  | none => simp [optionWords]
  | some e => exact admitted_words e h

end Expr

namespace Stmt

mutual

theorem admitted_words : (s : Stmt) → s.wellFormed = true → AllAdmitted s.words
  | .conditional _ e s t, h => by
      simp only [wellFormed, Bool.and_eq_true] at h
      have he := e.admitted_words h.1.1.1
      have hs := admitted_words s h.1.1.2
      have ht := admitted_elseWords t h.1.2
      simp [words, he, hs, ht]
  | .whileLoop _ e s, h => by
      simp only [wellFormed, Bool.and_eq_true] at h
      have he := e.admitted_words h.1
      have hs := admitted_words s h.2
      simp [words, he, hs]
  | .forLoop _ a b c s, h => by
      simp only [wellFormed, Bool.and_eq_true] at h
      have ha := Expr.admitted_optionWords h.1.1.1
      have hb := Expr.admitted_optionWords h.1.1.2
      have hc := Expr.admitted_optionWords h.1.2
      have hs := admitted_words s h.2
      simp [words, ha, hb, hc, hs]
  | .block _ ⟨_, ss⟩, h => by
      rw [wellFormed] at h
      have hss := admitted_wordsList ss h
      simp [words, hss]
  | .returnValue _ v, h => by
      rw [wellFormed] at h
      have hv := Expr.admitted_optionWords h
      simp [words, hv]
  | .breakLoop _, _ => by simp [words]
  | .declaration _ n e, h => by
      simp only [wellFormed, Bool.and_eq_true] at h
      have he := e.admitted_words h.2
      simp [words, h.1, he]
  | .expression _ e, h => by
      rw [wellFormed] at h
      have he := e.admitted_words h
      simp [words, he]

theorem admitted_elseWords : (s : Option Stmt) → wellFormedOption s = true →
    AllAdmitted (elseWords s)
  | none, _ => by simp [elseWords]
  | some s, h => by
      rw [wellFormedOption] at h
      have hs := admitted_words s h
      simp [elseWords, hs]

theorem admitted_wordsList : (ss : List Stmt) → wellFormedList ss = true →
    AllAdmitted (wordsList ss)
  | [], _ => by simp [wordsList]
  | s :: ss, h => by
      simp only [wellFormedList, Bool.and_eq_true] at h
      have hs := admitted_words s h.1
      have hss := admitted_wordsList ss h.2
      simp [wordsList, hs, hss]

end

end Stmt

theorem Formal.admitted_words {f : Formal} (h : f.wellFormed = true) : AllAdmitted f.words := by
  simp only [Formal.wellFormed, Bool.and_eq_true] at h
  simp [Formal.words, h]

theorem Field.admitted_words {f : Field} (h : f.wellFormed = true) : AllAdmitted f.words := by
  simp only [Field.wellFormed, Bool.and_eq_true] at h
  cases hinit : f.init with
  | none => simp [Field.words, hinit, h.1]
  | some e =>
      rw [hinit] at h
      have he := e.admitted_words h.2
      simp [Field.words, hinit, h.1, he]

theorem Method.admitted_words {m : Method} (h : m.wellFormed = true) : AllAdmitted m.words := by
  simp only [Method.wellFormed, Bool.and_eq_true, List.all_eq_true] at h
  have hformals : AllAdmitted (separated (m.formals.items.map Formal.words)) := by
    refine allAdmitted_separated ?_
    intro ws hws
    obtain ⟨f, hf, rfl⟩ := List.mem_map.1 hws
    exact Formal.admitted_words (h.1.2 f hf)
  have hbody := Stmt.admitted_wordsList m.body.items (by simpa using h.2)
  simp [Method.words, h.1.1, hformals, hbody]

theorem Member.admitted_words {m : Member} (h : m.wellFormed = true) : AllAdmitted m.words := by
  cases m with
  | field f => exact Field.admitted_words h
  | method m => exact Method.admitted_words h

theorem ClassDecl.admitted_words {c : ClassDecl} (h : c.wellFormed = true) :
    AllAdmitted c.words := by
  simp only [ClassDecl.wellFormed, Bool.and_eq_true, List.all_eq_true] at h
  have hmembers : AllAdmitted (c.members.items.flatMap Member.words) := by
    intro w hw
    obtain ⟨m, hm, hw⟩ := List.mem_flatMap.1 hw
    exact Member.admitted_words (h.2 m hm) w hw
  cases hparent : c.parent with
  | none => simp [ClassDecl.words, hparent, h.1.1, hmembers]
  | some p =>
      have hp := h.1.2
      rw [hparent, Option.all_some] at hp
      simp [ClassDecl.words, hparent, h.1.1, hp, hmembers]

theorem Program.admitted_words {p : Program} (h : p.wellFormed = true) : AllAdmitted p.words := by
  simp only [Program.wellFormed, List.all_eq_true] at h
  intro w hw
  obtain ⟨c, hc, hw⟩ := List.mem_flatMap.1 hw
  exact ClassDecl.admitted_words (h c hc) w hw

end ClassLang
