import ClassLang.Diagnostic.Basic
import ClassLang.Proofs.Syntax.Unplaced
import ClassLang.Token.Stream
/-!
Everything that has positions, with other positions: a function of positions is applied to all of
them, and nothing else is changed. Main statement: a program and what it becomes differ in their
positions only (`Program.unplaced_relocate`).
-/

namespace ClassLang

variable (φ : Position → Position)

def Span.relocate (s : Span) : Span :=
  ⟨φ s.start, φ s.stop⟩

def Token.relocate (t : Token) : Token :=
  { t with span := t.span.relocate φ }

def EndMark.relocate (mark : EndMark) : EndMark :=
  { mark with span := mark.span.relocate φ }

def Diagnostic.relocate (d : Diagnostic) : Diagnostic :=
  { d with position := φ d.position }

def NodeList.relocate {α : Type} (f : α → α) (l : NodeList α) : NodeList α :=
  ⟨φ l.position, l.items.map f⟩

namespace Token

variable (t : Token)

@[simp] theorem kind_relocate : (t.relocate φ).kind = t.kind := rfl

@[simp] theorem value_relocate : (t.relocate φ).value = t.value := rfl

@[simp] theorem position_relocate : (t.relocate φ).position = φ t.position := rfl

end Token

namespace TokenStream

def relocate (s : TokenStream) : TokenStream :=
  ⟨s.pending.map (Token.relocate φ), s.endMark.relocate φ⟩

@[simp] theorem current_relocate (s : TokenStream) :
    (s.relocate φ).current = s.current.relocate φ := by
  obtain ⟨pending, mark⟩ := s
  cases pending <;> rfl

@[simp] theorem advance_relocate (s : TokenStream) :
    (s.relocate φ).advance = s.advance.relocate φ := by
  obtain ⟨pending, mark⟩ := s
  cases pending <;> rfl

@[simp] theorem length_pending_relocate (s : TokenStream) :
    (s.relocate φ).pending.length = s.pending.length :=
  List.length_map _

theorem markAfter_relocate (last : Token) (file : String) :
    ofTokens.markAfter file (some (last.relocate φ)) =
      (ofTokens.markAfter file (some last)).relocate φ := by
  obtain ⟨kind, value, span⟩ := last
  cases kind <;> rfl

theorem ofTokens_map_relocate {ts : List Token} (hts : ts ≠ []) (file : String) :
    ofTokens (ts.map (Token.relocate φ)) file = (ofTokens ts file).relocate φ := by
  rw [ofTokens, ofTokens, relocate, List.getLast?_map, List.getLast?_eq_some_getLast hts,
    Option.map_some, markAfter_relocate]

theorem ofTokens_eq_of_ne_nil {ts : List Token} (hts : ts ≠ []) (file file' : String) :
    ofTokens ts file = ofTokens ts file' := by
  rw [ofTokens, ofTokens, List.getLast?_eq_some_getLast hts]
  rfl

end TokenStream

namespace Expr

mutual

def relocate : Expr → Expr
  | .integer p v => .integer (φ p) v
  | .boolean p v => .boolean (φ p) v
  | .string p v => .string (φ p) v
  | .var p r name => .var (φ p) (relocateOption r) name
  | .assign p q name v => .assign (φ p) q name v.relocate
  | .call p r m ⟨q, es⟩ => .call (φ p) (relocateOption r) m ⟨φ q, relocateList es⟩
  | .create p name => .create (φ p) name
  | .cast p target e => .cast (φ p) target e.relocate
  | .binary p op l r => .binary (φ p) op l.relocate r.relocate
  | .unary p op e a => .unary (φ p) op e.relocate a

def relocateOption : Option Expr → Option Expr
  | none => none
  | some e => some e.relocate

def relocateList : List Expr → List Expr
  | [] => []
  | e :: es => e.relocate :: relocateList es

end

@[simp] theorem relocateOption_eq_map (v : Option Expr) :
    relocateOption φ v = v.map (relocate φ) := by
  cases v <;> simp [relocateOption]

@[simp] theorem relocateList_eq_map (es : List Expr) : relocateList φ es = es.map (relocate φ) := by
  induction es with
  | nil => simp [relocateList]
  | cons e es ih => simp [relocateList, ih]

@[simp] theorem varName?_relocate (e : Expr) : (e.relocate φ).varName? = e.varName? := by
  cases e <;> simp [relocate, varName?]

mutual

theorem unplaced_relocate : (e : Expr) → (e.relocate φ).unplaced = e.unplaced
  | .integer .. => rfl
  | .boolean .. => rfl
  | .string .. => rfl
  | .var _ r _ => by
      simp only [relocate, unplaced]
      rw [unplaced_relocateOption r]
  | .assign _ _ _ v => by
      simp only [relocate, unplaced]
      rw [unplaced_relocate v]
  | .call _ r _ ⟨_, es⟩ => by
      simp only [relocate, unplaced]
      rw [unplaced_relocateOption r, unplaced_relocateList es]
  | .create .. => rfl
  | .cast _ _ e => by
      simp only [relocate, unplaced]
      rw [unplaced_relocate e]
  | .binary _ _ l r => by
      simp only [relocate, unplaced]
      rw [unplaced_relocate l, unplaced_relocate r]
  | .unary _ _ e _ => by
      simp only [relocate, unplaced]
      rw [unplaced_relocate e]

theorem unplaced_relocateOption : (v : Option Expr) →
    unplacedOption (relocateOption φ v) = unplacedOption v
  | none => rfl
  | some e => by
      simp only [relocateOption, unplacedOption]
      rw [unplaced_relocate e]

theorem unplaced_relocateList : (es : List Expr) →
    unplacedList (relocateList φ es) = unplacedList es
  | [] => rfl
  | e :: es => by
      simp only [relocateList, unplacedList]
      rw [unplaced_relocate e, unplaced_relocateList es]

end

@[simp] theorem map_unplaced_relocate (v : Option Expr) :
    (v.map (relocate φ)).map unplaced = v.map unplaced := by
  cases v <;> simp [unplaced_relocate]

end Expr

namespace Stmt

mutual

def relocate : Stmt → Stmt
  | .conditional p e s t => .conditional (φ p) (e.relocate φ) s.relocate (relocateOption t)
  | .whileLoop p e s => .whileLoop (φ p) (e.relocate φ) s.relocate
  | .forLoop p a b c s =>
      .forLoop (φ p) (a.map (Expr.relocate φ)) (b.map (Expr.relocate φ)) (c.map (Expr.relocate φ))
        s.relocate
  | .block p ⟨q, ss⟩ => .block (φ p) ⟨φ q, relocateList ss⟩
  | .returnValue p v => .returnValue (φ p) (v.map (Expr.relocate φ))
  | .breakLoop p => .breakLoop (φ p)
  | .declaration p name e => .declaration (φ p) name (e.relocate φ)
  | .expression p e => .expression (φ p) (e.relocate φ)

def relocateOption : Option Stmt → Option Stmt
  | none => none
  | some s => some s.relocate

def relocateList : List Stmt → List Stmt
  | [] => []
  | s :: ss => s.relocate :: relocateList ss

end

@[simp] theorem relocateOption_eq_map (v : Option Stmt) :
    relocateOption φ v = v.map (relocate φ) := by
  cases v <;> simp [relocateOption]

@[simp] theorem relocateList_eq_map (ss : List Stmt) : relocateList φ ss = ss.map (relocate φ) := by
  induction ss with
  | nil => simp [relocateList]
  | cons s ss ih => simp [relocateList, ih]

mutual

theorem unplaced_relocate : (s : Stmt) → (s.relocate φ).unplaced = s.unplaced
  | .conditional _ e s t => by
      simp only [relocate, unplaced]
      rw [e.unplaced_relocate, unplaced_relocate s, unplaced_relocateOption t]
  | .whileLoop _ e s => by
      simp only [relocate, unplaced]
      rw [e.unplaced_relocate, unplaced_relocate s]
  | .forLoop _ a b c s => by
      simp only [relocate, unplaced]
      rw [Expr.map_unplaced_relocate, Expr.map_unplaced_relocate, Expr.map_unplaced_relocate,
        unplaced_relocate s]
  | .block _ ⟨_, ss⟩ => by
      simp only [relocate, unplaced]
      rw [unplaced_relocateList ss]
  | .returnValue _ v => by
      simp only [relocate, unplaced]
      rw [Expr.map_unplaced_relocate]
  | .breakLoop _ => rfl
  | .declaration _ _ e => by
      simp only [relocate, unplaced]
      rw [e.unplaced_relocate]
  | .expression _ e => by
      simp only [relocate, unplaced]
      rw [e.unplaced_relocate]

theorem unplaced_relocateOption : (v : Option Stmt) →
    unplacedOption (relocateOption φ v) = unplacedOption v
  | none => rfl
  | some s => by
      simp only [relocateOption, unplacedOption]
      rw [unplaced_relocate s]

theorem unplaced_relocateList : (ss : List Stmt) →
    unplacedList (relocateList φ ss) = unplacedList ss
  | [] => rfl
  | s :: ss => by
      simp only [relocateList, unplacedList]
      rw [unplaced_relocate s, unplaced_relocateList ss]

end

end Stmt

def Formal.relocate (f : Formal) : Formal :=
  { f with position := φ f.position }

def Field.relocate (f : Field) : Field :=
  { f with position := φ f.position, init := f.init.map (Expr.relocate φ) }

def Method.relocate (m : Method) : Method :=
  { m with
    position := φ m.position
    formals := m.formals.relocate φ (Formal.relocate φ)
    body := m.body.relocate φ (Stmt.relocate φ) }

def Member.relocate : Member → Member
  | .field f => .field (f.relocate φ)
  | .method m => .method (m.relocate φ)

def ClassDecl.relocate (c : ClassDecl) : ClassDecl :=
  { c with
    position := φ c.position
    members := c.members.relocate φ (Member.relocate φ) }

def Program.relocate (p : Program) : Program :=
  ⟨φ p.position, p.classes.relocate φ (ClassDecl.relocate φ)⟩

theorem NodeList.unplacedWith_relocate {α : Type} {f g : α → α} (h : ∀ x, g (f x) = g x)
    (l : NodeList α) : (l.relocate φ f).unplacedWith g = l.unplacedWith g := by
  simp [NodeList.unplacedWith, NodeList.relocate, h]

theorem Member.unplaced_relocate (m : Member) : (m.relocate φ).unplaced = m.unplaced := by
  cases m with
  | field f =>
      simp only [Member.relocate, Member.unplaced, Field.relocate, Field.unplaced,
        Expr.map_unplaced_relocate]
  | method m =>
      have hformal : ∀ f : Formal, (f.relocate φ).unplaced = f.unplaced := fun _ => rfl
      simp only [Member.relocate, Member.unplaced, Method.relocate, Method.unplaced,
        NodeList.unplacedWith_relocate φ hformal,
        NodeList.unplacedWith_relocate φ (Stmt.unplaced_relocate φ)]

theorem Program.unplaced_relocate (p : Program) : (p.relocate φ).unplaced = p.unplaced := by
  have hmembers := NodeList.unplacedWith_relocate φ (Member.unplaced_relocate φ)
  have hclass : ∀ c : ClassDecl, (c.relocate φ).unplaced = c.unplaced := by
    intro c
    simp only [ClassDecl.relocate, ClassDecl.unplaced, hmembers]
  have hclasses := NodeList.unplacedWith_relocate φ hclass
  simp only [Program.relocate, Program.unplaced, hclasses]

end ClassLang
