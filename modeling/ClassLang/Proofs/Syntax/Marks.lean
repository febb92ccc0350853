import ClassLang.Proofs.Syntax.Listing
import ClassLang.Token.Basic
import Mathlib
/-!
Marks: what is left of words and equal signs in a tree. A token has a mark at most, and a node has
those of the tokens that it alone was read from. Main statements: the marks of a kind that a tree
has are those of its root and of the trees below it (`Node.written_eq`), and they are the nodes of
certain kinds (`Node.written_eq_sum`).
-/

namespace ClassLang

inductive Mark where
  | word (k : Keyword)
  | assign
  /-- One of the two words that stand for an object. -/
  | reference
  deriving DecidableEq, Repr

def TokenKind.mark? : TokenKind → Option Mark
  | .keyword .kwThis => some .reference
  | .keyword .kwSuper => some .reference
  | .keyword k => some (.word k)
  | .symbol .assign => some .assign
  | _ => none

/-- How many of the tokens have the mark. -/
def markCount (m : Mark) (ts : List Token) : Nat :=
  ts.countP fun t => t.kind.mark? = some m

@[simp] theorem markCount_nil (m : Mark) : markCount m [] = 0 := rfl

theorem markCount_cons (m : Mark) (t : Token) (ts : List Token) :
    markCount m (t :: ts) = markCount m ts + if t.kind.mark? = some m then 1 else 0 := by
  simp [markCount, List.countP_cons]

theorem markCount_append (m : Mark) (ts us : List Token) :
    markCount m (ts ++ us) = markCount m ts + markCount m us :=
  List.countP_append

/-- How many of the tokens are of the kind. -/
def kindCount (kind : TokenKind) (ts : List Token) : Nat :=
  ts.countP fun t => t.kind = kind

theorem mark?_eq_word_iff {kind : TokenKind} {k : Keyword}
    (h : (TokenKind.keyword k).mark? = some (.word k)) :
    kind.mark? = some (.word k) ↔ kind = .keyword k := by
  constructor
  · intro hmark
    cases kind with
    | keyword k' => cases k' <;> cases hmark <;> rfl
    | symbol s => cases s <;> cases hmark
    | _ => cases hmark
  · rintro rfl
    exact h

theorem mark?_eq_assign_iff {kind : TokenKind} :
    kind.mark? = some .assign ↔ kind = .symbol .assign := by
  constructor
  · intro hmark
    cases kind with
    | keyword k => cases k <;> cases hmark
    | symbol s => cases s <;> cases hmark; rfl
    | _ => cases hmark
  · rintro rfl
    rfl

theorem mark?_eq_reference_iff {kind : TokenKind} :
    kind.mark? = some .reference ↔ kind = .keyword .kwThis ∨ kind = .keyword .kwSuper := by
  constructor
  · intro hmark
    cases kind with
    | keyword k => cases k <;> cases hmark <;> simp
    | symbol s => cases s <;> cases hmark
    | _ => cases hmark
  · rintro (rfl | rfl) <;> rfl

theorem markCount_eq_kindCount {m : Mark} {kind : TokenKind}
    (h : ∀ {kind' : TokenKind}, kind'.mark? = some m ↔ kind' = kind) (ts : List Token) :
    markCount m ts = kindCount kind ts := by
  refine List.countP_congr fun t _ => ?_
  rw [decide_eq_true_iff, decide_eq_true_iff, h]

theorem markCount_reference (ts : List Token) :
    markCount .reference ts =
      kindCount (.keyword .kwThis) ts + kindCount (.keyword .kwSuper) ts := by
  induction ts with
  | nil => rfl
  | cons t ts ih =>
      rw [markCount_cons, ih, kindCount, kindCount, kindCount, kindCount, List.countP_cons,
        List.countP_cons]
      simp only [mark?_eq_reference_iff, decide_eq_true_iff]
      by_cases hthis : t.kind = .keyword .kwThis
      · simp [hthis, Nat.add_right_comm]
      · simp [hthis, Nat.add_assoc]

/-- The mark of something that may be missing. -/
def Mark.given {α : Type} (m : Mark) (o : Option α) : List Mark :=
  if o.isSome then [m] else []

@[simp] theorem Mark.count_given {α : Type} (m m' : Mark) (o : Option α) :
    (m.given o).count m' = if o.isSome ∧ m = m' then 1 else 0 := by
  rw [given]
  cases o.isSome <;> simp [List.count_cons]

def Stmt.marks : Stmt → List Mark
  | .conditional _ _ _ t => .word .kwIf :: Mark.given (.word .kwElse) t
  | .whileLoop .. => [.word .kwWhile]
  | .forLoop .. => [.word .kwFor]
  | .block .. => []
  | .returnValue .. => [.word .kwReturn]
  | .breakLoop .. => [.word .kwBreak]
  | .declaration .. => [.word .kwVar, .assign]
  | .expression .. => []

def Expr.marks : Expr → List Mark
  | .var _ r _ => Mark.given .reference r
  | .assign _ q _ _ => .assign :: Mark.given .reference q
  | .call _ r _ _ => Mark.given .reference r
  | .create .. => [.word .kwNew]
  | .cast .. => [.word .kwCast]
  | _ => []

namespace Node

def marks : Node → List Mark
  | .program _ => []
  | .classDecl c => .word .kwClass :: Mark.given (.word .kwExtends) c.parent
  | .field f => Mark.given .assign f.init
  | .method _ => []
  | .formal _ => []
  | .stmt s => s.marks
  | .expr e => e.marks

/-- A node and all nodes below it. -/
def nodes (n : Node) : List Node :=
  n :: n.children.attach.flatMap fun c => c.1.nodes
termination_by sizeOf n
decreasing_by exact sizeOf_lt_of_mem_children c.2

theorem nodes_eq (n : Node) : n.nodes = n :: n.children.flatMap nodes := by
  rw [nodes, List.flatMap_subtype (g := nodes) (fun _ _ => rfl), List.unattach_attach]

/-- How often a tree has the mark. -/
def written (m : Mark) (n : Node) : Nat :=
  (n.nodes.flatMap marks).count m

theorem written_eq (m : Mark) (n : Node) :
    n.written m = n.marks.count m + (n.children.map (written m)).sum := by
  rw [written, nodes_eq, List.flatMap_cons, List.count_append, List.flatMap_assoc,
    List.count_flatMap]
  rfl

theorem written_expr (m : Mark) (e : Expr) :
    (expr e).written m = e.marks.count m + (e.children.map (written m)).sum :=
  written_eq m (.expr e)

theorem written_stmt (m : Mark) (s : Stmt) :
    (stmt s).written m = s.marks.count m + (s.children.map (written m)).sum :=
  written_eq m (.stmt s)

section Properties

def hasParent : Node → Bool
  | .classDecl c => c.parent.isSome
  | _ => false

def hasInit : Node → Bool
  | .field f => f.init.isSome
  | _ => false

def hasElse : Node → Bool
  | .stmt (.conditional _ _ _ t) => t.isSome
  | _ => false

def isQualifiedVar : Node → Bool
  | .expr (.var _ r _) => r.isSome
  | _ => false

def isQualifiedAssign : Node → Bool
  | .expr (.assign _ q _ _) => q.isSome
  | _ => false

def hasReceiver : Node → Bool
  | .expr (.call _ r _ _) => r.isSome
  | _ => false

def isOf (kind : NodeKind) (n : Node) : Bool :=
  n.kind = kind

end Properties

/-- Words, each with the kind of the nodes that have it, once each. -/
def wordKinds : List (Keyword × NodeKind) :=
  [(.kwClass, .classDecl), (.kwIf, .conditional), (.kwWhile, .whileLoop), (.kwFor, .forLoop),
    (.kwReturn, .returnValue), (.kwBreak, .breakLoop), (.kwVar, .declaration), (.kwNew, .create),
    (.kwCast, .cast)]

theorem mark?_of_mem_wordKinds :
    ∀ e ∈ wordKinds, (TokenKind.keyword e.1).mark? = some (.word e.1) := by
  decide

theorem count_word_marks {k : Keyword} {kind : NodeKind} (h : (k, kind) ∈ wordKinds) (n : Node) :
    n.marks.count (.word k) = (isOf kind n).toNat := by
  simp only [wordKinds, List.mem_cons, Prod.mk.injEq, List.not_mem_nil, or_false] at h
  rcases h with ⟨rfl, rfl⟩ | ⟨rfl, rfl⟩ | ⟨rfl, rfl⟩ | ⟨rfl, rfl⟩ | ⟨rfl, rfl⟩ | ⟨rfl, rfl⟩ |
    ⟨rfl, rfl⟩ | ⟨rfl, rfl⟩ | ⟨rfl, rfl⟩
  all_goals
    cases n with
    | stmt s => cases s <;> simp [marks, Stmt.marks, isOf, kind, Stmt.kind]
    | expr e => cases e <;> simp [marks, Expr.marks, isOf, kind, Expr.kind]
    | _ => simp [marks, isOf, kind]

theorem count_extends_marks (n : Node) :
    n.marks.count (.word .kwExtends) = (hasParent n).toNat := by
  cases n with
  | stmt s => cases s <;> simp [marks, Stmt.marks, hasParent]
  | expr e => cases e <;> simp [marks, Expr.marks, hasParent]
  | classDecl c => cases h : c.parent <;> simp [marks, hasParent, h]
  | _ => simp [marks, hasParent]

theorem count_else_marks (n : Node) :
    n.marks.count (.word .kwElse) = (hasElse n).toNat := by
  cases n with
  | stmt s =>
      cases s with
      | conditional p e s t => cases t <;> simp [marks, Stmt.marks, hasElse]
      | _ => simp [marks, Stmt.marks, hasElse]
  | expr e => cases e <;> simp [marks, Expr.marks, hasElse]
  | _ => simp [marks, hasElse]

theorem count_assign_marks (n : Node) :
    n.marks.count .assign =
      (hasInit n).toNat + ((isOf .declaration n).toNat + (isOf .assign n).toNat) := by
  cases n with
  | stmt s => cases s <;> simp [marks, Stmt.marks, hasInit, isOf, kind, Stmt.kind]
  | expr e => cases e <;> simp [marks, Expr.marks, hasInit, isOf, kind, Expr.kind]
  | field f => cases h : f.init <;> simp [marks, hasInit, isOf, kind, h]
  | _ => simp [marks, hasInit, isOf, kind]

theorem count_reference_marks (n : Node) :
    n.marks.count .reference =
      (isQualifiedVar n).toNat + ((isQualifiedAssign n).toNat + (hasReceiver n).toNat) := by
  cases n with
  | stmt s => cases s <;> simp [marks, Stmt.marks, isQualifiedVar, isQualifiedAssign, hasReceiver]
  | expr e =>
      cases e with
      | var p r name =>
          cases r <;> simp [marks, Expr.marks, isQualifiedVar, isQualifiedAssign, hasReceiver]
      | assign p q name v =>
          cases q <;> simp [marks, Expr.marks, isQualifiedVar, isQualifiedAssign, hasReceiver]
      | call p r name l =>
          cases r <;> simp [marks, Expr.marks, isQualifiedVar, isQualifiedAssign, hasReceiver]
      | _ => simp [marks, Expr.marks, isQualifiedVar, isQualifiedAssign, hasReceiver]
  | _ => simp [marks, isQualifiedVar, isQualifiedAssign, hasReceiver]

variable {m : Mark} {p q r : Node → Bool}

/-- A mark that the nodes with a property have, once each. -/
theorem written_eq_countP (h : ∀ n : Node, n.marks.count m = (p n).toNat) (n : Node) :
    n.written m = n.nodes.countP p := by
  rw [written]
  induction n.nodes with
  | nil => rfl
  | cons a ns ih =>
      rw [List.flatMap_cons, List.count_append, ih, h, List.countP_cons]
      cases p a <;> simp [Nat.add_comm]

theorem written_eq_countP_add
    (h : ∀ n : Node, n.marks.count m = (p n).toNat + ((q n).toNat + (r n).toNat)) (n : Node) :
    n.written m = n.nodes.countP p + (n.nodes.countP q + n.nodes.countP r) := by
  rw [written]
  induction n.nodes with
  | nil => rfl
  | cons a ns ih =>
      rw [List.flatMap_cons, List.count_append, ih, h]
      simp only [List.countP_cons]
      cases p a <;> cases q a <;> cases r a <;> simp <;> omega

/-- The nodes that may stand in a class. -/
def isInner : Node → Bool
  | .program _ => false
  | .classDecl _ => false
  | _ => true

theorem isInner_of_mem_children {n c : Node} (hn : n.isInner = true) (hc : c ∈ n.children) :
    c.isInner = true := by
  cases n with
  | program p => cases hn
  | classDecl d => cases hn
  | field f =>
      obtain ⟨e, -, rfl⟩ := List.mem_map.1 hc
      rfl
  | method m =>
      rw [children, List.mem_append, List.mem_map, List.mem_map] at hc
      rcases hc with ⟨f, -, rfl⟩ | ⟨s, -, rfl⟩ <;> rfl
  | formal f => cases hc
  | stmt s =>
      rw [children] at hc
      cases s with
      | conditional p e s t => cases t <;> grind [Stmt.children, isInner]
      | _ => grind [Stmt.children, isInner]
  | expr e =>
      rw [children] at hc
      cases e <;> grind [Expr.children, isInner]

theorem isInner_of_mem_nodes {n d : Node} (hn : n.isInner = true) (hd : d ∈ n.nodes) :
    d.isInner = true := by
  induction n using induction_of_children with
  | h n ih =>
      rw [nodes_eq, List.mem_cons, List.mem_flatMap] at hd
      rcases hd with rfl | ⟨c, hc, hd⟩
      · exact hn
      · exact ih c hc (isInner_of_mem_children hn hc) hd

/-- Classes stand in programs only. -/
theorem written_class_eq_zero {n : Node} (hn : n.isInner = true) :
    n.written (.word .kwClass) = 0 := by
  have hclass : (Keyword.kwClass, NodeKind.classDecl) ∈ wordKinds := by decide
  rw [written_eq_countP (count_word_marks hclass), List.countP_eq_zero]
  intro d hd hclass
  have hinner := isInner_of_mem_nodes hn hd
  cases d with
  | classDecl c => cases hinner
  | stmt s => cases s <;> cases hclass
  | expr e => cases e <;> cases hclass
  | _ => cases hclass

theorem written_class (c : ClassDecl) : (classDecl c).written (.word .kwClass) = 1 := by
  have hmembers : (((classDecl c).children).map (written (.word .kwClass))).sum = 0 := by
    rw [List.sum_eq_zero_iff_forall_eq_nat]
    intro x hx
    obtain ⟨n, hn, rfl⟩ := List.mem_map.1 hx
    obtain ⟨m, -, rfl⟩ := List.mem_map.1 hn
    cases m <;> exact written_class_eq_zero rfl
  rw [written_eq, hmembers]
  simp [marks]

theorem written_program_class (p : Program) :
    (program p).written (.word .kwClass) = p.classes.items.length := by
  rw [written_eq, children, List.map_map]
  have hone : (written (.word .kwClass) ∘ classDecl) = fun _ => 1 := funext written_class
  rw [hone]
  simp [marks]

end Node

end ClassLang
