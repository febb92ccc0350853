import ClassLang.Syntax.Node
import Mathlib.Data.List.Nodup
/-!
Listings of trees. The place of a node below another is the path that leads to it, a list of the
numbers of the children to turn to. A node that is closed has no places below it. Main statements:
the order of the places leaves one listing of the nodes at them (`Lists.eq`), and a listing of what
is below a node becomes one of the node, with the node itself ahead or behind (`Lists.of_open`).
-/

namespace ClassLang

section Size

theorem Option.sizeOf_lt_of_mem {α : Type} [SizeOf α] {o : Option α} {x : α} (h : x ∈ o) :
    sizeOf x < sizeOf o := by
  cases h
  simp

theorem NodeList.sizeOf_lt_of_mem {α : Type} [SizeOf α] {l : NodeList α} {x : α}
    (h : x ∈ l.items) : sizeOf x < sizeOf l := by
  have hitems := List.sizeOf_lt_of_mem h
  obtain ⟨p, items⟩ := l
  simp only [NodeList.mk.sizeOf_spec]
  simp only at hitems
  omega

end Size

namespace Node

theorem sizeOf_lt_of_mem_expr {e : Expr} {c : Node} (h : c ∈ e.children) :
    sizeOf c < sizeOf (expr e) := by
  cases e with
  | var p r name =>
      obtain ⟨f, hf, rfl⟩ := List.mem_map.1 h
      have hlt := Option.sizeOf_lt_of_mem (Option.mem_toList.1 hf)
      simp only [expr.sizeOf_spec, Expr.var.sizeOf_spec]
      omega
  | call p r name l =>
      obtain ⟨f, hf, rfl⟩ := List.mem_map.1 h
      simp only [expr.sizeOf_spec, Expr.call.sizeOf_spec]
      rcases List.mem_append.1 hf with hf | hf
      · have hlt := Option.sizeOf_lt_of_mem (Option.mem_toList.1 hf)
        omega
      · have hlt := NodeList.sizeOf_lt_of_mem hf
        omega
  | binary p op l r =>
      simp only [Expr.children, List.mem_cons, List.not_mem_nil, or_false] at h
      simp only [expr.sizeOf_spec, Expr.binary.sizeOf_spec]
      rcases h with rfl | rfl <;> simp only [expr.sizeOf_spec] <;> omega
  | integer => cases h
  | boolean => cases h
  | string => cases h
  | create => cases h
  | _ =>
      cases List.mem_singleton.1 h
      simp only [expr.sizeOf_spec, Expr.assign.sizeOf_spec, Expr.cast.sizeOf_spec,
        Expr.unary.sizeOf_spec]
      omega

theorem sizeOf_lt_of_mem_stmt {s : Stmt} {c : Node} (h : c ∈ s.children) :
    sizeOf c < sizeOf (stmt s) := by
  cases s with
  | conditional p e s t =>
      simp only [stmt.sizeOf_spec, Stmt.conditional.sizeOf_spec]
      cases t <;>
        simp only [Stmt.children, List.mem_cons, List.not_mem_nil, or_false] at h
      · rcases h with rfl | rfl <;> simp only [expr.sizeOf_spec, stmt.sizeOf_spec] <;> omega
      · rcases h with rfl | rfl | rfl <;>
          simp only [expr.sizeOf_spec, stmt.sizeOf_spec, Option.some.sizeOf_spec] <;> omega
  | whileLoop p e s =>
      simp only [Stmt.children, List.mem_cons, List.not_mem_nil, or_false] at h
      simp only [stmt.sizeOf_spec, Stmt.whileLoop.sizeOf_spec]
      rcases h with rfl | rfl <;> simp only [expr.sizeOf_spec, stmt.sizeOf_spec] <;> omega
  | forLoop p a b c s =>
      rcases List.mem_append.1 h with h | h
      · obtain ⟨f, hf, rfl⟩ := List.mem_map.1 h
        simp only [expr.sizeOf_spec, stmt.sizeOf_spec, Stmt.forLoop.sizeOf_spec]
        simp only [List.mem_append, Option.mem_toList] at hf
        rcases hf with (hf | hf) | hf
        all_goals
          have hlt := Option.sizeOf_lt_of_mem hf
          omega
      · cases List.mem_singleton.1 h
        simp only [stmt.sizeOf_spec, Stmt.forLoop.sizeOf_spec]
        omega
  | block p l =>
      obtain ⟨f, hf, rfl⟩ := List.mem_map.1 h
      have hlt := NodeList.sizeOf_lt_of_mem hf
      simp only [stmt.sizeOf_spec, Stmt.block.sizeOf_spec]
      omega
  | returnValue p v =>
      obtain ⟨f, hf, rfl⟩ := List.mem_map.1 h
      have hlt := Option.sizeOf_lt_of_mem (Option.mem_toList.1 hf)
      simp only [expr.sizeOf_spec, stmt.sizeOf_spec, Stmt.returnValue.sizeOf_spec]
      omega
  | breakLoop p => cases h
  | _ =>
      cases List.mem_singleton.1 h
      simp only [expr.sizeOf_spec, stmt.sizeOf_spec, Stmt.declaration.sizeOf_spec,
        Stmt.expression.sizeOf_spec]
      omega

theorem sizeOf_lt_of_mem_children {n c : Node} (h : c ∈ n.children) : sizeOf c < sizeOf n := by
  cases n with
  | program p =>
      obtain ⟨d, hd, rfl⟩ := List.mem_map.1 h
      have hlt := NodeList.sizeOf_lt_of_mem hd
      obtain ⟨q, l⟩ := p
      simp only [classDecl.sizeOf_spec, program.sizeOf_spec, Program.mk.sizeOf_spec] at hlt ⊢
      omega
  | classDecl d =>
      obtain ⟨m, hm, rfl⟩ := List.mem_map.1 h
      have hlt := NodeList.sizeOf_lt_of_mem hm
      obtain ⟨_, _, _, _, l⟩ := d
      cases m <;>
        simp only [Member.node, field.sizeOf_spec, method.sizeOf_spec, Member.field.sizeOf_spec,
          Member.method.sizeOf_spec, classDecl.sizeOf_spec, ClassDecl.mk.sizeOf_spec] at hlt ⊢ <;>
        omega
  | field f =>
      obtain ⟨e, he, rfl⟩ := List.mem_map.1 h
      have hlt := Option.sizeOf_lt_of_mem (Option.mem_toList.1 he)
      obtain ⟨_, _, _, v⟩ := f
      simp only [expr.sizeOf_spec, field.sizeOf_spec, Field.mk.sizeOf_spec] at hlt ⊢
      omega
  | method m =>
      obtain ⟨_, _, _, fs, ss⟩ := m
      rcases List.mem_append.1 h with h | h
      · obtain ⟨f, hf, rfl⟩ := List.mem_map.1 h
        have hlt := NodeList.sizeOf_lt_of_mem hf
        simp only [formal.sizeOf_spec, method.sizeOf_spec, Method.mk.sizeOf_spec] at hlt ⊢
        omega
      · obtain ⟨s, hs, rfl⟩ := List.mem_map.1 h
        have hlt := NodeList.sizeOf_lt_of_mem hs
        simp only [stmt.sizeOf_spec, method.sizeOf_spec, Method.mk.sizeOf_spec] at hlt ⊢
        omega
  | formal f => cases h
  | stmt s => exact sizeOf_lt_of_mem_stmt h
  | expr e => exact sizeOf_lt_of_mem_expr h

theorem induction_of_children {P : Node → Prop} (h : ∀ n : Node, (∀ c ∈ n.children, P c) → P n)
    (n : Node) : P n :=
  h n fun c _ => induction_of_children h c
termination_by sizeOf n
decreasing_by exact sizeOf_lt_of_mem_children ‹_›

/-- The second node is at the end of the path from the first, and all nodes before it are open. -/
inductive Reaches (closed : NodeKind → Bool) : Node → List Nat → Node → Prop
  | here {n : Node} : Reaches closed n [] n
  | child {n c m : Node} {i : Nat} {path : List Nat} :
      closed n.kind = false → n.children[i]? = some c → Reaches closed c path m →
      Reaches closed n (i :: path) m

def ReachedFrom (closed : NodeKind → Bool) (nodes : List Node) (path : List Nat) (m : Node) :
    Prop :=
  ∃ i c rest, path = i :: rest ∧ nodes[i]? = some c ∧ Reaches closed c rest m

theorem reaches_iff {closed : NodeKind → Bool} {n m : Node} {path : List Nat} :
    Reaches closed n path m ↔ (path = [] ∧ m = n) ∨
      (closed n.kind = false ∧ ReachedFrom closed n.children path m) := by
  constructor
  · intro h
    cases h with
    | here => exact .inl ⟨rfl, rfl⟩
    | child hopen hc hm => exact .inr ⟨hopen, _, _, _, rfl, hc, hm⟩
  · rintro (⟨rfl, rfl⟩ | ⟨hopen, i, c, rest, rfl, hc, hm⟩)
    · exact .here
    · exact .child hopen hc hm

end Node

/--
The order of places: what is below a child comes before what is below a later one, and a node comes
before the places below it, or after them.
-/
inductive Precedes (afterChildren : Bool) : List Nat → List Nat → Prop
  | apart {i j : Nat} {p q : List Nat} : i < j → Precedes afterChildren (i :: p) (j :: q)
  | within {i : Nat} {p q : List Nat} :
      Precedes afterChildren p q → Precedes afterChildren (i :: p) (i :: q)
  | ahead {i : Nat} {p : List Nat} : afterChildren = false → Precedes afterChildren [] (i :: p)
  | behind {i : Nat} {p : List Nat} : afterChildren = true → Precedes afterChildren (i :: p) []

/-- The list has the nodes at all places that satisfy a relation, each place once and in order. -/
def Lists (afterChildren : Bool) (At : List Nat → Node → Prop) (nodes : List Node) : Prop :=
  ∃ places : List (List Nat × Node), places.map Prod.snd = nodes ∧
    (∀ path n, (path, n) ∈ places ↔ At path n) ∧
    places.Pairwise fun a b => Precedes afterChildren a.1 b.1

variable {afterChildren : Bool}

theorem Precedes.asymm {p q : List Nat} (h : Precedes afterChildren p q) :
    ¬ Precedes afterChildren q p := by
  induction h with
  | apart hlt =>
      rintro (hgt | _)
      · omega
      · omega
  | within _ ih =>
      rintro (hlt | h)
      · omega
      · exact ih h
  | ahead hfalse =>
      rintro (_ | _ | _ | htrue)
      simp [hfalse] at htrue
  | behind htrue =>
      rintro (_ | _ | hfalse)
      simp [hfalse] at htrue

namespace Lists

variable {At : List Nat → Node → Prop}

theorem eq {nodes nodes' : List Node} (h : Lists afterChildren At nodes)
    (h' : Lists afterChildren At nodes') : nodes = nodes' := by
  obtain ⟨places, rfl, hplaces, hsorted⟩ := h
  obtain ⟨places', rfl, hplaces', hsorted'⟩ := h'
  have hperm : places.Perm places' := by
    rw [List.perm_ext_iff_of_nodup]
    · rintro ⟨path, n⟩
      rw [hplaces, hplaces']
    · exact hsorted.imp fun hab heq => (heq ▸ hab).asymm (heq ▸ hab)
    · exact hsorted'.imp fun hab heq => (heq ▸ hab).asymm (heq ▸ hab)
  rw [hperm.eq_of_pairwise (fun a b _ _ hab hba => absurd hba hab.asymm) hsorted hsorted']

theorem of_forall {nodes : List Node} {At : Node → List Nat → Node → Prop} {f : Node → List Node}
    (h : ∀ c ∈ nodes, Lists afterChildren (At c) (f c)) (first : Nat) :
    Lists afterChildren
      (fun path n => ∃ i c rest, path = (first + i) :: rest ∧ nodes[i]? = some c ∧ At c rest n)
      (nodes.flatMap f) := by
  induction nodes generalizing first with
  | nil => exact ⟨[], rfl, by simp, .nil⟩
  | cons c nodes ih =>
      obtain ⟨places, hmap, hplaces, hsorted⟩ := h c (by simp)
      obtain ⟨later, hlater, hlaters, hlatersorted⟩ :=
        ih (fun c hc => h c (by simp [hc])) (first + 1)
      refine ⟨places.map (fun place => (first :: place.1, place.2)) ++ later, ?_, ?_, ?_⟩
      · simp [hlater, ← hmap]
      · intro path n
        rw [List.mem_append, hlaters]
        constructor
        · rintro (hmem | ⟨i, d, rest, rfl, hd, hn⟩)
          · obtain ⟨⟨rest, m⟩, hm, hpath⟩ := List.mem_map.1 hmem
            cases hpath
            exact ⟨0, c, rest, rfl, rfl, (hplaces _ _).1 hm⟩
          · exact ⟨i + 1, d, rest, by rw [Nat.add_right_comm, Nat.add_assoc], hd, hn⟩
        · rintro ⟨i, d, rest, rfl, hd, hn⟩
          cases i with
          | zero =>
              cases hd
              exact .inl (List.mem_map.2 ⟨(rest, n), (hplaces _ _).2 hn, rfl⟩)
          | succ i => exact .inr ⟨i, d, rest, by rw [Nat.add_right_comm, Nat.add_assoc], hd, hn⟩
      · rw [List.pairwise_append, List.pairwise_map]
        refine ⟨hsorted.imp .within, hlatersorted, ?_⟩
        intro a ha b hb
        obtain ⟨place, -, rfl⟩ := List.mem_map.1 ha
        obtain ⟨i, _, rest, hpath, -⟩ := (hlaters b.1 b.2).1 hb
        rw [hpath]
        exact .apart (by omega)

section Trees

variable {closed : NodeKind → Bool} {f : Node → List Node}

theorem of_nodes {nodes : List Node}
    (h : ∀ c ∈ nodes, Lists afterChildren (c.Reaches closed) (f c)) :
    Lists afterChildren (Node.ReachedFrom closed nodes) (nodes.flatMap f) := by
  obtain ⟨places, hmap, hplaces, hsorted⟩ := of_forall h 0
  refine ⟨places, hmap, fun path n => ?_, hsorted⟩
  rw [hplaces, Node.ReachedFrom]
  simp

theorem of_closed {n : Node} (h : closed n.kind = true) :
    Lists afterChildren (n.Reaches closed) [n] := by
  refine ⟨[([], n)], rfl, fun path m => ?_, List.pairwise_singleton _ _⟩
  rw [Node.reaches_iff]
  simp [h]

theorem of_open {n : Node} {nodes : List Node} (hopen : closed n.kind = false)
    (h : Lists afterChildren (Node.ReachedFrom closed n.children) nodes) :
    Lists afterChildren (n.Reaches closed)
      (if afterChildren then nodes ++ [n] else n :: nodes) := by
  obtain ⟨places, rfl, hplaces, hsorted⟩ := h
  have hne : ∀ place ∈ places, ∃ i rest, place.1 = i :: rest := by
    intro place hplace
    obtain ⟨i, _, rest, hpath, -⟩ := (hplaces place.1 place.2).1 hplace
    exact ⟨i, rest, hpath⟩
  cases hafter : afterChildren with
  | true =>
      subst hafter
      refine ⟨places ++ [([], n)], by simp, fun path m => ?_, ?_⟩
      · rw [Node.reaches_iff, List.mem_append, hplaces]
        simp [hopen, or_comm]
      · refine List.pairwise_append.2 ⟨hsorted, List.pairwise_singleton _ _, ?_⟩
        intro a ha b hb
        obtain ⟨i, rest, hpath⟩ := hne a ha
        rw [hpath, List.mem_singleton.1 hb]
        exact .behind rfl
  | false =>
      subst hafter
      refine ⟨([], n) :: places, by simp, fun path m => ?_, ?_⟩
      · rw [Node.reaches_iff, List.mem_cons, hplaces]
        simp [hopen]
      · refine List.pairwise_cons.2 ⟨fun a ha => ?_, hsorted⟩
        obtain ⟨i, rest, hpath⟩ := hne a ha
        rw [hpath]
        exact .ahead rfl

end Trees

end Lists

end ClassLang
