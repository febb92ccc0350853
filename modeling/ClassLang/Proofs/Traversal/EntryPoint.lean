import ClassLang.Proofs.Syntax.Unplaced
import ClassLang.Traversal.EntryPoint
import Mathlib.Data.List.Forall2
/-!
When a program has an entry point. A visit of any part of a program leaves a flag that is set as it
is, and sets it if the part holds an entry point. Main statement: a program has an entry point if a
class `Main` in it has a method `void main()`, whatever else is in it or changed in it
(`Program.hasEntryPoint_exact`).
-/

namespace ClassLang

namespace Method

theorem isMain_iff {m : Method} :
    m.isMain = true ↔ m.name = "main" ∧ m.returnType = "void" ∧ m.formals.items = [] := by
  simp [isMain, NodeList.isEmpty, and_assoc]

end Method

namespace Member

def isMain : Member → Bool
  | .field _ => false
  | .method m => m.isMain

/-- The second member is the first with any positions, and any initial value or body. -/
inductive Revised : Member → Member → Prop
  | field {f g : Field} : g.typeName = f.typeName → g.name = f.name → Revised (.field f) (.field g)
  | method {m n : Method} : n.returnType = m.returnType → n.name = m.name →
      n.formals.items.map Formal.unplaced = m.formals.items.map Formal.unplaced →
      Revised (.method m) (.method n)

theorem Revised.isMain_eq {a b : Member} (h : Revised a b) : a.isMain = b.isMain := by
  cases h with
  | field => rfl
  | @method m n htype hname hformals =>
      have hempty : n.formals.isEmpty = m.formals.isEmpty := by
        have hmap := congrArg List.isEmpty hformals
        rwa [List.isEmpty_map, List.isEmpty_map] at hmap
      simp only [isMain, Method.isMain, htype, hname, hempty]

end Member

namespace ClassDecl

def declaresMain (c : ClassDecl) : Bool :=
  c.name = "Main" && c.members.items.any Member.isMain

/--
The second class is the first with any positions, any parent, and its members revised and in any
order.
-/
def Revised (c d : ClassDecl) : Prop :=
  d.name = c.name ∧
    ∃ members, members.Perm c.members.items ∧ List.Forall₂ Member.Revised members d.members.items

end ClassDecl

/--
The second program is the first with any positions, its classes revised and in any order, and more
classes among them that are not named `Main`.
-/
def Program.Revised (p q : Program) : Prop :=
  ∃ classes added, List.Forall₂ ClassDecl.Revised p.classes.items classes ∧
    (∀ c ∈ added, c.name ≠ "Main") ∧ q.classes.items.Perm (classes ++ added)

theorem any_eq_of_forall₂ {α : Type} {R : α → α → Prop} {f : α → Bool} {as bs : List α}
    (hR : ∀ a b, R a b → f a = f b) (h : List.Forall₂ R as bs) : as.any f = bs.any f := by
  induction h with
  | nil => rfl
  | cons hab _ ih => rw [List.any_cons, List.any_cons, hR _ _ hab, ih]

theorem ClassDecl.Revised.declaresMain_eq {c d : ClassDecl} (h : Revised c d) :
    c.declaresMain = d.declaresMain := by
  obtain ⟨hname, members, hperm, hmembers⟩ := h
  have hany : members.any Member.isMain = d.members.items.any Member.isMain :=
    any_eq_of_forall₂ (fun _ _ => Member.Revised.isMain_eq) hmembers
  rw [declaresMain, declaresMain, hname, ← hperm.any_eq, hany]

namespace Visitor

theorem run_runAll_any {α : Type} {visit : α → StateM Bool Unit} {holds : α → Bool} {items : List α}
    (h : ∀ x ∈ items, ∀ found, (visit x).run found = ((), found || holds x)) (found : Bool) :
    (runAll (items.map visit)).run found = ((), found || items.any holds) := by
  induction items generalizing found with
  | nil =>
      rw [List.any_nil, Bool.or_false]
      rfl
  | cons x items ih =>
      have hrun : (runAll ((x :: items).map visit)).run found =
          (runAll (items.map visit)).run ((visit x).run found).2 := rfl
      rw [hrun, h x List.mem_cons_self, ih fun y hy => h y (List.mem_cons_of_mem x hy),
        List.any_cons, Bool.or_assoc]

theorem run_visitMember_entryPoint (m : Member) (found : Bool) :
    (visitMember entryPoint m).run found = ((), found || m.isMain) := by
  cases m with
  | field f =>
      rw [Member.isMain, Bool.or_false]
      rfl
  | method m =>
      have hrun : (visitMember entryPoint (.method m)).run found =
          (if m.isMain then set true else pure () : StateM Bool Unit).run found := rfl
      rw [hrun, Member.isMain]
      cases m.isMain with
      | false => rw [Bool.or_false]; rfl
      | true => rw [Bool.or_true]; rfl

theorem run_visitClass_entryPoint (c : ClassDecl) (found : Bool) :
    (visitClass entryPoint c).run found = ((), found || c.declaresMain) := by
  have hrun : (visitClass entryPoint c).run found =
      (if c.name = "Main" then runAll (c.members.items.map (visitMember entryPoint))
        else pure () : StateM Bool Unit).run found := rfl
  rw [hrun, ClassDecl.declaresMain]
  by_cases hname : c.name = "Main"
  · rw [if_pos hname, decide_eq_true hname, Bool.true_and]
    exact run_runAll_any (fun m _ => run_visitMember_entryPoint m) found
  · rw [if_neg hname, decide_eq_false hname, Bool.false_and, Bool.or_false]
    rfl

end Visitor

namespace Program

theorem hasEntryPoint_eq_any (p : Program) :
    p.hasEntryPoint = p.classes.items.any ClassDecl.declaresMain := by
  have hrun : (Visitor.visitProgram Visitor.entryPoint p).run false =
      (Visitor.runAll (p.classes.items.map (Visitor.visitClass Visitor.entryPoint))).run false := rfl
  rw [hasEntryPoint, hrun,
    Visitor.run_runAll_any fun c _ => Visitor.run_visitClass_entryPoint c, Bool.false_or]

theorem Revised.hasEntryPoint_eq {p q : Program} (h : Revised p q) :
    q.hasEntryPoint = p.hasEntryPoint := by
  obtain ⟨classes, added, hclasses, hadded, hperm⟩ := h
  have hnone : added.any ClassDecl.declaresMain = false := by
    refine List.any_eq_false.2 fun c hc => ?_
    simp [ClassDecl.declaresMain, hadded c hc]
  have hany : p.classes.items.any ClassDecl.declaresMain = classes.any ClassDecl.declaresMain :=
    any_eq_of_forall₂ (fun _ _ => ClassDecl.Revised.declaresMain_eq) hclasses
  rw [hasEntryPoint_eq_any, hasEntryPoint_eq_any, hperm.any_eq, List.any_append, hnone,
    Bool.or_false, hany]

theorem hasEntryPoint_exact (p : Program) :
    (p.hasEntryPoint = true ↔ ∃ c ∈ p.classes.items, c.name = "Main" ∧
      ∃ m : Method, .method m ∈ c.members.items ∧ m.name = "main" ∧ m.returnType = "void" ∧
        m.formals.items = []) ∧
      ∀ q, p.Revised q → q.hasEntryPoint = p.hasEntryPoint := by
  refine ⟨?_, fun q => Revised.hasEntryPoint_eq⟩
  have hmember : ∀ members : List Member, members.any Member.isMain = true ↔
      ∃ m : Method, .method m ∈ members ∧ m.isMain = true := by
    intro members
    rw [List.any_eq_true]
    constructor
    · rintro ⟨member, hmem, hmain⟩
      cases member with
      | field f => cases hmain
      | method m => exact ⟨m, hmem, hmain⟩
    · rintro ⟨m, hmem, hmain⟩
      exact ⟨.method m, hmem, hmain⟩
  simp only [hasEntryPoint_eq_any, List.any_eq_true, ClassDecl.declaresMain, Bool.and_eq_true,
    decide_eq_true_eq, hmember, Method.isMain_iff]

/-- The class is moved, its parent is dropped and its field and its method change places. -/
theorem hasEntryPoint_exact_of_moved_members :
    let place := Position.ofBytes "a.cl"
    let field (p : Position) (init : Option Expr) : Member := .field ⟨p, "int", "n", init⟩
    let method (p : Position) (body : List Stmt) : Member :=
      .method ⟨p, "void", "main", ⟨p, []⟩, ⟨p, body⟩⟩
    let main (p : Position) (parent : Option String) (members : List Member) : ClassDecl :=
      ⟨p, "a.cl", "Main", parent, ⟨p, members⟩⟩
    let other : ClassDecl := ⟨place 0, "a.cl", "Other", none, ⟨place 0, [method (place 0) []]⟩⟩
    let program (classes : List ClassDecl) : Program := ⟨place 0, ⟨place 0, classes⟩⟩
    let p := program [main (place 0) (some "Other") [field (place 1) none, method (place 2) []]]
    let moved := main (place 9) none [method (place 10) [.breakLoop (place 11)],
      field (place 12) (some (.integer (place 13) 1))]
    let q := program [other, moved]
    p.Revised q ∧ p.hasEntryPoint = true ∧ q.hasEntryPoint = p.hasEntryPoint := by
  intro place field method main other program p moved q
  have hrevised : p.Revised q := by
    refine ⟨[moved], [other], .cons ⟨rfl, _, .swap _ _ [], ?_⟩ .nil, ?_, .swap moved other []⟩
    · exact .cons (.method rfl rfl rfl) (.cons (.field rfl rfl) .nil)
    · intro c hc
      rw [List.mem_singleton.1 hc]
      decide
  refine ⟨hrevised, (hasEntryPoint_exact p).1.2 ⟨_, List.mem_singleton_self _, rfl, ?_⟩,
    (hasEntryPoint_exact p).2 q hrevised⟩
  exact ⟨_, List.mem_cons_of_mem _ (List.mem_singleton_self _), rfl, rfl, rfl⟩

end Program

end ClassLang
