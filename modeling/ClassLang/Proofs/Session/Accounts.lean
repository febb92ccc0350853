import ClassLang.Proofs.Grammar.Derivation.Marks
import ClassLang.Proofs.Grammar.Derivation.Nesting
import ClassLang.Proofs.Session.Outcome
import Mathlib
/-!
Tokens and nodes side by side. Main statement: in a source text that is parsed the brackets are
nested, the classes are named after the words `class`, and each word or sign that only some nodes are
written with is there as often as such nodes are (`accounts_of_parseSource`).
-/

namespace ClassLang

section Names

/-- The tokens that follow the word `class`. -/
def afterClass : List Token → List Token
  | [] => []
  | [_] => []
  | t :: n :: ts =>
      if t.kind = .keyword .kwClass then n :: afterClass (n :: ts) else afterClass (n :: ts)

theorem afterClass_cons {t : Token} (ht : t.kind ≠ .keyword .kwClass) (ts : List Token) :
    afterClass (t :: ts) = afterClass ts := by
  cases ts with
  | nil => rfl
  | cons n ts => rw [afterClass, if_neg ht]

theorem afterClass_append {u k : List Token} (hu : ∀ t ∈ u, t.kind ≠ .keyword .kwClass) :
    afterClass (u ++ k) = afterClass k := by
  induction u with
  | nil => rfl
  | cons t u ih =>
      rw [List.cons_append, afterClass_cons (hu t (by simp)), ih fun s hs => hu s (by simp [hs])]

/-- Where the word `class` is as often before a list of tokens as in it, it is not before it. -/
theorem afterClass_eq_of_markCount {u k : List Token}
    (h : markCount (.word .kwClass) (u ++ k) = markCount (.word .kwClass) k) :
    afterClass (u ++ k) = afterClass k := by
  rw [markCount_append, Nat.add_eq_right, markCount, List.countP_eq_zero] at h
  refine afterClass_append fun t ht hkind => h t ht ?_
  rw [hkind]
  rfl

namespace Grammar

variable {place : Token → Position} {file : String} {i k : List Token}

theorem DerivesDecl.afterClass_of_classDecl {c : ClassDecl}
    (h : DerivesDecl place file .classDecl i k c) :
    ∃ n, afterClass i = n :: afterClass k ∧ n.kind = .identifier ∧ n.value = c.name := by
  have hcount := h.markCount_eq (m := .word .kwClass)
  rw [DeclCategory.written, Node.written_class] at hcount
  obtain ⟨u, hu, -⟩ := h.exists_prefix (by simp)
  cases h with
  | @classDecl t n b a z j _ _ parent ms ht hn hp hb hms hz =>
      refine ⟨n, ?_, hn, rfl⟩
      rw [afterClass, if_pos ht]
      cases u with
      | nil =>
          rw [List.nil_append] at hu
          rw [hu] at hcount
          omega
      | cons t' u =>
          have hmark : (TokenKind.keyword .kwClass).mark? = some (.word .kwClass) := rfl
          have hrest : n :: j = u ++ k := (List.cons.inj hu).2
          rw [markCount_keyword ht, if_pos hmark, Nat.add_left_cancel_iff, hrest] at hcount
          rw [hrest, afterClass_eq_of_markCount hcount]

theorem DerivesDecl.afterClass_of_classes {cs : List ClassDecl}
    (h : DerivesDecl place file .classes i k cs) :
    ∃ ns, afterClass i = ns ++ afterClass k ∧
      ns.map (fun n => (n.kind, n.value)) = cs.map fun c => (.identifier, c.name) := by
  induction cs generalizing i with
  | nil =>
      cases h with
      | noClasses => exact ⟨[], rfl, rfl⟩
  | cons c cs ih =>
      cases h with
      | classes hc hcs =>
          obtain ⟨n, hi, hkind, hvalue⟩ := hc.afterClass_of_classDecl
          obtain ⟨ns, hj, hns⟩ := ih hcs
          refine ⟨n :: ns, by rw [hi, hj]; rfl, ?_⟩
          rw [List.map_cons, List.map_cons, hns, hkind, hvalue]

end Grammar

end Names

/-- How the tokens of a source text and the nodes of the program in it answer to each other. -/
structure Accounts (ts : List Token) (p : Program) : Prop where
  nested : Nested (brackets ts)
  class_names : (afterClass ts).map (fun t => (t.kind, t.value)) =
    p.classes.items.map fun c => (.identifier, c.name)
  class_count : kindCount (.keyword .kwClass) ts = p.classes.items.length
  word_count : ∀ {k kind}, (k, kind) ∈ Node.wordKinds →
    kindCount (.keyword k) ts = (Node.program p).nodes.countP (Node.isOf kind)
  extends_count :
    kindCount (.keyword .kwExtends) ts = (Node.program p).nodes.countP Node.hasParent
  else_count : kindCount (.keyword .kwElse) ts = (Node.program p).nodes.countP Node.hasElse
  assign_count : kindCount (.symbol .assign) ts =
    (Node.program p).nodes.countP Node.hasInit +
      ((Node.program p).nodes.countP (Node.isOf .declaration) +
        (Node.program p).nodes.countP (Node.isOf .assign))
  reference_count : kindCount (.keyword .kwThis) ts + kindCount (.keyword .kwSuper) ts =
    (Node.program p).nodes.countP Node.isQualifiedVar +
      ((Node.program p).nodes.countP Node.isQualifiedAssign +
        (Node.program p).nodes.countP Node.hasReceiver)

namespace Grammar

theorem DerivesDecl.accounts {place : Token → Position} {file : String} {ts : List Token}
    {stop : Token} {p : Program} (h : DerivesDecl place file .program ts [stop] p)
    (hstop : stop.kind = .endOfInput) : Accounts ts p := by
  have hmark : ∀ m, markCount m ts = (Node.program p).written m := by
    intro m
    rw [h.markCount_eq, markCount_plain (by rw [hstop]; rfl)]
    rfl
  constructor
  case nested =>
    obtain ⟨w, hw, hts⟩ := h.nested
    have hend : brackets [stop] = [] := List.filterMap_cons_none (by rw [hstop]; rfl)
    rw [hts, hend, List.append_nil]
    exact hw
  case class_names =>
    cases h with
    | program hcs _ =>
        obtain ⟨ns, hts, hns⟩ := hcs.afterClass_of_classes
        rw [hts, afterClass, List.append_nil, hns]
  case class_count =>
    rw [← markCount_eq_kindCount (mark?_eq_word_iff rfl), hmark, Node.written_program_class]
  case word_count =>
    intro k kind hk
    have hword := Node.mark?_of_mem_wordKinds _ hk
    rw [← markCount_eq_kindCount (mark?_eq_word_iff hword), hmark]
    exact Node.written_eq_countP (Node.count_word_marks hk) _
  case extends_count =>
    rw [← markCount_eq_kindCount (mark?_eq_word_iff rfl), hmark]
    exact Node.written_eq_countP Node.count_extends_marks _
  case else_count =>
    rw [← markCount_eq_kindCount (mark?_eq_word_iff rfl), hmark]
    exact Node.written_eq_countP Node.count_else_marks _
  case assign_count =>
    rw [← markCount_eq_kindCount mark?_eq_assign_iff, hmark]
    exact Node.written_eq_countP_add Node.count_assign_marks _
  case reference_count =>
    rw [← markCount_reference, hmark]
    exact Node.written_eq_countP_add Node.count_reference_marks _

end Grammar

namespace Session

variable {source file : String} {log log' : DiagnosticLog} {p : Program}

theorem accounts_of_parseSource (h : parseSource source file log = .ok p log') :
    ∃ ts, tokenize source file = .ok ts ∧ Accounts ts p := by
  obtain ⟨body, stop, hts, hstop, hderives⟩ := exists_derives_of_parseSource h
  exact ⟨body ++ [stop], hts, hderives.accounts hstop⟩

theorem accounts_of_class_with_parent :
    let source := "class A extends B\x7bA b=this.c;\x7d"
    ∃ p, parseSource source "a.cl" .empty = .ok p .empty ∧
      ∃ ts, tokenize source "a.cl" = .ok ts ∧ Accounts ts p := by
  intro source
  let place := Position.ofBytes "a.cl"
  have h : parseSource source "a.cl" .empty = .ok ⟨place 0, ⟨place 0, [⟨place 0, "a.cl", "A",
      some "B", ⟨place 18, [.field ⟨place 18, "A", "b",
        some (.var (place 22) (some (.var (place 22) none "this")) "c")⟩]⟩⟩]⟩⟩ .empty := by cbv
  exact ⟨_, h, accounts_of_parseSource h⟩

end Session

end ClassLang
