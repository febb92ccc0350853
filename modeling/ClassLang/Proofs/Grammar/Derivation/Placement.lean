import ClassLang.Proofs.Grammar.Derivation.Declaration
import ClassLang.Proofs.Syntax.Unplaced
/-!
Derivations at other positions: the positions of tokens decide those in the tree and nothing else.
Main statement: tokens that derive a tree at some positions derive the same tree, positions apart,
at all (`DerivesDecl.exists_placed`).
-/

namespace ClassLang

namespace Grammar

def ExprCategory.unplaced : (c : ExprCategory) → c.Tree → c.Tree
  | .level _ => Expr.unplaced
  | .arguments => List.map Expr.unplaced
  | .moreArguments => List.map Expr.unplaced

def StmtCategory.unplaced : (c : StmtCategory) → c.Tree → c.Tree
  | .statement => Stmt.unplaced
  | .body => List.map Stmt.unplaced

def DeclCategory.unplaced : (c : DeclCategory) → c.Tree → c.Tree
  | .formals => List.map Formal.unplaced
  | .moreFormals => List.map Formal.unplaced
  | .member => Member.unplaced
  | .members => List.map Member.unplaced
  | .classDecl => ClassDecl.unplaced
  | .classes => List.map ClassDecl.unplaced
  | .program => Program.unplaced

variable {place : Token → Position} {file : String} (place' : Token → Position)

theorem Qualifies.exists_placed {i k : List Token} {r : Option Expr} (h : Qualifies place i k r) :
    ∃ r', Qualifies place' i k r' ∧ r'.map Expr.unplaced = r.map Expr.unplaced := by
  cases h with
  | absent => exact ⟨none, .absent, rfl⟩
  | this ht hd => exact ⟨_, .this ht hd, by simp [Expr.unplaced]⟩
  | super ht hd => exact ⟨_, .super ht hd, by simp [Expr.unplaced]⟩

theorem Expr.bind_varName?_of_map_unplaced {r r' : Option Expr}
    (h : r'.map Expr.unplaced = r.map Expr.unplaced) :
    r'.bind Expr.varName? = r.bind Expr.varName? := by
  have hmap : ∀ r : Option Expr, r.bind Expr.varName? = (r.map Expr.unplaced).bind Expr.varName? := by
    intro r
    cases r <;> simp
  rw [hmap r', hmap r, h]

theorem DerivesExpr.exists_placed {c : ExprCategory} {i k : List Token} {x : c.Tree}
    (h : DerivesExpr place c i k x) :
    ∃ x', DerivesExpr place' c i k x' ∧ c.unplaced x' = c.unplaced x := by
  induction h with
  | disjunction _ ih =>
      obtain ⟨e, he, hx⟩ := ih
      exact ⟨e, .disjunction he, hx⟩
  | @assignment t a i j k p r name v _ ha _ ihl ihr =>
      obtain ⟨l, hl, hx⟩ := ihl
      obtain ⟨w, hw, hv⟩ := ihr
      cases l with
      | var q r' name' =>
          simp only [ExprCategory.unplaced, Expr.unplaced, Expr.unplacedOption_eq_map, Expr.var.injEq,
            true_and] at hx hv
          obtain ⟨hr, rfl⟩ := hx
          refine ⟨_, .assignment hl ha hw, ?_⟩
          simp [ExprCategory.unplaced, Expr.unplaced, hv, Expr.bind_varName?_of_map_unplaced hr]
      | _ => simp [ExprCategory.unplaced, Expr.unplaced] at hx
  | operand _ ih =>
      obtain ⟨e, he, hx⟩ := ih
      exact ⟨e, .operand he, hx⟩
  | binary _ hop _ ihl ihr =>
      obtain ⟨l, hl, hx⟩ := ihl
      obtain ⟨r, hr, hy⟩ := ihr
      exact ⟨_, .binary hl hop hr, by simp_all [ExprCategory.unplaced, Expr.unplaced]⟩
  | creation ht hn hp hq =>
      exact ⟨_, .creation ht hn hp hq, by simp [ExprCategory.unplaced, Expr.unplaced]⟩
  | conversion ht hp hn hc _ hq ih =>
      obtain ⟨e, he, hx⟩ := ih
      exact ⟨_, .conversion ht hp hn hc he hq, by simp_all [ExprCategory.unplaced, Expr.unplaced]⟩
  | unary _ ih =>
      obtain ⟨e, he, hx⟩ := ih
      exact ⟨e, .unary he, hx⟩
  | leading hop _ ih =>
      obtain ⟨e, he, hx⟩ := ih
      exact ⟨_, .leading hop he, by simp_all [ExprCategory.unplaced, Expr.unplaced]⟩
  | noLeading _ ih =>
      obtain ⟨e, he, hx⟩ := ih
      exact ⟨e, .noLeading he, hx⟩
  | trailing _ hop ih =>
      obtain ⟨e, he, hx⟩ := ih
      exact ⟨_, .trailing he hop, by simp_all [ExprCategory.unplaced, Expr.unplaced]⟩
  | noTrailing _ ih =>
      obtain ⟨e, he, hx⟩ := ih
      exact ⟨e, .noTrailing he, hx⟩
  | parenthesized ht _ hq ih =>
      obtain ⟨e, he, hx⟩ := ih
      exact ⟨e, .parenthesized ht he hq, hx⟩
  | integer ht hv => exact ⟨_, .integer ht hv, by simp [ExprCategory.unplaced, Expr.unplaced]⟩
  | boolean ht => exact ⟨_, .boolean ht, by simp [ExprCategory.unplaced, Expr.unplaced]⟩
  | string ht => exact ⟨_, .string ht, by simp [ExprCategory.unplaced, Expr.unplaced]⟩
  | var hr hn =>
      obtain ⟨r', hr', hx⟩ := hr.exists_placed place'
      exact ⟨_, .var hr' hn, by simp [ExprCategory.unplaced, Expr.unplaced, hx]⟩
  | call hr hn hp _ hq ih =>
      obtain ⟨r', hr', hx⟩ := hr.exists_placed place'
      obtain ⟨es, hes, hy⟩ := ih
      exact ⟨_, .call hr' hn hp hes hq, by simp_all [ExprCategory.unplaced, Expr.unplaced]⟩
  | noArguments => exact ⟨_, .noArguments, rfl⟩
  | someArguments _ _ ih ihs =>
      obtain ⟨e, he, hx⟩ := ih
      obtain ⟨es, hes, hy⟩ := ihs
      exact ⟨_, .someArguments he hes, by simp_all [ExprCategory.unplaced]⟩
  | noMoreArguments => exact ⟨_, .noMoreArguments, rfl⟩
  | moreArguments hc _ _ ih ihs =>
      obtain ⟨e, he, hx⟩ := ih
      obtain ⟨es, hes, hy⟩ := ihs
      exact ⟨_, .moreArguments hc he hes, by simp_all [ExprCategory.unplaced]⟩

theorem DerivesOptional.exists_placed {i k : List Token} {v : Option Expr}
    (h : DerivesOptional place i k v) :
    ∃ v', DerivesOptional place' i k v' ∧ v'.map Expr.unplaced = v.map Expr.unplaced := by
  cases h with
  | absent => exact ⟨none, .absent, rfl⟩
  | present h =>
      obtain ⟨e, he, hx⟩ := h.exists_placed place'
      exact ⟨some e, .present he, congrArg some hx⟩

theorem DerivesStmt.exists_placed {c : StmtCategory} {i k : List Token} {x : c.Tree}
    (h : DerivesStmt place c i k x) :
    ∃ x', DerivesStmt place' c i k x' ∧ c.unplaced x' = c.unplaced x := by
  induction h with
  | expression he hq =>
      obtain ⟨e, he, hx⟩ := he.exists_placed place'
      exact ⟨_, .expression he hq, by simp_all [StmtCategory.unplaced, ExprCategory.unplaced,
        Stmt.unplaced]⟩
  | returnValue ht hv hq =>
      obtain ⟨v, hv, hx⟩ := hv.exists_placed place'
      exact ⟨_, .returnValue ht hv hq, by simp_all [StmtCategory.unplaced, Stmt.unplaced]⟩
  | breakLoop ht hq => exact ⟨_, .breakLoop ht hq, by simp [StmtCategory.unplaced, Stmt.unplaced]⟩
  | declaration ht hn ha he hq =>
      obtain ⟨e, he, hx⟩ := he.exists_placed place'
      exact ⟨_, .declaration ht hn ha he hq, by simp_all [StmtCategory.unplaced,
        ExprCategory.unplaced, Stmt.unplaced]⟩
  | empty ht => exact ⟨_, .empty ht, by simp [StmtCategory.unplaced, Stmt.unplaced]⟩
  | block ht _ hq ih =>
      obtain ⟨ss, hss, hx⟩ := ih
      exact ⟨_, .block ht hss hq, by simp_all [StmtCategory.unplaced, Stmt.unplaced]⟩
  | whileLoop ht hp he hq _ ih =>
      obtain ⟨e, he, hx⟩ := he.exists_placed place'
      obtain ⟨s, hs, hy⟩ := ih
      exact ⟨_, .whileLoop ht hp he hq hs, by simp_all [StmtCategory.unplaced,
        ExprCategory.unplaced, Stmt.unplaced]⟩
  | forLoop ht hp ha hq₁ hb hq₂ hc hq _ ih =>
      obtain ⟨a, ha, hx⟩ := ha.exists_placed place'
      obtain ⟨b, hb, hy⟩ := hb.exists_placed place'
      obtain ⟨c, hc, hz⟩ := hc.exists_placed place'
      obtain ⟨s, hs, hw⟩ := ih
      exact ⟨_, .forLoop ht hp ha hq₁ hb hq₂ hc hq hs, by simp_all [StmtCategory.unplaced,
        Stmt.unplaced]⟩
  | conditional ht hp he hq _ hk ih =>
      obtain ⟨e, he, hx⟩ := he.exists_placed place'
      obtain ⟨s, hs, hy⟩ := ih
      exact ⟨_, .conditional ht hp he hq hs hk, by simp_all [StmtCategory.unplaced,
        ExprCategory.unplaced, Stmt.unplaced]⟩
  | conditionalElse ht hp he hq _ hx _ ih ih₁ =>
      obtain ⟨e, he, hy⟩ := he.exists_placed place'
      obtain ⟨s, hs, hz⟩ := ih
      obtain ⟨s₁, hs₁, hw⟩ := ih₁
      exact ⟨_, .conditionalElse ht hp he hq hs hx hs₁, by simp_all [StmtCategory.unplaced,
        ExprCategory.unplaced, Stmt.unplaced]⟩
  | noStatements => exact ⟨_, .noStatements, rfl⟩
  | statements _ _ ih ihs =>
      obtain ⟨s, hs, hx⟩ := ih
      obtain ⟨ss, hss, hy⟩ := ihs
      exact ⟨_, .statements hs hss, by simp_all [StmtCategory.unplaced]⟩

theorem DerivesInit.exists_placed {i k : List Token} {v : Option Expr}
    (h : DerivesInit place i k v) :
    ∃ v', DerivesInit place' i k v' ∧ v'.map Expr.unplaced = v.map Expr.unplaced := by
  cases h with
  | absent => exact ⟨none, .absent, rfl⟩
  | present ha h =>
      obtain ⟨e, he, hx⟩ := h.exists_placed place'
      exact ⟨some e, .present ha he, congrArg some hx⟩

theorem DerivesDecl.exists_placed {c : DeclCategory} {i k : List Token} {x : c.Tree}
    (h : DerivesDecl place file c i k x) :
    ∃ x', DerivesDecl place' file c i k x' ∧ c.unplaced x' = c.unplaced x := by
  induction h with
  | noFormals => exact ⟨_, .noFormals, rfl⟩
  | someFormals ht hn _ ih =>
      obtain ⟨fs, hfs, hx⟩ := ih
      exact ⟨_, .someFormals ht hn hfs, by simp_all [DeclCategory.unplaced, Formal.unplaced]⟩
  | noMoreFormals => exact ⟨_, .noMoreFormals, rfl⟩
  | moreFormals hc ht hn _ ih =>
      obtain ⟨fs, hfs, hx⟩ := ih
      exact ⟨_, .moreFormals hc ht hn hfs, by simp_all [DeclCategory.unplaced, Formal.unplaced]⟩
  | field ht hn hv hq =>
      obtain ⟨v, hv, hx⟩ := hv.exists_placed place'
      exact ⟨_, .field ht hn hv hq, by simp_all [DeclCategory.unplaced, Member.unplaced,
        Field.unplaced]⟩
  | method ht hn hp _ hq hb hss hz ih =>
      obtain ⟨fs, hfs, hx⟩ := ih
      obtain ⟨ss, hss, hy⟩ := hss.exists_placed place'
      exact ⟨_, .method ht hn hp hfs hq hb hss hz, by simp_all [DeclCategory.unplaced,
        StmtCategory.unplaced, Member.unplaced, Method.unplaced, NodeList.unplacedWith]⟩
  | noMembers => exact ⟨_, .noMembers, rfl⟩
  | members _ _ ih ihs =>
      obtain ⟨m, hm, hx⟩ := ih
      obtain ⟨ms, hms, hy⟩ := ihs
      exact ⟨_, .members hm hms, by simp_all [DeclCategory.unplaced]⟩
  | classDecl ht hn hp hb _ hz ih =>
      obtain ⟨ms, hms, hx⟩ := ih
      exact ⟨_, .classDecl ht hn hp hb hms hz, by simp_all [DeclCategory.unplaced,
        ClassDecl.unplaced, NodeList.unplacedWith]⟩
  | noClasses => exact ⟨_, .noClasses, rfl⟩
  | classes _ _ ih ihs =>
      obtain ⟨c, hc, hx⟩ := ih
      obtain ⟨cs, hcs, hy⟩ := ihs
      exact ⟨_, .classes hc hcs, by simp_all [DeclCategory.unplaced]⟩
  | program _ hq ih =>
      obtain ⟨cs, hcs, hx⟩ := ih
      exact ⟨_, .program hcs hq, by simp_all [DeclCategory.unplaced, Program.unplaced,
        NodeList.unplacedWith]⟩

/-- The place of every token, where positions do not matter. -/
def nowhere : Token → Position :=
  fun _ => .null

theorem Qualifies.unplaced_eq {i k : List Token} {r : Option Expr} (h : Qualifies nowhere i k r) :
    r.map Expr.unplaced = r := by
  cases h <;> simp [Expr.unplaced, nowhere]

theorem DerivesExpr.unplaced_eq {c : ExprCategory} {i k : List Token} {x : c.Tree}
    (h : DerivesExpr nowhere c i k x) : c.unplaced x = x := by
  induction h with
  | var hr _ => simp [ExprCategory.unplaced, Expr.unplaced, nowhere, hr.unplaced_eq]
  | call hr _ _ _ _ ih =>
      simp_all [ExprCategory.unplaced, Expr.unplaced, nowhere, hr.unplaced_eq]
  | _ => simp_all [ExprCategory.unplaced, Expr.unplaced, nowhere]

theorem DerivesOptional.unplaced_eq {i k : List Token} {v : Option Expr}
    (h : DerivesOptional nowhere i k v) : v.map Expr.unplaced = v := by
  cases h with
  | absent => rfl
  | present h => exact congrArg some h.unplaced_eq

theorem DerivesStmt.unplaced_eq {c : StmtCategory} {i k : List Token} {x : c.Tree}
    (h : DerivesStmt nowhere c i k x) : c.unplaced x = x := by
  induction h with
  | expression he _ =>
      have : Expr.unplaced _ = _ := he.unplaced_eq
      simp_all [StmtCategory.unplaced, Stmt.unplaced, nowhere]
  | returnValue _ hv _ => simp [StmtCategory.unplaced, Stmt.unplaced, nowhere, hv.unplaced_eq]
  | declaration _ _ _ he _ =>
      have : Expr.unplaced _ = _ := he.unplaced_eq
      simp_all [StmtCategory.unplaced, Stmt.unplaced, nowhere]
  | whileLoop _ _ he _ _ ih =>
      have : Expr.unplaced _ = _ := he.unplaced_eq
      simp_all [StmtCategory.unplaced, Stmt.unplaced, nowhere]
  | forLoop _ _ ha _ hb _ hc _ _ ih =>
      simp_all [StmtCategory.unplaced, Stmt.unplaced, nowhere, ha.unplaced_eq, hb.unplaced_eq,
        hc.unplaced_eq]
  | conditional _ _ he _ _ _ ih =>
      have : Expr.unplaced _ = _ := he.unplaced_eq
      simp_all [StmtCategory.unplaced, Stmt.unplaced, nowhere]
  | conditionalElse _ _ he _ _ _ _ ih ih₁ =>
      have : Expr.unplaced _ = _ := he.unplaced_eq
      simp_all [StmtCategory.unplaced, Stmt.unplaced, nowhere]
  | _ => simp_all [StmtCategory.unplaced, Stmt.unplaced, nowhere]

theorem DerivesInit.unplaced_eq {i k : List Token} {v : Option Expr}
    (h : DerivesInit nowhere i k v) : v.map Expr.unplaced = v := by
  cases h with
  | absent => rfl
  | present _ h => exact congrArg some h.unplaced_eq

theorem DerivesDecl.unplaced_eq {c : DeclCategory} {i k : List Token} {x : c.Tree}
    (h : DerivesDecl nowhere file c i k x) : c.unplaced x = x := by
  induction h with
  | field _ _ hv _ =>
      simp [DeclCategory.unplaced, Member.unplaced, Field.unplaced, nowhere, hv.unplaced_eq]
  | method _ _ _ _ _ _ hss _ ih =>
      have : List.map Stmt.unplaced _ = _ := hss.unplaced_eq
      simp_all [DeclCategory.unplaced, Member.unplaced, Method.unplaced, NodeList.unplacedWith,
        nowhere]
  | _ =>
      simp_all [DeclCategory.unplaced, Formal.unplaced, ClassDecl.unplaced, Program.unplaced,
        NodeList.unplacedWith, nowhere]

end Grammar

end ClassLang
