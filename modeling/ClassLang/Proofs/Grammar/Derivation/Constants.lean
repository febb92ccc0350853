import ClassLang.Proofs.Grammar.Derivation.Declaration
import ClassLang.Proofs.Syntax.Constants
/-!
Constants in derivations: a tree has the constants that its tokens are read as, in the same order.
Main statement: `DerivesDecl.readings_eq`.
-/

namespace ClassLang

/-- What a token is read as if it is a constant; an integer may have no reading. -/
def Token.readings (t : Token) : List (Option Expr) :=
  match t.kind with
  | .integer => [(readInteger? t.value.toList).map (.integer t.position)]
  | .boolean => [some (.boolean t.position (t.value = "true"))]
  | .string => [some (.string t.position t.value)]
  | _ => []

namespace Token

variable {t : Token}

theorem readings_keyword {k : Keyword} (h : t.kind = .keyword k) : t.readings = [] := by
  rw [readings, h]

theorem readings_symbol {s : Symbol} (h : t.kind = .symbol s) : t.readings = [] := by
  rw [readings, h]

theorem readings_identifier (h : t.kind = .identifier) : t.readings = [] := by
  rw [readings, h]

end Token

/-- What stands before the dot, if the expression is a variable. -/
def Expr.reference? : Expr → Option Expr
  | .var _ r _ => r
  | _ => none

namespace Grammar

open Token

def ExprCategory.constants : (c : ExprCategory) → c.Tree → List Expr
  | .level _, e => e.constants
  | .arguments, es => es.flatMap Expr.constants
  | .moreArguments, es => es.flatMap Expr.constants

def ExprCategory.reference? : (c : ExprCategory) → c.Tree → Option Expr
  | .level _, e => e.reference?
  | _, _ => none

theorem DerivesExpr.exists_qualifies {place : Token → Position} {c : ExprCategory}
    {i k : List Token} {x : c.Tree} (h : DerivesExpr place c i k x) :
    ∃ j j', Qualifies place j j' (c.reference? x) := by
  induction h with
  | disjunction _ ih => exact ih
  | operand _ ih => exact ih
  | unary _ ih => exact ih
  | noLeading _ ih => exact ih
  | noTrailing _ ih => exact ih
  | parenthesized _ _ _ ih => exact ih
  | var hr _ => exact ⟨_, _, hr⟩
  | _ => exact ⟨[], [], .absent⟩

theorem Qualifies.constants_eq_nil {place : Token → Position} {i k : List Token} {r : Option Expr}
    (h : Qualifies place i k r) : Expr.optionConstants r = [] := by
  cases h <;> simp [Expr.optionConstants, Expr.constants]

theorem Qualifies.readings_eq {place : Token → Position} {i k : List Token} {r : Option Expr}
    (h : Qualifies place i k r) : i.flatMap readings = k.flatMap readings := by
  cases h with
  | absent => rfl
  | this ht hd => simp [readings_keyword ht, readings_symbol hd]
  | super ht hd => simp [readings_keyword ht, readings_symbol hd]

theorem DerivesExpr.readings_eq {c : ExprCategory} {i k : List Token} {x : c.Tree}
    (h : DerivesExpr Token.position c i k x) :
    i.flatMap readings = (c.constants x).map some ++ k.flatMap readings := by
  induction h with
  | disjunction _ ih => exact ih
  | assignment hl ha _ ihl ihr =>
      obtain ⟨_, _, hr⟩ := hl.exists_qualifies
      have hnil : Expr.optionConstants _ = [] := hr.constants_eq_nil
      simp_all [ExprCategory.constants, ExprCategory.reference?, Expr.reference?, Expr.constants,
        readings_symbol ha]
  | operand _ ih => exact ih
  | binary _ hop _ ihl ihr =>
      obtain ⟨_, hsymbol⟩ := Operators.exists_symbol hop
      simp_all [ExprCategory.constants, Expr.constants, readings_symbol hsymbol]
  | creation ht hn hp hq =>
      simp [ExprCategory.constants, Expr.constants, readings_keyword ht, readings_identifier hn,
        readings_symbol hp, readings_symbol hq]
  | conversion ht hp hn hc _ hq ih =>
      simp_all [ExprCategory.constants, Expr.constants, readings_keyword ht, readings_symbol hp,
        readings_identifier hn, readings_symbol hc, readings_symbol hq]
  | unary _ ih => exact ih
  | leading hop _ ih =>
      obtain ⟨_, hsymbol⟩ := exists_symbol_of_leadingOp? hop
      simp_all [ExprCategory.constants, Expr.constants, readings_symbol hsymbol]
  | noLeading _ ih => exact ih
  | trailing _ hop ih =>
      obtain ⟨_, hsymbol⟩ := exists_symbol_of_trailingOp? hop
      simp_all [ExprCategory.constants, Expr.constants, readings_symbol hsymbol]
  | noTrailing _ ih => exact ih
  | parenthesized ht _ hq ih =>
      simp_all [ExprCategory.constants, readings_symbol ht, readings_symbol hq]
  | integer ht hv =>
      simp [ExprCategory.constants, Expr.constants, readings, ht, readInteger?_eq_some_iff.2 hv]
  | boolean ht => simp [ExprCategory.constants, Expr.constants, readings, ht]
  | string ht => simp [ExprCategory.constants, Expr.constants, readings, ht]
  | var hr hn =>
      rw [hr.readings_eq, List.flatMap_cons, readings_identifier hn]
      simp [ExprCategory.constants, Expr.constants, hr.constants_eq_nil]
  | call hr hn hp _ hq ih =>
      rw [hr.readings_eq, List.flatMap_cons, List.flatMap_cons, readings_identifier hn,
        readings_symbol hp, List.nil_append, List.nil_append, ih, List.flatMap_cons,
        readings_symbol hq]
      simp [ExprCategory.constants, Expr.constants, hr.constants_eq_nil]
  | noArguments => rfl
  | someArguments _ _ ih ihs => simp_all [ExprCategory.constants]
  | noMoreArguments => rfl
  | moreArguments hc _ _ ih ihs => simp_all [ExprCategory.constants, readings_symbol hc]

theorem DerivesOptional.readings_eq {i k : List Token} {v : Option Expr}
    (h : DerivesOptional Token.position i k v) :
    i.flatMap readings = (Expr.optionConstants v).map some ++ k.flatMap readings := by
  cases h with
  | absent => rfl
  | present he => exact he.readings_eq

def StmtCategory.constants : (c : StmtCategory) → c.Tree → List Expr
  | .statement, s => s.constants
  | .body, ss => ss.flatMap Stmt.constants

theorem DerivesStmt.readings_eq {c : StmtCategory} {i k : List Token} {x : c.Tree}
    (h : DerivesStmt Token.position c i k x) :
    i.flatMap readings = (c.constants x).map some ++ k.flatMap readings := by
  induction h with
  | expression he hq =>
      rw [he.readings_eq, List.flatMap_cons, readings_symbol hq]
      rfl
  | returnValue ht hv hq =>
      rw [List.flatMap_cons, hv.readings_eq, List.flatMap_cons, readings_keyword ht,
        readings_symbol hq]
      rfl
  | breakLoop ht hq =>
      simp [StmtCategory.constants, Stmt.constants, readings_keyword ht, readings_symbol hq]
  | declaration ht hn ha he hq =>
      simp [StmtCategory.constants, Stmt.constants, readings_keyword ht, readings_identifier hn,
        readings_symbol ha, he.readings_eq, readings_symbol hq, ExprCategory.constants]
  | empty ht => simp [StmtCategory.constants, Stmt.constants, readings_symbol ht]
  | block ht _ hq ih =>
      simp [StmtCategory.constants, Stmt.constants, readings_symbol ht, ih, readings_symbol hq]
  | whileLoop ht hp he hq _ ih =>
      simp [StmtCategory.constants, Stmt.constants, readings_keyword ht, readings_symbol hp,
        he.readings_eq, readings_symbol hq, ih, ExprCategory.constants]
  | forLoop ht hp ha hq₁ hb hq₂ hc hq _ ih =>
      simp [StmtCategory.constants, Stmt.constants, readings_keyword ht, readings_symbol hp,
        ha.readings_eq, readings_symbol hq₁, hb.readings_eq, readings_symbol hq₂, hc.readings_eq,
        readings_symbol hq, ih]
  | conditional ht hp he hq _ _ ih =>
      simp [StmtCategory.constants, Stmt.constants, Stmt.optionConstants, readings_keyword ht,
        readings_symbol hp, he.readings_eq, readings_symbol hq, ih, ExprCategory.constants]
  | conditionalElse ht hp he hq _ hx _ ih ih₁ =>
      simp [StmtCategory.constants, Stmt.constants, Stmt.optionConstants, readings_keyword ht,
        readings_symbol hp, he.readings_eq, readings_symbol hq, ih, readings_keyword hx, ih₁,
        ExprCategory.constants]
  | noStatements => rfl
  | statements _ _ ih ihs => simp_all [StmtCategory.constants]

theorem DerivesInit.readings_eq {i k : List Token} {v : Option Expr}
    (h : DerivesInit Token.position i k v) :
    i.flatMap readings = (Expr.optionConstants v).map some ++ k.flatMap readings := by
  cases h with
  | absent => rfl
  | present ha he =>
      rw [List.flatMap_cons, readings_symbol ha, he.readings_eq]
      rfl

theorem DerivesParent.readings_eq {i k : List Token} {parent : Option String}
    (h : DerivesParent i k parent) : i.flatMap readings = k.flatMap readings := by
  cases h with
  | absent => rfl
  | present ht hn => simp [readings_keyword ht, readings_identifier hn]

def DeclCategory.constants : (c : DeclCategory) → c.Tree → List Expr
  | .formals, _ => []
  | .moreFormals, _ => []
  | .member, m => m.constants
  | .members, ms => ms.flatMap Member.constants
  | .classDecl, c => c.constants
  | .classes, cs => cs.flatMap ClassDecl.constants
  | .program, p => p.constants

theorem DerivesDecl.readings_eq {file : String} {c : DeclCategory} {i k : List Token} {x : c.Tree}
    (h : DerivesDecl Token.position file c i k x) :
    i.flatMap readings = (c.constants x).map some ++ k.flatMap readings := by
  induction h with
  | noFormals => rfl
  | someFormals ht hn _ ih =>
      simp_all [DeclCategory.constants, readings_identifier ht, readings_identifier hn]
  | noMoreFormals => rfl
  | moreFormals hc ht hn _ ih =>
      simp_all [DeclCategory.constants, readings_symbol hc, readings_identifier ht,
        readings_identifier hn]
  | field ht hn hv hq =>
      simp [DeclCategory.constants, Member.constants, Field.constants, readings_identifier ht,
        readings_identifier hn, hv.readings_eq, readings_symbol hq]
  | method ht hn hp _ hq hb hss hz ih =>
      simp [DeclCategory.constants, StmtCategory.constants, Member.constants, Method.constants,
        readings_identifier ht, readings_identifier hn, readings_symbol hp, ih, readings_symbol hq,
        readings_symbol hb, hss.readings_eq, readings_symbol hz]
  | noMembers => rfl
  | members _ _ ih ihs => simp_all [DeclCategory.constants]
  | classDecl ht hn hp hb _ hz ih =>
      simp [DeclCategory.constants, ClassDecl.constants, readings_keyword ht,
        readings_identifier hn, hp.readings_eq, readings_symbol hb, ih, readings_symbol hz]
  | noClasses => rfl
  | classes _ _ ih ihs => simp_all [DeclCategory.constants]
  | program _ _ ih => exact ih

end Grammar

end ClassLang
