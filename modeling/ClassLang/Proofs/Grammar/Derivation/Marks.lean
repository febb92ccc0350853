import ClassLang.Proofs.Grammar.Derivation.Constants
import ClassLang.Proofs.Syntax.Marks
import Mathlib
/-!
Marks in derivations: a tree has each mark as often as the tokens that it was read from have it.
Main statement: `DerivesDecl.markCount_eq`.
-/

namespace ClassLang

section Tokens

variable {m : Mark} {t : Token} {ts : List Token}

theorem markCount_keyword {k : Keyword} (h : t.kind = .keyword k) :
    markCount m (t :: ts) =
      (if (TokenKind.keyword k).mark? = some m then 1 else 0) + markCount m ts := by
  rw [markCount_cons, h, Nat.add_comm]

theorem markCount_assign (h : t.kind = .symbol .assign) :
    markCount m (t :: ts) = (if Mark.assign = m then 1 else 0) + markCount m ts := by
  rw [markCount_cons, h, Nat.add_comm]
  simp [TokenKind.mark?]

theorem markCount_plain (h : t.kind.mark? = none) : markCount m (t :: ts) = markCount m ts := by
  rw [markCount_cons, h]
  simp

theorem markCount_identifier (h : t.kind = .identifier) :
    markCount m (t :: ts) = markCount m ts :=
  markCount_plain (by rw [h]; rfl)

theorem markCount_symbol {s : Symbol} (h : t.kind = .symbol s) (hs : s ≠ .assign) :
    markCount m (t :: ts) = markCount m ts := by
  refine markCount_plain ?_
  rw [h]
  cases s with
  | assign => exact absurd rfl hs
  | _ => rfl

end Tokens

namespace Grammar

open Node

variable {place : Token → Position} {m : Mark}

theorem Operators.mark?_of_op? {o : Operators} {kind : TokenKind} {op : BinaryOp}
    (h : o.op? kind = some op) : kind.mark? = none := by
  obtain ⟨s, rfl⟩ := exists_symbol h
  cases s with
  | assign => cases o <;> cases h
  | _ => rfl

theorem mark?_of_leadingOp? {kind : TokenKind} {op : UnaryOp} (h : leadingOp? kind = some op) :
    kind.mark? = none := by
  obtain ⟨s, rfl⟩ := exists_symbol_of_leadingOp? h
  cases s with
  | assign => cases h
  | _ => rfl

theorem mark?_of_trailingOp? {kind : TokenKind} {op : UnaryOp} (h : trailingOp? kind = some op) :
    kind.mark? = none := by
  obtain ⟨s, rfl⟩ := exists_symbol_of_trailingOp? h
  cases s with
  | assign => cases h
  | _ => rfl

def ExprCategory.written (m : Mark) : (c : ExprCategory) → c.Tree → Nat
  | .level _, e => (Node.expr e).written m
  | .arguments, es => ((es.map Node.expr).map (Node.written m)).sum
  | .moreArguments, es => ((es.map Node.expr).map (Node.written m)).sum

theorem Qualifies.markCount_eq {i k : List Token} {r : Option Expr} (h : Qualifies place i k r) :
    markCount m i = (Mark.given .reference r).count m + markCount m k := by
  cases h with
  | absent => simp
  | this ht hd =>
      rw [markCount_keyword ht, markCount_symbol hd (by decide)]
      simp [TokenKind.mark?]
  | super ht hd =>
      rw [markCount_keyword ht, markCount_symbol hd (by decide)]
      simp [TokenKind.mark?]

/-- The reference of a variable is a plain variable itself. -/
theorem Qualifies.written_eq_zero {i k : List Token} {r : Option Expr}
    (h : Qualifies place i k r) : ((r.toList.map Node.expr).map (Node.written m)).sum = 0 := by
  cases h <;> simp [written_expr, Expr.marks, Expr.children]

theorem Qualifies.isSome_bind_varName? {i k : List Token} {r : Option Expr}
    (h : Qualifies place i k r) : (r.bind Expr.varName?).isSome = r.isSome := by
  cases h <;> rfl

theorem DerivesExpr.markCount_eq {c : ExprCategory} {i k : List Token} {x : c.Tree}
    (h : DerivesExpr place c i k x) : markCount m i = c.written m x + markCount m k := by
  induction h with
  | disjunction _ ih => exact ih
  | @assignment t a i j k p r name v hl ha _ ihl ihr =>
      obtain ⟨_, _, hr⟩ := hl.exists_qualifies
      have hzero : ((r.toList.map Node.expr).map (Node.written m)).sum = 0 := hr.written_eq_zero
      have hsome : (r.bind Expr.varName?).isSome = r.isSome := hr.isSome_bind_varName?
      simp only [ExprCategory.written] at ihl ihr ⊢
      rw [ihl, markCount_assign ha, ihr, written_expr m (.var ..), written_expr m (.assign ..)]
      simp only [Expr.marks, Expr.children, hzero]
      simp [hsome, List.count_cons]
      omega
  | operand _ ih => exact ih
  | binary _ hop _ ihl ihr =>
      simp only [ExprCategory.written] at ihl ihr ⊢
      rw [ihl, markCount_plain (Operators.mark?_of_op? hop), ihr, written_expr m (.binary ..)]
      simp [Expr.marks, Expr.children, Nat.add_assoc]
  | creation ht hn hp hq =>
      rw [markCount_keyword ht, markCount_identifier hn, markCount_symbol hp (by decide),
        markCount_symbol hq (by decide), ExprCategory.written, written_expr]
      simp [Expr.marks, Expr.children, TokenKind.mark?, List.count_cons]
  | conversion ht hp hn hc _ hq ih =>
      simp only [ExprCategory.written] at ih ⊢
      rw [markCount_keyword ht, markCount_symbol hp (by decide), markCount_identifier hn,
        markCount_symbol hc (by decide), ih, markCount_symbol hq (by decide),
        written_expr m (.cast ..)]
      simp [Expr.marks, Expr.children, TokenKind.mark?, List.count_cons, Nat.add_assoc]
  | unary _ ih => exact ih
  | leading hop _ ih =>
      simp only [ExprCategory.written] at ih ⊢
      rw [markCount_plain (mark?_of_leadingOp? hop), ih, written_expr m (.unary ..)]
      simp [Expr.marks, Expr.children]
  | noLeading _ ih => exact ih
  | trailing _ hop ih =>
      simp only [ExprCategory.written] at ih ⊢
      rw [ih, markCount_plain (mark?_of_trailingOp? hop), written_expr m (.unary ..)]
      simp [Expr.marks, Expr.children]
  | noTrailing _ ih => exact ih
  | parenthesized ht _ hq ih =>
      rw [markCount_symbol ht (by decide), ih, markCount_symbol hq (by decide)]
      rfl
  | integer ht _ =>
      rw [markCount_plain (by rw [ht]; rfl), ExprCategory.written, written_expr]
      simp [Expr.marks, Expr.children]
  | boolean ht =>
      rw [markCount_plain (by rw [ht]; rfl), ExprCategory.written, written_expr]
      simp [Expr.marks, Expr.children]
  | string ht =>
      rw [markCount_plain (by rw [ht]; rfl), ExprCategory.written, written_expr]
      simp [Expr.marks, Expr.children]
  | var hr hn =>
      rw [hr.markCount_eq, markCount_identifier hn, ExprCategory.written, written_expr,
        Expr.children, hr.written_eq_zero]
      rfl
  | call hr hn hp _ hq ih =>
      simp only [ExprCategory.written] at ih ⊢
      rw [hr.markCount_eq, markCount_identifier hn, markCount_symbol hp (by decide), ih,
        markCount_symbol hq (by decide), written_expr m (.call ..), Expr.children, List.map_append,
        List.map_append, List.sum_append, hr.written_eq_zero, Nat.zero_add, Nat.add_assoc]
      rfl
  | noArguments => simp [ExprCategory.written]
  | someArguments _ _ ih ihs =>
      rw [ih, ihs]
      simp [ExprCategory.written, Nat.add_assoc]
  | noMoreArguments => simp [ExprCategory.written]
  | moreArguments hc _ _ ih ihs =>
      rw [markCount_symbol hc (by decide), ih, ihs]
      simp [ExprCategory.written, Nat.add_assoc]

theorem DerivesOptional.markCount_eq {i k : List Token} {v : Option Expr}
    (h : DerivesOptional place i k v) :
    markCount m i = ((v.toList.map Node.expr).map (Node.written m)).sum + markCount m k := by
  cases h with
  | absent => simp
  | present he =>
      rw [he.markCount_eq]
      simp [ExprCategory.written]

def StmtCategory.written (m : Mark) : (c : StmtCategory) → c.Tree → Nat
  | .statement, s => (Node.stmt s).written m
  | .body, ss => ((ss.map Node.stmt).map (Node.written m)).sum

theorem DerivesStmt.markCount_eq {c : StmtCategory} {i k : List Token} {x : c.Tree}
    (h : DerivesStmt place c i k x) : markCount m i = c.written m x + markCount m k := by
  induction h with
  | expression he hq =>
      rw [he.markCount_eq, markCount_symbol hq (by decide), StmtCategory.written, written_stmt]
      simp [Stmt.marks, Stmt.children, ExprCategory.written]
  | returnValue ht hv hq =>
      rw [markCount_keyword ht, hv.markCount_eq, markCount_symbol hq (by decide),
        StmtCategory.written, written_stmt, Stmt.children]
      simp [Stmt.marks, TokenKind.mark?, List.count_cons, Nat.add_assoc]
  | breakLoop ht hq =>
      rw [markCount_keyword ht, markCount_symbol hq (by decide), StmtCategory.written, written_stmt]
      simp [Stmt.marks, Stmt.children, TokenKind.mark?, List.count_cons]
  | declaration ht hn ha he hq =>
      rw [markCount_keyword ht, markCount_identifier hn, markCount_assign ha, he.markCount_eq,
        markCount_symbol hq (by decide), StmtCategory.written, written_stmt]
      simp [Stmt.marks, Stmt.children, ExprCategory.written, TokenKind.mark?, List.count_cons]
      omega
  | empty ht =>
      rw [markCount_symbol ht (by decide), StmtCategory.written, written_stmt]
      simp [Stmt.marks, Stmt.children]
  | block ht _ hq ih =>
      rw [markCount_symbol ht (by decide), ih, markCount_symbol hq (by decide)]
      simp only [StmtCategory.written]
      rw [written_stmt m (.block ..)]
      simp [Stmt.marks, Stmt.children]
  | whileLoop ht hp he hq _ ih =>
      simp only [StmtCategory.written] at ih ⊢
      rw [markCount_keyword ht, markCount_symbol hp (by decide), he.markCount_eq,
        markCount_symbol hq (by decide), ih, written_stmt m (.whileLoop ..)]
      simp [Stmt.marks, Stmt.children, ExprCategory.written, TokenKind.mark?, List.count_cons,
        Nat.add_assoc]
  | forLoop ht hp ha hq₁ hb hq₂ hc hq _ ih =>
      simp only [StmtCategory.written] at ih ⊢
      rw [markCount_keyword ht, markCount_symbol hp (by decide), ha.markCount_eq,
        markCount_symbol hq₁ (by decide), hb.markCount_eq, markCount_symbol hq₂ (by decide),
        hc.markCount_eq, markCount_symbol hq (by decide), ih, written_stmt m (.forLoop ..)]
      simp [Stmt.marks, Stmt.children, TokenKind.mark?, List.count_cons, Nat.add_assoc]
  | conditional ht hp he hq _ _ ih =>
      simp only [StmtCategory.written] at ih ⊢
      rw [markCount_keyword ht, markCount_symbol hp (by decide), he.markCount_eq,
        markCount_symbol hq (by decide), ih, written_stmt m (.conditional ..)]
      simp [Stmt.marks, Stmt.children, ExprCategory.written, TokenKind.mark?, List.count_cons,
        Nat.add_assoc]
  | conditionalElse ht hp he hq _ hx _ ih ih₁ =>
      simp only [StmtCategory.written] at ih ih₁ ⊢
      rw [markCount_keyword ht, markCount_symbol hp (by decide), he.markCount_eq,
        markCount_symbol hq (by decide), ih, markCount_keyword hx, ih₁,
        written_stmt m (.conditional ..)]
      simp [Stmt.marks, Stmt.children, ExprCategory.written, TokenKind.mark?, List.count_cons]
      omega
  | noStatements => simp [StmtCategory.written]
  | statements _ _ ih ihs =>
      rw [ih, ihs]
      simp [StmtCategory.written, Nat.add_assoc]

theorem DerivesInit.markCount_eq {i k : List Token} {v : Option Expr} (h : DerivesInit place i k v) :
    markCount m i = (Mark.given .assign v).count m +
      ((v.toList.map Node.expr).map (Node.written m)).sum + markCount m k := by
  cases h with
  | absent => simp
  | present ha he =>
      rw [markCount_assign ha, he.markCount_eq]
      simp [ExprCategory.written, Nat.add_assoc]

theorem DerivesParent.markCount_eq {i k : List Token} {parent : Option String}
    (h : DerivesParent i k parent) :
    markCount m i = (Mark.given (.word .kwExtends) parent).count m + markCount m k := by
  cases h with
  | absent => simp
  | present ht hn =>
      rw [markCount_keyword ht, markCount_identifier hn]
      simp [TokenKind.mark?]

theorem sum_written_formals (fs : List Formal) :
    ((fs.map Node.formal).map (Node.written m)).sum = 0 := by
  induction fs with
  | nil => rfl
  | cons f fs ih =>
      rw [List.map_cons, List.map_cons, List.sum_cons, ih, written_eq]
      rfl

def DeclCategory.written (m : Mark) : (c : DeclCategory) → c.Tree → Nat
  | .formals, _ => 0
  | .moreFormals, _ => 0
  | .member, x => x.node.written m
  | .members, xs => ((xs.map Member.node).map (Node.written m)).sum
  | .classDecl, c => (Node.classDecl c).written m
  | .classes, cs => ((cs.map Node.classDecl).map (Node.written m)).sum
  | .program, p => (Node.program p).written m

theorem DerivesDecl.markCount_eq {file : String} {c : DeclCategory} {i k : List Token} {x : c.Tree}
    (h : DerivesDecl place file c i k x) : markCount m i = c.written m x + markCount m k := by
  induction h with
  | noFormals => simp [DeclCategory.written]
  | someFormals ht hn _ ih =>
      rw [markCount_identifier ht, markCount_identifier hn, ih]
      rfl
  | noMoreFormals => simp [DeclCategory.written]
  | moreFormals hc ht hn _ ih =>
      rw [markCount_symbol hc (by decide), markCount_identifier ht, markCount_identifier hn, ih]
      rfl
  | field ht hn hv hq =>
      rw [markCount_identifier ht, markCount_identifier hn, hv.markCount_eq,
        markCount_symbol hq (by decide), DeclCategory.written, Member.node, written_eq]
      rfl
  | method ht hn hp _ hq hb hss hz ih =>
      rw [markCount_identifier ht, markCount_identifier hn, markCount_symbol hp (by decide), ih,
        markCount_symbol hq (by decide), markCount_symbol hb (by decide), hss.markCount_eq,
        markCount_symbol hz (by decide)]
      simp only [DeclCategory.written, StmtCategory.written, Member.node]
      rw [written_eq m (.method _), children, List.map_append, List.sum_append, sum_written_formals]
      simp [marks]
  | noMembers => simp [DeclCategory.written]
  | members _ _ ih ihs =>
      rw [ih, ihs]
      simp [DeclCategory.written, Nat.add_assoc]
  | classDecl ht hn hp hb _ hz ih =>
      rw [markCount_keyword ht, markCount_identifier hn, hp.markCount_eq,
        markCount_symbol hb (by decide), ih, markCount_symbol hz (by decide)]
      simp only [DeclCategory.written]
      rw [written_eq m (.classDecl _)]
      simp [marks, children, TokenKind.mark?, List.count_cons]
      omega
  | noClasses => simp [DeclCategory.written]
  | classes _ _ ih ihs =>
      rw [ih, ihs]
      simp [DeclCategory.written, Nat.add_assoc]
  | program _ _ ih =>
      rw [ih, DeclCategory.written, DeclCategory.written, written_eq]
      simp [marks, children]

end Grammar

end ClassLang
