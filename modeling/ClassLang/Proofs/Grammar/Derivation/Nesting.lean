import ClassLang.Proofs.Grammar.Derivation.Declaration
/-!
Brackets in derivations: between the two places of a derivation every bracket is closed by one of
its kind. Main statement: `DerivesDecl.nested`.
-/

namespace ClassLang

/-- Lists of brackets in which each opening bracket has its closing one. -/
inductive Nested : List Symbol → Prop
  | nil : Nested []
  | parens {v w : List Symbol} :
      Nested v → Nested w → Nested (.openParen :: (v ++ .closeParen :: w))
  | braces {v w : List Symbol} :
      Nested v → Nested w → Nested (.openBrace :: (v ++ .closeBrace :: w))

theorem Nested.append {v w : List Symbol} (hv : Nested v) (hw : Nested w) : Nested (v ++ w) := by
  induction hv with
  | nil => exact hw
  | parens hu _ _ ih =>
      rw [List.cons_append, List.append_assoc, List.cons_append]
      exact .parens hu ih
  | braces hu _ _ ih =>
      rw [List.cons_append, List.append_assoc, List.cons_append]
      exact .braces hu ih

def TokenKind.bracket? : TokenKind → Option Symbol
  | .symbol .openParen => some .openParen
  | .symbol .closeParen => some .closeParen
  | .symbol .openBrace => some .openBrace
  | .symbol .closeBrace => some .closeBrace
  | _ => none

def brackets (ts : List Token) : List Symbol :=
  ts.filterMap fun t => t.kind.bracket?

/-- The brackets from the first place up to the second are nested. -/
def NestedBetween (i k : List Token) : Prop :=
  ∃ w, Nested w ∧ brackets i = w ++ brackets k

namespace NestedBetween

variable {i j k : List Token} {t p q : Token}

theorem refl (k : List Token) : NestedBetween k k :=
  ⟨[], .nil, rfl⟩

theorem trans (h : NestedBetween i j) (h' : NestedBetween j k) : NestedBetween i k := by
  obtain ⟨v, hv, hi⟩ := h
  obtain ⟨w, hw, hj⟩ := h'
  exact ⟨v ++ w, hv.append hw, by rw [hi, hj, List.append_assoc]⟩

theorem plain (ht : t.kind.bracket? = none) : NestedBetween (t :: k) k :=
  ⟨[], .nil, List.filterMap_cons_none ht⟩

theorem keyword {w : Keyword} (ht : t.kind = .keyword w) : NestedBetween (t :: k) k :=
  plain (by rw [ht]; rfl)

theorem identifier (ht : t.kind = .identifier) : NestedBetween (t :: k) k :=
  plain (by rw [ht]; rfl)

theorem symbol {s : Symbol} (ht : t.kind = .symbol s) (hs : (TokenKind.symbol s).bracket? = none) :
    NestedBetween (t :: k) k :=
  plain (ht ▸ hs)

theorem parens (hp : p.kind = .symbol .openParen) (h : NestedBetween i (q :: k))
    (hq : q.kind = .symbol .closeParen) : NestedBetween (p :: i) k := by
  obtain ⟨w, hw, hi⟩ := h
  refine ⟨.openParen :: (w ++ [.closeParen]), .parens hw .nil, ?_⟩
  rw [brackets, List.filterMap_cons_some (by rw [hp]; rfl), ← brackets, hi, brackets,
    List.filterMap_cons_some (by rw [hq]; rfl), ← brackets]
  simp

theorem braces (hp : p.kind = .symbol .openBrace) (h : NestedBetween i (q :: k))
    (hq : q.kind = .symbol .closeBrace) : NestedBetween (p :: i) k := by
  obtain ⟨w, hw, hi⟩ := h
  refine ⟨.openBrace :: (w ++ [.closeBrace]), .braces hw .nil, ?_⟩
  rw [brackets, List.filterMap_cons_some (by rw [hp]; rfl), ← brackets, hi, brackets,
    List.filterMap_cons_some (by rw [hq]; rfl), ← brackets]
  simp

end NestedBetween

namespace Grammar

open NestedBetween

variable {place : Token → Position} {i k : List Token}

theorem Operators.bracket?_of_op? {o : Operators} {kind : TokenKind} {op : BinaryOp}
    (h : o.op? kind = some op) : kind.bracket? = none := by
  obtain ⟨s, rfl⟩ := exists_symbol h
  cases s <;> first | rfl | (cases o <;> cases h)

theorem bracket?_of_leadingOp? {kind : TokenKind} {op : UnaryOp} (h : leadingOp? kind = some op) :
    kind.bracket? = none := by
  obtain ⟨s, rfl⟩ := exists_symbol_of_leadingOp? h
  cases s <;> first | rfl | cases h

theorem bracket?_of_trailingOp? {kind : TokenKind} {op : UnaryOp}
    (h : trailingOp? kind = some op) : kind.bracket? = none := by
  obtain ⟨s, rfl⟩ := exists_symbol_of_trailingOp? h
  cases s <;> first | rfl | cases h

theorem Qualifies.nested {r : Option Expr} (h : Qualifies place i k r) : NestedBetween i k := by
  cases h with
  | absent => exact refl _
  | this ht hd => exact (keyword ht).trans (symbol hd rfl)
  | super ht hd => exact (keyword ht).trans (symbol hd rfl)

theorem DerivesExpr.nested {c : ExprCategory} {x : c.Tree} (h : DerivesExpr place c i k x) :
    NestedBetween i k := by
  induction h with
  | disjunction _ ih => exact ih
  | assignment _ ha _ ihl ihr => exact ihl.trans ((symbol ha rfl).trans ihr)
  | operand _ ih => exact ih
  | binary _ hop _ ihl ihr => exact ihl.trans ((plain (Operators.bracket?_of_op? hop)).trans ihr)
  | creation ht hn hp hq => exact (keyword ht).trans ((identifier hn).trans (parens hp (refl _) hq))
  | conversion ht hp hn hc _ hq ih =>
      exact (keyword ht).trans (parens hp ((identifier hn).trans ((symbol hc rfl).trans ih)) hq)
  | unary _ ih => exact ih
  | leading hop _ ih => exact (plain (bracket?_of_leadingOp? hop)).trans ih
  | noLeading _ ih => exact ih
  | trailing _ hop ih => exact ih.trans (plain (bracket?_of_trailingOp? hop))
  | noTrailing _ ih => exact ih
  | parenthesized ht _ hq ih => exact parens ht ih hq
  | integer ht _ => exact plain (by rw [ht]; rfl)
  | boolean ht => exact plain (by rw [ht]; rfl)
  | string ht => exact plain (by rw [ht]; rfl)
  | var hr hn => exact hr.nested.trans (identifier hn)
  | call hr hn hp _ hq ih => exact hr.nested.trans ((identifier hn).trans (parens hp ih hq))
  | noArguments => exact refl _
  | someArguments _ _ ih ihs => exact ih.trans ihs
  | noMoreArguments => exact refl _
  | moreArguments hc _ _ ih ihs => exact (symbol hc rfl).trans (ih.trans ihs)

theorem DerivesOptional.nested {v : Option Expr} (h : DerivesOptional place i k v) :
    NestedBetween i k := by
  cases h with
  | absent => exact refl _
  | present he => exact he.nested

theorem DerivesStmt.nested {c : StmtCategory} {x : c.Tree} (h : DerivesStmt place c i k x) :
    NestedBetween i k := by
  induction h with
  | expression he hq => exact he.nested.trans (symbol hq rfl)
  | returnValue ht hv hq => exact (keyword ht).trans (hv.nested.trans (symbol hq rfl))
  | breakLoop ht hq => exact (keyword ht).trans (symbol hq rfl)
  | declaration ht hn ha he hq =>
      have hvalue := he.nested.trans (symbol hq rfl)
      exact (keyword ht).trans ((identifier hn).trans ((symbol ha rfl).trans hvalue))
  | empty ht => exact symbol ht rfl
  | block ht _ hq ih => exact braces ht ih hq
  | whileLoop ht hp he hq _ ih => exact (keyword ht).trans ((parens hp he.nested hq).trans ih)
  | forLoop ht hp ha hq₁ hb hq₂ hc hq _ ih =>
      have hsecond := hb.nested.trans ((symbol hq₂ rfl).trans hc.nested)
      have hhead := ha.nested.trans ((symbol hq₁ rfl).trans hsecond)
      exact (keyword ht).trans ((parens hp hhead hq).trans ih)
  | conditional ht hp he hq _ _ ih => exact (keyword ht).trans ((parens hp he.nested hq).trans ih)
  | conditionalElse ht hp he hq _ hx _ ih ih₁ =>
      have hbranches := ih.trans ((keyword hx).trans ih₁)
      exact (keyword ht).trans ((parens hp he.nested hq).trans hbranches)
  | noStatements => exact refl _
  | statements _ _ ih ihs => exact ih.trans ihs

theorem DerivesInit.nested {v : Option Expr} (h : DerivesInit place i k v) :
    NestedBetween i k := by
  cases h with
  | absent => exact refl _
  | present ha he => exact (symbol ha rfl).trans he.nested

theorem DerivesParent.nested {parent : Option String} (h : DerivesParent i k parent) :
    NestedBetween i k := by
  cases h with
  | absent => exact refl _
  | present ht hn => exact (keyword ht).trans (identifier hn)

theorem DerivesDecl.nested {file : String} {c : DeclCategory} {x : c.Tree}
    (h : DerivesDecl place file c i k x) : NestedBetween i k := by
  induction h with
  | noFormals => exact refl _
  | someFormals ht hn _ ih => exact (identifier ht).trans ((identifier hn).trans ih)
  | noMoreFormals => exact refl _
  | moreFormals hc ht hn _ ih =>
      exact (symbol hc rfl).trans ((identifier ht).trans ((identifier hn).trans ih))
  | field ht hn hv hq =>
      exact (identifier ht).trans ((identifier hn).trans (hv.nested.trans (symbol hq rfl)))
  | method ht hn hp _ hq hb hss hz ih =>
      have hrest := (parens hp ih hq).trans (braces hb hss.nested hz)
      exact (identifier ht).trans ((identifier hn).trans hrest)
  | noMembers => exact refl _
  | members _ _ ih ihs => exact ih.trans ihs
  | classDecl ht hn hp hb _ hz ih =>
      exact (keyword ht).trans ((identifier hn).trans (hp.nested.trans (braces hb ih hz)))
  | noClasses => exact refl _
  | classes _ _ ih ihs => exact ih.trans ihs
  | program _ _ ih => exact ih

end Grammar

end ClassLang
