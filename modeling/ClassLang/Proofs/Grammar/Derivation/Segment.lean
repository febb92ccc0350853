import ClassLang.Proofs.Grammar.Derivation.Declaration
import ClassLang.Proofs.Syntax.Segment
/-!
Segments of derived trees: the parts of a tree lie inside the tokens that derive it. Main statement:
the tokens of a program are a segment of it (`DerivesDecl.liesOn`).
-/

namespace ClassLang

namespace Grammar

@[simp] def ExprCategory.outlines : (c : ExprCategory) → c.Tree → List Outline
  | .level _, e => [e.outline]
  | .arguments, es => es.map Expr.outline
  | .moreArguments, es => es.map Expr.outline

theorem Qualifies.eq_or_exists {i k : List Token} {r : Option Expr}
    (h : Qualifies Token.position i k r) :
    (r = none ∧ i = k) ∨
      ∃ t d, r = some (.var t.position none t.value) ∧ i = t :: d :: k ∧ d.kind = .symbol .dot := by
  cases h with
  | absent => exact .inl ⟨rfl, rfl⟩
  | this _ hd => exact .inr ⟨_, _, rfl, rfl, hd⟩
  | super _ hd => exact .inr ⟨_, _, rfl, rfl, hd⟩

theorem exists_inside_cons {os : List Outline} {u i k : List Token} {t q : Token}
    (h : Inside os u) (hu : t :: i = u ++ q :: k) : ∃ v, i = v ++ k ∧ Inside os (t :: v) := by
  obtain ⟨v, rfl, hv⟩ := exists_cons_of_cons_eq_append hu
  have hclosed := h.widen [q]
  rw [hv, List.append_nil] at hclosed
  exact ⟨v, rfl, hclosed⟩

theorem DerivesExpr.inside {c : ExprCategory} {i k : List Token} {x : c.Tree}
    (h : DerivesExpr Token.position c i k x) :
    ∃ segment, i = segment ++ k ∧ Inside (c.outlines x) segment := by
  induction h with
  | disjunction _ ih => exact ih
  | @assignment t a i j k p r name v _ _ _ ihl ihr =>
      obtain ⟨u, hu, -⟩ := ihl
      obtain ⟨v, rfl, -⟩ := exists_cons_of_cons_eq_append hu
      obtain ⟨w, rfl, hvalue⟩ := ihr
      have hparts := hvalue.prepend (by simp) (t :: v)
      exact ⟨t :: (v ++ w), by simp, by simpa [Expr.outline] using hparts.node⟩
  | operand _ ih => exact ih
  | @binary o op t a i j k l r _ _ _ ihl ihr =>
      obtain ⟨u, hu, hl⟩ := ihl
      obtain ⟨v, rfl, hv⟩ := exists_cons_of_cons_eq_append hu
      obtain ⟨w, rfl, hr⟩ := ihr
      have hparts := hl.append (hr.prepend (by simp) [a]) (by simp)
      rw [List.singleton_append, hv] at hparts
      exact ⟨t :: (v ++ w), by simp, by simpa [Expr.outline] using hparts.node⟩
  | @creation t n p q k _ _ _ _ =>
      exact ⟨[t, n, p, q], rfl, by simpa [Expr.outline] using Inside.leaf t [n, p, q]⟩
  | @conversion t p n c q i k e _ _ _ _ _ _ ih =>
      obtain ⟨u, rfl, he⟩ := ih
      have hparts := (he.prepend (by simp) [t, p, n, c]).widen [q]
      exact ⟨t :: p :: n :: c :: (u ++ [q]), by simp, by simpa [Expr.outline] using hparts.node⟩
  | unary _ ih => exact ih
  | @leading op t i k e _ _ ih =>
      obtain ⟨u, rfl, he⟩ := ih
      have hparts := he.prepend (by simp) [t]
      exact ⟨t :: u, rfl, by simpa [Expr.outline] using hparts.node⟩
  | noLeading _ ih => exact ih
  | @trailing op t a i k e _ _ ih =>
      obtain ⟨u, hu, he⟩ := ih
      obtain ⟨v, rfl, hparts⟩ := exists_inside_cons he hu
      exact ⟨t :: v, rfl, by simpa [Expr.outline] using hparts.node⟩
  | noTrailing _ ih => exact ih
  | @parenthesized t q i k e _ _ _ ih =>
      -- parentheses are not a part of the tree, so they only widen the segment
      obtain ⟨u, rfl, he⟩ := ih
      exact ⟨[t] ++ u ++ [q], by simp, (he.prepend (by simp) [t]).widen [q]⟩
  | @integer t k v _ _ => exact ⟨[t], rfl, by simpa [Expr.outline] using Inside.leaf t []⟩
  | @boolean t k _ => exact ⟨[t], rfl, by simpa [Expr.outline] using Inside.leaf t []⟩
  | @string t k _ => exact ⟨[t], rfl, by simpa [Expr.outline] using Inside.leaf t []⟩
  | @var t n i k r hr _ =>
      rcases hr.eq_or_exists with ⟨rfl, hi⟩ | ⟨_, d, rfl, hi, -⟩
      · cases hi
        exact ⟨[t], rfl, by simpa [Expr.outline, Expr.qualifierOutlines] using Inside.leaf t []⟩
      · cases hi
        have hrest : Inside [] [d, n] := .nil
        have hparts := hrest.qualifier t
        exact ⟨[t, d, n], rfl, by
          simpa [Expr.outline, Expr.qualifierOutlines] using hparts.node⟩
  | @call t n p a q i j k r es hr hn hp _ _ ih =>
      obtain ⟨u, hu, hes⟩ := ih
      obtain ⟨w, rfl, hitems⟩ := exists_inside_cons hes hu
      rcases hr.eq_or_exists with ⟨rfl, hi⟩ | ⟨_, d, rfl, hi, hd⟩
      · cases hi
        have hgap : OpenWith .openParen [t, p] := ⟨[t], p, rfl, hp, by simp [hn]⟩
        have hparts : Inside [⟨.arguments, a.position, _⟩] ([t, p] ++ a :: w) :=
          .single hgap hitems
        exact ⟨t :: p :: a :: w, by simp, by
          simpa [Expr.outline, Expr.qualifierOutlines] using hparts.node⟩
      · cases hi
        have hgap : OpenWith .openParen [d, n, p] := ⟨[d, n], p, rfl, hp, by simp [hd, hn]⟩
        have hlist : Inside [⟨.arguments, a.position, _⟩] ([d, n, p] ++ a :: w) :=
          .single hgap hitems
        have hparts := hlist.qualifier t
        exact ⟨t :: d :: n :: p :: a :: w, by simp, by
          simpa [Expr.outline, Expr.qualifierOutlines] using hparts.node⟩
  | noArguments => exact ⟨[], rfl, .nil⟩
  | someArguments _ _ ihe ihes =>
      obtain ⟨u, rfl, he⟩ := ihe
      obtain ⟨v, rfl, hes⟩ := ihes
      exact ⟨u ++ v, by simp, he.append hes (by simp)⟩
  | noMoreArguments => exact ⟨[], rfl, .nil⟩
  | @moreArguments c i j k e es _ _ _ ihe ihes =>
      obtain ⟨u, rfl, he⟩ := ihe
      obtain ⟨v, rfl, hes⟩ := ihes
      exact ⟨c :: (u ++ v), by simp, (he.prepend (by simp) [c]).append hes (by simp)⟩

theorem DerivesOptional.inside {i k : List Token} {v : Option Expr}
    (h : DerivesOptional Token.position i k v) :
    ∃ segment, i = segment ++ k ∧ Inside (v.toList.map Expr.outline) segment := by
  cases h with
  | absent => exact ⟨[], rfl, .nil⟩
  | present he => exact he.inside

@[simp] def StmtCategory.outlines : (c : StmtCategory) → c.Tree → List Outline
  | .statement, s => [s.outline]
  | .body, ss => ss.map Stmt.outline

theorem DerivesStmt.inside {c : StmtCategory} {i k : List Token} {x : c.Tree}
    (h : DerivesStmt Token.position c i k x) :
    ∃ segment, i = segment ++ k ∧ Inside (c.outlines x) segment := by
  induction h with
  | @expression t q i k e he _ =>
      obtain ⟨u, hu, hvalue⟩ := he.inside
      obtain ⟨v, rfl, hparts⟩ := exists_inside_cons hvalue hu
      exact ⟨t :: v, rfl, by simpa [Stmt.outline] using hparts.node⟩
  | @returnValue t q i k v _ hv _ =>
      obtain ⟨u, rfl, hvalue⟩ := hv.inside
      have hparts := (hvalue.prepend (by simp) [t]).widen [q]
      exact ⟨t :: (u ++ [q]), by simp, by simpa [Stmt.outline] using hparts.node⟩
  | @breakLoop t q k _ _ =>
      exact ⟨[t, q], rfl, by simpa [Stmt.outline] using Inside.leaf t [q]⟩
  | @declaration t n a q i k e _ _ _ he _ =>
      obtain ⟨u, rfl, hinit⟩ := he.inside
      have hparts := (hinit.prepend (by simp) [t, n, a]).widen [q]
      exact ⟨t :: n :: a :: (u ++ [q]), by simp, by simpa [Stmt.outline] using hparts.node⟩
  | @empty t k ht =>
      have hfits : Role.body.Fits [] t := ⟨rfl, .inr ht⟩
      have hitems : Inside [] (t :: []) := .nil
      have hparts := Inside.single hfits hitems
      exact ⟨[t], rfl, by simpa [Stmt.outline, Stmt.listOutlines] using hparts.node⟩
  | @block t q i k ss ht _ _ ih =>
      obtain ⟨u, rfl, hss⟩ := ih
      have hfits : Role.body.Fits [] t := ⟨rfl, .inl ht⟩
      have hitems := (hss.prepend (by simp) [t]).widen [q]
      have hparts := Inside.single hfits hitems
      exact ⟨t :: (u ++ [q]), by simp, by simpa [Stmt.outline] using hparts.node⟩
  | @whileLoop t p q i j k e s _ _ he _ _ ih =>
      obtain ⟨u, rfl, hpredicate⟩ := he.inside
      obtain ⟨v, rfl, hs⟩ := ih
      have hbranch := hs.prepend (by simp) [q]
      have hparts := (hpredicate.prepend (by simp) [t, p]).append hbranch (by simp)
      exact ⟨t :: p :: (u ++ q :: v), by simp, by simpa [Stmt.outline] using hparts.node⟩
  | @forLoop t p q₁ q₂ q i i₁ i₂ j k a b c s _ _ ha _ hb _ hc _ _ ih =>
      obtain ⟨u, rfl, hfirst⟩ := ha.inside
      obtain ⟨u₁, rfl, hterminate⟩ := hb.inside
      obtain ⟨u₂, rfl, hincrement⟩ := hc.inside
      obtain ⟨v, rfl, hs⟩ := ih
      have hclauses := ((hfirst.prepend (by simp) [t, p]).append
        (hterminate.prepend (by simp) [q₁]) (by simp)).append
          (hincrement.prepend (by simp) [q₂]) (by simp)
      have hparts := hclauses.append (hs.prepend (by simp) [q]) (by simp)
      exact ⟨t :: p :: (u ++ q₁ :: (u₁ ++ q₂ :: (u₂ ++ q :: v))), by simp, by
        simpa [Stmt.outline] using hparts.node⟩
  | @conditional t p q i j k e s _ _ he _ _ _ ih =>
      obtain ⟨u, rfl, hpredicate⟩ := he.inside
      obtain ⟨v, rfl, hs⟩ := ih
      have hbranch := hs.prepend (by simp) [q]
      have hparts := (hpredicate.prepend (by simp) [t, p]).append hbranch (by simp)
      exact ⟨t :: p :: (u ++ q :: v), by simp, by
        simpa [Stmt.outline, Stmt.optionOutlines] using hparts.node⟩
  | @conditionalElse t p q x i j j₁ k e s s₁ _ _ he _ _ _ _ ih ih₁ =>
      obtain ⟨u, rfl, hpredicate⟩ := he.inside
      obtain ⟨v, rfl, hs⟩ := ih
      obtain ⟨w, rfl, hs₁⟩ := ih₁
      have hbranch := hs.prepend (by simp) [q]
      have hthen := (hpredicate.prepend (by simp) [t, p]).append hbranch (by simp)
      have hparts := hthen.append (hs₁.prepend (by simp) [x]) (by simp)
      exact ⟨t :: p :: (u ++ q :: (v ++ x :: w)), by simp, by
        simpa [Stmt.outline, Stmt.optionOutlines] using hparts.node⟩
  | noStatements => exact ⟨[], rfl, .nil⟩
  | statements _ _ ih ihs =>
      obtain ⟨u, rfl, hs⟩ := ih
      obtain ⟨v, rfl, hss⟩ := ihs
      exact ⟨u ++ v, by simp, hs.append hss (by simp)⟩

theorem DerivesInit.inside {i k : List Token} {v : Option Expr}
    (h : DerivesInit Token.position i k v) :
    ∃ segment, i = segment ++ k ∧ Inside (v.toList.map Expr.outline) segment := by
  cases h with
  | absent => exact ⟨[], rfl, .nil⟩
  | @present a _ _ _ _ he =>
      obtain ⟨u, rfl, hvalue⟩ := he.inside
      exact ⟨a :: u, rfl, hvalue.prepend (by simp) [a]⟩

theorem DerivesParent.exists_no_brace {i k : List Token} {parent : Option String}
    (h : DerivesParent i k parent) :
    ∃ u, i = u ++ k ∧ ∀ t ∈ u, t.kind ≠ .symbol .openBrace := by
  cases h with
  | absent => exact ⟨[], rfl, by simp⟩
  | present ht hn => exact ⟨[_, _], rfl, by simp [ht, hn]⟩

@[simp] def DeclCategory.outlines : (c : DeclCategory) → c.Tree → List Outline
  | .formals, fs => fs.map Formal.outline
  | .moreFormals, fs => fs.map Formal.outline
  | .member, m => [m.outline]
  | .members, ms => ms.map Member.outline
  | .classDecl, c => [c.outline]
  | .classes, cs => cs.map ClassDecl.outline
  | .program, p => [p.outline]

section Decl

variable {file : String}

theorem DerivesDecl.inside {c : DeclCategory} {i k : List Token} {x : c.Tree}
    (h : DerivesDecl Token.position file c i k x) (hprogram : c ≠ .program) :
    ∃ segment, i = segment ++ k ∧ Inside (c.outlines x) segment := by
  induction h with
  | noFormals => exact ⟨[], rfl, .nil⟩
  | @someFormals t n j k fs _ _ _ ih =>
      obtain ⟨u, rfl, hfs⟩ := ih (by simp)
      exact ⟨t :: n :: u, rfl, (Inside.leaf t [n]).append hfs (by simp [Formal.outline])⟩
  | noMoreFormals => exact ⟨[], rfl, .nil⟩
  | @moreFormals c t n j k fs _ _ _ _ ih =>
      obtain ⟨u, rfl, hfs⟩ := ih (by simp)
      have hfirst := (Inside.leaf t [n]).prepend (by simp) [c]
      exact ⟨c :: t :: n :: u, rfl, hfirst.append hfs (by simp [Formal.outline])⟩
  | @field t n q i k v _ _ hv _ =>
      obtain ⟨u, rfl, hvalue⟩ := hv.inside
      have hparts := (hvalue.prepend (by simp) [t, n]).widen [q]
      exact ⟨t :: n :: (u ++ [q]), by simp, hparts.node⟩
  | @method t n p a q b z i j k fs ss ht hn hp _ _ hb hss _ ih =>
      obtain ⟨u', hu, hfs⟩ := ih (by simp)
      obtain ⟨u, rfl, hformals⟩ := exists_inside_cons hfs hu
      obtain ⟨v, rfl, hitems⟩ := hss.inside
      have hstatements := (hitems.prepend (by simp) [b]).widen [z]
      have hgap : OpenWith .openParen [t, n, p] := ⟨[t, n], p, rfl, hp, by simp [ht, hn]⟩
      have hbody : Inside [⟨.body, b.position, _⟩] ([] ++ b :: (v ++ [z])) :=
        .single ⟨rfl, .inl hb⟩ hstatements
      have hparts : Inside (⟨.formals, a.position, _⟩ :: _) ([t, n, p] ++ (a :: u ++ _)) :=
        .cons hgap hformals hbody
      exact ⟨t :: n :: p :: a :: (u ++ b :: (v ++ [z])), by simp, hparts.node⟩
  | noMembers => exact ⟨[], rfl, .nil⟩
  | members _ _ ih ihs =>
      obtain ⟨u, rfl, hm⟩ := ih (by simp)
      obtain ⟨v, rfl, hms⟩ := ihs (by simp)
      exact ⟨u ++ v, by simp, hm.append hms (by simp)⟩
  | @classDecl t n b a z i j k parent ms ht hn hparent hb _ _ ih =>
      obtain ⟨u, rfl, hno⟩ := hparent.exists_no_brace
      obtain ⟨v', hv, hms⟩ := ih (by simp)
      obtain ⟨v, rfl, hmembers⟩ := exists_inside_cons hms hv
      have hgap : OpenWith .openBrace (t :: n :: u ++ [b]) :=
        ⟨t :: n :: u, b, rfl, hb, by simpa [ht, hn] using hno⟩
      have hparts : Inside [⟨.members, a.position, _⟩] ((t :: n :: u ++ [b]) ++ a :: v) :=
        .single hgap hmembers
      refine ⟨t :: n :: (u ++ b :: a :: v), by simp, ?_⟩
      simpa [ClassDecl.outline, NodeList.outline] using hparts.node
  | noClasses => exact ⟨[], rfl, .nil⟩
  | classes _ _ ih ihs =>
      obtain ⟨u, rfl, hc⟩ := ih (by simp)
      obtain ⟨v, rfl, hcs⟩ := ihs (by simp)
      exact ⟨u ++ v, by simp, hc.append hcs (by simp [ClassDecl.outline])⟩
  | program => exact absurd rfl hprogram

theorem DerivesDecl.liesOn {i k : List Token} {p : Program}
    (h : DerivesDecl Token.position file .program i k p) : p.outline.LiesOn i := by
  cases h with
  | @program t q i k cs hcs _ =>
      obtain ⟨u, hu, hcs⟩ := hcs.inside (by simp)
      have hclasses := hcs.widen (q :: k)
      rw [← hu] at hclasses
      have hparts : Inside [⟨.classes, t.position, _⟩] ([] ++ t :: i) := .single rfl hclasses
      exact ⟨⟨t, rfl, rfl⟩, hparts⟩

end Decl

end Grammar

end ClassLang
