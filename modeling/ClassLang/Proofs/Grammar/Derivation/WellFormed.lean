import ClassLang.Proofs.Grammar.Derivation.Declaration
import ClassLang.Proofs.Syntax.Located
import ClassLang.Proofs.Token.Lexical
/-!
Derived trees: the grammar derives well-formed trees only, and they stand in the file that the
tokens stand in. That an `else` belongs to the nearest conditional is a fact about what follows a
statement (`DerivesStmt.nextKind_ne_else`). Main statement: `DerivesDecl.sound`.
-/

namespace ClassLang

namespace Grammar

def AllLexical (file : String) (i : List Token) : Prop :=
  ∀ t ∈ i, t.Lexical file

theorem allLexical_cons {file : String} {t : Token} {i : List Token} :
    AllLexical file (t :: i) ↔ t.Lexical file ∧ AllLexical file i := by
  simp [AllLexical]

theorem isName_of_lexical {file : String} {t : Token} (h : t.Lexical file)
    (hkind : t.kind = .identifier) : isName t.value = true := by
  have hadmits := h.admits
  rw [hkind] at hadmits
  exact hadmits

theorem isQualifier_of_lexical {file : String} {t : Token} (h : t.Lexical file)
    (hkind : t.kind = .keyword .kwThis ∨ t.kind = .keyword .kwSuper) :
    isQualifier t.value = true := by
  have hadmits := h.admits
  rcases hkind with hk | hk
  · rw [hk] at hadmits
    simp [isQualifier, show t.value = _ from hadmits]
  · rw [hk] at hadmits
    simp [isQualifier, show t.value = _ from hadmits]

theorem Qualifies.sound {file : String} {t : Token} {i k : List Token} {r : Option Expr}
    (h : Qualifies Token.position (t :: i) k r) (hi : AllLexical file (t :: i)) :
    Expr.isReference r = true ∧ Expr.referenceStandsAt file t.position r = true ∧
      AllLexical file k := by
  have hfile := (allLexical_cons.1 hi).1.file_eq
  cases h with
  | absent => exact ⟨rfl, rfl, hi⟩
  | this ht hd =>
      have hword := isQualifier_of_lexical (allLexical_cons.1 hi).1 (.inl ht)
      rw [allLexical_cons, allLexical_cons] at hi
      exact ⟨hword, by simp [Expr.referenceStandsAt, Expr.standsIn, Expr.position, hfile], hi.2.2⟩
  | super ht hd =>
      have hword := isQualifier_of_lexical (allLexical_cons.1 hi).1 (.inr ht)
      rw [allLexical_cons, allLexical_cons] at hi
      exact ⟨hword, by simp [Expr.referenceStandsAt, Expr.standsIn, Expr.position, hfile], hi.2.2⟩

def ExprCategory.sound (file : String) : (c : ExprCategory) → c.Tree → Bool
  | .level _, e => e.wellFormed && e.standsIn file
  | .arguments, es => es.all Expr.wellFormed && es.all (Expr.standsIn file)
  | .moreArguments, es => es.all Expr.wellFormed && es.all (Expr.standsIn file)

theorem UnaryOp.fits_of_trailingOp? {kind : TokenKind} {op : UnaryOp}
    (h : trailingOp? kind = some op) : op.fits true = true := by
  unfold trailingOp? at h
  split at h <;> cases h <;> rfl

theorem DerivesExpr.sound {file : String} {c : ExprCategory} {i k : List Token} {x : c.Tree}
    (h : DerivesExpr Token.position c i k x) (hi : AllLexical file i) :
    c.sound file x = true ∧ AllLexical file k := by
  induction h with
  | disjunction _ ih => exact ih hi
  | assignment _ ha _ ihl ihr =>
      have hfile := (allLexical_cons.1 hi).1.file_eq
      obtain ⟨hl, hj⟩ := ihl hi
      obtain ⟨hv, hk⟩ := ihr (allLexical_cons.1 hj).2
      refine ⟨?_, hk⟩
      simp only [ExprCategory.sound, Expr.wellFormed, Expr.standsIn, Bool.and_eq_true] at hl hv ⊢
      have hq := Expr.all_isQualifier_of_isReference hl.1.1
      simp [hq, hl.1.2, hv.1, hv.2, hfile]
  | operand _ ih => exact ih hi
  | binary _ _ _ ihl ihr =>
      have hfile := (allLexical_cons.1 hi).1.file_eq
      obtain ⟨hl, hj⟩ := ihl hi
      obtain ⟨hr, hk⟩ := ihr (allLexical_cons.1 hj).2
      refine ⟨?_, hk⟩
      simp only [ExprCategory.sound, Bool.and_eq_true] at hl hr
      simp [ExprCategory.sound, Expr.wellFormed, Expr.standsIn, hl, hr, hfile]
  | creation _ hn _ _ =>
      simp only [allLexical_cons] at hi
      have hname := isName_of_lexical hi.2.1 hn
      exact ⟨by simp [ExprCategory.sound, Expr.wellFormed, Expr.standsIn, hname, hi.1.file_eq],
        hi.2.2.2.2⟩
  | conversion _ _ hn _ _ _ ih =>
      simp only [allLexical_cons] at hi
      have hname := isName_of_lexical hi.2.2.1 hn
      obtain ⟨he, hk⟩ := ih hi.2.2.2.2
      refine ⟨?_, (allLexical_cons.1 hk).2⟩
      simp only [ExprCategory.sound, Bool.and_eq_true] at he
      simp [ExprCategory.sound, Expr.wellFormed, Expr.standsIn, hname, he, hi.1.file_eq]
  | unary _ ih => exact ih hi
  | leading _ _ ih =>
      have hfile := (allLexical_cons.1 hi).1.file_eq
      obtain ⟨he, hk⟩ := ih (allLexical_cons.1 hi).2
      refine ⟨?_, hk⟩
      simp only [ExprCategory.sound, Bool.and_eq_true] at he
      simp [ExprCategory.sound, Expr.wellFormed, Expr.standsIn, UnaryOp.fits, he, hfile]
  | noLeading _ ih => exact ih hi
  | trailing _ hop ih =>
      have hfile := (allLexical_cons.1 hi).1.file_eq
      have hfits := UnaryOp.fits_of_trailingOp? hop
      obtain ⟨he, hk⟩ := ih hi
      refine ⟨?_, (allLexical_cons.1 hk).2⟩
      simp only [ExprCategory.sound, Bool.and_eq_true] at he
      simp [ExprCategory.sound, Expr.wellFormed, Expr.standsIn, hfits, he, hfile]
  | noTrailing _ ih => exact ih hi
  | parenthesized _ _ _ ih =>
      obtain ⟨he, hk⟩ := ih (allLexical_cons.1 hi).2
      exact ⟨he, (allLexical_cons.1 hk).2⟩
  | integer ht hv =>
      rw [allLexical_cons] at hi
      have hdigits := hi.1.admits
      rw [ht] at hdigits
      have hbounds := hv.bounds_of_isDigits hdigits
      exact ⟨by simp [ExprCategory.sound, Expr.wellFormed, Expr.standsIn, hbounds, hi.1.file_eq],
        hi.2⟩
  | boolean _ =>
      rw [allLexical_cons] at hi
      exact ⟨by simp [ExprCategory.sound, Expr.wellFormed, Expr.standsIn, hi.1.file_eq], hi.2⟩
  | string _ =>
      rw [allLexical_cons] at hi
      exact ⟨by simp [ExprCategory.sound, Expr.wellFormed, Expr.standsIn, hi.1.file_eq], hi.2⟩
  | var hr hn =>
      have hfile := (allLexical_cons.1 hi).1.file_eq
      obtain ⟨href, hstands, hk⟩ := hr.sound hi
      rw [allLexical_cons] at hk
      have hname := isName_of_lexical hk.1 hn
      exact ⟨by simp [ExprCategory.sound, Expr.wellFormed, Expr.standsIn, href, hstands, hname,
        hfile], hk.2⟩
  | call hr hn _ _ _ ih =>
      have hfile := (allLexical_cons.1 hi).1.file_eq
      obtain ⟨href, hstands, hk⟩ := hr.sound hi
      simp only [allLexical_cons] at hk
      have hname := isName_of_lexical hk.1 hn
      obtain ⟨hes, hrest⟩ := ih (allLexical_cons.2 hk.2.2)
      refine ⟨?_, (allLexical_cons.1 hrest).2⟩
      simp only [ExprCategory.sound, Bool.and_eq_true] at hes
      simp only [ExprCategory.sound, Expr.wellFormed, Expr.standsIn, Expr.wellFormedList_eq_all,
        Expr.listStandsIn_eq_all, href, hstands, hname, hes, hfile, hk.2.2.1.file_eq]
      rfl
  | noArguments => exact ⟨rfl, hi⟩
  | someArguments _ _ ih ihs =>
      obtain ⟨he, hj⟩ := ih hi
      obtain ⟨hes, hk⟩ := ihs hj
      refine ⟨?_, hk⟩
      simp only [ExprCategory.sound, Bool.and_eq_true] at he hes
      simp only [ExprCategory.sound, List.all_cons, he, hes]
      rfl
  | noMoreArguments => exact ⟨rfl, hi⟩
  | moreArguments _ _ _ ih ihs =>
      obtain ⟨he, hj⟩ := ih (allLexical_cons.1 hi).2
      obtain ⟨hes, hk⟩ := ihs hj
      refine ⟨?_, hk⟩
      simp only [ExprCategory.sound, Bool.and_eq_true] at he hes
      simp only [ExprCategory.sound, List.all_cons, he, hes]
      rfl

theorem DerivesOptional.sound {file : String} {i k : List Token} {v : Option Expr}
    (h : DerivesOptional Token.position i k v) (hi : AllLexical file i) :
    v.all Expr.wellFormed = true ∧ v.all (Expr.standsIn file) = true ∧ AllLexical file k := by
  cases h with
  | absent => exact ⟨rfl, rfl, hi⟩
  | present he =>
      obtain ⟨he, hk⟩ := he.sound hi
      simp only [ExprCategory.sound, Bool.and_eq_true] at he
      exact ⟨he.1, he.2, hk⟩

/-- Only a statement can end with an open conditional, a list of statements in braces cannot. -/
def StmtCategory.endsOpen : (c : StmtCategory) → c.Tree → Bool
  | .statement, s => s.endsOpen
  | .body, _ => false

theorem DerivesStmt.nextKind_ne_else {place : Token → Position} {c : StmtCategory}
    {i k : List Token} {x : c.Tree} (h : DerivesStmt place c i k x) (hopen : c.endsOpen x = true) :
    nextKind k ≠ .keyword .kwElse := by
  induction h with
  | whileLoop _ _ _ _ _ ih => exact ih (by simpa [StmtCategory.endsOpen, Stmt.endsOpen] using hopen)
  | forLoop _ _ _ _ _ _ _ _ _ ih =>
      exact ih (by simpa [StmtCategory.endsOpen, Stmt.endsOpen] using hopen)
  | conditional _ _ _ _ _ hk _ => exact hk
  | conditionalElse _ _ _ _ _ _ _ _ ih =>
      exact ih (by simpa [StmtCategory.endsOpen, Stmt.endsOpen] using hopen)
  | _ => simp [StmtCategory.endsOpen, Stmt.endsOpen] at hopen

def StmtCategory.sound (file : String) : (c : StmtCategory) → c.Tree → Bool
  | .statement, s => s.wellFormed && s.standsIn file
  | .body, ss => ss.all Stmt.wellFormed && ss.all (Stmt.standsIn file)

theorem DerivesStmt.sound {file : String} {c : StmtCategory} {i k : List Token} {x : c.Tree}
    (h : DerivesStmt Token.position c i k x) (hi : AllLexical file i) :
    c.sound file x = true ∧ AllLexical file k := by
  induction h with
  | expression he _ =>
      have hfile := (allLexical_cons.1 hi).1.file_eq
      obtain ⟨he, hk⟩ := he.sound hi
      refine ⟨?_, (allLexical_cons.1 hk).2⟩
      simp only [ExprCategory.sound, Bool.and_eq_true] at he
      simp [StmtCategory.sound, Stmt.wellFormed, Stmt.standsIn, he, hfile]
  | returnValue _ hv _ =>
      rw [allLexical_cons] at hi
      obtain ⟨hv, hstands, hk⟩ := hv.sound hi.2
      refine ⟨?_, (allLexical_cons.1 hk).2⟩
      simp only [StmtCategory.sound, Stmt.wellFormed, Stmt.standsIn, hv, hstands, hi.1.file_eq]
      rfl
  | breakLoop _ _ =>
      simp only [allLexical_cons] at hi
      exact ⟨by simp [StmtCategory.sound, Stmt.wellFormed, Stmt.standsIn, hi.1.file_eq], hi.2.2⟩
  | declaration _ hn _ he _ =>
      simp only [allLexical_cons] at hi
      have hname := isName_of_lexical hi.2.1 hn
      obtain ⟨he, hk⟩ := he.sound hi.2.2.2
      refine ⟨?_, (allLexical_cons.1 hk).2⟩
      simp only [ExprCategory.sound, Bool.and_eq_true] at he
      simp [StmtCategory.sound, Stmt.wellFormed, Stmt.standsIn, hname, he, hi.1.file_eq]
  | empty _ =>
      rw [allLexical_cons] at hi
      exact ⟨by simp [StmtCategory.sound, Stmt.wellFormed, Stmt.standsIn, hi.1.file_eq], hi.2⟩
  | block _ _ _ ih =>
      rw [allLexical_cons] at hi
      obtain ⟨hss, hk⟩ := ih hi.2
      refine ⟨?_, (allLexical_cons.1 hk).2⟩
      simp only [StmtCategory.sound, Bool.and_eq_true] at hss
      simp only [StmtCategory.sound, Stmt.wellFormed, Stmt.standsIn, Stmt.wellFormedList_eq_all,
        Stmt.listStandsIn_eq_all, hss, hi.1.file_eq]
      rfl
  | whileLoop _ _ he _ _ ih =>
      simp only [allLexical_cons] at hi
      obtain ⟨he, hj⟩ := he.sound hi.2.2
      obtain ⟨hs, hk⟩ := ih (allLexical_cons.1 hj).2
      refine ⟨?_, hk⟩
      simp only [ExprCategory.sound, StmtCategory.sound, Bool.and_eq_true] at he hs
      simp [StmtCategory.sound, Stmt.wellFormed, Stmt.standsIn, he, hs, hi.1.file_eq]
  | forLoop _ _ ha _ hb _ hc _ _ ih =>
      simp only [allLexical_cons] at hi
      obtain ⟨ha, ha', hi₁⟩ := ha.sound hi.2.2
      obtain ⟨hb, hb', hi₂⟩ := hb.sound (allLexical_cons.1 hi₁).2
      obtain ⟨hc, hc', hj⟩ := hc.sound (allLexical_cons.1 hi₂).2
      obtain ⟨hs, hk⟩ := ih (allLexical_cons.1 hj).2
      refine ⟨?_, hk⟩
      simp only [StmtCategory.sound, Bool.and_eq_true] at hs
      simp only [StmtCategory.sound, Stmt.wellFormed, Stmt.standsIn, ha, ha', hb, hb', hc, hc', hs,
        hi.1.file_eq]
      rfl
  | conditional _ _ he _ _ _ ih =>
      simp only [allLexical_cons] at hi
      obtain ⟨he, hj⟩ := he.sound hi.2.2
      obtain ⟨hs, hk⟩ := ih (allLexical_cons.1 hj).2
      refine ⟨?_, hk⟩
      simp only [ExprCategory.sound, StmtCategory.sound, Bool.and_eq_true] at he hs
      simp [StmtCategory.sound, Stmt.wellFormed, Stmt.standsIn, he, hs, hi.1.file_eq]
  | @conditionalElse t p q x i j j₁ k e s s₁ _ _ he _ hs hx _ ih ih₁ =>
      simp only [allLexical_cons] at hi
      -- the branch stands before its `else`, so it leaves no conditional open
      have hclosed : s.endsOpen = false := by
        rw [Bool.eq_false_iff]
        intro hopen
        exact hs.nextKind_ne_else hopen hx
      obtain ⟨he, hj⟩ := he.sound hi.2.2
      obtain ⟨hs, hj₁⟩ := ih (allLexical_cons.1 hj).2
      obtain ⟨hs₁, hk⟩ := ih₁ (allLexical_cons.1 hj₁).2
      refine ⟨?_, hk⟩
      simp only [ExprCategory.sound, StmtCategory.sound, Bool.and_eq_true] at he hs hs₁
      simp [StmtCategory.sound, Stmt.wellFormed, Stmt.standsIn, he, hs, hs₁, hclosed,
        hi.1.file_eq]
  | noStatements => exact ⟨rfl, hi⟩
  | statements _ _ ih ihs =>
      obtain ⟨hs, hj⟩ := ih hi
      obtain ⟨hss, hk⟩ := ihs hj
      refine ⟨?_, hk⟩
      simp only [StmtCategory.sound, Bool.and_eq_true] at hs hss
      simp only [StmtCategory.sound, List.all_cons, hs, hss]
      rfl

theorem DerivesInit.sound {file : String} {i k : List Token} {v : Option Expr}
    (h : DerivesInit Token.position i k v) (hi : AllLexical file i) :
    v.all Expr.wellFormed = true ∧ v.all (Expr.standsIn file) = true ∧ AllLexical file k := by
  cases h with
  | absent => exact ⟨rfl, rfl, hi⟩
  | present _ he =>
      obtain ⟨he, hk⟩ := he.sound (allLexical_cons.1 hi).2
      simp only [ExprCategory.sound, Bool.and_eq_true] at he
      exact ⟨he.1, he.2, hk⟩

theorem DerivesParent.sound {file : String} {i k : List Token} {parent : Option String}
    (h : DerivesParent i k parent) (hi : AllLexical file i) :
    parent.all isName = true ∧ AllLexical file k := by
  cases h with
  | absent => exact ⟨rfl, hi⟩
  | present _ hn =>
      simp only [allLexical_cons] at hi
      exact ⟨isName_of_lexical hi.2.1 hn, hi.2.2⟩

def DeclCategory.sound (file : String) : (c : DeclCategory) → c.Tree → Bool
  | .formals, fs => fs.all Formal.wellFormed && fs.all (Formal.standsIn file)
  | .moreFormals, fs => fs.all Formal.wellFormed && fs.all (Formal.standsIn file)
  | .member, m => m.wellFormed && m.standsIn file
  | .members, ms => ms.all Member.wellFormed && ms.all (Member.standsIn file)
  | .classDecl, c => c.wellFormed && c.standsIn file
  | .classes, cs => cs.all ClassDecl.wellFormed && cs.all (ClassDecl.standsIn file)
  | .program, p => p.wellFormed && p.standsIn file

theorem DerivesDecl.sound {file : String} {c : DeclCategory} {i k : List Token} {x : c.Tree}
    (h : DerivesDecl Token.position file c i k x) (hi : AllLexical file i) :
    c.sound file x = true ∧ AllLexical file k := by
  induction h with
  | noFormals => exact ⟨rfl, hi⟩
  | someFormals ht hn _ ih =>
      simp only [allLexical_cons] at hi
      have htype := isName_of_lexical hi.1 ht
      have hname := isName_of_lexical hi.2.1 hn
      obtain ⟨hfs, hk⟩ := ih hi.2.2
      refine ⟨?_, hk⟩
      simp only [DeclCategory.sound, Bool.and_eq_true] at hfs
      simp only [DeclCategory.sound, List.all_cons, Formal.wellFormed, Formal.standsIn, htype, hname,
        hfs, hi.1.file_eq]
      rfl
  | noMoreFormals => exact ⟨rfl, hi⟩
  | moreFormals _ ht hn _ ih =>
      simp only [allLexical_cons] at hi
      have htype := isName_of_lexical hi.2.1 ht
      have hname := isName_of_lexical hi.2.2.1 hn
      obtain ⟨hfs, hk⟩ := ih hi.2.2.2
      refine ⟨?_, hk⟩
      simp only [DeclCategory.sound, Bool.and_eq_true] at hfs
      simp only [DeclCategory.sound, List.all_cons, Formal.wellFormed, Formal.standsIn, htype, hname,
        hfs, hi.2.1.file_eq]
      rfl
  | field ht hn hv _ =>
      simp only [allLexical_cons] at hi
      have htype := isName_of_lexical hi.1 ht
      have hname := isName_of_lexical hi.2.1 hn
      obtain ⟨hv, hstands, hk⟩ := hv.sound hi.2.2
      refine ⟨?_, (allLexical_cons.1 hk).2⟩
      simp only [DeclCategory.sound, Member.wellFormed, Member.standsIn, Field.wellFormed,
        Field.standsIn, htype, hname, hv, hstands, hi.1.file_eq]
      rfl
  | method ht hn _ _ _ _ hss _ ih =>
      simp only [allLexical_cons] at hi
      have htype := isName_of_lexical hi.1 ht
      have hname := isName_of_lexical hi.2.1 hn
      obtain ⟨hfs, hj⟩ := ih (allLexical_cons.2 hi.2.2.2)
      simp only [allLexical_cons] at hj
      obtain ⟨hss, hk⟩ := hss.sound hj.2.2
      refine ⟨?_, (allLexical_cons.1 hk).2⟩
      simp only [DeclCategory.sound, StmtCategory.sound, Bool.and_eq_true] at hfs hss
      simp only [DeclCategory.sound, Member.wellFormed, Member.standsIn, Method.wellFormed,
        Method.standsIn, htype, hname, hfs, hss, hi.1.file_eq, hi.2.2.2.1.file_eq, hj.2.1.file_eq]
      rfl
  | noMembers => exact ⟨rfl, hi⟩
  | members _ _ ih ihs =>
      obtain ⟨hm, hj⟩ := ih hi
      obtain ⟨hms, hk⟩ := ihs hj
      refine ⟨?_, hk⟩
      simp only [DeclCategory.sound, Bool.and_eq_true] at hm hms
      simp only [DeclCategory.sound, List.all_cons, hm, hms]
      rfl
  | classDecl _ hn hp _ _ _ ih =>
      simp only [allLexical_cons] at hi
      have hname := isName_of_lexical hi.2.1 hn
      obtain ⟨hp, hj⟩ := hp.sound hi.2.2
      rw [allLexical_cons] at hj
      obtain ⟨hms, hk⟩ := ih hj.2
      refine ⟨?_, (allLexical_cons.1 hk).2⟩
      simp only [DeclCategory.sound, Bool.and_eq_true] at hms
      simp only [DeclCategory.sound, ClassDecl.wellFormed, ClassDecl.standsIn, hname, hp, hms,
        hi.1.file_eq, (allLexical_cons.1 hj.2).1.file_eq]
      simp
  | noClasses => exact ⟨rfl, hi⟩
  | classes _ _ ih ihs =>
      obtain ⟨hc, hj⟩ := ih hi
      obtain ⟨hcs, hk⟩ := ihs hj
      refine ⟨?_, hk⟩
      simp only [DeclCategory.sound, Bool.and_eq_true] at hc hcs
      simp only [DeclCategory.sound, List.all_cons, hc, hcs]
      rfl
  | program _ _ ih =>
      have hfile := (allLexical_cons.1 hi).1.file_eq
      obtain ⟨hcs, hk⟩ := ih hi
      refine ⟨?_, hk⟩
      simp only [DeclCategory.sound, Bool.and_eq_true] at hcs
      simp only [DeclCategory.sound, Program.wellFormed, Program.standsIn, hcs, hfile]
      rfl

end Grammar

end ClassLang
