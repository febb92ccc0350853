import ClassLang.Grammar.Declaration
import ClassLang.Proofs.Grammar.Derivation.Statement
/-!
Derivations of declarations: parameters, members, classes and the program. A program is derived by
the tokens before an end mark, which is the first token after the last class.
-/

namespace ClassLang

namespace Grammar

inductive DerivesInit (place : Token → Position) : List Token → List Token → Option Expr → Prop
  | absent {k : List Token} : DerivesInit place k k none
  | present {a : Token} {i k : List Token} {e : Expr} :
      a.kind = .symbol .assign → DerivesExpr place (.level .expression) i k e →
      DerivesInit place (a :: i) k (some e)

inductive DerivesParent : List Token → List Token → Option String → Prop
  | absent {k : List Token} : DerivesParent k k none
  | present {t n : Token} {k : List Token} :
      t.kind = .keyword .kwExtends → n.kind = .identifier →
      DerivesParent (t :: n :: k) k (some n.value)

inductive DeclCategory where
  /-- What may stand between the parentheses of a method. -/
  | formals
  /-- Parameters each after a comma. -/
  | moreFormals
  | member
  /-- The members between the braces of a class. -/
  | members
  | classDecl
  | classes
  | program
  deriving DecidableEq

namespace DeclCategory

abbrev Tree : DeclCategory → Type
  | .formals => List Formal
  | .moreFormals => List Formal
  | .member => Member
  | .members => List Member
  | .classDecl => ClassDecl
  | .classes => List ClassDecl
  | .program => Program

end DeclCategory

/-- The tokens from the first place up to the second derive the tree, in the given file. -/
inductive DerivesDecl (place : Token → Position) (file : String) :
    (c : DeclCategory) → List Token → List Token → c.Tree → Prop
  | noFormals {k : List Token} : DerivesDecl place file .formals k k []
  | someFormals {t n : Token} {j k : List Token} {fs : List Formal} :
      t.kind = .identifier → n.kind = .identifier → DerivesDecl place file .moreFormals j k fs →
      DerivesDecl place file .formals (t :: n :: j) k (⟨place t, t.value, n.value⟩ :: fs)
  | noMoreFormals {k : List Token} : DerivesDecl place file .moreFormals k k []
  | moreFormals {c t n : Token} {j k : List Token} {fs : List Formal} :
      c.kind = .symbol .comma → t.kind = .identifier → n.kind = .identifier →
      DerivesDecl place file .moreFormals j k fs →
      DerivesDecl place file .moreFormals (c :: t :: n :: j) k (⟨place t, t.value, n.value⟩ :: fs)
  | field {t n q : Token} {i k : List Token} {v : Option Expr} :
      t.kind = .identifier → n.kind = .identifier → DerivesInit place i (q :: k) v →
      q.kind = .symbol .semicolon →
      DerivesDecl place file .member (t :: n :: i) k (.field ⟨place t, t.value, n.value, v⟩)
  | method {t n p a q b z : Token} {i j k : List Token} {fs : List Formal} {ss : List Stmt} :
      t.kind = .identifier → n.kind = .identifier → p.kind = .symbol .openParen →
      DerivesDecl place file .formals (a :: i) (q :: b :: j) fs → q.kind = .symbol .closeParen →
      b.kind = .symbol .openBrace → DerivesStmt place .body j (z :: k) ss →
      z.kind = .symbol .closeBrace →
      DerivesDecl place file .member (t :: n :: p :: a :: i) k
        (.method ⟨place t, t.value, n.value, ⟨place a, fs⟩, ⟨place b, ss⟩⟩)
  | noMembers {k : List Token} : DerivesDecl place file .members k k []
  | members {i j k : List Token} {m : Member} {ms : List Member} :
      DerivesDecl place file .member i j m → DerivesDecl place file .members j k ms →
      DerivesDecl place file .members i k (m :: ms)
  | classDecl {t n b a z : Token} {i j k : List Token} {parent : Option String}
      {ms : List Member} :
      t.kind = .keyword .kwClass → n.kind = .identifier → DerivesParent i (b :: a :: j) parent →
      b.kind = .symbol .openBrace → DerivesDecl place file .members (a :: j) (z :: k) ms →
      z.kind = .symbol .closeBrace →
      DerivesDecl place file .classDecl (t :: n :: i) k
        ⟨place t, file, n.value, parent, ⟨place a, ms⟩⟩
  | noClasses {k : List Token} : DerivesDecl place file .classes k k []
  | classes {i j k : List Token} {c : ClassDecl} {cs : List ClassDecl} :
      DerivesDecl place file .classDecl i j c → DerivesDecl place file .classes j k cs →
      DerivesDecl place file .classes i k (c :: cs)
  | program {t q : Token} {i k : List Token} {cs : List ClassDecl} :
      DerivesDecl place file .classes (t :: i) (q :: k) cs → q.kind = .endOfInput →
      DerivesDecl place file .program (t :: i) (q :: k) ⟨place t, ⟨place t, cs⟩⟩

variable {place : Token → Position} {file : String}

theorem DerivesInit.exists_prefix {i k : List Token} {v : Option Expr}
    (h : DerivesInit place i k v) : ∃ u, i = u ++ k ∧ ∀ k', DerivesInit place (u ++ k') k' v := by
  cases h with
  | absent => exact ⟨[], rfl, fun k' => .absent⟩
  | @present a _ _ _ ha h =>
      obtain ⟨u, rfl, hk⟩ := h.exists_prefix
      exact ⟨a :: u, rfl, fun k' => .present ha (hk k')⟩

theorem DerivesParent.exists_prefix {i k : List Token} {parent : Option String}
    (h : DerivesParent i k parent) :
    ∃ u, i = u ++ k ∧ ∀ k', DerivesParent (u ++ k') k' parent := by
  cases h with
  | absent => exact ⟨[], rfl, fun k' => .absent⟩
  | @present t n _ ht hn => exact ⟨[t, n], rfl, fun k' => .present ht hn⟩

theorem DerivesInit.mem_of_endOfInput {i k : List Token} {v : Option Expr} {q : Token}
    (hq : q.kind = .endOfInput) (h : DerivesInit place i k v) : q ∈ i → q ∈ k := by
  cases h with
  | absent => exact id
  | present _ h =>
      have := h.mem_of_endOfInput hq
      grind

theorem DerivesParent.mem_of_endOfInput {i k : List Token} {parent : Option String} {q : Token}
    (hq : q.kind = .endOfInput) (h : DerivesParent i k parent) : q ∈ i → q ∈ k := by
  cases h <;> grind

namespace DerivesDecl

theorem exists_prefix {c : DeclCategory} {i k : List Token} {x : c.Tree}
    (h : DerivesDecl place file c i k x) (hprogram : c ≠ .program) :
    ∃ u, i = u ++ k ∧ ∀ k', DerivesDecl place file c (u ++ k') k' x := by
  induction h with
  | noFormals => exact ⟨[], rfl, fun k' => .noFormals⟩
  | @someFormals t n j k fs ht hn _ ih =>
      obtain ⟨u, rfl, hk⟩ := ih (by simp)
      exact ⟨t :: n :: u, rfl, fun k' => .someFormals ht hn (hk k')⟩
  | noMoreFormals => exact ⟨[], rfl, fun k' => .noMoreFormals⟩
  | @moreFormals c t n j k fs hc ht hn _ ih =>
      obtain ⟨u, rfl, hk⟩ := ih (by simp)
      exact ⟨c :: t :: n :: u, rfl, fun k' => .moreFormals hc ht hn (hk k')⟩
  | @field t n q i k v ht hn hv hq =>
      obtain ⟨u, rfl, hk⟩ := hv.exists_prefix
      exact ⟨t :: n :: (u ++ [q]), by simp, fun k' => by
        simpa using .field ht hn (hk (q :: k')) hq⟩
  | @method t n p a q b z i j k fs ss ht hn hp _ hq hb hss hz ih =>
      obtain ⟨u', hu', hj⟩ := ih (by simp)
      obtain ⟨u, rfl, hu⟩ := exists_cons_of_cons_eq_append hu'
      obtain ⟨v, rfl, hk⟩ := hss.exists_prefix
      refine ⟨t :: n :: p :: a :: (u ++ b :: (v ++ [z])), by simp, fun k' => ?_⟩
      have hfs := hj (q :: b :: (v ++ z :: k'))
      rw [hu] at hfs
      simpa using .method ht hn hp hfs hq hb (hk (z :: k') id) hz
  | noMembers => exact ⟨[], rfl, fun k' => .noMembers⟩
  | members _ _ ih ihs =>
      obtain ⟨u, rfl, hj⟩ := ih (by simp)
      obtain ⟨v, rfl, hk⟩ := ihs (by simp)
      exact ⟨u ++ v, by simp, fun k' => by simpa using .members (hj (v ++ k')) (hk k')⟩
  | @classDecl t n b a z i j k parent ms ht hn hparent hb _ hz ih =>
      obtain ⟨u, rfl, hj⟩ := hparent.exists_prefix
      obtain ⟨v', hv', hk⟩ := ih (by simp)
      obtain ⟨v, rfl, hv⟩ := exists_cons_of_cons_eq_append hv'
      refine ⟨t :: n :: (u ++ b :: a :: v), by simp, fun k' => ?_⟩
      have hms := hk (z :: k')
      rw [hv] at hms
      simpa using .classDecl ht hn (hj (b :: a :: (v ++ k'))) hb hms hz
  | noClasses => exact ⟨[], rfl, fun k' => .noClasses⟩
  | classes _ _ ih ihs =>
      obtain ⟨u, rfl, hj⟩ := ih (by simp)
      obtain ⟨v, rfl, hk⟩ := ihs (by simp)
      exact ⟨u ++ v, by simp, fun k' => by simpa using .classes (hj (v ++ k')) (hk k')⟩
  | program => exact absurd rfl hprogram

theorem ne_nil_of_cons {c : DeclCategory} {q : Token} {i k : List Token} {x : c.Tree}
    (h : DerivesDecl place file c i (q :: k) x) (hprogram : c ≠ .program) : i ≠ [] := by
  obtain ⟨u, rfl, -⟩ := h.exists_prefix hprogram
  simp

theorem length_lt {c : DeclCategory} {i k : List Token} {x : c.Tree}
    (h : DerivesDecl place file c i k x) (hprogram : c ≠ .program)
    (hnil : ¬ DerivesDecl place file c [] [] x) : k.length < i.length := by
  obtain ⟨u, rfl, hk⟩ := h.exists_prefix hprogram
  cases u with
  | nil => exact absurd (hk []) hnil
  | cons t u =>
      simp only [List.length_append, List.length_cons]
      omega

theorem length_lt_of_member {i k : List Token} {m : Member}
    (h : DerivesDecl place file .member i k m) : k.length < i.length :=
  h.length_lt (by simp) nofun

theorem length_lt_of_classDecl {i k : List Token} {c : ClassDecl}
    (h : DerivesDecl place file .classDecl i k c) : k.length < i.length :=
  h.length_lt (by simp) nofun

theorem length_add_le {i k : List Token} {cs : List ClassDecl}
    (h : DerivesDecl place file .classes i k cs) : cs.length + k.length ≤ i.length := by
  induction cs generalizing i with
  | nil =>
      cases h
      simp
  | cons c cs ih =>
      cases h with
      | classes hc hcs =>
          have hlt := hc.length_lt_of_classDecl
          have hle := ih hcs
          simp only [List.length_cons]
          omega

theorem nextKind_of_member {i k : List Token} {m : Member}
    (h : DerivesDecl place file .member i k m) : nextKind i = .identifier := by
  cases h with
  | field ht _ _ _ => exact ht
  | method ht _ _ _ _ _ _ _ => exact ht

theorem nextKind_of_classDecl {i k : List Token} {c : ClassDecl}
    (h : DerivesDecl place file .classDecl i k c) : nextKind i = .keyword .kwClass := by
  cases h with
  | classDecl ht _ _ _ _ _ => exact ht

theorem mem_of_endOfInput {c : DeclCategory} {i k : List Token} {x : c.Tree} {q : Token}
    (hq : q.kind = .endOfInput) (h : DerivesDecl place file c i k x) : q ∈ i → q ∈ k := by
  induction h with
  | field _ _ hv _ =>
      have := hv.mem_of_endOfInput hq
      grind
  | method _ _ _ _ _ _ hss _ _ =>
      have := hss.mem_of_endOfInput hq
      grind
  | classDecl _ _ hp _ _ _ _ =>
      have := hp.mem_of_endOfInput hq
      grind
  | _ => grind

end DerivesDecl

end Grammar

end ClassLang
