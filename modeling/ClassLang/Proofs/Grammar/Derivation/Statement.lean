import ClassLang.Grammar.Statement
import ClassLang.Proofs.Grammar.Derivation.Expression
/-!
Derivations of statements. The one place where the grammar looks at what follows a phrase is a
conditional without an `else`, which no `else` may follow. Main statement: of what follows a
statement it matters only whether it begins with `else` (`DerivesStmt.exists_prefix`).
-/

namespace ClassLang

namespace Grammar

inductive DerivesOptional (place : Token → Position) :
    List Token → List Token → Option Expr → Prop
  | absent {k : List Token} : DerivesOptional place k k none
  | present {i k : List Token} {e : Expr} :
      DerivesExpr place (.level .expression) i k e → DerivesOptional place i k (some e)

inductive StmtCategory where
  | statement
  /-- The statements between two braces. -/
  | body
  deriving DecidableEq

namespace StmtCategory

abbrev Tree : StmtCategory → Type
  | .statement => Stmt
  | .body => List Stmt

end StmtCategory

/-- The tokens from the first place up to the second derive the tree. -/
inductive DerivesStmt (place : Token → Position) :
    (c : StmtCategory) → List Token → List Token → c.Tree → Prop
  | expression {t q : Token} {i k : List Token} {e : Expr} :
      DerivesExpr place (.level .expression) (t :: i) (q :: k) e → q.kind = .symbol .semicolon →
      DerivesStmt place .statement (t :: i) k (.expression (place t) e)
  | returnValue {t q : Token} {i k : List Token} {v : Option Expr} :
      t.kind = .keyword .kwReturn → DerivesOptional place i (q :: k) v →
      q.kind = .symbol .semicolon →
      DerivesStmt place .statement (t :: i) k (.returnValue (place t) v)
  | breakLoop {t q : Token} {k : List Token} :
      t.kind = .keyword .kwBreak → q.kind = .symbol .semicolon →
      DerivesStmt place .statement (t :: q :: k) k (.breakLoop (place t))
  | declaration {t n a q : Token} {i k : List Token} {e : Expr} :
      t.kind = .keyword .kwVar → n.kind = .identifier → a.kind = .symbol .assign →
      DerivesExpr place (.level .expression) i (q :: k) e → q.kind = .symbol .semicolon →
      DerivesStmt place .statement (t :: n :: a :: i) k (.declaration (place t) n.value e)
  | empty {t : Token} {k : List Token} :
      t.kind = .symbol .semicolon →
      DerivesStmt place .statement (t :: k) k (.block (place t) ⟨place t, []⟩)
  | block {t q : Token} {i k : List Token} {ss : List Stmt} :
      t.kind = .symbol .openBrace → DerivesStmt place .body i (q :: k) ss →
      q.kind = .symbol .closeBrace →
      DerivesStmt place .statement (t :: i) k (.block (place t) ⟨place t, ss⟩)
  | whileLoop {t p q : Token} {i j k : List Token} {e : Expr} {s : Stmt} :
      t.kind = .keyword .kwWhile → p.kind = .symbol .openParen →
      DerivesExpr place (.level .expression) i (q :: j) e → q.kind = .symbol .closeParen →
      DerivesStmt place .statement j k s →
      DerivesStmt place .statement (t :: p :: i) k (.whileLoop (place t) e s)
  | forLoop {t p q₁ q₂ q : Token} {i i₁ i₂ j k : List Token} {a b c : Option Expr} {s : Stmt} :
      t.kind = .keyword .kwFor → p.kind = .symbol .openParen →
      DerivesOptional place i (q₁ :: i₁) a → q₁.kind = .symbol .semicolon →
      DerivesOptional place i₁ (q₂ :: i₂) b → q₂.kind = .symbol .semicolon →
      DerivesOptional place i₂ (q :: j) c → q.kind = .symbol .closeParen →
      DerivesStmt place .statement j k s →
      DerivesStmt place .statement (t :: p :: i) k (.forLoop (place t) a b c s)
  | conditional {t p q : Token} {i j k : List Token} {e : Expr} {s : Stmt} :
      t.kind = .keyword .kwIf → p.kind = .symbol .openParen →
      DerivesExpr place (.level .expression) i (q :: j) e → q.kind = .symbol .closeParen →
      DerivesStmt place .statement j k s → nextKind k ≠ .keyword .kwElse →
      DerivesStmt place .statement (t :: p :: i) k (.conditional (place t) e s none)
  | conditionalElse {t p q x : Token} {i j j₁ k : List Token} {e : Expr} {s s₁ : Stmt} :
      t.kind = .keyword .kwIf → p.kind = .symbol .openParen →
      DerivesExpr place (.level .expression) i (q :: j) e → q.kind = .symbol .closeParen →
      DerivesStmt place .statement j (x :: j₁) s → x.kind = .keyword .kwElse →
      DerivesStmt place .statement j₁ k s₁ →
      DerivesStmt place .statement (t :: p :: i) k (.conditional (place t) e s (some s₁))
  | noStatements {k : List Token} : DerivesStmt place .body k k []
  | statements {i j k : List Token} {s : Stmt} {ss : List Stmt} :
      DerivesStmt place .statement i j s → DerivesStmt place .body j k ss →
      DerivesStmt place .body i k (s :: ss)

variable {place : Token → Position}

theorem DerivesOptional.exists_prefix {i k : List Token} {v : Option Expr}
    (h : DerivesOptional place i k v) :
    ∃ u, i = u ++ k ∧ ∀ k', DerivesOptional place (u ++ k') k' v := by
  cases h with
  | absent => exact ⟨[], rfl, fun k' => .absent⟩
  | present h =>
      obtain ⟨u, hu, hk⟩ := h.exists_prefix
      exact ⟨u, hu, fun k' => .present (hk k')⟩

theorem DerivesOptional.length_le {i k : List Token} {v : Option Expr}
    (h : DerivesOptional place i k v) : k.length ≤ i.length := by
  obtain ⟨u, rfl, -⟩ := h.exists_prefix
  simp

theorem DerivesOptional.mem_of_endOfInput {i k : List Token} {v : Option Expr} {q : Token}
    (hq : q.kind = .endOfInput) (h : DerivesOptional place i k v) : q ∈ i → q ∈ k := by
  cases h with
  | absent => exact id
  | present h => exact h.mem_of_endOfInput hq

namespace DerivesStmt

theorem exists_prefix {c : StmtCategory} {i k : List Token} {x : c.Tree}
    (h : DerivesStmt place c i k x) :
    ∃ u, i = u ++ k ∧ ∀ k', (nextKind k' = .keyword .kwElse → nextKind k = .keyword .kwElse) →
      DerivesStmt place c (u ++ k') k' x := by
  induction h with
  | @expression t q i k e he hq =>
      obtain ⟨u, hu, hk⟩ := he.exists_prefix
      obtain ⟨v, rfl, hv⟩ := exists_cons_of_cons_eq_append hu
      refine ⟨t :: v, rfl, fun k' _ => ?_⟩
      have he := hk (q :: k')
      rw [hv] at he
      exact .expression he hq
  | @returnValue t q i k v ht hv hq =>
      obtain ⟨u, rfl, hk⟩ := hv.exists_prefix
      exact ⟨t :: u ++ [q], by simp, fun k' _ => by
        simpa using .returnValue ht (hk (q :: k')) hq⟩
  | @breakLoop t q k ht hq => exact ⟨[t, q], rfl, fun k' _ => .breakLoop ht hq⟩
  | @declaration t n a q i k e ht hn ha he hq =>
      obtain ⟨u, rfl, hk⟩ := he.exists_prefix
      exact ⟨t :: n :: a :: (u ++ [q]), by simp, fun k' _ => by
        simpa using .declaration ht hn ha (hk (q :: k')) hq⟩
  | @empty t k ht => exact ⟨[t], rfl, fun k' _ => .empty ht⟩
  | @block t q i k ss ht _ hq ih =>
      obtain ⟨u, rfl, hk⟩ := ih
      exact ⟨t :: u ++ [q], by simp, fun k' _ => by
        simpa using .block ht (hk (q :: k') id) hq⟩
  | @whileLoop t p q i j k e s ht hp he hq _ ih =>
      obtain ⟨u, rfl, hj⟩ := he.exists_prefix
      obtain ⟨v, rfl, hk⟩ := ih
      exact ⟨t :: p :: (u ++ q :: v), by simp, fun k' hk' => by
        simpa using .whileLoop ht hp (hj (q :: (v ++ k'))) hq (hk k' hk')⟩
  | @forLoop t p q₁ q₂ q i i₁ i₂ j k a b c s ht hp ha hq₁ hb hq₂ hc hq _ ih =>
      obtain ⟨u, rfl, hi₁⟩ := ha.exists_prefix
      obtain ⟨u₁, rfl, hi₂⟩ := hb.exists_prefix
      obtain ⟨u₂, rfl, hj⟩ := hc.exists_prefix
      obtain ⟨v, rfl, hk⟩ := ih
      refine ⟨t :: p :: (u ++ q₁ :: (u₁ ++ q₂ :: (u₂ ++ q :: v))), by simp, fun k' hk' => ?_⟩
      simpa using .forLoop ht hp (hi₁ (q₁ :: (u₁ ++ q₂ :: (u₂ ++ q :: (v ++ k'))))) hq₁
        (hi₂ (q₂ :: (u₂ ++ q :: (v ++ k')))) hq₂ (hj (q :: (v ++ k'))) hq (hk k' hk')
  | @conditional t p q i j k e s ht hp he hq _ hnext ih =>
      obtain ⟨u, rfl, hj⟩ := he.exists_prefix
      obtain ⟨v, rfl, hk⟩ := ih
      exact ⟨t :: p :: (u ++ q :: v), by simp, fun k' hk' => by
        simpa using .conditional ht hp (hj (q :: (v ++ k'))) hq (hk k' hk')
          (fun h => hnext (hk' h))⟩
  | @conditionalElse t p q x i j j₁ k e s s₁ ht hp he hq _ hx _ ih ih₁ =>
      obtain ⟨u, rfl, hj⟩ := he.exists_prefix
      obtain ⟨v, rfl, hj₁⟩ := ih
      obtain ⟨w, rfl, hk⟩ := ih₁
      refine ⟨t :: p :: (u ++ q :: (v ++ x :: w)), by simp, fun k' hk' => ?_⟩
      simpa using .conditionalElse ht hp (hj (q :: (v ++ x :: (w ++ k')))) hq
        (hj₁ (x :: (w ++ k')) id) hx (hk k' hk')
  | noStatements => exact ⟨[], rfl, fun k' _ => .noStatements⟩
  | @statements i j k s ss _ _ ih ihs =>
      obtain ⟨u, rfl, hj⟩ := ih
      obtain ⟨v, rfl, hk⟩ := ihs
      exact ⟨u ++ v, by simp, fun k' hk' => by
        simpa using .statements (hj (v ++ k') (nextKind_append hk')) (hk k' hk')⟩

theorem length_lt {i k : List Token} {s : Stmt} (h : DerivesStmt place .statement i k s) :
    k.length < i.length := by
  obtain ⟨u, rfl, hk⟩ := h.exists_prefix
  cases u with
  | nil => cases hk [] (by simp)
  | cons t u =>
      simp only [List.length_append, List.length_cons]
      omega

theorem nextKind_ne {i k : List Token} {s : Stmt} (h : DerivesStmt place .statement i k s) :
    nextKind i ≠ .keyword .kwElse ∧ nextKind i ≠ .symbol .closeBrace ∧
      nextKind i ≠ .endOfInput := by
  cases h with
  | expression he _ => exact ⟨he.nextKind_ne rfl, he.nextKind_ne rfl, he.nextKind_ne rfl⟩
  | _ => simp_all

theorem mem_of_endOfInput {c : StmtCategory} {i k : List Token} {x : c.Tree} {q : Token}
    (hq : q.kind = .endOfInput) (h : DerivesStmt place c i k x) : q ∈ i → q ∈ k := by
  induction h with
  | expression he _ =>
      have := he.mem_of_endOfInput hq
      grind
  | returnValue _ hv _ =>
      have := hv.mem_of_endOfInput hq
      grind
  | declaration _ _ _ he _ =>
      have := he.mem_of_endOfInput hq
      grind
  | whileLoop _ _ he _ _ _ =>
      have := he.mem_of_endOfInput hq
      grind
  | forLoop _ _ ha _ hb _ hc _ _ _ =>
      have := ha.mem_of_endOfInput hq
      have := hb.mem_of_endOfInput hq
      have := hc.mem_of_endOfInput hq
      grind
  | conditional _ _ he _ _ _ _ =>
      have := he.mem_of_endOfInput hq
      grind
  | conditionalElse _ _ he _ _ _ _ _ _ =>
      have := he.mem_of_endOfInput hq
      grind
  | _ => grind

end DerivesStmt

end Grammar

end ClassLang
