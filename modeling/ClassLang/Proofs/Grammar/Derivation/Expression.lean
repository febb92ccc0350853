import ClassLang.Grammar.Expression
import ClassLang.Proofs.Rule.Outcome
import ClassLang.Proofs.Text.Numeral
/-!
Derivations of expressions: the grammar of expressions as a relation between two places in a list of
tokens, each given by the tokens from there on, and the tree of the phrase between them. Positions
in the tree are those that `place` gives the first tokens of phrases. Main statements: a phrase is
not empty (`DerivesExpr.length_lt`), and what follows it does not matter (`DerivesExpr.exists_prefix`).
-/

namespace ClassLang

namespace Grammar

/-- The levels of precedence at which operators stand between operands, loosest first. -/
inductive Operators where
  | disjunction
  | conjunction
  | equality
  | relation
  | sum
  | product
  deriving DecidableEq

inductive Level where
  | expression
  | operators (o : Operators)
  | factor
  | leading
  | trailing
  | primary
  deriving DecidableEq

namespace Operators

def op? : Operators → TokenKind → Option BinaryOp
  | .disjunction => disjunctionOp?
  | .conjunction => conjunctionOp?
  | .equality => equalityOp?
  | .relation => relationOp?
  | .sum => sumOp?
  | .product => productOp?

def tighter : Operators → Level
  | .disjunction => .operators .conjunction
  | .conjunction => .operators .equality
  | .equality => .operators .relation
  | .relation => .operators .sum
  | .sum => .operators .product
  | .product => .factor

/-- The left operand may have operators of the same level where they group to the left. -/
def leftOperand : Operators → Level
  | .disjunction => .operators .disjunction
  | .conjunction => .operators .conjunction
  | o => o.tighter

/-- The right operand may have operators of the same level where they group to the right. -/
def rightOperand : Operators → Level
  | .sum => .operators .sum
  | .product => .operators .product
  | o => o.tighter

theorem exists_symbol {o : Operators} {kind : TokenKind} {op : BinaryOp}
    (h : o.op? kind = some op) : ∃ s, kind = .symbol s := by
  cases kind with
  | symbol s => exact ⟨s, rfl⟩
  | _ =>
      cases o <;> simp [op?, disjunctionOp?, conjunctionOp?, equalityOp?, relationOp?, sumOp?,
        productOp?] at h

theorem kind_ne_endOfInput {o : Operators} {kind : TokenKind} {op : BinaryOp}
    (h : o.op? kind = some op) : kind ≠ .endOfInput := by
  obtain ⟨s, rfl⟩ := exists_symbol h
  simp

end Operators

theorem exists_symbol_of_leadingOp? {kind : TokenKind} {op : UnaryOp}
    (h : leadingOp? kind = some op) : ∃ s, kind = .symbol s := by
  cases kind with
  | symbol s => exact ⟨s, rfl⟩
  | _ => simp [leadingOp?] at h

theorem exists_symbol_of_trailingOp? {kind : TokenKind} {op : UnaryOp}
    (h : trailingOp? kind = some op) : ∃ s, kind = .symbol s := by
  cases kind with
  | symbol s => exact ⟨s, rfl⟩
  | _ => simp [trailingOp?] at h

/-- What stands before the name of a variable or method: `this` or `super` with a dot, or nothing. -/
inductive Qualifies (place : Token → Position) : List Token → List Token → Option Expr → Prop
  | absent {k : List Token} : Qualifies place k k none
  | this {t d : Token} {k : List Token} : t.kind = .keyword .kwThis → d.kind = .symbol .dot →
      Qualifies place (t :: d :: k) k (some (.var (place t) none t.value))
  | super {t d : Token} {k : List Token} : t.kind = .keyword .kwSuper → d.kind = .symbol .dot →
      Qualifies place (t :: d :: k) k (some (.var (place t) none t.value))

inductive ExprCategory where
  | level (l : Level)
  /-- What may stand between the parentheses of a call. -/
  | arguments
  /-- Arguments each after a comma. -/
  | moreArguments

namespace ExprCategory

abbrev Tree : ExprCategory → Type
  | .level _ => Expr
  | .arguments => List Expr
  | .moreArguments => List Expr

end ExprCategory

/-- The tokens from the first place up to the second derive the tree. -/
inductive DerivesExpr (place : Token → Position) :
    (c : ExprCategory) → List Token → List Token → c.Tree → Prop
  | disjunction {i k : List Token} {e : Expr} :
      DerivesExpr place (.level (.operators .disjunction)) i k e →
      DerivesExpr place (.level .expression) i k e
  | assignment {t a : Token} {i j k : List Token} {p : Position} {r : Option Expr} {name : String}
      {v : Expr} :
      DerivesExpr place (.level (.operators .disjunction)) (t :: i) (a :: j) (.var p r name) →
      a.kind = .symbol .assign →
      DerivesExpr place (.level .expression) j k v →
      DerivesExpr place (.level .expression) (t :: i) k
        (.assign (place t) (r.bind Expr.varName?) name v)
  | operand {o : Operators} {i k : List Token} {e : Expr} :
      DerivesExpr place (.level o.tighter) i k e →
      DerivesExpr place (.level (.operators o)) i k e
  | binary {o : Operators} {op : BinaryOp} {t u : Token} {i j k : List Token} {l r : Expr} :
      DerivesExpr place (.level o.leftOperand) (t :: i) (u :: j) l →
      o.op? u.kind = some op →
      DerivesExpr place (.level o.rightOperand) j k r →
      DerivesExpr place (.level (.operators o)) (t :: i) k (.binary (place t) op l r)
  | creation {t n p q : Token} {k : List Token} :
      t.kind = .keyword .kwNew → n.kind = .identifier → p.kind = .symbol .openParen →
      q.kind = .symbol .closeParen →
      DerivesExpr place (.level .factor) (t :: n :: p :: q :: k) k (.create (place t) n.value)
  | conversion {t p n c q : Token} {i k : List Token} {e : Expr} :
      t.kind = .keyword .kwCast → p.kind = .symbol .openParen → n.kind = .identifier →
      c.kind = .symbol .comma → DerivesExpr place (.level .expression) i (q :: k) e →
      q.kind = .symbol .closeParen →
      DerivesExpr place (.level .factor) (t :: p :: n :: c :: i) k (.cast (place t) n.value e)
  | unary {i k : List Token} {e : Expr} :
      DerivesExpr place (.level .leading) i k e → DerivesExpr place (.level .factor) i k e
  | leading {op : UnaryOp} {t : Token} {i k : List Token} {e : Expr} :
      leadingOp? t.kind = some op → DerivesExpr place (.level .leading) i k e →
      DerivesExpr place (.level .leading) (t :: i) k (.unary (place t) op e false)
  | noLeading {i k : List Token} {e : Expr} :
      DerivesExpr place (.level .trailing) i k e → DerivesExpr place (.level .leading) i k e
  | trailing {op : UnaryOp} {t u : Token} {i k : List Token} {e : Expr} :
      DerivesExpr place (.level .primary) (t :: i) (u :: k) e → trailingOp? u.kind = some op →
      DerivesExpr place (.level .trailing) (t :: i) k (.unary (place t) op e true)
  | noTrailing {i k : List Token} {e : Expr} :
      DerivesExpr place (.level .primary) i k e → DerivesExpr place (.level .trailing) i k e
  | parenthesized {t q : Token} {i k : List Token} {e : Expr} :
      t.kind = .symbol .openParen → DerivesExpr place (.level .expression) i (q :: k) e →
      q.kind = .symbol .closeParen → DerivesExpr place (.level .primary) (t :: i) k e
  | integer {t : Token} {k : List Token} {v : Int} :
      t.kind = .integer → Numeral t.value.toList v →
      DerivesExpr place (.level .primary) (t :: k) k (.integer (place t) v)
  | boolean {t : Token} {k : List Token} :
      t.kind = .boolean →
      DerivesExpr place (.level .primary) (t :: k) k (.boolean (place t) (t.value = "true"))
  | string {t : Token} {k : List Token} :
      t.kind = .string →
      DerivesExpr place (.level .primary) (t :: k) k (.string (place t) t.value)
  | var {t n : Token} {i k : List Token} {r : Option Expr} :
      Qualifies place (t :: i) (n :: k) r → n.kind = .identifier →
      DerivesExpr place (.level .primary) (t :: i) k (.var (place t) r n.value)
  | call {t n p a q : Token} {i j k : List Token} {r : Option Expr} {es : List Expr} :
      Qualifies place (t :: i) (n :: p :: a :: j) r → n.kind = .identifier →
      p.kind = .symbol .openParen → DerivesExpr place .arguments (a :: j) (q :: k) es →
      q.kind = .symbol .closeParen →
      DerivesExpr place (.level .primary) (t :: i) k (.call (place t) r n.value ⟨place a, es⟩)
  | noArguments {k : List Token} : DerivesExpr place .arguments k k []
  | someArguments {i j k : List Token} {e : Expr} {es : List Expr} :
      DerivesExpr place (.level .expression) i j e → DerivesExpr place .moreArguments j k es →
      DerivesExpr place .arguments i k (e :: es)
  | noMoreArguments {k : List Token} : DerivesExpr place .moreArguments k k []
  | moreArguments {c : Token} {i j k : List Token} {e : Expr} {es : List Expr} :
      c.kind = .symbol .comma → DerivesExpr place (.level .expression) i j e →
      DerivesExpr place .moreArguments j k es →
      DerivesExpr place .moreArguments (c :: i) k (e :: es)

theorem exists_cons_of_cons_eq_append {t n : Token} {i u k : List Token}
    (h : t :: i = u ++ n :: k) : ∃ v, i = v ++ k ∧ ∀ k', u ++ n :: k' = t :: (v ++ k') := by
  cases u with
  | nil =>
      obtain ⟨rfl, rfl⟩ := List.cons.inj h
      exact ⟨[], rfl, fun k' => rfl⟩
  | cons a u =>
      obtain ⟨rfl, rfl⟩ := List.cons.inj h
      exact ⟨u ++ [n], by simp, fun k' => by simp⟩

variable {place : Token → Position}

theorem Qualifies.exists_prefix {i k : List Token} {r : Option Expr}
    (h : Qualifies place i k r) : ∃ u, i = u ++ k ∧ ∀ k', Qualifies place (u ++ k') k' r := by
  cases h with
  | absent => exact ⟨[], rfl, fun k' => .absent⟩
  | @this t d k ht hd => exact ⟨[t, d], rfl, fun k' => .this ht hd⟩
  | @super t d k ht hd => exact ⟨[t, d], rfl, fun k' => .super ht hd⟩

theorem Qualifies.mem_of_endOfInput {i k : List Token} {r : Option Expr} {q : Token}
    (hq : q.kind = .endOfInput) (h : Qualifies place i k r) : q ∈ i → q ∈ k := by
  cases h <;> grind

namespace ExprCategory

def least : ExprCategory → Nat
  | .level _ => 1
  | .arguments => 0
  | .moreArguments => 0

end ExprCategory

namespace DerivesExpr

theorem least_le {c : ExprCategory} {i k : List Token} {x : c.Tree}
    (h : DerivesExpr place c i k x) : k.length + c.least ≤ i.length := by
  induction h with
  | var hq _ =>
      obtain ⟨u, hu, -⟩ := hq.exists_prefix
      have := congrArg List.length hu
      simp [ExprCategory.least] at this ⊢
      omega
  | call hq _ _ _ _ ih =>
      obtain ⟨u, hu, -⟩ := hq.exists_prefix
      have := congrArg List.length hu
      simp [ExprCategory.least] at this ih ⊢
      omega
  | _ => simp only [ExprCategory.least, List.length_cons] at *; omega

theorem length_lt {l : Level} {i k : List Token} {e : Expr}
    (h : DerivesExpr place (.level l) i k e) : k.length < i.length :=
  h.least_le

theorem exists_cons {l : Level} {i k : List Token} {e : Expr}
    (h : DerivesExpr place (.level l) i k e) : ∃ t j, i = t :: j :=
  List.exists_cons_of_length_pos (Nat.zero_lt_of_lt h.length_lt)

theorem ne_nil_of_cons {c : ExprCategory} {q : Token} {i k : List Token} {x : c.Tree}
    (h : DerivesExpr place c i (q :: k) x) : i ≠ [] := by
  rintro rfl
  exact absurd h.least_le (by simp)

theorem exists_prefix {c : ExprCategory} {i k : List Token} {x : c.Tree}
    (h : DerivesExpr place c i k x) :
    ∃ u, i = u ++ k ∧ ∀ k', DerivesExpr place c (u ++ k') k' x := by
  induction h with
  | disjunction _ ih =>
      obtain ⟨u, hu, hk⟩ := ih
      exact ⟨u, hu, fun k' => .disjunction (hk k')⟩
  | @assignment t a i j k p r name v _ ha _ ihl ihr =>
      obtain ⟨u, hu, hj⟩ := ihl
      obtain ⟨v, rfl, hv⟩ := exists_cons_of_cons_eq_append hu
      obtain ⟨w, rfl, hk⟩ := ihr
      refine ⟨t :: (v ++ w), by simp, fun k' => ?_⟩
      have hl := hj (a :: (w ++ k'))
      rw [hv] at hl
      simpa using .assignment hl ha (hk k')
  | operand _ ih =>
      obtain ⟨u, hu, hk⟩ := ih
      exact ⟨u, hu, fun k' => .operand (hk k')⟩
  | @binary o op t a i j k l r _ hop _ ihl ihr =>
      obtain ⟨u, hu, hj⟩ := ihl
      obtain ⟨v, rfl, hv⟩ := exists_cons_of_cons_eq_append hu
      obtain ⟨w, rfl, hk⟩ := ihr
      refine ⟨t :: (v ++ w), by simp, fun k' => ?_⟩
      have hl := hj (a :: (w ++ k'))
      rw [hv] at hl
      simpa using .binary hl hop (hk k')
  | @creation t n p q k ht hn hp hq => exact ⟨[t, n, p, q], rfl, fun k' => .creation ht hn hp hq⟩
  | @conversion t p n c q i k e ht hp hn hc _ hq ih =>
      obtain ⟨u, rfl, hk⟩ := ih
      exact ⟨t :: p :: n :: c :: (u ++ [q]), by simp, fun k' => by
        simpa using .conversion ht hp hn hc (hk (q :: k')) hq⟩
  | unary _ ih =>
      obtain ⟨u, hu, hk⟩ := ih
      exact ⟨u, hu, fun k' => .unary (hk k')⟩
  | @leading op t i k e hop _ ih =>
      obtain ⟨u, rfl, hk⟩ := ih
      exact ⟨t :: u, rfl, fun k' => .leading hop (hk k')⟩
  | noLeading _ ih =>
      obtain ⟨u, hu, hk⟩ := ih
      exact ⟨u, hu, fun k' => .noLeading (hk k')⟩
  | @trailing op t a i k e _ hop ih =>
      obtain ⟨u, hu, hj⟩ := ih
      obtain ⟨v, rfl, hv⟩ := exists_cons_of_cons_eq_append hu
      refine ⟨t :: v, rfl, fun k' => ?_⟩
      have he := hj (a :: k')
      rw [hv] at he
      exact .trailing he hop
  | noTrailing _ ih =>
      obtain ⟨u, hu, hk⟩ := ih
      exact ⟨u, hu, fun k' => .noTrailing (hk k')⟩
  | @parenthesized t q i k e ht _ hq ih =>
      obtain ⟨u, rfl, hk⟩ := ih
      exact ⟨t :: u ++ [q], by simp, fun k' => by
        simpa using .parenthesized ht (hk (q :: k')) hq⟩
  | @integer t k v ht hv => exact ⟨[t], rfl, fun k' => .integer ht hv⟩
  | @boolean t k ht => exact ⟨[t], rfl, fun k' => .boolean ht⟩
  | @string t k ht => exact ⟨[t], rfl, fun k' => .string ht⟩
  | @var t n i k r hr hn =>
      obtain ⟨u, hu, hj⟩ := hr.exists_prefix
      obtain ⟨v, rfl, hv⟩ := exists_cons_of_cons_eq_append hu
      refine ⟨t :: v, rfl, fun k' => ?_⟩
      have hr := hj (n :: k')
      rw [hv] at hr
      exact .var hr hn
  | @call t n p a q i j k r es hr hn hp _ hq ih =>
      obtain ⟨u, hu, hj⟩ := hr.exists_prefix
      obtain ⟨v, rfl, hv⟩ := exists_cons_of_cons_eq_append hu
      obtain ⟨w', hw', hk⟩ := ih
      obtain ⟨w, rfl, hw⟩ := exists_cons_of_cons_eq_append hw'
      refine ⟨t :: (v ++ p :: a :: w), by simp, fun k' => ?_⟩
      have hr := hj (n :: p :: a :: (w ++ k'))
      rw [hv] at hr
      have hes := hk (q :: k')
      rw [hw] at hes
      simpa using .call hr hn hp hes hq
  | noArguments => exact ⟨[], rfl, fun k' => .noArguments⟩
  | someArguments _ _ ihe ihes =>
      obtain ⟨u, rfl, hj⟩ := ihe
      obtain ⟨v, rfl, hk⟩ := ihes
      exact ⟨u ++ v, by simp, fun k' => by simpa using .someArguments (hj (v ++ k')) (hk k')⟩
  | noMoreArguments => exact ⟨[], rfl, fun k' => .noMoreArguments⟩
  | @moreArguments c i j k e es hc _ _ ihe ihes =>
      obtain ⟨u, rfl, hj⟩ := ihe
      obtain ⟨v, rfl, hk⟩ := ihes
      exact ⟨c :: (u ++ v), by simp, fun k' => by
        simpa using .moreArguments hc (hj (v ++ k')) (hk k')⟩

end DerivesExpr

def startsPrimary : TokenKind → Bool
  | .identifier | .integer | .string | .boolean => true
  | .keyword .kwThis | .keyword .kwSuper => true
  | .symbol .openParen => true
  | _ => false

def startsExpression (kind : TokenKind) : Bool :=
  startsPrimary kind || (leadingOp? kind).isSome || kind = .keyword .kwNew || kind = .keyword .kwCast

/-- The kinds of token that a phrase of the category may begin with; an empty phrase has none. -/
def ExprCategory.starts : ExprCategory → TokenKind → Bool
  | .level .primary, kind => startsPrimary kind
  | .level .trailing, kind => startsPrimary kind
  | .level .leading, kind => startsPrimary kind || (leadingOp? kind).isSome
  | .level _, kind => startsExpression kind
  | _, _ => true

theorem ExprCategory.startsExpression_of_starts {l : Level} {kind : TokenKind}
    (h : (ExprCategory.level l).starts kind = true) : startsExpression kind = true := by
  cases l <;> simp_all [ExprCategory.starts, startsExpression]

theorem Qualifies.startsPrimary {t n : Token} {i k : List Token} {r : Option Expr}
    (h : Qualifies place (t :: i) (n :: k) r) (hn : n.kind = .identifier) :
    startsPrimary t.kind = true := by
  cases h with
  | absent => rw [hn]; rfl
  | this ht _ => rw [ht]; rfl
  | super ht _ => rw [ht]; rfl

namespace DerivesExpr

theorem starts_nextKind {c : ExprCategory} {i k : List Token} {x : c.Tree}
    (h : DerivesExpr place c i k x) : c.starts (nextKind i) = true := by
  induction h with
  | disjunction _ ih => exact ih
  | assignment _ _ _ ih _ => exact ih
  | operand _ ih => exact ExprCategory.startsExpression_of_starts ih
  | binary _ _ _ ih _ => exact ExprCategory.startsExpression_of_starts ih
  | unary _ ih => exact ExprCategory.startsExpression_of_starts ih
  | noLeading _ ih =>
      simp only [ExprCategory.starts, Bool.or_eq_true] at ih ⊢
      exact .inl ih
  | trailing _ _ ih => exact ih
  | noTrailing _ ih => exact ih
  | leading hop _ _ => simp [ExprCategory.starts, hop]
  | var hr hn => exact hr.startsPrimary hn
  | call hr hn _ _ _ _ => exact hr.startsPrimary hn
  | creation ht _ _ _ => simp [ExprCategory.starts, startsExpression, ht]
  | conversion ht _ _ _ _ _ _ => simp [ExprCategory.starts, startsExpression, ht]
  | parenthesized ht _ _ _ => simp [ExprCategory.starts, startsPrimary, ht]
  | integer ht _ => simp [ExprCategory.starts, startsPrimary, ht]
  | boolean ht => simp [ExprCategory.starts, startsPrimary, ht]
  | string ht => simp [ExprCategory.starts, startsPrimary, ht]
  | noArguments => rfl
  | someArguments => rfl
  | noMoreArguments => rfl
  | moreArguments => rfl

theorem startsExpression_nextKind {l : Level} {i k : List Token} {e : Expr}
    (h : DerivesExpr place (.level l) i k e) : startsExpression (nextKind i) = true :=
  ExprCategory.startsExpression_of_starts h.starts_nextKind

theorem nextKind_ne {l : Level} {i k : List Token} {e : Expr} {kind : TokenKind}
    (h : DerivesExpr place (.level l) i k e) (hkind : startsExpression kind = false) :
    nextKind i ≠ kind := by
  intro hi
  have hstart := h.startsExpression_nextKind
  rw [hi, hkind] at hstart
  exact absurd hstart (by simp)

theorem mem_of_endOfInput {c : ExprCategory} {i k : List Token} {x : c.Tree} {q : Token}
    (hq : q.kind = .endOfInput) (h : DerivesExpr place c i k x) : q ∈ i → q ∈ k := by
  induction h with
  | binary _ hop _ _ _ =>
      have := Operators.kind_ne_endOfInput hop
      grind
  | leading hop _ _ =>
      have : leadingOp? q.kind = none := by rw [hq]; rfl
      grind
  | trailing _ hop _ =>
      have : trailingOp? q.kind = none := by rw [hq]; rfl
      grind
  | var hr _ =>
      have := hr.mem_of_endOfInput hq
      grind
  | call hr _ _ _ _ _ =>
      have := hr.mem_of_endOfInput hq
      grind
  | _ => grind

theorem of_operators {o : Operators} {i k : List Token} {e : Expr}
    (h : DerivesExpr place (.level (.operators o)) i k e) :
    DerivesExpr place (.level .expression) i k e := by
  have hconjunction : DerivesExpr place (.level (.operators .conjunction)) i k e →
      DerivesExpr place (.level .expression) i k e := fun h => .disjunction (.operand h)
  have hequality : DerivesExpr place (.level (.operators .equality)) i k e →
      DerivesExpr place (.level .expression) i k e := fun h => hconjunction (.operand h)
  have hrelation : DerivesExpr place (.level (.operators .relation)) i k e →
      DerivesExpr place (.level .expression) i k e := fun h => hequality (.operand h)
  have hsum : DerivesExpr place (.level (.operators .sum)) i k e →
      DerivesExpr place (.level .expression) i k e := fun h => hrelation (.operand h)
  cases o with
  | disjunction => exact .disjunction h
  | conjunction => exact hconjunction h
  | equality => exact hequality h
  | relation => exact hrelation h
  | sum => exact hsum h
  | product => exact hsum (.operand h)

theorem of_factor {i k : List Token} {e : Expr} (h : DerivesExpr place (.level .factor) i k e) :
    DerivesExpr place (.level .expression) i k e :=
  DerivesExpr.of_operators (o := .product) (.operand h)

theorem of_primary {i k : List Token} {e : Expr} (h : DerivesExpr place (.level .primary) i k e)
    (l : Level) : DerivesExpr place (.level l) i k e := by
  have hfactor : DerivesExpr place (.level .factor) i k e := .unary (.noLeading (.noTrailing h))
  have hproduct : DerivesExpr place (.level (.operators .product)) i k e := .operand hfactor
  have hsum : DerivesExpr place (.level (.operators .sum)) i k e := .operand hproduct
  have hrelation : DerivesExpr place (.level (.operators .relation)) i k e := .operand hsum
  have hequality : DerivesExpr place (.level (.operators .equality)) i k e := .operand hrelation
  have hconjunction : DerivesExpr place (.level (.operators .conjunction)) i k e :=
    .operand hequality
  have hdisjunction : DerivesExpr place (.level (.operators .disjunction)) i k e :=
    .operand hconjunction
  cases l with
  | expression => exact .disjunction hdisjunction
  | operators o => cases o <;> assumption
  | factor => exact hfactor
  | leading => exact .noLeading (.noTrailing h)
  | trailing => exact .noTrailing h
  | primary => exact h

end DerivesExpr

end Grammar

end ClassLang
