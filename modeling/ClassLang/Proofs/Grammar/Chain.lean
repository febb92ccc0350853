import ClassLang.Proofs.Grammar.Derivation.Expression
import ClassLang.Proofs.Grammar.Termination.Declaration
import ClassLang.Proofs.Rule.Repetition
/-!
Chains of operands with operators of one level between them, of any length. Main statement: sums and
products group to the right, disjunctions and conjunctions to the left, and comparisons stop after
two operands (`read_chain`).
-/

namespace ClassLang

namespace TokenStream

/-- The stream with these tokens before it. -/
def putBack (s : TokenStream) (u : List Token) : TokenStream :=
  ⟨u ++ s.pending, s.endMark⟩

@[simp] theorem putBack_nil (s : TokenStream) : s.putBack [] = s := rfl

@[simp] theorem current_putBack_cons (s : TokenStream) (t : Token) (u : List Token) :
    (s.putBack (t :: u)).current = t := rfl

@[simp] theorem advance_putBack_cons (s : TokenStream) (t : Token) (u : List Token) :
    (s.putBack (t :: u)).advance = s.putBack u := rfl

theorem putBack_append (s : TokenStream) (u v : List Token) :
    s.putBack (u ++ v) = (s.putBack v).putBack u := by
  rw [putBack, putBack, putBack, List.append_assoc]

@[simp] theorem length_pending_putBack (s : TokenStream) (u : List Token) :
    (s.putBack u).pending.length = u.length + s.pending.length :=
  List.length_append

end TokenStream

namespace Grammar

open Rule

/-- An operand of a chain: its tokens, and what they are read as. -/
structure Operand where
  tokens : List Token
  value : Expr

structure Link where
  token : Token
  op : BinaryOp
  operand : Operand

def Operand.start (a : Operand) : Position :=
  match a.tokens with
  | [] => .null
  | t :: _ => t.position

def linkTokens : List Link → List Token
  | [] => []
  | l :: ls => l.token :: (l.operand.tokens ++ linkTokens ls)

def rightNested (a : Operand) : List Link → Expr
  | [] => a.value
  | l :: ls => .binary a.start l.op a.value (rightNested l.operand ls)

def leftNested (start : Position) (left : Expr) : List Link → Expr
  | [] => left
  | l :: ls => leftNested start (.binary start l.op left l.operand.value) ls

def firstPair (a : Operand) : List Link → Expr
  | [] => a.value
  | l :: _ => .binary a.start l.op a.value l.operand.value

/--
Every operand but the last is read up to the operator after it, and the last up to where the stream
goes on with something else than an operator.
-/
inductive Chain (op? : TokenKind → Option BinaryOp) (reads : Operand → TokenStream → Prop) :
    Operand → List Link → TokenStream → Prop
  | last {a : Operand} {s : TokenStream} :
      reads a s → op? s.current.kind = none → Chain op? reads a [] s
  | link {a : Operand} {l : Link} {ls : List Link} {s : TokenStream} :
      reads a (s.putBack (linkTokens (l :: ls))) → op? l.token.kind = some l.op →
      Chain op? reads l.operand ls s → Chain op? reads a (l :: ls) s

variable {op? : TokenKind → Option BinaryOp} {reads reads' : Operand → TokenStream → Prop}
  {a : Operand} {ls : List Link} {s : TokenStream}

namespace Chain

theorem head (h : Chain op? reads a ls s) : reads a (s.putBack (linkTokens ls)) := by
  cases h with
  | last h _ => exact h
  | link h _ _ => exact h

theorem imp (h : Chain op? reads a ls s) {n : Nat}
    (hn : (s.putBack (a.tokens ++ linkTokens ls)).pending.length ≤ n)
    (himp : ∀ a s, (s.putBack a.tokens).pending.length ≤ n → reads a s → reads' a s) :
    Chain op? reads' a ls s := by
  induction h with
  | last h hend => exact .last (himp _ _ (by simpa [linkTokens] using hn) h) hend
  | link h hop _ ih =>
      rw [TokenStream.putBack_append] at hn
      refine .link (himp _ _ hn h) hop (ih (Nat.le_trans ?_ hn))
      simp only [linkTokens, TokenStream.length_pending_putBack, List.length_append,
        List.length_cons]
      omega

end Chain

section Rules

variable {operand second : Rule Expr}

structure ReadBy (operand : Rule Expr) (a : Operand) (s : TokenStream) : Prop where
  nonempty : a.tokens ≠ []
  reads : operand (s.putBack a.tokens) = .ok a.value s

theorem ReadBy.position (h : ReadBy operand a s) :
    (s.putBack a.tokens).current.position = a.start := by
  obtain ⟨tokens, value⟩ := a
  cases tokens with
  | nil => exact absurd rfl h.nonempty
  | cons t u => rfl

theorem joined_last (ha : ReadBy operand a s) (hend : op? s.current.kind = none) :
    joined op? operand second (s.putBack a.tokens) = .ok a.value s := by
  rw [joined, position_bind, bind_of_ok ha.reads, kind_bind, hend]
  rfl

theorem joined_link {op : BinaryOp} {right : Expr} {s' : TokenStream} (ha : ReadBy operand a s)
    (hop : op? s.current.kind = some op) (hright : second s.advance = .ok right s') :
    joined op? operand second (s.putBack a.tokens) =
      .ok (.binary a.start op a.value right) s' := by
  rw [joined, position_bind, bind_of_ok ha.reads, kind_bind, hop, ha.position]
  change (advance >>= _) _ = _
  rw [advance_bind, bind_of_ok hright]
  rfl

theorem moreLeft_chain (h : Chain op? (ReadBy operand) a ls s) {bound : Nat}
    (hbound : ls.length ≤ bound) (start : Position) (left : Expr) :
    moreLeft op? operand start bound left (s.putBack (linkTokens ls)) =
      .ok (leftNested start left ls) s := by
  induction h generalizing bound left with
  | last _ hend =>
      cases bound with
      | zero => rfl
      | succ bound =>
          rw [moreLeft, kind_bind, linkTokens, TokenStream.putBack_nil, hend]
          rfl
  | @link a l ls s _ hop hrest ih =>
      cases bound with
      | zero => exact absurd hbound (Nat.not_succ_le_zero _)
      | succ bound =>
          have hnext : operand (s.putBack (l.operand.tokens ++ linkTokens ls)) =
              .ok l.operand.value (s.putBack (linkTokens ls)) := by
            rw [TokenStream.putBack_append]
            exact hrest.head.reads
          rw [moreLeft, kind_bind, linkTokens, TokenStream.current_putBack_cons, hop]
          change (advance >>= _) _ = _
          rw [advance_bind, TokenStream.advance_putBack_cons, bind_of_ok hnext]
          exact ih (Nat.le_of_succ_le_succ hbound) _

theorem chainLeft_chain (h : Chain op? (ReadBy operand) a ls s) {bound : Nat}
    (hbound : ls.length ≤ bound) :
    chainLeft op? operand bound (s.putBack (a.tokens ++ linkTokens ls)) =
      .ok (leftNested a.start a.value ls) s := by
  have ha := h.head
  rw [TokenStream.putBack_append, chainLeft, position_bind, bind_of_ok ha.reads, ha.position]
  exact moreLeft_chain h hbound a.start a.value

theorem chainRight_chain (h : Chain op? (ReadBy operand) a ls s) {bound : Nat}
    (hbound : ls.length ≤ bound) :
    chainRight op? operand bound (s.putBack (a.tokens ++ linkTokens ls)) =
      .ok (rightNested a ls) s := by
  induction h generalizing bound with
  | last ha hend =>
      rw [linkTokens, List.append_nil]
      cases bound with
      | zero => exact ha.reads
      | succ bound =>
          rw [chainRight_succ]
          exact joined_last ha hend
  | link ha hop _ ih =>
      cases bound with
      | zero => exact absurd hbound (Nat.not_succ_le_zero _)
      | succ bound =>
          rw [chainRight_succ, TokenStream.putBack_append]
          exact joined_link ha hop (ih (Nat.le_of_succ_le_succ hbound))

theorem atMostOne_chain (h : Chain op? (ReadBy operand) a ls s) :
    atMostOne op? operand (s.putBack (a.tokens ++ linkTokens ls)) =
      .ok (firstPair a ls) (s.putBack (linkTokens ls.tail)) := by
  rw [atMostOne_eq_joined]
  cases h with
  | last ha hend =>
      rw [linkTokens, List.append_nil]
      exact joined_last ha hend
  | @link a l ls _ ha hop hrest =>
      have hright := hrest.head.reads
      rw [← TokenStream.putBack_append] at hright
      rw [TokenStream.putBack_append]
      exact joined_link ha hop hright

end Rules

section Levels

variable {b : Nat} {o : Operators} {x : Phrase} {s' : TokenStream}

def Level.nonterminal : Level → Nonterminal
  | .expression => .expression
  | .operators .disjunction => .disjunction
  | .operators .conjunction => .conjunction
  | .operators .equality => .equality
  | .operators .relation => .relation
  | .operators .sum => .sum
  | .operators .product => .product
  | .factor => .factor
  | .leading => .leading
  | .trailing => .trailing
  | .primary => .primary

/-- The rule of a level, for a bound on the pending tokens. -/
def Level.rule (b : Nat) : Level → Rule Expr
  | .expression => Grammar.expression b
  | .operators .disjunction => disjunction (Grammar.expression b) b
  | .operators .conjunction => conjunction (Grammar.expression b) b
  | .operators .equality => equality (Grammar.expression b) b
  | .operators .relation => relation (Grammar.expression b) b
  | .operators .sum => sum (Grammar.expression b) b
  | .operators .product => product (Grammar.expression b) b
  | .factor => Grammar.factor (Grammar.expression b) b
  | .leading => Grammar.leading (Grammar.trailing (Grammar.expression b) b) b
  | .trailing => Grammar.trailing (Grammar.expression b) b
  | .primary => Grammar.primary (Grammar.expression b) b

theorem ruleOf_nonterminal (file : String) (b : Nat) (l : Level) :
    ruleOf file b l.nonterminal = .expr <$> l.rule b := by
  cases l with
  | operators o => cases o <;> rfl
  | _ => rfl

theorem ruleOf_eq_read (file : String) (n : Nonterminal) (hs : s.pending.length ≤ b) :
    ruleOf file b n s = read file n s := by
  obtain ⟨_, h⟩ := ruleOf_agrees file n hs
  obtain ⟨_, h'⟩ := ruleOf_agrees file n (Nat.le_refl s.pending.length)
  exact (h'.unique h).2

theorem Level.length_lt_of_read {file : String} {l : Level}
    (h : read file l.nonterminal s = .ok x s') : s'.pending.length < s.pending.length := by
  by_cases hs : s.pending = []
  · obtain ⟨pending, mark⟩ := s
    cases hs
    cases l with
    | operators o => cases o <;> cases h
    | _ => cases h
  · have hn : l.nonterminal ∉ [.program, .formals, .arguments] := by
      cases l with
      | operators o => cases o <;> decide
      | _ => decide
    obtain ⟨_, heval⟩ := ruleOf_agrees file l.nonterminal (Nat.le_refl s.pending.length)
    change procedures.Evaluates _ _ _ s _ (read file l.nonterminal s) at heval
    rw [h] at heval
    exact scriptOf_consumes file hn heval hs

/-- The tokens of the operand, put before the stream, are read as its value and no further. -/
def ReadAs (file : String) (l : Level) (a : Operand) (s : TokenStream) : Prop :=
  read file l.nonterminal (s.putBack a.tokens) = .ok (.expr a.value) s

theorem ReadAs.readBy {file : String} {l : Level} (h : ReadAs file l a s)
    (hb : (s.putBack a.tokens).pending.length ≤ b) : ReadBy (l.rule b) a s := by
  refine ⟨fun hnil => ?_, ?_⟩
  · have hlt := Level.length_lt_of_read h
    rw [hnil] at hlt
    exact Nat.lt_irrefl _ hlt
  · rw [ReadAs, ← ruleOf_eq_read file l.nonterminal hb, ruleOf_nonterminal] at h
    cases hr : l.rule b (s.putBack a.tokens) with
    | ok e s₁ =>
        rw [map_of_ok hr] at h
        cases h
        rfl
    | error d s₁ =>
        rw [map_of_error hr] at h
        cases h

namespace Operators

def group (o : Operators) (a : Operand) (ls : List Link) : Expr :=
  match o with
  | .disjunction | .conjunction => leftNested a.start a.value ls
  | .equality | .relation => firstPair a ls
  | .sum | .product => rightNested a ls

/-- The links of a chain that are left unread. -/
def unread (o : Operators) (ls : List Link) : List Link :=
  match o with
  | .equality | .relation => ls.tail
  | _ => []

theorem rule_chain (h : Chain o.op? (ReadBy (o.tighter.rule b)) a ls s) (hb : ls.length ≤ b) :
    (Level.operators o).rule b (s.putBack (a.tokens ++ linkTokens ls)) =
      .ok (o.group a ls) (s.putBack (linkTokens (o.unread ls))) := by
  cases o with
  | disjunction => exact chainLeft_chain h hb
  | conjunction => exact chainLeft_chain h hb
  | equality => exact atMostOne_chain h
  | relation => exact atMostOne_chain h
  | sum => exact chainRight_chain h hb
  | product => exact chainRight_chain h hb

end Operators

theorem length_le_linkTokens (ls : List Link) : ls.length ≤ (linkTokens ls).length := by
  induction ls with
  | nil => exact Nat.le_refl 0
  | cons l ls ih =>
      rw [linkTokens, List.length_cons, List.length_cons, List.length_append]
      omega

theorem read_chain {file : String} (h : Chain o.op? (ReadAs file o.tighter) a ls s) :
    read file (Level.operators o).nonterminal (s.putBack (a.tokens ++ linkTokens ls)) =
      .ok (.expr (o.group a ls)) (s.putBack (linkTokens (o.unread ls))) := by
  let b := (s.putBack (a.tokens ++ linkTokens ls)).pending.length
  have hbound : ls.length ≤ b := by
    have hle := length_le_linkTokens ls
    simp only [b, TokenStream.length_pending_putBack, List.length_append]
    omega
  have hread := Operators.rule_chain (h.imp (Nat.le_refl b) fun _ _ hb ha => ha.readBy hb) hbound
  rw [← ruleOf_eq_read file _ (Nat.le_refl b), ruleOf_nonterminal]
  exact map_of_ok hread

/-- In `a - b * c + d` the sum is inside the difference, at the start of the product. -/
theorem read_chain_of_difference :
    let place (offset : Nat) := Position.ofBytes "a.cl" offset
    let name (offset : Nat) (text : String) := Token.mk .identifier text (.ofBytes "a.cl" offset 1)
    let var (offset : Nat) (text : String) := Expr.var (place offset) none text
    let minus := Token.mk (.symbol .minus) "-" (.ofBytes "a.cl" 2 1)
    let star := Token.mk (.symbol .star) "*" (.ofBytes "a.cl" 6 1)
    let plus := Token.mk (.symbol .plus) "+" (.ofBytes "a.cl" 10 1)
    let semicolon := Token.mk (.symbol .semicolon) ";" (.ofBytes "a.cl" 13 1)
    let s := TokenStream.mk [semicolon] (.atPosition (place 14))
    let product := Expr.binary (place 4) .multiply (var 4 "b") (var 8 "c")
    let ls : List Link := [⟨minus, .subtract, [name 4 "b", star, name 8 "c"], product⟩,
      ⟨plus, .add, [name 12 "d"], var 12 "d"⟩]
    Chain sumOp? (ReadAs "a.cl" (.operators .product)) ⟨[name 0 "a"], var 0 "a"⟩ ls s ∧
      read "a.cl" .sum (s.putBack [name 0 "a", minus, name 4 "b", star, name 8 "c", plus,
        name 12 "d"]) = .ok (.expr (.binary (place 0) .subtract (var 0 "a")
          (.binary (place 4) .add product (var 12 "d")))) s := by
  intro place name var minus star plus semicolon s product ls
  have h : Chain sumOp? (ReadAs "a.cl" (.operators .product)) ⟨[name 0 "a"], var 0 "a"⟩ ls s :=
    .link rfl rfl (.link rfl rfl (.last rfl rfl))
  have hread := @read_chain _ _ _ .sum "a.cl" h
  exact ⟨h, hread⟩

end Levels

end Grammar

end ClassLang
