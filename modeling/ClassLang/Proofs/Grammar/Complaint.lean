import ClassLang.Proofs.Grammar.Unbounded
import ClassLang.Proofs.Rule.Complaint
import ClassLang.Proofs.Token.Lexical
/-!
What the grammar complains of. Main statement: the body of every rule and loop, on tokens as a text
has them, says of a token that something else is wanted, that a construct lacks something there, or
that it is an integer constant without a value; the rule's own words are on one line
(`body_complains`).
-/

namespace ClassLang

namespace Grammar

/-- What the grammar may say of a token, as far as it shows how many lines a message has. -/
inductive MaySay (t : Token) : Cause → Prop
  | expected {wanted : String} : '\n' ∉ wanted.toList → MaySay t (.expected wanted t.display)
  | missing {construct : String} {wanted : TokenKind} :
      '\n' ∉ construct.toList → MaySay t (.missing construct wanted.describe)
  | badInteger : t.kind = .integer → MaySay t (.badInteger t.value)

/-- The construct that a call names, if it does, is named on one line. -/
def Call.OnOneLine : {α : Type} → Call α → Prop
  | _, .afterCommas item => item.OnOneLine
  | _, .toCloseBrace construct item => '\n' ∉ construct.toList ∧ item.OnOneLine
  | _, .toEndOfInput item => item.OnOneLine
  | _, .moreLeft _ operand _ _ => operand.OnOneLine
  | _, _ => True

def terms (p : Token → Prop) : Terms Call :=
  ⟨p, Call.OnOneLine, MaySay⟩

theorem newline_notMem_describe (κ : TokenKind) : '\n' ∉ κ.describe.toList := by
  cases κ with
  | keyword k => cases k <;> decide
  | symbol s => cases s <;> decide
  | _ => decide

namespace Unbounded

open Script

variable {p : Token → Prop} {t : Token} (ht : p t)

section Steps

theorem expectIn_complains (wanted : TokenKind) {construct : String}
    (h : '\n' ∉ construct.toList) : (expectIn wanted construct).Complains (terms p) t :=
  .expectOr (.missing h)

theorem expect_complains (wanted : TokenKind) : (expect wanted).Complains (terms p) t :=
  .current (.expectOr (.expected (newline_notMem_describe wanted)))

theorem unexpected_complains {α : Type} {wanted : String} (h : '\n' ∉ wanted.toList) :
    (unexpected wanted : Script Call α).Complains (terms p) t :=
  .current (.expected h)

include ht

theorem identifier_complains : identifier.Complains (terms p) t :=
  .bind ht (expect_complains _) fun _ _ _ => .pure _

end Steps

section Loops

variable {α : Type} {item : Call α} (hitem : item.OnOneLine)

include hitem

theorem afterCommas_complains : (afterCommas item).Complains (terms p) t := by
  refine .kind ?_
  split
  · refine .advance fun _ _ => .bind_call hitem fun _ _ _ => ?_
    exact .bind_call hitem fun _ _ _ => .pure _
  · exact .pure []

theorem inParens_complains : (inParens item).Complains (terms p) t := by
  refine .position (.kind ?_)
  split
  · exact .pure _
  · exact .bind_call hitem fun _ _ _ => .bind_call hitem fun _ _ _ => .pure _

theorem toCloseBrace_complains {construct : String} (hconstruct : '\n' ∉ construct.toList) :
    (toCloseBrace item construct).Complains (terms p) t := by
  refine .kind ?_
  split
  · exact .advance fun _ _ => .pure []
  · exact MaySay.missing hconstruct
  · exact .bind_call hitem fun _ _ _ => .bind_call ⟨hconstruct, hitem⟩ fun _ _ _ => .pure _

theorem toEndOfInput_complains : (toEndOfInput item).Complains (terms p) t := by
  refine .kind ?_
  split
  · exact .pure []
  · exact .bind_call hitem fun _ _ _ => .bind_call hitem fun _ _ _ => .pure _

end Loops

section Operators

variable {op? : TokenKind → Option BinaryOp} {operand second : Call Expr}
  (hoperand : operand.OnOneLine)

include hoperand

theorem moreLeft_complains (position : Position) (left : Expr) :
    (moreLeft op? operand position left).Complains (terms p) t := by
  refine .kind ?_
  cases op? t.kind with
  | none => exact .pure left
  | some op => exact .advance fun _ _ => .bind_call hoperand fun _ _ _ => .call hoperand

theorem chainLeft_complains : (chainLeft op? operand).Complains (terms p) t :=
  .position (.bind_call hoperand fun _ _ _ => .call hoperand)

theorem joined_complains (hsecond : second.OnOneLine) :
    (joined op? operand second).Complains (terms p) t := by
  refine .position (.bind_call hoperand fun left t' _ => .kind ?_)
  cases op? t'.kind with
  | none => exact .pure left
  | some op => exact .advance fun _ _ => .bind_call hsecond fun _ _ _ => .pure _

end Operators

section Expressions

include ht

theorem varOrCall_complains (position : Position) (reference : Option Expr) :
    (varOrCall position reference).Complains (terms p) t := by
  refine .bind ht (identifier_complains ht) fun name t' _ => .kind ?_
  split
  · refine .advance fun _ _ => .bind_call trivial fun _ _ h => ?_
    exact .bind h (expectIn_complains _ (by decide)) fun _ _ _ => .pure _
  · exact .pure _

omit ht in
theorem parenthesized_complains : parenthesized.Complains (terms p) t := by
  refine .advance fun _ _ => .bind_call trivial fun _ _ h => ?_
  exact .bind h (expectIn_complains _ (by decide)) fun _ _ _ => .pure _

omit ht in
theorem integerConstant_complains (hkind : t.kind = .integer) :
    integerConstant.Complains (terms p) t := by
  refine .current ?_
  cases readInteger? t.value.toList with
  | none => exact MaySay.badInteger hkind
  | some value => exact .advance fun _ _ => .pure _

omit ht in
/-- The word before the dot is a keyword, which is on one line. -/
theorem qualified_complains {k : Keyword} (hvalue : t.value = k.spelling) :
    qualified.Complains (terms p) t := by
  have hwanted : '\n' ∉ ("`.` after `" ++ t.value ++ "`").toList := by
    rw [hvalue]
    cases k <;> decide
  refine .advance fun t' ht' => ?_
  exact .current (.bind ht' (.expectOr (.expected hwanted)) fun _ _ h => varOrCall_complains h _ _)

theorem primary_complains (hadmits : t.kind.Admits t.value) :
    primary.Complains (terms p) t := by
  refine .current ?_
  generalize hκ : t.kind = κ at hadmits
  split
  · exact parenthesized_complains
  · exact integerConstant_complains hκ
  · exact .advance fun _ _ => .pure _
  · exact .advance fun _ _ => .pure _
  · exact qualified_complains hadmits
  · exact qualified_complains hadmits
  · exact varOrCall_complains ht _ _
  · exact unexpected_complains (by decide)

omit ht

theorem trailing_complains : trailing.Complains (terms p) t := by
  refine .position (.bind_call trivial fun operand t' _ => .kind ?_)
  cases trailingOp? t'.kind with
  | none => exact .pure operand
  | some op => exact .advance fun _ _ => .pure _

theorem leading_complains : leading.Complains (terms p) t := by
  refine .kind ?_
  cases leadingOp? t.kind with
  | none => exact .call trivial
  | some op => exact .advance fun _ _ => .bind_call trivial fun _ _ _ => .pure _

theorem creation_complains : creation.Complains (terms p) t := by
  refine .advance fun _ h => .bind h (identifier_complains h) fun _ _ h => ?_
  refine .bind h (expectIn_complains _ (by decide)) fun _ _ h => ?_
  exact .bind h (expectIn_complains _ (by decide)) fun _ _ _ => .pure _

theorem conversion_complains : conversion.Complains (terms p) t := by
  refine .advance fun _ h => .bind h (expectIn_complains _ (by decide)) fun _ _ h => ?_
  refine .bind h (identifier_complains h) fun _ _ h => ?_
  refine .bind h (expectIn_complains _ (by decide)) fun _ _ _ => ?_
  refine .bind_call trivial fun _ _ h => ?_
  exact .bind h (expectIn_complains _ (by decide)) fun _ _ _ => .pure _

theorem factor_complains : factor.Complains (terms p) t := by
  refine .kind ?_
  split <;> exact .call trivial

theorem expression_complains : expression.Complains (terms p) t := by
  refine .position (.bind_call trivial fun left t' _ => ?_)
  cases left with
  | var q reference name =>
      refine .kind ?_
      split
      · exact .advance fun _ _ => .bind_call trivial fun _ _ _ => .pure _
      · exact .pure _
  | _ => exact .pure _

end Expressions

section Statements

theorem optionalExpression_complains (terminator : Symbol) :
    (optionalExpression terminator).Complains (terms p) t := by
  refine .kind ?_
  split
  · exact .pure none
  · exact .bind_call trivial fun _ _ _ => .pure _

theorem expressionStatement_complains : expressionStatement.Complains (terms p) t := by
  refine .position (.bind_call trivial fun _ _ h => ?_)
  exact .bind h (expectIn_complains _ (by decide)) fun _ _ _ => .pure _

theorem returnStatement_complains : returnStatement.Complains (terms p) t := by
  refine .advance fun _ h => .bind h (optionalExpression_complains _) fun _ _ h => ?_
  exact .bind h (expectIn_complains _ (by decide)) fun _ _ _ => .pure _

theorem breakStatement_complains : breakStatement.Complains (terms p) t :=
  .advance fun _ h => .bind h (expectIn_complains _ (by decide)) fun _ _ _ => .pure _

theorem declarationStatement_complains : declarationStatement.Complains (terms p) t := by
  refine .advance fun _ h => .bind h (identifier_complains h) fun _ _ h => ?_
  refine .bind h (expectIn_complains _ (by decide)) fun _ _ _ => ?_
  refine .bind_call trivial fun _ _ h => ?_
  exact .bind h (expectIn_complains _ (by decide)) fun _ _ _ => .pure _

theorem whileStatement_complains : whileStatement.Complains (terms p) t := by
  refine .advance fun _ h => .bind h (expectIn_complains _ (by decide)) fun _ _ _ => ?_
  refine .bind_call trivial fun _ _ h => ?_
  refine .bind h (expectIn_complains _ (by decide)) fun _ _ _ => ?_
  exact .bind_call trivial fun _ _ _ => .pure _

theorem forStatement_complains : forStatement.Complains (terms p) t := by
  refine .advance fun _ h => .bind h (expectIn_complains _ (by decide)) fun _ _ h => ?_
  refine .bind h (optionalExpression_complains _) fun _ _ h => ?_
  refine .bind h (expectIn_complains _ (by decide)) fun _ _ h => ?_
  refine .bind h (optionalExpression_complains _) fun _ _ h => ?_
  refine .bind h (expectIn_complains _ (by decide)) fun _ _ h => ?_
  refine .bind h (optionalExpression_complains _) fun _ _ h => ?_
  refine .bind h (expectIn_complains _ (by decide)) fun _ _ _ => ?_
  exact .bind_call trivial fun _ _ _ => .pure _

theorem ifStatement_complains : ifStatement.Complains (terms p) t := by
  refine .advance fun _ h => .bind h (expectIn_complains _ (by decide)) fun _ _ _ => ?_
  refine .bind_call trivial fun _ _ h => ?_
  refine .bind h (expectIn_complains _ (by decide)) fun _ _ _ => ?_
  refine .bind_call trivial fun _ t' _ => .kind ?_
  split
  · exact .advance fun _ _ => .bind_call trivial fun _ _ _ => .pure _
  · exact .pure _

include ht in
theorem block_complains : block.Complains (terms p) t := by
  refine .bind ht (expectIn_complains _ (by decide)) fun _ _ _ => ?_
  exact .bind_call ⟨by decide, trivial⟩ fun _ _ _ => .pure _

theorem statement_complains : statement.Complains (terms p) t := by
  refine .kind ?_
  split
  case h_2 => exact .bind_call trivial fun _ _ _ => .pure _
  all_goals exact .call trivial

end Statements

section Declarations

theorem formal_complains : formal.Complains (terms p) t := by
  refine .position (.bind_call trivial fun _ _ h => ?_)
  exact .bind h (identifier_complains h) fun _ _ _ => .pure _

theorem methodRest_complains (position : Position) (returnType name : String) :
    (methodRest position returnType name).Complains (terms p) t := by
  refine .advance fun _ _ => .bind_call trivial fun _ _ h => ?_
  refine .bind h (expectIn_complains _ (by decide)) fun _ _ _ => ?_
  exact .bind_call trivial fun _ _ _ => .pure _

theorem fieldInit_complains : fieldInit.Complains (terms p) t := by
  refine .kind ?_
  split
  · exact .advance fun _ _ => .bind_call trivial fun _ _ _ => .pure _
  · exact .pure none

theorem member_complains : member.Complains (terms p) t := by
  refine .position (.bind_call trivial fun _ _ h => ?_)
  refine .bind h (identifier_complains h) fun _ t' h => .kind ?_
  split
  · exact .bind h (methodRest_complains _ _ _) fun _ _ _ => .pure _
  · refine .bind h fieldInit_complains fun _ _ h => ?_
    exact .bind h (expectIn_complains _ (by decide)) fun _ _ _ => .pure _

theorem parent_complains : parent.Complains (terms p) t := by
  refine .kind ?_
  split
  · exact .advance fun _ h => .bind h (identifier_complains h) fun _ _ _ => .pure _
  · exact .pure none

include ht in
theorem classDecl_complains (file : String) : (classDecl file).Complains (terms p) t := by
  refine .bind ht (expect_complains _) fun _ _ h => ?_
  refine .bind h (identifier_complains h) fun _ _ h => .bind h parent_complains fun _ _ h => ?_
  refine .bind h (expectIn_complains _ (by decide)) fun _ _ _ => .position ?_
  exact .bind_call ⟨by decide, trivial⟩ fun _ _ _ => .pure _

theorem program_complains (file : String) : (program file).Complains (terms p) t :=
  .position (.bind_call trivial fun _ _ _ => .pure _)

end Declarations

include ht in
theorem body_complains (hadmits : t.kind.Admits t.value) {α : Type} (c : Call α)
    (hc : c.OnOneLine) : (body c).Complains (terms p) t := by
  cases c with
  | program file => exact program_complains file
  | classDecl file => exact classDecl_complains ht file
  | member => exact member_complains
  | formals => exact inParens_complains trivial
  | formal => exact formal_complains
  | typeName => exact identifier_complains ht
  | statement => exact statement_complains
  | whileStatement => exact whileStatement_complains
  | returnStatement => exact returnStatement_complains
  | breakStatement => exact breakStatement_complains
  | expressionStatement => exact expressionStatement_complains
  | emptyStatement => exact .advance fun _ _ => .pure _
  | declarationStatement => exact declarationStatement_complains
  | forStatement => exact forStatement_complains
  | block => exact block_complains ht
  | ifStatement => exact ifStatement_complains
  | expression => exact expression_complains
  | disjunction => exact chainLeft_complains (by trivial)
  | conjunction => exact chainLeft_complains (by trivial)
  | equality => exact joined_complains (by trivial) (by trivial)
  | relation => exact joined_complains (by trivial) (by trivial)
  | sum => exact joined_complains (by trivial) (by trivial)
  | product => exact joined_complains (by trivial) (by trivial)
  | factor => exact factor_complains
  | creation => exact creation_complains
  | conversion => exact conversion_complains
  | leading => exact leading_complains
  | trailing => exact trailing_complains
  | primary => exact primary_complains ht hadmits
  | arguments => exact inParens_complains trivial
  | afterCommas item => exact afterCommas_complains hc
  | toCloseBrace construct item => exact toCloseBrace_complains hc.2 hc.1
  | toEndOfInput item => exact toEndOfInput_complains hc
  | moreLeft op? operand position left =>
      have hoperand : operand.OnOneLine := hc
      exact moreLeft_complains hoperand position left

end Unbounded

end Grammar

end ClassLang
