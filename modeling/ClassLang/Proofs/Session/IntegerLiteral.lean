import ClassLang.Grammar.Phrase
import ClassLang.Proofs.Session.StringLiteral
import ClassLang.Proofs.Token.IntegerLiteral
/-!
Integer literals from the source to the tree. Main statement: digits are read as their decimal value
up to the greatest integer and refused above it, and so the integer constants of a parsed program
are the values of the literals in its source, at their places (`integers_exact`).
-/

namespace ClassLang

namespace Grammar

open Rule

variable {s : TokenStream} {digits : List Char}

theorem primary_integer (expr : Rule Expr) (bound : Nat) (hkind : s.current.kind = .integer) :
    primary expr bound s = integerConstant s := by
  rw [primary, current_bind, hkind]

theorem integerConstant_digits (h : IsDigits digits)
    (hvalue : s.current.value = String.ofList digits) :
    integerConstant s =
      if decimalValue digits ≤ maxInteger then
        .ok (.integer s.current.position (decimalValue digits)) s.advance
      else .error ⟨.badInteger (String.ofList digits), s.current.position⟩ s := by
  rw [integerConstant, current_bind, hvalue, String.toList_ofList, readInteger?_digits h.1 h.2]
  split
  · rfl
  · rfl

/--
How a primary expression is read where digits stand: as the integer constant that they are, or not
at all, and then the digits stay where they are.
-/
structure ReadsDigits (file : String) (digits : List Char) (s : TokenStream) : Prop where
  accepts : decimalValue digits ≤ maxInteger →
    read file .primary s =
        .ok (.expr (.integer s.current.position (decimalValue digits))) s.advance ∧
      s.pending = s.current :: s.advance.pending
  rejects : maxInteger < decimalValue digits →
    read file .primary s =
      .error ⟨.badInteger (String.ofList digits), s.current.position⟩ s

theorem readsDigits (file : String) (h : IsDigits digits) (hkind : s.current.kind = .integer)
    (hvalue : s.current.value = String.ofList digits) : ReadsDigits file digits s := by
  have hprimary := (primary_integer (expression s.pending.length) s.pending.length hkind).trans
    (integerConstant_digits h hvalue)
  constructor
  case accepts =>
    intro hle
    rw [if_pos hle] at hprimary
    exact ⟨map_of_ok hprimary, TokenStream.pending_eq_cons (by simp [hkind])⟩
  case rejects =>
    intro hlt
    rw [if_neg (Nat.not_le.2 hlt)] at hprimary
    exact map_of_error hprimary

end Grammar

theorem Token.mem_readings_integer_iff {t : Token} {q : Position} {v : Int} :
    some (.integer q v) ∈ t.readings ↔
      t.kind = .integer ∧ q = t.position ∧ readInteger? t.value.toList = some v := by
  rw [readings]
  cases t.kind with
  | integer =>
      rw [List.mem_singleton, eq_comm, Option.map_eq_some_iff]
      constructor
      · rintro ⟨_, hv, ⟨⟩⟩
        exact ⟨rfl, rfl, hv⟩
      · rintro ⟨-, rfl, hv⟩
        exact ⟨v, hv, rfl⟩
  | _ => simp

namespace Session

variable {source file : String} {log log' : DiagnosticLog} {p : Program} {ts : List Token}

theorem integer_mem_constants_iff_of_tokens (h : parseSource source file log = .ok p log')
    (hts : tokenize source file = .ok ts) {q : Position} {v : Int} :
    .integer q v ∈ p.constants ↔ ∃ t ∈ ts, t.kind = .integer ∧ q = t.position ∧
      readInteger? t.value.toList = some v := by
  have hsome : .integer q v ∈ p.constants ↔ some (.integer q v) ∈ p.constants.map some := by
    rw [List.mem_map_of_injective (Option.some_injective _)]
  rw [hsome, map_constants_of_parseSource h hts, List.mem_flatMap]
  apply exists_congr
  intro t
  rw [Token.mem_readings_integer_iff]

theorem exists_value_of_parseSource (h : parseSource source file log = .ok p log')
    (hts : tokenize source file = .ok ts) {t : Token} (ht : t ∈ ts) (hkind : t.kind = .integer) :
    ∃ v, readInteger? t.value.toList = some v := by
  have hreading : (readInteger? t.value.toList).map (.integer t.position) ∈
      ts.flatMap Token.readings := by
    apply List.mem_flatMap_of_mem ht
    rw [Token.readings, hkind]
    exact List.mem_singleton_self _
  rw [← map_constants_of_parseSource h hts] at hreading
  obtain ⟨e, -, he⟩ := List.mem_map.1 hreading
  obtain ⟨v, hv, -⟩ := Option.map_eq_some_iff.1 he.symm
  exact ⟨v, hv⟩

theorem decimalValue_le_of_parseSource (h : parseSource source file log = .ok p log')
    {ls : List Lexeme} {digits after : List Char} (hd : IntegerAfter source ls digits after) :
    decimalValue digits ≤ maxInteger := by
  obtain ⟨ts, hts, -⟩ := exists_tokens_of_parseSource h
  obtain ⟨ht, hkind⟩ := (mem_tokenize_integer_iff hts).2 ⟨ls, digits, after, hd, rfl⟩
  obtain ⟨v, hv⟩ := exists_value_of_parseSource h hts ht hkind
  rw [hd.isDigits.readInteger?_ofDigits] at hv
  by_contra hlt
  rw [if_neg hlt] at hv
  cases hv

theorem integer_mem_constants_iff (h : parseSource source file log = .ok p log') {q : Position}
    {v : Int} :
    .integer q v ∈ p.constants ↔ ∃ ls digits after, IntegerAfter source ls digits after ∧
      q = Position.ofBytes file (byteLength (textOf ls)) ∧ v = decimalValue digits := by
  obtain ⟨ts, hts, -⟩ := exists_tokens_of_parseSource h
  rw [integer_mem_constants_iff_of_tokens h hts]
  constructor
  · rintro ⟨t, ht, hkind, rfl, hv⟩
    obtain ⟨ls, digits, after, hd, rfl⟩ := (mem_tokenize_integer_iff hts).1 ⟨ht, hkind⟩
    rw [hd.isDigits.readInteger?_ofDigits, if_pos (decimalValue_le_of_parseSource h hd)] at hv
    cases hv
    exact ⟨ls, digits, after, hd, rfl, rfl⟩
  · rintro ⟨ls, digits, after, hd, rfl, rfl⟩
    obtain ⟨ht, hkind⟩ := (mem_tokenize_integer_iff hts).2 ⟨ls, digits, after, hd, rfl⟩
    refine ⟨_, ht, hkind, rfl, ?_⟩
    rw [hd.isDigits.readInteger?_ofDigits, if_pos (decimalValue_le_of_parseSource h hd)]

/-- How the integer literals of a source text come out of its tokens and its tree. -/
structure ExactIntegers (source file : String) : Prop where
  tokens : ∀ {ts t}, tokenize source file = .ok ts →
    (t ∈ ts ∧ t.kind = .integer ↔ ∃ ls digits after, IntegerAfter source ls digits after ∧
      t = Token.ofDigits file (byteLength (textOf ls)) digits)
  constants : ∀ {log p log'}, parseSource source file log = .ok p log' →
    ∀ (q : Position) (v : Int), (.integer q v ∈ p.constants ↔
      ∃ ls digits after, IntegerAfter source ls digits after ∧
        q = Position.ofBytes file (byteLength (textOf ls)) ∧ v = decimalValue digits)
  limited : ∀ {ls digits after}, IntegerAfter source ls digits after →
    maxInteger < decimalValue digits → ∀ log p log', parseSource source file log ≠ .ok p log'

theorem integers_exact (file : String) :
    (∀ digits, IsDigits digits → ∀ s : TokenStream, s.current.kind = .integer →
      s.current.value = String.ofList digits → Grammar.ReadsDigits file digits s) ∧
    ∀ source, ExactIntegers source file := by
  constructor
  · intro digits hdigits s hkind hvalue
    exact Grammar.readsDigits file hdigits hkind hvalue
  · intro source
    constructor
    case tokens =>
      intro ts t hts
      exact mem_tokenize_integer_iff hts
    case constants =>
      intro log p log' hp q v
      exact integer_mem_constants_iff hp
    case limited =>
      intro ls digits after hd hlt log p log' hp
      exact Nat.not_le.2 hlt (decimalValue_le_of_parseSource hp hd)

theorem integers_exact_at_greatest_integer :
    let digits := "0002147483647".toList
    let s : TokenStream := ⟨[Token.ofDigits "a.cl" 14 digits], EndMark.atPosition .null⟩
    let source := "class A\x7bint a=0002147483647;\x7d"
    let exceeding := ['2', '1', '4', '7', '4', '8', '3', '6', '4', '8']
    let source' := String.ofList ("class A\x7bint a=".toList ++ (exceeding ++ [';', '\x7d']))
    (IsDigits digits ∧ s.current.kind = .integer ∧ s.current.value = String.ofList digits ∧
      Grammar.ReadsDigits "a.cl" digits s) ∧
    (∃ p, parseSource source "a.cl" .empty = .ok p .empty ∧
      .integer (.ofBytes "a.cl" 14) 2147483647 ∈ p.constants ∧
      ∃ ls digits after, IntegerAfter source ls digits after ∧
        Position.ofBytes "a.cl" 14 = .ofBytes "a.cl" (byteLength (textOf ls)) ∧
        (2147483647 : Int) = decimalValue digits) ∧
    ∃ ls, IntegerAfter source' ls exceeding [';', '\x7d'] ∧ maxInteger < decimalValue exceeding ∧
      ∀ log p log', parseSource source' "a.cl" log ≠ .ok p log' := by
  intro digits s source exceeding source'
  have hdigits : IsDigits digits := by
    constructor
    · decide
    · decide
  obtain ⟨hreads, hexact⟩ := integers_exact "a.cl"
  refine ⟨⟨hdigits, rfl, rfl, hreads digits hdigits s rfl rfl⟩, ?_, ?_⟩
  · let place := Position.ofBytes "a.cl"
    let field : Field := ⟨place 8, "int", "a", some (.integer (place 14) 2147483647)⟩
    have hp : parseSource source "a.cl" .empty = .ok ⟨place 0, ⟨place 0, [⟨place 0, "a.cl", "A",
        none, ⟨place 8, [.field field]⟩⟩]⟩⟩ .empty := by cbv
    have hmem : .integer (place 14) 2147483647 ∈ (Program.mk (place 0) ⟨place 0, [⟨place 0, "a.cl",
        "A", none, ⟨place 8, [.field field]⟩⟩]⟩).constants := by
      simp [Program.constants, ClassDecl.constants, Member.constants, Field.constants, field,
        Expr.optionConstants, Expr.constants]
    exact ⟨_, hp, hmem, ((hexact source).constants hp _ _).1 hmem⟩
  · obtain ⟨ls, hls⟩ : ∃ ls, Advances source'.toList ls (exceeding ++ [';', '\x7d']) := by
      rw [String.toList_ofList]
      exact ⟨_, .next rfl (by decide) <| .next rfl (by decide) <| .next rfl (by decide) <|
        .next rfl (by decide) <| .next rfl (by decide) <| .next rfl (by decide) <|
          .next rfl (by decide) <| .next rfl (by decide) .here⟩
    have hinteger : IntegerAfter source' ls exceeding [';', '\x7d'] := by
      refine ⟨hls, ⟨by decide, by decide⟩, ?_⟩
      rintro c ⟨⟩
      rfl
    have hlt : maxInteger < decimalValue exceeding := by decide
    exact ⟨ls, hinteger, hlt, (hexact source').limited hinteger hlt⟩

end Session

end ClassLang
