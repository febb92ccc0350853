import ClassLang.Proofs.Grammar.Derivation.Constants
import ClassLang.Proofs.Session.Outcome
import Mathlib
/-!
Constants from the source to the traversal. Main statement: the constants that a plain traversal of
a parsed program meets are those that the tokens of the source stand for, in their order
(`run_constants_of_parseSource`).
-/

namespace ClassLang

/-- The constant that a token stands for, at the place of the token. -/
def Token.constant? (t : Token) : Option Expr :=
  match t.kind with
  | .integer => some (.integer t.position (decimalValue t.value.toList))
  | .boolean => some (.boolean t.position (t.value = "true"))
  | .string => some (.string t.position t.value)
  | _ => none

theorem Token.eq_constant?_of_readings {file : String} {t : Token} {es : List Expr}
    (ht : t.Lexical file) (h : es.map some = t.readings) : es = t.constant?.toList := by
  have hadmits := ht.admits
  rw [readings] at h
  rw [constant?]
  generalize t.kind = kind at h hadmits
  cases kind with
  | integer =>
      obtain ⟨e, rfl, he⟩ := List.map_eq_singleton_iff.1 h
      rw [readInteger?_digits hadmits.1 hadmits.2] at he
      split at he
      · cases he
        rfl
      · cases he
  | boolean =>
      obtain ⟨e, rfl, he⟩ := List.map_eq_singleton_iff.1 h
      cases he
      rfl
  | string =>
      obtain ⟨e, rfl, he⟩ := List.map_eq_singleton_iff.1 h
      cases he
      rfl
  | _ => exact List.map_eq_nil_iff.1 h

theorem eq_filterMap_constant? {file : String} {ts : List Token} {es : List Expr}
    (hts : ∀ t ∈ ts, t.Lexical file) (h : es.map some = ts.flatMap Token.readings) :
    es = ts.filterMap Token.constant? := by
  induction ts generalizing es with
  | nil => exact List.map_eq_nil_iff.1 h
  | cons t ts ih =>
      rw [List.flatMap_cons] at h
      obtain ⟨es₁, es₂, rfl, h₁, h₂⟩ := List.map_eq_append_iff.1 h
      have hhead := Token.eq_constant?_of_readings (hts t (by simp)) h₁
      have htail := ih (fun u hu => hts u (by simp [hu])) h₂
      rw [hhead, htail, List.filterMap_cons]
      cases t.constant? <;> rfl

namespace Session

variable {source file : String} {log log' : DiagnosticLog} {p : Program}

theorem run_constants_of_parseSource (h : parseSource source file log = .ok p log') :
    ∃ ts, tokenize source file = .ok ts ∧
      (Visitor.visitProgram Visitor.constants p).run [] =
        ((), ts.filterMap Token.constant?) := by
  obtain ⟨body, stop, hts, hstop, hderives⟩ := exists_derives_of_parseSource h
  refine ⟨body ++ [stop], hts, ?_⟩
  have hlexical := lexical_of_mem_tokenize hts
  have hreadings := hderives.readings_eq
  have hend : [stop].flatMap Token.readings = [] := by
    simp [Token.readings, hstop]
  rw [hend, List.append_nil] at hreadings
  rw [Visitor.run_visitProgram_constants, ← eq_filterMap_constant? hlexical hreadings.symm]
  rfl

theorem run_constants_of_call_with_receiver :
    let source := "class A\x7bS s=this.f(\"\\n\",-07,true);\x7d"
    ∃ p, parseSource source "a.cl" .empty = .ok p .empty ∧
      ∃ ts, tokenize source "a.cl" = .ok ts ∧
        (Visitor.visitProgram Visitor.constants p).run [] =
          ((), ts.filterMap Token.constant?) := by
  intro source
  let place := Position.ofBytes "a.cl"
  let call : Expr := .call (place 12) (some (.var (place 12) none "this")) "f" ⟨place 19,
    [.string (place 19) "\n", .unary (place 24) .negate (.integer (place 25) 7) false,
      .boolean (place 28) true]⟩
  have h : parseSource source "a.cl" .empty = .ok ⟨place 0, ⟨place 0, [⟨place 0, "a.cl", "A", none,
      ⟨place 8, [.field ⟨place 8, "S", "s", some call⟩]⟩⟩]⟩⟩ .empty := by cbv
  exact ⟨_, h, run_constants_of_parseSource h⟩

end Session

end ClassLang
