import ClassLang.Proofs.Grammar.Derivation.Printed
import ClassLang.Proofs.Session.Outcome
import ClassLang.Proofs.Token.Layout
/-!
Printing and parsing. Main statement: a well-formed program is what its printed text is parsed to,
positions and the name of the file apart (`parseSource_print`).
-/

namespace ClassLang

namespace Session

theorem parseSource_of_derives {source file : String} {body : List Token} {stop : Token}
    {p : Program} (hts : tokenize source file = .ok (body ++ [stop]))
    (hbody : ∀ t ∈ body, t.kind ≠ .endOfInput) (hstop : stop.kind = .endOfInput)
    (h : Grammar.Derives file body p) (log : DiagnosticLog) :
    ∃ placed, parseSource source file log = .ok placed log ∧ placed.unplaced = p := by
  rw [Grammar.derives_iff hstop] at h
  obtain ⟨placed, hplaced, hunplaced⟩ := h.exists_placed Token.position
  have heq : p.unplaced = p := h.unplaced_eq
  have hparse := (Grammar.ofStream_eq_ok_iff hbody hstop).2 hplaced
  refine ⟨placed, conclude_eq_ok.2 ⟨?_, rfl⟩, hunplaced.trans heq⟩
  rw [Program.ofSource_of_tokenize hts]
  exact hparse

theorem parseSource_print {p : Program} (h : p.wellFormed = true) (file : String)
    (log : DiagnosticLog) :
    ∃ q, parseSource p.print file log = .ok q log ∧ q.unplaced = (p.inFile file).unplaced := by
  have hwords := Program.admitted_words h
  obtain ⟨body, stop, hts, hmap, hstop⟩ := tokenize_layout hwords file
  have hspells := Grammar.spells_map body []
  rw [hmap, List.append_nil] at hspells
  have hclasses := @Grammar.ClassDecl.derive_classes file _ _ _ h hspells
  have hbody : ∀ t ∈ body, t.kind ≠ .endOfInput := by
    intro t ht
    have hw := hwords t.word (hmap ▸ List.mem_map_of_mem ht)
    exact hw.2
  exact parseSource_of_derives hts hbody hstop ⟨_, hclasses, rfl⟩ log

theorem parseSource_print_of_nested_conditional :
    let s : Stmt := .conditional .null (.var .null (some (.var .null none "this")) "b")
      (.block .null ⟨.null, [.conditional .null (.boolean .null true) (.breakLoop .null) none]⟩)
      (some (.returnValue .null (some (.binary .null .add (.string .null "\n") (.integer .null 7)))))
    let p : Program := ⟨.null, ⟨.null, [⟨.null, "", "A", none,
      ⟨.null, [.method ⟨.null, "A", "f", ⟨.null, []⟩, ⟨.null, [s]⟩⟩]⟩⟩]⟩⟩
    p.wellFormed = true ∧ ∃ q, parseSource p.print "a.cl" .empty = .ok q .empty ∧
      q.unplaced = (p.inFile "a.cl").unplaced :=
  ⟨by decide, parseSource_print (by decide) "a.cl" .empty⟩

end Session

end ClassLang
