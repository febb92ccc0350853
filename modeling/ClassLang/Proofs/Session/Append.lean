import ClassLang.Proofs.Session.Relocation
import ClassLang.Proofs.Session.Segment
import ClassLang.Proofs.Token.Append
import Mathlib
/-!
Sources put together. Main statement: a source that is parsed, a newline and another source are
parsed to the classes of both, or to what is wrong with the other, with the positions in the other
moved by the bytes before it (`parseSource_append`).
-/

namespace ClassLang

section Offsets

variable {source file : String}

theorem offset_le_of_ofSource_error {d : Diagnostic} (hsize : source.utf8ByteSize < UInt32.size)
    (h : Program.ofSource source file = .error d) :
    d.position.offset.toNat ≤ source.utf8ByteSize := by
  cases hts : tokenize source file with
  | error d' =>
      cases (Program.ofSource_of_tokenize_error hts).symm.trans h
      exact offset_le_of_tokenize_error hsize hts
  | ok ts =>
      rw [Program.ofSource_of_tokenize hts] at h
      obtain ⟨i, t, ht, hposition⟩ :=
        exists_getElem?_of_error (endsWithMark_of_tokenize hts) h
      rw [hposition]
      exact offset_le_of_mem_tokenize hsize hts t (List.mem_of_getElem? ht)

theorem offset_le_of_mem_preorder {p : Program} {log log' : DiagnosticLog}
    (hsize : source.utf8ByteSize < UInt32.size)
    (h : Session.parseSource source file log = .ok p log') :
    ∀ o ∈ p.outline.preorder, o.offset ≤ source.utf8ByteSize := by
  obtain ⟨body, stop, hts, -, hderives⟩ := Session.exists_derives_of_parseSource h
  have hinside := hderives.liesOn.inside rfl
  intro o ho
  have hpreorder : Outline.listPreorder [p.outline] = p.outline.preorder := by
    simp [Outline.listPreorder]
  rw [← hpreorder] at ho
  obtain ⟨t, ht, hposition⟩ := hinside.exists_mem_of_preorder o ho
  rw [Outline.offset, hposition]
  exact offset_le_of_mem_tokenize hsize hts t ht

end Offsets

namespace Grammar

open Rule

variable {file : String} {stop : Token}

theorem left_program_ne_nil {v : List Token} {mark : EndMark} {bound : Nat}
    (hstop : stop.kind = .endOfInput) (hbound : (v ++ [stop]).length ≤ bound) :
    (left (program file bound ⟨v ++ [stop], mark⟩)).pending ≠ [] := by
  cases h : program file bound ⟨v ++ [stop], mark⟩ with
  | ok p s =>
      have hp := program_reads (by simp) hstop hbound h
      generalize v ++ [stop] = i at hp
      generalize hk : s.pending = k at hp
      cases hp
      simp [left, hk]
  | error d s =>
      obtain ⟨_, t, post, -, hs, -⟩ := Session.exists_viable_of_program hstop h
      simp [left, hs]

theorem left_program (bound : Nat) (s : TokenStream) :
    left (program file bound s) = left (toEndOfInput (classDecl file bound) bound s) := by
  rw [program, position_bind]
  cases h : toEndOfInput (classDecl file bound) bound s with
  | ok cs s' =>
      rw [bind_of_ok h]
      rfl
  | error d s' =>
      rw [bind_of_error h]
      rfl

theorem toEndOfInput_eq_of_le {v : List Token} {mark : EndMark} {n bound b : Nat}
    (hstop : stop.kind = .endOfInput) (hn : (v ++ [stop]).length = n) (hbound : n ≤ bound)
    (hb : n ≤ b) :
    toEndOfInput (classDecl file bound) b ⟨v ++ [stop], mark⟩ =
      toEndOfInput (classDecl file n) n ⟨v ++ [stop], mark⟩ := by
  have htracks : Tracks n (toEndOfInput (classDecl file n) n)
      (toEndOfInput (classDecl file bound) b) :=
    toEndOfInput_tracks (classDecl_tracks (Nat.le_refl n) hbound)
      (fun h => (classDecl_reads h).length_lt_of_classDecl) (Nat.le_refl n) hb
  rw [List.length_append, List.length_singleton] at hn
  rcases htracks.together ⟨stop, [], mark, [], mark⟩ v (by omega) with
    ⟨cs, w, h, h'⟩ | ⟨d, w, h, h'⟩ | hbeyond
  · exact h'.trans h.symm
  · exact h'.trans h.symm
  · -- a program ends at an end mark, which is left where it stands
    have hne := @left_program_ne_nil file stop v mark n hstop (by simp [hn])
    rw [left_program] at hne
    exact absurd (List.suffix_nil.1 hbeyond) hne

end Grammar

def Program.precededBy (position : Position) (cs : List ClassDecl) (p : Program) : Program :=
  ⟨position, ⟨position, cs ++ p.classes.items⟩⟩

open Grammar Rule in
theorem Program.ofStream_append {file : String} {stop : Token} {u v : List Token}
    {cs : List ClassDecl} (mark : EndMark) (hstop : stop.kind = .endOfInput)
    (h : DerivesDecl Token.position file .classes (u ++ (v ++ [stop])) (v ++ [stop]) cs) :
    ofStream ⟨u ++ (v ++ [stop]), mark⟩ file =
      (ofStream ⟨v ++ [stop], mark⟩ file).map
        (precededBy (TokenStream.mk (u ++ (v ++ [stop])) mark).current.position cs) := by
  have hlength := h.length_add_le
  obtain ⟨b, hb⟩ := Nat.exists_eq_add_of_le (Nat.le_trans (Nat.le_add_right _ _) hlength)
  have hclasses := toEndOfInput_append mark b (Nat.le_refl _) h
  rw [← hb] at hclasses
  have hrest := @toEndOfInput_eq_of_le file stop v mark _ (u ++ (v ++ [stop])).length b hstop rfl
    (by simp) (by omega)
  simp only [ofStream, Rule.bounded, program, position_bind]
  cases hk : toEndOfInput (classDecl file (v ++ [stop]).length) (v ++ [stop]).length
      ⟨v ++ [stop], mark⟩ with
  | ok cs' s =>
      rw [map_of_ok (hrest.trans hk)] at hclasses
      rw [bind_of_ok hclasses, bind_of_ok hk]
      rfl
  | error d s =>
      rw [map_of_error (hrest.trans hk)] at hclasses
      rw [bind_of_error hclasses, bind_of_error hk]
      rfl

theorem TokenStream.ofTokens_append {u k : List Token} (hk : k ≠ []) (file : String) :
    ofTokens (u ++ k) file = ⟨u ++ k, (ofTokens k file).endMark⟩ := by
  rw [ofTokens, ofTokens, List.getLast?_append_of_ne_nil _ hk]

/--
The outcomes for a second source alone and behind a first one, whose program is given, with so many
bytes up to the second: the classes of both, or the same cause, further on.
-/
inductive Appended (p : Program) (bytes : Nat) :
    Except Diagnostic Program → Except Diagnostic Program → Prop
  | ok {q r : Program} :
      r.classes.items =
        p.classes.items ++ q.classes.items.map (ClassDecl.relocate (Position.forward bytes)) →
      (∀ o ∈ q.outline.preorder, (o.position.forward bytes).offset.toNat = o.offset + bytes) →
      Appended p bytes (.ok q) (.ok r)
  | error {cause : Cause} {position : Position} :
      (position.forward bytes).offset.toNat = position.offset.toNat + bytes →
      Appended p bytes (.error ⟨cause, position⟩) (.error ⟨cause, position.forward bytes⟩)

namespace Program

def behind (position : Position) (cs : List ClassDecl) (φ : Position → Position)
    (outcome : Except Diagnostic Program) : Except Diagnostic Program :=
  (relocateOutcome φ outcome).map (precededBy position cs)

variable {file : String}

theorem ofStream_ofTokens_append {u ts : List Token} {cs : List ClassDecl} {stop : Token}
    (φ : Position → Position) (hstop : stop.kind = .endOfInput)
    (hts : ∃ v, ts = v ++ [stop])
    (h : ∀ k, Grammar.DerivesDecl Token.position file .classes (u ++ k) k cs) :
    let s := TokenStream.ofTokens (u ++ ts.map (Token.relocate φ)) file
    ofStream s file =
      behind s.current.position cs φ (ofStream (TokenStream.ofTokens ts file) file) := by
  obtain ⟨v, rfl⟩ := hts
  have hne : v ++ [stop] ≠ [] := by simp
  have hmap : (v ++ [stop]).map (Token.relocate φ) =
      v.map (Token.relocate φ) ++ [stop.relocate φ] := by
    simp
  have happend := ofStream_append (TokenStream.ofTokens ((v ++ [stop]).map (Token.relocate φ))
    file).endMark ((Token.kind_relocate φ stop).trans hstop) (h (v.map (Token.relocate φ) ++ _))
  rw [← hmap] at happend
  change ofStream (TokenStream.ofTokens (u ++ (v ++ [stop]).map (Token.relocate φ)) file) file =
    (relocateOutcome φ _).map (precededBy (TokenStream.ofTokens _ file).current.position cs)
  rw [TokenStream.ofTokens_append (by simp), ← ofStream_relocate,
    ← TokenStream.ofTokens_map_relocate φ hne]
  exact happend

theorem ofSource_append {a : String} {p : Program} {log log' : DiagnosticLog}
    (b : String) (h : Session.parseSource a file log = .ok p log') :
    ∃ position, ofSource (a ++ "\n" ++ b) file = behind position p.classes.items
      (Position.forward (a.utf8ByteSize + 1)) (ofSource b file) := by
  obtain ⟨body, stop, hts, -, hderives⟩ := Session.exists_derives_of_parseSource h
  obtain ⟨body', stop', hbody, -, -, htokens⟩ := tokenize_append_newline b hts
  obtain ⟨rfl, -⟩ := List.append_inj' hbody rfl
  cases hb : tokenize b file with
  | error d =>
      rw [hb] at htokens
      rw [ofSource_of_tokenize_error (htokens.trans rfl), ofSource_of_tokenize_error hb]
      exact ⟨.null, rfl⟩
  | ok ts =>
      rw [hb] at htokens
      obtain ⟨v, mark, hv, hmark, -⟩ := exists_append_of_tokenize hb
      have hclasses : Grammar.DerivesDecl Token.position file .classes (body ++ [stop]) [stop]
          p.classes.items := by
        generalize body ++ [stop] = i at hderives
        cases hderives with
        | program hcs hq => exact hcs
      obtain ⟨u, hu, hk⟩ := hclasses.exists_prefix (by simp)
      obtain ⟨rfl, -⟩ := List.append_inj' hu rfl
      rw [ofSource_of_tokenize (htokens.trans rfl), ofSource_of_tokenize hb]
      exact ⟨_, ofStream_ofTokens_append _ hmark ⟨v, hv⟩ hk⟩

end Program

namespace Session

theorem parseSource_append {a b file : String} {log log' : DiagnosticLog} {p : Program}
    (hsize : (a ++ "\n" ++ b).utf8ByteSize < UInt32.size)
    (h : parseSource a file log = .ok p log') :
    ∃ o o', parseSource b file = conclude o ∧ parseSource (a ++ "\n" ++ b) file = conclude o' ∧
      Appended p (a.utf8ByteSize + 1) o o' := by
  have hbytes : (a ++ "\n" ++ b).utf8ByteSize = a.utf8ByteSize + 1 + b.utf8ByteSize := by
    rw [String.utf8ByteSize_append, String.utf8ByteSize_append]
    rfl
  have hsizeb : b.utf8ByteSize < UInt32.size := by omega
  obtain ⟨position, happend⟩ := Program.ofSource_append b h
  refine ⟨_, _, rfl, rfl, ?_⟩
  rw [happend]
  cases hb : Program.ofSource b file with
  | ok q =>
      refine .ok rfl fun o ho => Position.toNat_offset_forward ?_
      have hq : parseSource b file log = .ok q log := conclude_eq_ok.2 ⟨hb, rfl⟩
      have hle := offset_le_of_mem_preorder hsizeb hq o ho
      rw [Outline.offset] at hle
      omega
  | error d =>
      have hle := offset_le_of_ofSource_error hsizeb hb
      exact .error (Position.toNat_offset_forward (by omega))

theorem parseSource_append_of_line_comment :
    let a := "class A\x7b\x7d//*"
    let b := "class B\x7bint n;\x7d"
    (a ++ "\n" ++ b).utf8ByteSize < UInt32.size ∧
      ∃ p, parseSource a "a.cl" .empty = .ok p .empty ∧
        ∃ o o', parseSource b "a.cl" = conclude o ∧
          parseSource (a ++ "\n" ++ b) "a.cl" = conclude o' ∧
          Appended p (a.utf8ByteSize + 1) o o' := by
  intro a b
  let place := Position.ofBytes "a.cl"
  have hsize : (a ++ "\n" ++ b).utf8ByteSize < UInt32.size := by decide
  have h : parseSource a "a.cl" .empty =
      .ok ⟨place 0, ⟨place 0, [⟨place 0, "a.cl", "A", none, ⟨place 8, []⟩⟩]⟩⟩ .empty := by cbv
  exact ⟨hsize, _, h, parseSource_append hsize h⟩

end Session

end ClassLang
