import ClassLang.Proofs.Grammar.Derivation.Declaration
import ClassLang.Proofs.Grammar.Soundness.Statement
/-!
What the rules for declarations read is derived by the grammar. Main statement: a program that is
read ends at an end mark (`program_reads`).
-/

namespace ClassLang

namespace Grammar

open Rule

variable {file : String} {bound : Nat}

theorem formal_reads {s s' : TokenStream} {f : Formal} (h : formal s = .ok f s') :
    ∃ t n : Token, s.pending = t :: n :: s'.pending ∧ t.kind = .identifier ∧
      n.kind = .identifier ∧ f = ⟨t.position, t.value, n.value⟩ := by
  rw [formal, position_bind] at h
  obtain ⟨typeName, s₁, htype, h⟩ := bind_eq_ok.1 h
  obtain ⟨name, s₂, hname, h⟩ := bind_eq_ok.1 h
  cases h
  obtain ⟨t, hs, ht, rfl⟩ := pending_of_identifier htype
  obtain ⟨n, hs₁, hn, rfl⟩ := pending_of_identifier hname
  have hcurrent := TokenStream.pending_eq_cons_of_ne_nil (s := s) (by simp [hs])
  rw [hs] at hcurrent
  rw [← (List.cons.inj hcurrent).1]
  exact ⟨t, n, by rw [hs, hs₁], ht, hn, rfl⟩

theorem formals_reads {s s' : TokenStream} {l : NodeList Formal}
    (h : formals bound s = .ok l s') :
    l.position = s.current.position ∧
      DerivesDecl Token.position file .formals s.pending s'.pending l.items := by
  obtain ⟨hposition, ⟨hitems, rfl⟩ | ⟨f, fs, s₁, hitems, hf, hfs⟩⟩ := inParens_eq_ok h
  · rw [hitems]
    exact ⟨hposition, .noFormals⟩
  · obtain ⟨t, n, hs, ht, hn, rfl⟩ := formal_reads hf
    rw [hitems, hs]
    refine ⟨hposition, .someFormals ht hn ?_⟩
    refine afterCommas_eq_ok (P := DerivesDecl Token.position file .moreFormals)
      (fun _ => .noMoreFormals) ?_ hfs
    intro c s s' k f fs hc hf hfs
    obtain ⟨t, n, hs, ht, hn, rfl⟩ := formal_reads hf
    rw [hs]
    exact .moreFormals hc ht hn hfs

theorem fieldInit_reads {s s' : TokenStream} {v : Option Expr} (h : fieldInit bound s = .ok v s') :
    DerivesInit Token.position s.pending s'.pending v := by
  rw [fieldInit, kind_bind] at h
  split at h
  · next hassign =>
      rw [advance_bind] at h
      obtain ⟨e, s₁, he, h⟩ := bind_eq_ok.1 h
      cases h
      rw [TokenStream.pending_eq_cons (s := s) (by simp [hassign])]
      exact .present hassign (expression_reads bound he)
  · cases h
    exact .absent

theorem methodRest_reads {t n : Token} {s s' : TokenStream} {m : Method}
    (ht : t.kind = .identifier) (hn : n.kind = .identifier)
    (hkind : s.current.kind = .symbol .openParen)
    (h : methodRest bound t.position t.value n.value s = .ok m s') :
    DerivesDecl Token.position file .member (t :: n :: s.pending) s'.pending (.method m) := by
  rw [methodRest, advance_bind] at h
  obtain ⟨l, s₁, hl, h⟩ := bind_eq_ok.1 h
  obtain ⟨q, s₂, hq, h⟩ := bind_eq_ok.1 h
  obtain ⟨body, s₃, hbody, h⟩ := bind_eq_ok.1 h
  cases h
  obtain ⟨hs₁, hclose⟩ := pending_of_expectIn hq (by simp)
  obtain ⟨hposition, hfs⟩ := @formals_reads file bound _ _ _ hl
  obtain ⟨b, z, j, hs₂, hopen, hplace, hz, hss⟩ := block_reads (statement_reads bound) hbody
  rw [hs₁, hs₂] at hfs
  have hne := hfs.ne_nil_of_cons (by simp)
  rw [TokenStream.pending_eq_cons_of_ne_nil hne] at hfs
  rw [TokenStream.pending_eq_cons (s := s) (by simp [hkind]),
    TokenStream.pending_eq_cons_of_ne_nil hne]
  obtain ⟨position, items⟩ := l
  obtain ⟨start, statements⟩ := body
  cases hposition
  cases hplace
  exact .method ht hn hkind hfs hclose hopen hss hz

theorem member_reads {s s' : TokenStream} {m : Member} (h : member bound s = .ok m s') :
    DerivesDecl Token.position file .member s.pending s'.pending m := by
  rw [member, position_bind] at h
  obtain ⟨typeName, s₁, htype, h⟩ := bind_eq_ok.1 h
  obtain ⟨name, s₂, hname, h⟩ := bind_eq_ok.1 h
  obtain ⟨t, hs, ht, rfl⟩ := pending_of_identifier htype
  obtain ⟨n, hs₁, hn, rfl⟩ := pending_of_identifier hname
  have hcurrent := TokenStream.pending_eq_cons_of_ne_nil (s := s) (by simp [hs])
  rw [hs] at hcurrent
  obtain ⟨hcurrent, -⟩ := List.cons.inj hcurrent
  rw [← hcurrent] at h
  rw [hs, hs₁]
  rw [kind_bind] at h
  split at h
  · next hopen =>
      obtain ⟨method, s₃, hm, h⟩ := bind_eq_ok.1 h
      cases h
      exact methodRest_reads ht hn hopen hm
  · obtain ⟨v, s₃, hv, h⟩ := bind_eq_ok.1 h
    obtain ⟨q, s₄, hq, h⟩ := bind_eq_ok.1 h
    cases h
    obtain ⟨hs₃, hsemicolon⟩ := pending_of_expectIn hq (by simp)
    have hv := fieldInit_reads hv
    rw [hs₃] at hv
    exact .field ht hn hv hsemicolon

theorem parent_reads {s s' : TokenStream} {p : Option String} (h : parent s = .ok p s') :
    DerivesParent s.pending s'.pending p := by
  rw [parent, kind_bind] at h
  split at h
  · next hextends =>
      rw [advance_bind] at h
      obtain ⟨name, s₁, hname, h⟩ := bind_eq_ok.1 h
      cases h
      obtain ⟨n, hs, hn, rfl⟩ := pending_of_identifier hname
      rw [TokenStream.pending_eq_cons (s := s) (by simp [hextends]), hs]
      exact .present hextends hn
  · cases h
    exact .absent

theorem classDecl_reads {s s' : TokenStream} {c : ClassDecl}
    (h : classDecl file bound s = .ok c s') :
    DerivesDecl Token.position file .classDecl s.pending s'.pending c := by
  rw [classDecl] at h
  obtain ⟨t, s₁, ht, h⟩ := bind_eq_ok.1 h
  obtain ⟨name, s₂, hname, h⟩ := bind_eq_ok.1 h
  obtain ⟨p, s₃, hp, h⟩ := bind_eq_ok.1 h
  obtain ⟨b, s₄, hb, h⟩ := bind_eq_ok.1 h
  rw [position_bind] at h
  obtain ⟨ms, s₅, hms, h⟩ := bind_eq_ok.1 h
  cases h
  obtain ⟨hs, hclass⟩ := pending_of_expectOr (s := s) ht (by simp)
  obtain ⟨n, hs₁, hn, rfl⟩ := pending_of_identifier hname
  obtain ⟨hs₃, hopen⟩ := pending_of_expectIn hb (by simp)
  obtain ⟨z, hz, hms⟩ := toCloseBrace_eq_ok (P := DerivesDecl Token.position file .members)
    (fun _ => .noMembers) (fun _ hx hxs => .members (member_reads hx) hxs) hms
  have hne := hms.ne_nil_of_cons (by simp)
  have hp := parent_reads hp
  rw [hs₃, TokenStream.pending_eq_cons_of_ne_nil hne] at hp
  rw [TokenStream.pending_eq_cons_of_ne_nil hne] at hms
  rw [hs, hs₁]
  exact .classDecl hclass hn hp hopen hms hz

theorem program_reads {s s' : TokenStream} {p : Program} {q : Token} (hq : q ∈ s.pending)
    (hend : q.kind = .endOfInput) (hbound : s.pending.length ≤ bound)
    (h : program file bound s = .ok p s') :
    DerivesDecl Token.position file .program s.pending s'.pending p := by
  rw [program, position_bind] at h
  obtain ⟨cs, s₁, hcs, h⟩ := bind_eq_ok.1 h
  cases h
  obtain ⟨hend', hcs⟩ := toEndOfInput_eq_ok (P := DerivesDecl Token.position file .classes) hbound
    (fun hx => (classDecl_reads hx).length_lt_of_classDecl) (fun _ => .noClasses)
    (fun hx hxs => .classes (classDecl_reads hx) hxs) hcs
  have hs := TokenStream.pending_eq_cons_of_ne_nil (List.ne_nil_of_mem hq)
  have hs' := TokenStream.pending_eq_cons_of_ne_nil
    (List.ne_nil_of_mem (hcs.mem_of_endOfInput hend hq))
  rw [hs, hs'] at hcs ⊢
  exact .program hcs hend'

end Grammar

end ClassLang
