import ClassLang.Proofs.Grammar.Completeness.Statement
import ClassLang.Proofs.Grammar.Derivation.Declaration
/-!
What the grammar of declarations derives is read by the rules. Main statement: a program is read up
to its end mark (`program_accepts`).
-/

namespace ClassLang

namespace Grammar

open Rule

variable {file : String} {n bound : Nat}

theorem formal_cons {t m : Token} {k : List Token} (mark : EndMark) (ht : t.kind = .identifier)
    (hm : m.kind = .identifier) :
    formal ⟨t :: m :: k, mark⟩ = .ok ⟨t.position, t.value, m.value⟩ ⟨k, mark⟩ := by
  rw [formal, position_bind, typeName, bind_of_ok (identifier_cons ht),
    bind_of_ok (identifier_cons hm)]
  rfl

theorem moreFormals_accepts {j k : List Token} {fs : List Formal} (mark : EndMark)
    (hbound : j.length ≤ bound)
    (h : DerivesDecl Token.position file .moreFormals j k fs)
    (hk : nextKind k = .symbol .closeParen) :
    afterCommas formal bound ⟨j, mark⟩ = .ok fs ⟨k, mark⟩ := by
  induction bound generalizing j fs with
  | zero =>
      rw [Nat.le_zero, List.length_eq_zero_iff] at hbound
      subst hbound
      cases h
      rfl
  | succ bound ih =>
      rw [afterCommas, kind_bind, TokenStream.kind_current_mk]
      cases h with
      | noMoreFormals =>
          rw [if_neg (by rw [hk]; simp)]
          rfl
      | @moreFormals c t m i k fs hc ht hm hfs =>
          simp only [List.length_cons] at hbound
          rw [nextKind_cons, if_pos hc, advance_bind, TokenStream.advance_cons,
            bind_of_ok (formal_cons mark ht hm), bind_of_ok (ih (by omega) hfs)]
          rfl

theorem formals_accepts {a : Token} {j k : List Token} {fs : List Formal} (mark : EndMark)
    (hbound : (a :: j).length ≤ bound) (h : DerivesDecl Token.position file .formals (a :: j) k fs)
    (hk : nextKind k = .symbol .closeParen) :
    formals bound ⟨a :: j, mark⟩ = .ok ⟨a.position, fs⟩ ⟨k, mark⟩ := by
  rw [formals, inParens, position_bind, kind_bind, TokenStream.kind_current_mk]
  cases h with
  | noFormals =>
      rw [if_pos hk]
      rfl
  | @someFormals _ m j _ fs ht hm hfs =>
      simp only [List.length_cons] at hbound
      rw [nextKind_cons, if_neg (by rw [ht]; simp), bind_of_ok (formal_cons mark ht hm),
        bind_of_ok (moreFormals_accepts mark (by omega) hfs hk)]
      rfl

theorem fieldInit_accepts {q : Token} {i k : List Token} {v : Option Expr} (mark : EndMark)
    (hbound : i.length ≤ bound) (h : DerivesInit Token.position i (q :: k) v)
    (hq : q.kind = .symbol .semicolon) :
    fieldInit bound ⟨i, mark⟩ = .ok v ⟨q :: k, mark⟩ := by
  rw [fieldInit, kind_bind, TokenStream.kind_current_mk]
  cases h with
  | absent =>
      rw [nextKind_cons, if_neg (by rw [hq]; simp)]
      rfl
  | present ha he =>
      simp only [List.length_cons] at hbound
      rw [nextKind_cons, if_pos ha, advance_bind, TokenStream.advance_cons,
        bind_of_ok (expression_accepts (Nat.le_of_succ_le hbound) mark (Nat.le_refl _) he
          (stops_of_kind hq rfl))]
      rfl

theorem methodRest_accepts {p a q b z : Token} {i j k : List Token} {fs : List Formal}
    {ss : List Stmt} {position : Position} {returnType name : String} (mark : EndMark)
    (hbound : (a :: i).length ≤ bound)
    (hfs : DerivesDecl Token.position file .formals (a :: i) (q :: b :: j) fs)
    (hq : q.kind = .symbol .closeParen) (hb : b.kind = .symbol .openBrace)
    (hss : DerivesStmt Token.position .body j (z :: k) ss) (hz : z.kind = .symbol .closeBrace) :
    methodRest bound position returnType name ⟨p :: a :: i, mark⟩ =
      .ok ⟨position, returnType, name, ⟨a.position, fs⟩, ⟨b.position, ss⟩⟩ ⟨k, mark⟩ := by
  obtain ⟨u, hu, -⟩ := hfs.exists_prefix (by simp)
  have hlength := congrArg List.length hu
  simp only [List.length_append, List.length_cons] at hlength hbound
  have hbody := block_accepts (statement_accepts (Nat.le_refl bound)) mark (by omega)
    (Nat.le_refl bound) hb hss hz
  rw [methodRest, advance_bind, TokenStream.advance_cons,
    bind_of_ok (formals_accepts mark (by simp only [List.length_cons]; omega) hfs hq),
    bind_of_ok (expectIn_cons hq), bind_of_ok hbody]
  rfl

theorem member_accepts {i k : List Token} {m : Member} (mark : EndMark) (hbound : i.length ≤ bound)
    (h : DerivesDecl Token.position file .member i k m) :
    member bound ⟨i, mark⟩ = .ok m ⟨k, mark⟩ := by
  rw [member, position_bind, typeName]
  cases h with
  | @field t l q i _ v ht hl hv hq =>
      simp only [List.length_cons] at hbound
      have hparen : nextKind i ≠ .symbol .openParen := by
        cases hv with
        | absent => rw [nextKind_cons, hq]; simp
        | present ha _ => rw [nextKind_cons, ha]; simp
      rw [bind_of_ok (identifier_cons ht), bind_of_ok (identifier_cons hl), kind_bind,
        TokenStream.kind_current_mk, if_neg hparen,
        bind_of_ok (fieldInit_accepts mark (by omega) hv hq), bind_of_ok (expectIn_cons hq)]
      rfl
  | @method t l p a q b z i j _ fs ss ht hl hp hfs hq hb hss hz =>
      simp only [List.length_cons] at hbound
      rw [bind_of_ok (identifier_cons ht), bind_of_ok (identifier_cons hl), kind_bind,
        TokenStream.kind_current_mk, nextKind_cons, if_pos hp,
        bind_of_ok (methodRest_accepts mark (by simp only [List.length_cons]; omega) hfs hq hb hss
          hz)]
      rfl

theorem parent_accepts {b : Token} {i k : List Token} {p : Option String} (mark : EndMark)
    (h : DerivesParent i (b :: k) p) (hb : b.kind = .symbol .openBrace) :
    parent ⟨i, mark⟩ = .ok p ⟨b :: k, mark⟩ := by
  rw [parent, kind_bind, TokenStream.kind_current_mk]
  cases h with
  | absent =>
      rw [nextKind_cons, if_neg (by rw [hb]; simp)]
      rfl
  | present ht hm =>
      rw [nextKind_cons, if_pos ht, advance_bind, TokenStream.advance_cons,
        bind_of_ok (identifier_cons hm)]
      rfl

theorem members_accept {construct : String} {z : Token} {j k : List Token} {ms : List Member}
    (mark : EndMark) (hbound : j.length ≤ bound)
    (h : DerivesDecl Token.position file .members j (z :: k) ms)
    (hz : z.kind = .symbol .closeBrace) :
    toCloseBrace construct (member bound) bound ⟨j, mark⟩ = .ok ms ⟨k, mark⟩ := by
  refine toCloseBrace_of_forall (P := DerivesDecl Token.position file .members) hz ?_ hbound
    hbound h
  intro j ms hj h
  cases h with
  | noMembers => exact .inl ⟨rfl, rfl⟩
  | @members _ j₁ _ m ms hm hms =>
      have hkind := hm.nextKind_of_member
      exact .inr ⟨m, ms, j₁, rfl, by rw [hkind]; simp, by rw [hkind]; simp,
        member_accepts mark hj hm, hm.length_lt_of_member, hms⟩

theorem classDecl_accepts {i k : List Token} {c : ClassDecl} (mark : EndMark)
    (hbound : i.length ≤ bound) (h : DerivesDecl Token.position file .classDecl i k c) :
    classDecl file bound ⟨i, mark⟩ = .ok c ⟨k, mark⟩ := by
  cases h with
  | @classDecl t m b a z i j _ p ms ht hm hp hb hms hz =>
      obtain ⟨u, hu, -⟩ := hp.exists_prefix
      have hlength := congrArg List.length hu
      simp only [List.length_append, List.length_cons] at hlength hbound
      have hclass : expect (.keyword .kwClass) ⟨t :: m :: i, mark⟩ = .ok t ⟨m :: i, mark⟩ :=
        expectOr_cons ht
      rw [classDecl, bind_of_ok hclass, bind_of_ok (identifier_cons hm),
        bind_of_ok (parent_accepts mark hp hb), bind_of_ok (expectIn_cons hb), position_bind,
        bind_of_ok (members_accept mark (by simp only [List.length_cons]; omega) hms hz)]
      rfl

theorem toEndOfInput_append {i k : List Token} {cs : List ClassDecl} (mark : EndMark) (b : Nat)
    (hbound : i.length ≤ bound) (h : DerivesDecl Token.position file .classes i k cs) :
    toEndOfInput (classDecl file bound) (cs.length + b) ⟨i, mark⟩ =
      ((cs ++ ·) <$> toEndOfInput (classDecl file bound) b) ⟨k, mark⟩ := by
  induction cs generalizing i with
  | nil =>
      cases h with
      | noClasses =>
          rw [List.length_nil, Nat.zero_add]
          exact congrFun (id_map _).symm _
  | cons c cs ih =>
      cases h with
      | @classes _ j _ _ _ hc hcs =>
          have hlt := hc.length_lt_of_classDecl
          rw [List.length_cons, Nat.add_right_comm, toEndOfInput, kind_bind,
            TokenStream.kind_current_mk, hc.nextKind_of_classDecl, if_neg (by simp),
            bind_of_ok (classDecl_accepts mark hbound hc)]
          have hrest := ih (by omega) hcs
          cases hk : toEndOfInput (classDecl file bound) b ⟨k, mark⟩ with
          | ok cs' s =>
              rw [map_of_ok hk] at hrest ⊢
              rw [bind_of_ok hrest]
              rfl
          | error d s =>
              rw [map_of_error hk] at hrest ⊢
              rw [bind_of_error hrest]

theorem classes_accept {q : Token} {i k : List Token} {cs : List ClassDecl} {b : Nat}
    (mark : EndMark) (hbound : i.length ≤ bound) (hb : i.length ≤ b)
    (h : DerivesDecl Token.position file .classes i (q :: k) cs) (hq : q.kind = .endOfInput) :
    toEndOfInput (classDecl file bound) b ⟨i, mark⟩ = .ok cs ⟨q :: k, mark⟩ := by
  have hlength := h.length_add_le
  rw [List.length_cons] at hlength
  obtain ⟨rest, rfl⟩ := Nat.exists_eq_add_of_le (show cs.length + 1 ≤ b by omega)
  have hstop : toEndOfInput (classDecl file bound) (1 + rest) ⟨q :: k, mark⟩ =
      .ok [] ⟨q :: k, mark⟩ := by
    rw [Nat.add_comm, toEndOfInput, kind_bind, TokenStream.kind_current_mk, nextKind_cons,
      if_pos hq]
    rfl
  rw [Nat.add_assoc, toEndOfInput_append mark _ hbound h, map_of_ok hstop, List.append_nil]

theorem program_accepts {i k : List Token} {p : Program} (mark : EndMark)
    (hbound : i.length ≤ bound) (h : DerivesDecl Token.position file .program i k p) :
    program file bound ⟨i, mark⟩ = .ok p ⟨k, mark⟩ := by
  cases h with
  | program hcs hq =>
      rw [program, position_bind, bind_of_ok (classes_accept mark hbound hbound hcs hq)]
      rfl

end Grammar

end ClassLang
