import ClassLang.Proofs.Grammar.Derivation.Declaration
import ClassLang.Proofs.Grammar.Viability.Statement
/-!
Where a rule for declarations fails, the tokens that it has taken begin a declaration. Main
statement: a program that is rejected begins like another that is not (`program_follows`).
-/

namespace ClassLang

namespace Grammar

open Rule

namespace Form

variable (file : String)

def formals : Form :=
  lax (fun i k => ∃ fs, DerivesDecl Token.position file .formals i k fs) fun _ _ => ⟨[], .noFormals⟩

def moreFormals : Form :=
  lax (fun i k => ∃ fs, DerivesDecl Token.position file .moreFormals i k fs)
    fun _ _ => ⟨[], .noMoreFormals⟩

def fieldInit : Form :=
  lax (fun i k => ∃ v, DerivesInit Token.position i k v) fun _ _ => ⟨none, .absent⟩

/-- What comes after the name of a member. -/
def memberRest : Form where
  span i k := ∀ {t n : Token}, t.kind = .identifier → n.kind = .identifier →
    ∃ m, DerivesDecl Token.position file .member (t :: n :: i) k m
  productive := by
    refine ⟨[⟨.symbol .semicolon, "", .empty .null⟩], fun k _ => ⟨nofun, fun ht hn => ?_⟩⟩
    exact ⟨_, .field ht hn .absent rfl⟩

def member : Form where
  span i k := ∃ m, DerivesDecl Token.position file .member i k m
  productive := by
    refine ⟨[⟨.identifier, "", .empty .null⟩, ⟨.identifier, "", .empty .null⟩,
      ⟨.symbol .semicolon, "", .empty .null⟩], fun k _ => ⟨nofun, ?_⟩⟩
    exact ⟨_, .field rfl rfl .absent rfl⟩

def members : Form :=
  lax (fun i k => ∃ ms, DerivesDecl Token.position file .members i k ms) fun _ _ => ⟨[], .noMembers⟩

def parent : Form :=
  lax (fun i k => ∃ p, DerivesParent i k p) fun _ _ => ⟨none, .absent⟩

def classDecl : Form where
  span i k := ∃ c, DerivesDecl Token.position file .classDecl i k c
  productive := by
    refine ⟨[⟨.keyword .kwClass, "", .empty .null⟩, ⟨.identifier, "", .empty .null⟩,
      ⟨.symbol .openBrace, "", .empty .null⟩, ⟨.symbol .closeBrace, "", .empty .null⟩],
      fun k _ => ⟨nofun, ?_⟩⟩
    exact ⟨_, .classDecl rfl rfl .absent rfl .noMembers rfl⟩

def classes : Form :=
  lax (fun i k => ∃ cs, DerivesDecl Token.position file .classes i k cs) fun _ _ => ⟨[], .noClasses⟩

end Form

variable {file : String} {bound : Nat} {s : TokenStream}

theorem formal_follows : Follows (Form.identifier.andThen .identifier) formal s :=
  Follows.position (Follows.bind Follows.identifier fun _ _ => Follows.bind_pure Follows.identifier)

theorem formals_follows : Follows (.formals file) (formals bound) s := by
  have hmore : ∀ s, Follows (.moreFormals file) (afterCommas formal bound) s := by
    refine fun s => Follows.afterCommas (fun s => formal_follows)
      (fun k => ⟨[], .noMoreFormals⟩) ?_
    rintro c i j k hc ⟨_, ⟨t, ht, rfl⟩, n, hn, rfl⟩ ⟨fs, hfs⟩
    exact ⟨_, .moreFormals hc ht hn hfs⟩
  refine Follows.inParens (fun s => formal_follows) hmore (fun k => ⟨[], .noFormals⟩) ?_
  rintro i j k ⟨_, ⟨t, ht, rfl⟩, n, hn, rfl⟩ ⟨fs, hfs⟩
  exact ⟨_, .someFormals ht hn hfs⟩

theorem methodRest_follows {p : Position} {returnType name : String}
    (hkind : s.current.kind = .symbol .openParen) :
    Follows (.memberRest file) (methodRest bound p returnType name) s := by
  refine Follows.advance (by simp [hkind]) ?_ (Follows.bind (A := .formals file) formals_follows
    fun _ _ => Follows.bind Follows.symbol fun _ _ =>
      Follows.bind_pure (block_follows (statement_follows bound)))
  rintro i k ⟨_, ⟨fs, hfs⟩, _, ⟨q, hq, rfl⟩, _, ⟨b, hb, rfl⟩, _, ⟨xs, hxs⟩, z, hz, rfl⟩ t n ht hn
  obtain ⟨a, i, rfl⟩ := List.exists_cons_of_ne_nil (hfs.ne_nil_of_cons (by simp))
  exact ⟨_, .method ht hn hkind hfs hq hb hxs hz⟩

theorem fieldInit_follows : Follows .fieldInit (fieldInit bound) s := by
  refine Follows.kind ?_
  split
  · next hassign =>
      refine Follows.advance (by simp [hassign]) ?_
        (Follows.bind_pure (expression_follows bound _))
      rintro i k ⟨e, he⟩
      exact ⟨_, .present hassign he⟩
  · exact Follows.pure _ fun k _ => ⟨none, .absent⟩

theorem member_follows : Follows (.member file) (member bound) s := by
  refine Follows.position ((Follows.bind Follows.identifier fun _ _ =>
    Follows.bind (B := .memberRest file) Follows.identifier fun _ s => Follows.kind ?_).mono ?_)
  · split
    · next hopen => exact Follows.bind_pure (methodRest_follows hopen)
    · refine (Follows.bind fieldInit_follows fun _ _ => Follows.bind_pure Follows.symbol).mono ?_
      rintro i k ⟨_, ⟨v, hv⟩, q, hq, rfl⟩ t n ht hn
      exact ⟨_, .field ht hn hv hq⟩
  · rintro i k ⟨_, ⟨t, ht, rfl⟩, _, ⟨n, hn, rfl⟩, hrest⟩
    exact hrest ht hn

theorem parent_follows : Follows .parent parent s := by
  refine Follows.kind ?_
  split
  · next hextends =>
      refine Follows.advance (by simp [hextends]) ?_ (Follows.bind_pure Follows.identifier)
      rintro i k ⟨n, hn, rfl⟩
      exact ⟨_, .present hextends hn⟩
  · exact Follows.pure _ fun k _ => ⟨none, .absent⟩

theorem classDecl_follows : Follows (.classDecl file) (classDecl file bound) s := by
  have hmembers : ∀ s, Follows ((Form.members file).andThen (.symbol .closeBrace))
      (toCloseBrace "class declaration" (member bound) bound) s := by
    intro s
    refine Follows.toCloseBrace (I := .member file) (fun s => member_follows)
      (fun k => ⟨[], .noMembers⟩) ?_
    rintro i j k ⟨m, hm⟩ ⟨ms, hms⟩
    exact ⟨_, .members hm hms⟩
  have hclass : Follows (.token (.keyword .kwClass) nofun) (expect (.keyword .kwClass)) s :=
    Follows.expectOr (s := s) _ (by simp) (by simp)
  refine (Follows.bind hclass fun _ _ => Follows.bind Follows.identifier fun _ _ =>
    Follows.bind parent_follows fun _ _ => Follows.bind Follows.symbol fun _ s =>
      Follows.position (Follows.bind_pure (hmembers s))).mono ?_
  rintro i k ⟨_, ⟨t, ht, rfl⟩, _, ⟨n, hn, rfl⟩, _, ⟨p, hp⟩, j, ⟨b, hb, rfl⟩, _, ⟨ms, hms⟩,
    z, hz, rfl⟩
  obtain ⟨a, j, rfl⟩ := List.exists_cons_of_ne_nil (hms.ne_nil_of_cons (by simp))
  exact ⟨_, .classDecl ht hn hp hb hms hz⟩

theorem program_follows : Follows (.classes file) (program file bound) s := by
  refine Follows.position (Follows.bind_pure ?_)
  refine Follows.toEndOfInput (fun s => classDecl_follows) (fun k => ⟨[], .noClasses⟩) ?_
  rintro i j k ⟨c, hc⟩ ⟨cs, hcs⟩
  exact ⟨_, .classes hc hcs⟩

end Grammar

end ClassLang
