import ClassLang.Proofs.Grammar.Derivation.Placement
import ClassLang.Proofs.Syntax.Print
/-!
The words of a well-formed tree derive the tree. A statement that ends with an open conditional does
so only where no `else` follows, which in a well-formed tree is wherever it stands. Main statement:
`ClassDecl.derive_classes`.
-/

namespace ClassLang

namespace Grammar

open Word

/-- The tokens from the first place up to the second are the words. -/
def Spells : List Word → List Token → List Token → Prop
  | [], i, k => i = k
  | w :: ws, i, k => ∃ t j, i = t :: j ∧ t.word = w ∧ Spells ws j k

section Spells

variable {ws vs : List Word} {i k : List Token}

theorem spells_append : Spells (ws ++ vs) i k ↔ ∃ j, Spells ws i j ∧ Spells vs j k := by
  induction ws generalizing i with
  | nil => simp [Spells]
  | cons w ws ih =>
      simp only [List.cons_append, Spells, ih]
      constructor
      · rintro ⟨t, j, rfl, ht, j', hws, hvs⟩
        exact ⟨j', ⟨t, j, rfl, ht, hws⟩, hvs⟩
      · rintro ⟨j', ⟨t, j, rfl, ht, hws⟩, hvs⟩
        exact ⟨t, j, rfl, ht, j', hws, hvs⟩

theorem spells_map (body k : List Token) : Spells (body.map Token.word) (body ++ k) k := by
  induction body with
  | nil => rfl
  | cons t body ih => exact ⟨t, body ++ k, rfl, rfl, ih⟩

theorem Spells.exists_cons {q : Token} (h : Spells ws i (q :: k)) : ∃ t j, i = t :: j := by
  cases ws with
  | nil => exact ⟨q, k, h⟩
  | cons w ws =>
      obtain ⟨t, j, hi, -, -⟩ := h
      exact ⟨t, j, hi⟩

theorem Spells.symbol {s : Symbol} (h : Spells (Word.symbol s :: ws) i k) :
    ∃ t j, i = t :: j ∧ t.kind = .symbol s ∧ Spells ws j k := by
  obtain ⟨t, j, hi, ht, hws⟩ := h
  exact ⟨t, j, hi, congrArg Word.kind ht, hws⟩

theorem Spells.keyword {w : Keyword} (h : Spells (Word.keyword w :: ws) i k) :
    ∃ t j, i = t :: j ∧ t.kind = .keyword w ∧ Spells ws j k := by
  obtain ⟨t, j, hi, ht, hws⟩ := h
  exact ⟨t, j, hi, congrArg Word.kind ht, hws⟩

theorem Spells.name {n : String} (h : Spells (Word.name n :: ws) i k) :
    ∃ t j, i = t :: j ∧ t.kind = .identifier ∧ t.value = n ∧ Spells ws j k := by
  obtain ⟨t, j, hi, ht, hws⟩ := h
  exact ⟨t, j, hi, congrArg Word.kind ht, congrArg Word.value ht, hws⟩

theorem Spells.grouped (h : Spells (Word.grouped ws) i k) :
    ∃ t j q, i = t :: j ∧ t.kind = .symbol .openParen ∧ Spells ws j (q :: k) ∧
      q.kind = .symbol .closeParen := by
  obtain ⟨t, j, hi, ht, h⟩ := h.symbol
  obtain ⟨j', hws, h⟩ := spells_append.1 h
  obtain ⟨q, j'', rfl, hq, rfl⟩ := h.symbol
  exact ⟨t, j, q, hi, ht, hws, hq⟩

end Spells

def BinaryOp.level : BinaryOp → Operators
  | .or => .disjunction
  | .and => .conjunction
  | .equal | .notEqual => .equality
  | .less | .greater | .lessEqual | .greaterEqual => .relation
  | .add | .subtract => .sum
  | .multiply | .divide | .modulo => .product

theorem op?_sign (op : BinaryOp) : (BinaryOp.level op).op? (.symbol op.sign) = some op := by
  cases op <;> rfl

theorem leadingOp?_sign (op : UnaryOp) : leadingOp? (.symbol op.sign) = some op := by
  cases op <;> rfl

theorem trailingOp?_sign {op : UnaryOp} (h : op.fits true = true) :
    trailingOp? (.symbol op.sign) = some op := by
  cases op with
  | increment => rfl
  | decrement => rfl
  | _ => exact absurd h (by decide)

theorem Qualifies.of_spells {q : Option String} {i k : List Token} (hq : q.all isQualifier = true)
    (h : Spells (qualifier q) i k) :
    Qualifies nowhere i k (q.map fun word => .var .null none word) := by
  cases q with
  | none =>
      cases h
      exact .absent
  | some word =>
      obtain ⟨t, j, rfl, ht, h⟩ := h
      obtain ⟨d, j, rfl, hd, rfl⟩ := h.symbol
      have hkind : t.kind = wordKind word := congrArg Word.kind ht
      have hvalue : t.value = word := congrArg Word.value ht
      simp only [Option.all_some, isQualifier, Bool.or_eq_true, decide_eq_true_eq] at hq
      subst hvalue
      rcases hq with hq | hq
      · exact .this (by rw [hkind, hq, wordKind_spelling]) hd
      · exact .super (by rw [hkind, hq, wordKind_spelling]) hd

theorem Expr.map_unplaced_of_isReference {r : Option Expr} (h : Expr.isReference r = true) :
    r.map Expr.unplaced = (r.bind Expr.varName?).map fun word => .var .null none word := by
  unfold Expr.isReference at h
  split at h
  · rfl
  · simp [Expr.unplaced, Expr.varName?]
  · exact absurd h (by simp)

theorem Qualifies.exists_cons {place : Token → Position} {i k : List Token} {n : Token}
    {r : Option Expr} (h : Qualifies place i (n :: k) r) : ∃ t j, i = t :: j := by
  cases h with
  | absent => exact ⟨n, k, rfl⟩
  | this => exact ⟨_, _, rfl⟩
  | super => exact ⟨_, _, rfl⟩

theorem DerivesExpr.of_grouped {ws : List Word} {i k : List Token} {e : Expr}
    (h : Spells (grouped ws) i k)
    (he : ∀ {i k : List Token}, Spells ws i k → DerivesExpr nowhere (.level .expression) i k e) :
    ∃ t j, i = t :: j ∧ DerivesExpr nowhere (.level .primary) (t :: j) k e := by
  obtain ⟨t, j, q, rfl, ht, hws, hq⟩ := h.grouped
  exact ⟨t, j, rfl, .parenthesized ht (he hws) hq⟩

mutual

theorem Expr.derives_words : (e : Expr) → e.wellFormed = true → ∀ {i k : List Token},
    Spells e.words i k → DerivesExpr nowhere (.level .expression) i k e.unplaced
  | .integer _ v, he, i, k, h => by
      simp only [Expr.wellFormed, Bool.and_eq_true, decide_eq_true_eq] at he
      obtain ⟨t, j, rfl, ht, rfl⟩ := h
      have hvalue : t.value = String.ofList (Nat.toDigits 10 v.toNat) := congrArg Word.value ht
      have hnumeral := numeral_toDigits (n := v.toNat) (by omega)
      rw [Int.toNat_of_nonneg he.1] at hnumeral
      refine DerivesExpr.of_primary (.integer (congrArg Word.kind ht) ?_) _
      rw [hvalue, String.toList_ofList]
      exact hnumeral
  | .boolean _ v, _, i, k, h => by
      obtain ⟨t, j, rfl, ht, rfl⟩ := h
      have hvalue : t.value = if v then "true" else "false" := congrArg Word.value ht
      have hboolean := @DerivesExpr.boolean nowhere t j (congrArg Word.kind ht)
      have hv : decide (t.value = "true") = v := by
        rw [hvalue]
        cases v <;> decide
      rw [hv] at hboolean
      exact hboolean.of_primary _
  | .string _ v, _, i, k, h => by
      obtain ⟨t, j, rfl, ht, rfl⟩ := h
      have hvalue : t.value = v := congrArg Word.value ht
      subst hvalue
      exact DerivesExpr.of_primary (.string (congrArg Word.kind ht)) _
  | .var _ r n, he, i, k, h => by
      simp only [Expr.wellFormed, Bool.and_eq_true] at he
      obtain ⟨j, hq, h⟩ := spells_append.1 h
      obtain ⟨m, j, rfl, hm, rfl, rfl⟩ := h.name
      have hr := Qualifies.of_spells (Expr.all_isQualifier_of_isReference he.1) hq
      rw [← Expr.map_unplaced_of_isReference he.1] at hr
      obtain ⟨t, i, rfl⟩ := hr.exists_cons
      rw [Expr.unplaced, Expr.unplacedOption_eq_map]
      exact DerivesExpr.of_primary (.var hr hm) _
  | .assign _ q n v, he, i, k, h => by
      simp only [Expr.wellFormed, Bool.and_eq_true] at he
      obtain ⟨j, hq, hn⟩ := spells_append.1 h
      obtain ⟨m, j, rfl, hm, rfl, hsign⟩ := hn.name
      obtain ⟨a, j, rfl, ha, hgroup⟩ := hsign.symbol
      have hr := Qualifies.of_spells he.1.1 hq
      obtain ⟨t, i, rfl⟩ := hr.exists_cons
      have hleft := DerivesExpr.of_primary (.var hr hm) (.operators .disjunction)
      obtain ⟨p, j, rfl, hv⟩ := DerivesExpr.of_grouped hgroup (Expr.derives_words v he.2)
      have hassign := DerivesExpr.assignment hleft ha (hv.of_primary .expression)
      have hname : (q.map fun word => Expr.var .null none word).bind Expr.varName? = q := by
        cases q <;> rfl
      rw [hname] at hassign
      rw [Expr.unplaced]
      exact hassign
  | .call _ r m ⟨_, es⟩, he, i, k, h => by
      simp only [Expr.wellFormed, Bool.and_eq_true] at he
      obtain ⟨j, hq, hname⟩ := spells_append.1 h
      obtain ⟨n, j, rfl, hn, rfl, hgroup⟩ := hname.name
      obtain ⟨p, j, q, rfl, hp, hes, hclose⟩ := hgroup.grouped
      obtain ⟨a, j, rfl⟩ := hes.exists_cons
      have hr := Qualifies.of_spells (Expr.all_isQualifier_of_isReference he.1.1) hq
      rw [← Expr.map_unplaced_of_isReference he.1.1] at hr
      obtain ⟨t, i, rfl⟩ := hr.exists_cons
      rw [Expr.unplaced, Expr.unplacedOption_eq_map, Expr.unplacedList_eq_map]
      exact DerivesExpr.of_primary (.call hr hn hp (Expr.derive_arguments es he.2 hes) hclose) _
  | .create _ n, _, i, k, h => by
      obtain ⟨t, j, rfl, ht, hn⟩ := Spells.keyword h
      obtain ⟨m, j, rfl, hm, rfl, hgroup⟩ := hn.name
      obtain ⟨p, j, q, rfl, hp, rfl, hq⟩ := hgroup.grouped
      exact DerivesExpr.of_factor (.creation ht hm hp hq)
  | .cast _ target e, he, i, k, h => by
      simp only [Expr.wellFormed, Bool.and_eq_true] at he
      obtain ⟨t, j, rfl, ht, hgroup⟩ := Spells.keyword h
      obtain ⟨p, j, q, rfl, hp, hn, hq⟩ := hgroup.grouped
      obtain ⟨m, j, rfl, hm, rfl, hcomma⟩ := hn.name
      obtain ⟨c, j, rfl, hc, hgroup⟩ := hcomma.symbol
      obtain ⟨_, j, rfl, hoperand⟩ := DerivesExpr.of_grouped hgroup (Expr.derives_words e he.2)
      exact DerivesExpr.of_factor
        (.conversion ht hp hm hc (hoperand.of_primary .expression) hq)
  | .binary _ op l r, he, i, k, h => by
      simp only [Expr.wellFormed, Bool.and_eq_true] at he
      obtain ⟨j, hl, h⟩ := spells_append.1 h
      obtain ⟨u, j, rfl, hu, hr⟩ := h.symbol
      obtain ⟨t, i, rfl, hleft⟩ := DerivesExpr.of_grouped hl (Expr.derives_words l he.1)
      obtain ⟨_, j, rfl, hright⟩ := DerivesExpr.of_grouped hr (Expr.derives_words r he.2)
      have hop : (BinaryOp.level op).op? u.kind = some op := by
        rw [hu]
        exact op?_sign op
      exact DerivesExpr.of_operators
        (.binary (hleft.of_primary _) hop (hright.of_primary _))
  | .unary _ op e false, he, i, k, h => by
      simp only [Expr.wellFormed, Bool.and_eq_true] at he
      rw [Expr.words, if_neg (by simp)] at h
      obtain ⟨t, j, rfl, ht, h⟩ := h.symbol
      obtain ⟨_, j, rfl, hoperand⟩ := DerivesExpr.of_grouped h (Expr.derives_words e he.2)
      have hop : leadingOp? t.kind = some op := by
        rw [ht]
        exact leadingOp?_sign op
      exact DerivesExpr.of_factor (.unary (.leading hop (hoperand.of_primary .leading)))
  | .unary _ op e true, he, i, k, h => by
      simp only [Expr.wellFormed, Bool.and_eq_true] at he
      rw [Expr.words, if_pos rfl] at h
      obtain ⟨j, hgroup, hop⟩ := spells_append.1 h
      obtain ⟨u, j, rfl, hu, rfl⟩ := hop.symbol
      obtain ⟨t, i, rfl, hoperand⟩ := DerivesExpr.of_grouped hgroup (Expr.derives_words e he.2)
      have hop : trailingOp? u.kind = some op := by
        rw [hu]
        exact trailingOp?_sign he.1
      exact DerivesExpr.of_factor (.unary (.noLeading (.trailing hoperand hop)))

theorem Expr.derive_arguments : (es : List Expr) → Expr.wellFormedList es = true →
    ∀ {i k : List Token}, Spells (separated (Expr.wordsList es)) i k →
      DerivesExpr nowhere .arguments i k (es.map Expr.unplaced)
  | [], _, i, k, h => by
      cases h
      exact .noArguments
  | e :: es, hes, i, k, h => by
      simp only [Expr.wellFormedList, Bool.and_eq_true] at hes
      obtain ⟨j, he, h⟩ := spells_append.1 h
      exact .someArguments (Expr.derives_words e hes.1 he) (Expr.derive_moreArguments es hes.2 h)

theorem Expr.derive_moreArguments : (es : List Expr) → Expr.wellFormedList es = true →
    ∀ {i k : List Token}, Spells ((Expr.wordsList es).flatMap (symbol .comma :: ·)) i k →
      DerivesExpr nowhere .moreArguments i k (es.map Expr.unplaced)
  | [], _, i, k, h => by
      cases h
      exact .noMoreArguments
  | e :: es, hes, i, k, h => by
      simp only [Expr.wellFormedList, Bool.and_eq_true] at hes
      obtain ⟨c, j, rfl, hc, h⟩ := Spells.symbol h
      obtain ⟨j, he, h⟩ := spells_append.1 h
      exact .moreArguments hc (Expr.derives_words e hes.1 he)
        (Expr.derive_moreArguments es hes.2 h)

end

theorem DerivesOptional.of_spells {v : Option Expr} {i k : List Token}
    (hv : v.all Expr.wellFormed = true) (h : Spells (Expr.optionWords v) i k) :
    DerivesOptional nowhere i k (v.map Expr.unplaced) := by
  cases v with
  | none =>
      cases h
      exact .absent
  | some e => exact .present (Expr.derives_words e hv h)

theorem DerivesStmt.nextKind_ne_else_of_body {i k : List Token} {ss : List Stmt}
    (h : DerivesStmt nowhere .body i k ss) (hk : nextKind k ≠ .keyword .kwElse) :
    nextKind i ≠ .keyword .kwElse := by
  cases h with
  | noStatements => exact hk
  | statements hs _ => exact hs.nextKind_ne.1

mutual

theorem Stmt.derives_words : (s : Stmt) → s.wellFormed = true → ∀ {i k : List Token},
    (s.endsOpen = true → nextKind k ≠ .keyword .kwElse) → Spells s.words i k →
      DerivesStmt nowhere .statement i k s.unplaced
  | .conditional _ e s none, hs, i, k, hk, h => by
      simp only [Stmt.wellFormed, Bool.and_eq_true] at hs
      obtain ⟨j, h, hend⟩ := spells_append.1 h
      cases hend
      obtain ⟨j', hif, hthen⟩ := spells_append.1 h
      obtain ⟨t, j, rfl, ht, hgroup⟩ := Spells.keyword hif
      obtain ⟨p, j, q, rfl, hp, he, hq⟩ := hgroup.grouped
      have hnext : nextKind k ≠ .keyword .kwElse := hk rfl
      have hbranch := Stmt.derives_words s hs.1.1.2 (fun _ => hnext) hthen
      exact .conditional ht hp (Expr.derives_words e hs.1.1.1 he) hq hbranch hnext
  | .conditional _ e s (some s₁), hs, i, k, hk, h => by
      simp only [Stmt.wellFormed, Bool.and_eq_true, Option.isNone_some, Bool.false_or,
        Bool.not_eq_true'] at hs
      obtain ⟨j, h, helse⟩ := spells_append.1 h
      obtain ⟨x, j₁, rfl, hx, hs₁⟩ := Spells.keyword helse
      obtain ⟨j', hif, hthen⟩ := spells_append.1 h
      obtain ⟨t, j, rfl, ht, hgroup⟩ := Spells.keyword hif
      obtain ⟨p, j, q, rfl, hp, he, hq⟩ := hgroup.grouped
      have hbranch := Stmt.derives_words s hs.1.1.2 (by simp [hs.2]) hthen
      have hrest := Stmt.derives_words s₁ hs.1.2 hk hs₁
      exact .conditionalElse ht hp (Expr.derives_words e hs.1.1.1 he) hq hbranch hx hrest
  | .whileLoop _ e s, hs, i, k, hk, h => by
      simp only [Stmt.wellFormed, Bool.and_eq_true] at hs
      obtain ⟨j', hwhile, hbody⟩ := spells_append.1 h
      obtain ⟨t, j, rfl, ht, hgroup⟩ := Spells.keyword hwhile
      obtain ⟨p, j, q, rfl, hp, he, hq⟩ := hgroup.grouped
      exact .whileLoop ht hp (Expr.derives_words e hs.1 he) hq (Stmt.derives_words s hs.2 hk hbody)
  | .forLoop _ a b c s, hs, i, k, hk, h => by
      simp only [Stmt.wellFormed, Bool.and_eq_true] at hs
      obtain ⟨j', hfor, hbody⟩ := spells_append.1 h
      obtain ⟨t, j, rfl, ht, hgroup⟩ := Spells.keyword hfor
      obtain ⟨p, j, q, rfl, hp, hclauses, hq⟩ := hgroup.grouped
      obtain ⟨j₁, hclauses, hthird⟩ := spells_append.1 hclauses
      obtain ⟨q₂, j₂, rfl, hq₂, hc⟩ := hthird.symbol
      obtain ⟨j₃, ha, hsecond⟩ := spells_append.1 hclauses
      obtain ⟨q₁, j₄, rfl, hq₁, hb⟩ := hsecond.symbol
      exact .forLoop ht hp (.of_spells hs.1.1.1 ha) hq₁ (.of_spells hs.1.1.2 hb) hq₂
        (.of_spells hs.1.2 hc) hq (Stmt.derives_words s hs.2 hk hbody)
  | .block _ ⟨_, ss⟩, hs, i, k, _, h => by
      rw [Stmt.wellFormed] at hs
      obtain ⟨j, hopen, hclose⟩ := spells_append.1 h
      obtain ⟨q, j', rfl, hq, rfl⟩ := hclose.symbol
      obtain ⟨t, j, rfl, ht, hss⟩ := Spells.symbol hopen
      have hbody := Stmt.derive_body ss hs (by rw [nextKind_cons, hq]; simp) hss
      rw [Stmt.unplaced, Stmt.unplacedList_eq_map]
      exact .block ht hbody hq
  | .returnValue _ v, hs, i, k, _, h => by
      rw [Stmt.wellFormed] at hs
      obtain ⟨j, hreturn, hclose⟩ := spells_append.1 h
      obtain ⟨q, j', rfl, hq, rfl⟩ := hclose.symbol
      obtain ⟨t, j, rfl, ht, hv⟩ := Spells.keyword hreturn
      exact .returnValue ht (.of_spells hs hv) hq
  | .breakLoop _, _, i, k, _, h => by
      obtain ⟨t, j, rfl, ht, hclose⟩ := Spells.keyword h
      obtain ⟨q, j', rfl, hq, rfl⟩ := hclose.symbol
      exact .breakLoop ht hq
  | .declaration _ n e, hs, i, k, _, h => by
      simp only [Stmt.wellFormed, Bool.and_eq_true] at hs
      obtain ⟨j, hvar, hclose⟩ := spells_append.1 h
      obtain ⟨q, j', rfl, hq, rfl⟩ := hclose.symbol
      obtain ⟨t, j, rfl, ht, hname⟩ := Spells.keyword hvar
      obtain ⟨m, j, rfl, hm, rfl, hsign⟩ := hname.name
      obtain ⟨a, j, rfl, ha, he⟩ := hsign.symbol
      exact .declaration ht hm ha (Expr.derives_words e hs.2 he) hq
  | .expression _ e, hs, i, k, _, h => by
      rw [Stmt.wellFormed] at hs
      obtain ⟨j, he, hclose⟩ := spells_append.1 h
      obtain ⟨q, j', rfl, hq, rfl⟩ := hclose.symbol
      obtain ⟨t, i, rfl⟩ := he.exists_cons
      exact .expression (Expr.derives_words e hs he) hq

theorem Stmt.derive_body : (ss : List Stmt) → Stmt.wellFormedList ss = true →
    ∀ {i k : List Token}, nextKind k ≠ .keyword .kwElse → Spells (Stmt.wordsList ss) i k →
      DerivesStmt nowhere .body i k (ss.map Stmt.unplaced)
  | [], _, i, k, _, h => by
      cases h
      exact .noStatements
  | s :: ss, hss, i, k, hk, h => by
      simp only [Stmt.wellFormedList, Bool.and_eq_true] at hss
      obtain ⟨j, hs, hrest⟩ := spells_append.1 h
      have hbody := Stmt.derive_body ss hss.2 hk hrest
      exact .statements
        (Stmt.derives_words s hss.1 (fun _ => hbody.nextKind_ne_else_of_body hk) hs) hbody

end

section Declarations

variable {file : String} {i k : List Token}

theorem Formal.derive_moreFormals {fs : List Formal}
    (h : Spells ((fs.map Formal.words).flatMap (symbol .comma :: ·)) i k) :
    DerivesDecl nowhere file .moreFormals i k (fs.map Formal.unplaced) := by
  induction fs generalizing i with
  | nil =>
      cases h
      exact .noMoreFormals
  | cons f fs ih =>
      obtain ⟨c, j, rfl, hc, h⟩ := Spells.symbol h
      obtain ⟨t, j, rfl, ht, htype, hname⟩ := Spells.name h
      obtain ⟨n, j, rfl, hn, hvalue, hrest⟩ := hname.name
      rw [List.map_cons, Formal.unplaced, ← htype, ← hvalue]
      exact .moreFormals hc ht hn (ih hrest)

theorem Formal.derive_formals {fs : List Formal}
    (h : Spells (separated (fs.map Formal.words)) i k) :
    DerivesDecl nowhere file .formals i k (fs.map Formal.unplaced) := by
  cases fs with
  | nil =>
      cases h
      exact .noFormals
  | cons f fs =>
      obtain ⟨t, j, rfl, ht, htype, hname⟩ := Spells.name h
      obtain ⟨n, j, rfl, hn, hvalue, hrest⟩ := hname.name
      rw [List.map_cons, Formal.unplaced, ← htype, ← hvalue]
      exact .someFormals ht hn (Formal.derive_moreFormals hrest)

theorem DerivesInit.of_spells {v : Option Expr} (hv : v.all Expr.wellFormed = true)
    (h : Spells (v.elim [] fun e => symbol .assign :: e.words) i k) :
    DerivesInit nowhere i k (v.map Expr.unplaced) := by
  cases v with
  | none =>
      cases h
      exact .absent
  | some e =>
      obtain ⟨a, j, rfl, ha, he⟩ := Spells.symbol h
      exact .present ha (Expr.derives_words e hv he)

theorem Member.derives_words {m : Member} (hm : m.wellFormed = true) (h : Spells m.words i k) :
    DerivesDecl nowhere file .member i k m.unplaced := by
  cases m with
  | field f =>
      simp only [Member.wellFormed, Field.wellFormed, Bool.and_eq_true] at hm
      obtain ⟨j, hfield, hclose⟩ := spells_append.1 h
      obtain ⟨q, j', rfl, hq, rfl⟩ := hclose.symbol
      obtain ⟨t, j, rfl, ht, htype, hname⟩ := Spells.name hfield
      obtain ⟨n, j, rfl, hn, hvalue, hinit⟩ := hname.name
      rw [Member.unplaced, Field.unplaced, ← htype, ← hvalue]
      exact .field ht hn (.of_spells hm.2 hinit) hq
  | method m =>
      simp only [Member.wellFormed, Method.wellFormed, Bool.and_eq_true] at hm
      obtain ⟨j, hmethod, hclose⟩ := spells_append.1 h
      obtain ⟨z, j', rfl, hz, rfl⟩ := hclose.symbol
      obtain ⟨j, hhead, hbody⟩ := spells_append.1 hmethod
      obtain ⟨b, j', rfl, hb, hss⟩ := hbody.symbol
      obtain ⟨t, j, rfl, ht, htype, hname⟩ := Spells.name hhead
      obtain ⟨n, j, rfl, hn, hvalue, hgroup⟩ := hname.name
      obtain ⟨p, j, q, rfl, hp, hfs, hq⟩ := hgroup.grouped
      obtain ⟨a, j, rfl⟩ := hfs.exists_cons
      have hbody := Stmt.derive_body m.body.items (by simpa using hm.2)
        (by rw [nextKind_cons, hz]; simp) hss
      rw [Member.unplaced, Method.unplaced, ← htype, ← hvalue]
      exact .method ht hn hp (Formal.derive_formals hfs) hq hb hbody hz

theorem Member.derive_members {ms : List Member} (hms : ms.all Member.wellFormed = true)
    (h : Spells (ms.flatMap Member.words) i k) :
    DerivesDecl nowhere file .members i k (ms.map Member.unplaced) := by
  induction ms generalizing i with
  | nil =>
      cases h
      exact .noMembers
  | cons m ms ih =>
      rw [List.all_cons, Bool.and_eq_true] at hms
      obtain ⟨j, hm, hrest⟩ := spells_append.1 h
      exact .members (Member.derives_words hms.1 hm) (ih hms.2 hrest)

theorem DerivesParent.of_spells {parent : Option String}
    (h : Spells (parent.elim [] fun p => [Word.keyword .kwExtends, Word.name p]) i k) :
    DerivesParent i k parent := by
  cases parent with
  | none =>
      cases h
      exact .absent
  | some p =>
      obtain ⟨t, j, rfl, ht, hname⟩ := Spells.keyword h
      obtain ⟨n, j, rfl, hn, rfl, rfl⟩ := hname.name
      exact .present ht hn

theorem ClassDecl.derives_words {c : ClassDecl} (hc : c.wellFormed = true)
    (h : Spells c.words i k) :
    DerivesDecl nowhere file .classDecl i k (c.inFile file).unplaced := by
  simp only [ClassDecl.wellFormed, Bool.and_eq_true] at hc
  obtain ⟨j, hclass, hclose⟩ := spells_append.1 h
  obtain ⟨z, j', rfl, hz, rfl⟩ := hclose.symbol
  obtain ⟨j, hhead, hbody⟩ := spells_append.1 hclass
  obtain ⟨b, j', rfl, hb, hms⟩ := hbody.symbol
  obtain ⟨a, j', rfl⟩ := hms.exists_cons
  obtain ⟨t, j, rfl, ht, hname⟩ := Spells.keyword hhead
  obtain ⟨n, j, rfl, hn, hvalue, hparent⟩ := hname.name
  rw [ClassDecl.inFile, ClassDecl.unplaced, ← hvalue]
  exact .classDecl ht hn (.of_spells hparent) hb (Member.derive_members hc.2 hms) hz

theorem ClassDecl.derive_classes {cs : List ClassDecl} (hcs : cs.all ClassDecl.wellFormed = true)
    (h : Spells (cs.flatMap ClassDecl.words) i k) :
    DerivesDecl nowhere file .classes i k
      ((cs.map (ClassDecl.inFile file)).map ClassDecl.unplaced) := by
  induction cs generalizing i with
  | nil =>
      cases h
      exact .noClasses
  | cons c cs ih =>
      rw [List.all_cons, Bool.and_eq_true] at hcs
      obtain ⟨j, hc, hrest⟩ := spells_append.1 h
      exact .classes (ClassDecl.derives_words hcs.1 hc) (ih hcs.2 hrest)

end Declarations

end Grammar

end ClassLang
