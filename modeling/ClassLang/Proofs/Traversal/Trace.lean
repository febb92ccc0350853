import ClassLang.Proofs.Syntax.Listing
import ClassLang.Traversal.Trace
/-!
What a traversal meets. Main statement: a visitor that records every node and does not enter the
nodes of some kinds records the one listing of the nodes that stand below no node of these kinds,
each ahead of what is below it or behind it, and nothing for a list (`Visitor.visit_trace`).
-/

namespace ClassLang

namespace Visitor

variable {stop : NodeKind → Bool} {afterChildren : Bool}

def traced (stop : NodeKind → Bool) (afterChildren : Bool) (n : Node) : List Node :=
  (((trace stop afterChildren).visit n).run []).2

theorem run_runAll {σ ρ : Type} {v : Visitor (List σ) ρ} {r : ρ} {f : Node → List σ}
    {nodes : List Node} (h : ∀ c ∈ nodes, ∀ acc, (v.visit c).run acc = (r, acc ++ f c))
    (acc : List σ) : (runAll (nodes.map v.visit)).run acc = ((), acc ++ nodes.flatMap f) := by
  induction nodes generalizing acc with
  | nil => simp [runAll]; rfl
  | cons c nodes ih =>
      have hrun : (runAll ((c :: nodes).map v.visit)).run acc =
          (runAll (nodes.map v.visit)).run ((v.visit c).run acc).2 := rfl
      rw [hrun, h c (by simp), ih fun c hc => h c (by simp [hc]), List.flatMap_cons,
        List.append_assoc]

theorem run_trace_of_closed {n : Node} (hstop : stop n.kind = true)
    (visits : List (StateM (List Node) Nat)) (acc : List Node) :
    (trace stop afterChildren n visits).run acc = (1, acc ++ [n]) := by
  cases afterChildren <;> simp only [trace, hstop] <;> rfl

theorem run_trace_of_open {n : Node} {visits : List (StateM (List Node) Nat)}
    {nodes : List Node} (hopen : stop n.kind = false)
    (h : ∀ acc, (runAll visits).run acc = ((), acc ++ nodes)) (acc : List Node) :
    (trace stop afterChildren n visits).run acc =
      (1, acc ++ if afterChildren then nodes ++ [n] else n :: nodes) := by
  cases afterChildren with
  | false =>
      have hrun : (trace stop false n visits).run acc =
          (1, ((runAll visits).run (acc ++ [n])).2) := by
        simp only [trace, hopen]
        rfl
      rw [hrun, h, List.append_assoc]
      rfl
  | true =>
      have hrun : (trace stop true n visits).run acc =
          (1, ((runAll visits).run acc).2 ++ [n]) := by
        simp only [trace, hopen]
        rfl
      rw [hrun, h, List.append_assoc]
      rfl

variable (stop afterChildren)

theorem run_visit_trace (n : Node) :
    Lists afterChildren (n.Reaches stop) (traced stop afterChildren n) ∧
      ∀ acc, ((trace stop afterChildren).visit n).run acc =
        (1, acc ++ traced stop afterChildren n) := by
  induction n using Node.induction_of_children with
  | h n ih =>
      have hrun : ∀ (events : List Node),
          (∀ acc, ((trace stop afterChildren).visit n).run acc = (1, acc ++ events)) →
            traced stop afterChildren n = events := by
        intro events h
        rw [traced, h, List.nil_append]
      cases hkind : stop n.kind with
      | true =>
          have h : ∀ acc, ((trace stop afterChildren).visit n).run acc = (1, acc ++ [n]) := by
            intro acc
            rw [visit_eq, run_trace_of_closed hkind]
          rw [hrun _ h]
          exact ⟨.of_closed hkind, h⟩
      | false =>
          have h := @run_trace_of_open _ afterChildren n _ _ hkind
            (run_runAll fun c hc => (ih c hc).2)
          rw [← visit_eq (trace stop afterChildren) n] at h
          rw [hrun _ h]
          exact ⟨.of_open hkind (.of_nodes fun c hc => (ih c hc).1), h⟩

theorem run_visitNodes_trace (nodes : List Node) :
    Lists afterChildren (Node.ReachedFrom stop nodes)
        (nodes.flatMap (traced stop afterChildren)) ∧
      ∀ acc, ((trace stop afterChildren).visitNodes nodes).run acc =
        (0, acc ++ nodes.flatMap (traced stop afterChildren)) := by
  constructor
  · exact .of_nodes fun c _ => (run_visit_trace stop afterChildren c).1
  · intro acc
    have hrun : ((trace stop afterChildren).visitNodes nodes).run acc =
        (0, ((runAll (nodes.map (trace stop afterChildren).visit)).run acc).2) := rfl
    rw [hrun, run_runAll fun c _ => (run_visit_trace stop afterChildren c).2]

theorem visit_trace :
    (∀ n : Node, ∃ events : List Node,
      (∀ nodes, Lists afterChildren (n.Reaches stop) nodes ↔ nodes = events) ∧
        ∀ acc, ((trace stop afterChildren).visit n).run acc = (1, acc ++ events)) ∧
      ∀ nodes : List Node, ∃ events : List Node,
        (∀ ns, Lists afterChildren (Node.ReachedFrom stop nodes) ns ↔ ns = events) ∧
          ∀ acc, ((trace stop afterChildren).visitNodes nodes).run acc = (0, acc ++ events) := by
  constructor
  · intro n
    have ⟨hlists, hrun⟩ := run_visit_trace stop afterChildren n
    exact ⟨_, fun nodes => ⟨fun h => h.eq hlists, fun h => h ▸ hlists⟩, hrun⟩
  · intro nodes
    have ⟨hlists, hrun⟩ := run_visitNodes_trace stop afterChildren nodes
    exact ⟨_, fun ns => ⟨fun h => h.eq hlists, fun h => h ▸ hlists⟩, hrun⟩

example (p : Position) :
    let loop : Stmt := .whileLoop p (.boolean p true) (.breakLoop p)
    let block : Stmt := .block p ⟨p, [loop, .breakLoop p]⟩
    ((trace (· == .whileLoop) true).visit (.stmt block)).run [] =
      (1, [.stmt loop, .stmt (.breakLoop p), .stmt block]) :=
  rfl

end Visitor

end ClassLang
