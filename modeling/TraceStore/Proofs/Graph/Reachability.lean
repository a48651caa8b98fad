import TraceStore.Graph
import Mathlib.Data.Nat.Init

/-!
# What keeps a node alive

`Graph.Reaches` is reachability as a derivation: a root is reached, and so is a node that a reached
one holds.  `Graph.reachable_iff` says that the closure, which visits every node once and the newest
first, finds exactly these.  One visit is enough because a node holds only older ones: once a node
has been visited, whatever is found later is older still.
-/

namespace TraceStore.Graph

variable {graph : Graph} {roots : List NodeRef} {ref : NodeRef}

/-- A node that is one of the roots, or is held by a node that they reach. -/
inductive Reaches (graph : Graph) (roots : List NodeRef) : NodeRef → Prop where
  | root {ref : NodeRef} (member : ref ∈ roots) : Reaches graph roots ref
  | parent {child ref : NodeRef} (reached : Reaches graph roots child)
      (held : ref ∈ (graph.node child).links.keeps) : Reaches graph roots ref

namespace Reaches

/-- Roots that are reached themselves reach nothing new. -/
theorem trans {others : List NodeRef} (reached : Reaches graph others ref)
    (covered : ∀ root ∈ others, Reaches graph roots root) : Reaches graph roots ref := by
  induction reached with
  | root member => exact covered _ member
  | parent _ held ih => exact .parent ih held

theorem mono {others : List NodeRef} (reached : Reaches graph roots ref)
    (more : ∀ root ∈ roots, root ∈ others) : Reaches graph others ref :=
  reached.trans fun root member => .root (more root member)

end Reaches

/-! ## The closure -/

theorem node_of_le (old : graph.next ≤ ref) : graph.node ref = default := by
  simp only [next] at old
  simp [node, List.getElem?_eq_none old]

theorem node?_eq_some_node (old : ref < graph.next) : graph.node? ref = some (graph.node ref) := by
  simp only [next] at old
  simp [node?, node, List.getElem?_eq_getElem old]

/-- The parents of a node are older than it, also where there is no node. -/
theorem Acyclic.lt (acyclic : graph.Acyclic) {parent : NodeRef}
    (held : parent ∈ (graph.node ref).links.keeps) : parent < ref := by
  by_cases old : ref < graph.next
  · exact acyclic ref _ (node?_eq_some_node old) parent held
  · rw [node_of_le (Nat.le_of_not_lt old)] at held
    simp [default, Links.keeps, instInhabitedNode.default, instInhabitedLinks.default] at held

/-- The visit of one node in the computation of the closure. -/
def visit (item : Node × NodeRef) (reached : List NodeRef) : List NodeRef :=
  if item.2 ∈ reached then item.1.links.keeps ++ reached else reached

/-- The nodes found once all from a position on have been visited. -/
def closureFrom (graph : Graph) (roots : List NodeRef) (position : Nat) : List NodeRef :=
  (graph.nodes.zipIdx.drop position).foldr visit roots

theorem closureFrom_zero : graph.closureFrom roots 0 = graph.closure roots := by
  rw [closureFrom, closure, List.drop_zero]
  rfl

theorem closureFrom_next : graph.closureFrom roots graph.next = roots := by
  simp [closureFrom, next, List.drop_eq_nil_of_le]

theorem closureFrom_of_lt (old : ref < graph.next) :
    graph.closureFrom roots ref =
      visit (graph.node ref, ref) (graph.closureFrom roots (ref + 1)) := by
  have bound : ref < graph.nodes.zipIdx.length := by simpa [next] using old
  simp only [next] at old
  rw [closureFrom, List.drop_eq_getElem_cons bound, List.foldr_cons, closureFrom]
  simp [node, List.getElem?_eq_getElem old]

/-- What the closure has found is reached, holds the roots, and is closed for the nodes that have
been visited. -/
structure Closed (graph : Graph) (roots : List NodeRef) (position : Nat)
    (found : List NodeRef) : Prop where
  reached : ∀ ref ∈ found, Reaches graph roots ref
  roots : ∀ root ∈ roots, root ∈ found
  parents : ∀ child ∈ found, position ≤ child →
    ∀ parent ∈ (graph.node child).links.keeps, parent ∈ found

theorem Closed.visit (acyclic : graph.Acyclic) {found : List NodeRef}
    (closed : Closed graph roots (ref + 1) found) :
    Closed graph roots ref (visit (graph.node ref, ref) found) := by
  by_cases member : ref ∈ found
  · rw [Graph.visit, if_pos member]
    refine ⟨?_, ?_, ?_⟩
    · intro other found
      cases List.mem_append.mp found with
      | inl held => exact .parent (closed.reached ref member) held
      | inr before => exact closed.reached other before
    · intro root isRoot
      exact List.mem_append_right _ (closed.roots root isRoot)
    · intro child found notOlder parent held
      -- a node found by this visit is older than the one visited, so the child was found before
      cases List.mem_append.mp found with
      | inl added => exact absurd (acyclic.lt added) (Nat.not_lt_of_le notOlder)
      | inr before =>
          by_cases same : child = ref
          · subst same
            exact List.mem_append_left _ held
          · exact List.mem_append_right _
              (closed.parents child before (Nat.lt_of_le_of_ne notOlder (Ne.symm same)) parent held)
  · rw [Graph.visit, if_neg member]
    refine ⟨closed.reached, closed.roots, ?_⟩
    intro child found notOlder parent held
    have newer : ref ≠ child := fun same => member (same ▸ found)
    exact closed.parents child found (Nat.lt_of_le_of_ne notOlder newer) parent held

theorem closed_closureFrom (acyclic : graph.Acyclic) (roots : List NodeRef) (position : Nat)
    (within : position ≤ graph.next) :
    Closed graph roots position (graph.closureFrom roots position) := by
  induction within using Nat.decreasingInduction with
  | self =>
      rw [closureFrom_next]
      refine ⟨fun ref member => .root member, fun root member => member, ?_⟩
      intro child _ outside
      rw [node_of_le outside]
      intro parent held
      simp [default, Links.keeps, instInhabitedNode.default, instInhabitedLinks.default] at held
  | of_succ position older ih =>
      rw [closureFrom_of_lt older]
      exact ih.visit acyclic

/-- The closure finds exactly the nodes that the roots reach. -/
theorem reachable_iff (acyclic : graph.Acyclic) (roots : List NodeRef) (ref : NodeRef) :
    graph.reachable roots ref = true ↔ Reaches graph roots ref := by
  have closed := closed_closureFrom acyclic roots 0 (Nat.zero_le _)
  rw [closureFrom_zero] at closed
  rw [reachable, List.contains_iff_mem]
  refine ⟨closed.reached ref, ?_⟩
  intro reached
  induction reached with
  | root member => exact closed.roots _ member
  | parent _ held ih => exact closed.parents _ ih (Nat.zero_le _) _ held

end TraceStore.Graph
