import Mathlib.Data.List.Flatten
import Mathlib.Data.List.Perm.Subperm
import TraceStore.Proofs.Graph.Reachability

/-!
# Counting references

What keeps a node alive is a reference to it: from a root, or from the links of a node that is alive
itself.  `Graph.references` lists them all, each as often as it is there, and
`Graph.referenceCount` counts those to one node.

Whoever has a reference can ask whether it is the only one.  `referenceCount_eq_one_iff` says what
the answer means: since holding has no cycles, a node whose count is one is reached by nothing but
that one root.  So a count taken at a single node tells as much as a search through the whole graph.
-/

namespace TraceStore.Graph

variable {graph : Graph} {roots others : List NodeRef} {root ref other : NodeRef}

/-! ## Reaching from single roots -/

namespace Reaches

/-- Whatever roots reach, one of them reaches. -/
theorem exists_root (reached : Reaches graph roots ref) :
    ∃ root ∈ roots, Reaches graph [root] ref := by
  induction reached with
  | @root ref member => exact ⟨ref, member, .root (List.mem_singleton_self ref)⟩
  | parent _ held ih =>
      obtain ⟨root, member, reached⟩ := ih
      exact ⟨root, member, .parent reached held⟩

/-- A node reaches only itself and older nodes. -/
theorem le (acyclic : graph.Acyclic) (reached : Reaches graph [root] ref) : ref ≤ root := by
  induction reached with
  | root member => exact Nat.le_of_eq (List.mem_singleton.mp member)
  | parent _ held ih => exact Nat.le_trans (Nat.le_of_lt (acyclic.lt held)) ih

/-- What roots reach is still reached when one root is taken away, or is reached by that one. -/
theorem erase_or (reached : Reaches graph roots ref) (root : NodeRef) :
    Reaches graph (roots.erase root) ref ∨ Reaches graph [root] ref := by
  obtain ⟨first, member, reached⟩ := reached.exists_root
  by_cases same : first = root
  · subst same
    exact .inr reached
  · left
    apply reached.mono
    intro only isOnly
    rw [List.mem_singleton.mp isOnly]
    exact (List.mem_erase_of_ne same).mpr member

end Reaches

/-- A node that holds another one is in the graph. -/
theorem lt_next_of_held (held : ref ∈ (graph.node other).links.keeps) : other < graph.next := by
  apply Nat.lt_of_not_le
  intro outside
  rw [node_of_le outside] at held
  simp [default, Links.keeps, instInhabitedNode.default, instInhabitedLinks.default] at held

/-- A node that reaches another one is in the graph. -/
theorem Reaches.lt_next (reached : Reaches graph [root] ref) (apart : ref ≠ root) :
    root < graph.next := by
  induction reached with
  | root member => exact absurd (List.mem_singleton.mp member) apart
  | @parent child _ _ held ih =>
      by_cases same : child = root
      · subst same
        exact lt_next_of_held held
      · exact ih same

/-! ## References -/

/-- The nodes that are alive while there are given roots. -/
def alive (graph : Graph) (roots : List NodeRef) : List NodeRef :=
  (List.range graph.next).filter (graph.reachable roots)

/-- All references that there are: the roots, and those from nodes that are alive. -/
def references (graph : Graph) (roots : List NodeRef) : List NodeRef :=
  roots ++ (graph.alive roots).flatMap fun child => (graph.node child).links.keeps

/-- How many references there are to a node. -/
def referenceCount (graph : Graph) (roots : List NodeRef) (ref : NodeRef) : Nat :=
  (graph.references roots).count ref

theorem mem_alive_iff (acyclic : graph.Acyclic) :
    ref ∈ graph.alive roots ↔ ref < graph.next ∧ Reaches graph roots ref := by
  rw [alive, List.mem_filter, List.mem_range, reachable_iff acyclic]

/-- A node is referred to exactly if it is reached. -/
theorem mem_references_iff (acyclic : graph.Acyclic) :
    ref ∈ graph.references roots ↔ Reaches graph roots ref := by
  rw [references, List.mem_append, List.mem_flatMap]
  constructor
  · rintro (isRoot | ⟨child, isAlive, held⟩)
    · exact .root isRoot
    · exact .parent ((mem_alive_iff acyclic).mp isAlive).2 held
  · intro reached
    cases reached with
    | root isRoot => exact .inl isRoot
    | @parent child _ reached held =>
        exact .inr ⟨child, (mem_alive_iff acyclic).mpr ⟨lt_next_of_held held, reached⟩, held⟩

/-- There is no reference to exactly the nodes that are not reached. -/
theorem referenceCount_eq_zero_iff (acyclic : graph.Acyclic) :
    graph.referenceCount roots ref = 0 ↔ ¬ Reaches graph roots ref := by
  rw [referenceCount, List.count_eq_zero, mem_references_iff acyclic]

/-- The references from nodes that are alive are those from nodes that another root keeps alive:
what a node reaches is older than what holds it. -/
theorem held_by_alive_iff (acyclic : graph.Acyclic) (roots : List NodeRef) (ref : NodeRef) :
    (∃ child ∈ graph.alive roots, ref ∈ (graph.node child).links.keeps) ↔
      ∃ child, Reaches graph (roots.erase ref) child ∧ ref ∈ (graph.node child).links.keeps := by
  constructor
  · rintro ⟨child, isAlive, held⟩
    have reached := ((mem_alive_iff acyclic).mp isAlive).2
    cases reached.erase_or ref with
    | inl byOthers => exact ⟨child, byOthers, held⟩
    | inr byItself =>
        exact absurd (byItself.le acyclic) (Nat.not_le_of_lt (acyclic.lt held))
  · rintro ⟨child, byOthers, held⟩
    refine ⟨child, (mem_alive_iff acyclic).mpr ⟨lt_next_of_held held, ?_⟩, held⟩
    exact byOthers.mono fun root member => List.mem_of_mem_erase member

/-- A root is the only reference to itself exactly if nothing reaches it without that root. -/
theorem referenceCount_eq_one_iff (acyclic : graph.Acyclic) (isRoot : ref ∈ roots) :
    graph.referenceCount roots ref = 1 ↔ ¬ Reaches graph (roots.erase ref) ref := by
  have fromRoots : 0 < roots.count ref := List.count_pos_iff.mpr isRoot
  have again : (roots.erase ref).count ref = roots.count ref - 1 := List.count_erase_self
  have fromNodes := held_by_alive_iff acyclic roots ref
  rw [← List.mem_flatMap] at fromNodes
  rw [referenceCount, references, List.count_append]
  constructor
  · intro isOne reached
    cases reached with
    | root stillRoot =>
        have twice := List.count_pos_iff.mpr stillRoot
        omega
    | @parent child _ reached held =>
        have another := List.count_pos_iff.mpr (fromNodes.mpr ⟨child, reached, held⟩)
        omega
  · intro unreached
    have noOther : ref ∉ roots.erase ref := fun stillRoot => unreached (.root stillRoot)
    have noChild :
        ref ∉ (graph.alive roots).flatMap fun child => (graph.node child).links.keeps := by
      intro held
      obtain ⟨child, reached, held⟩ := fromNodes.mp held
      exact unreached (.parent reached held)
    rw [List.count_eq_zero.mpr noChild]
    have onlyOnce := List.count_eq_zero.mpr noOther
    omega

/-- The only reference to a node is still the only one when other roots are taken away. -/
theorem referenceCount_eq_one_of_subperm (acyclic : graph.Acyclic) (fewer : others.Subperm roots)
    (isRoot : ref ∈ others) (isOne : graph.referenceCount roots ref = 1) :
    graph.referenceCount others ref = 1 := by
  rw [referenceCount_eq_one_iff acyclic isRoot]
  rw [referenceCount_eq_one_iff acyclic (fewer.subset isRoot)] at isOne
  intro reached
  apply isOne
  exact reached.mono fun root member => (fewer.erase ref).subset member

end TraceStore.Graph
