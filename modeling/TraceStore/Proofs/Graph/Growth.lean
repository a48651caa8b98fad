import TraceStore.Proofs.Graph.Reachability

/-!
# What a graph keeps

Nodes are never taken away, and a node never changes its id or its links.  `Graph.Keeps` says this
of two states of a graph.  Whatever is said about ids and links alone then carries over: the ids of
the parents, and what given roots keep alive.

Reading records does less: `Graph.Appends` says that nodes were added whose links are ids, and that
everything else is as it was.
-/

namespace TraceStore.Graph

variable {before between after : Graph} {ref : NodeRef}

/-- All nodes are still there, with their ids and their links. -/
structure Keeps (before after : Graph) : Prop where
  next_le : before.next ≤ after.next
  id_eq : ∀ ref < before.next, (after.node ref).id = (before.node ref).id
  links_eq : ∀ ref < before.next, (after.node ref).links = (before.node ref).links

/-- Nodes were added whose links are ids, and nothing else was done. -/
def Appends (before after : Graph) : Prop :=
  ∃ added : List Node, (∀ node ∈ added, node.links.areHeld = false) ∧
    after = { before with nodes := before.nodes ++ added }

theorem node_append_of_lt (graph : Graph) (added : List Node) (old : ref < graph.next) :
    ({ graph with nodes := graph.nodes ++ added } : Graph).node ref = graph.node ref := by
  simp only [next] at old
  simp [node, List.getElem?_append_left old]

theorem keeps_eq_nil_of_not_areHeld {links : Links} (named : links.areHeld = false) :
    links.keeps = [] := by
  cases links with
  | held parents => simp [Links.areHeld] at named
  | named ids => rfl

theorem node_update (graph : Graph) (ref other : NodeRef) (change : Node → Node)
    (old : ref < graph.next) :
    (graph.update ref change).node other =
      if ref = other then change (graph.node other) else graph.node other := by
  have updated := node?_update graph ref other change
  simp only [node?] at updated
  simp only [node, updated]
  split
  · next same =>
      subst same
      simp only [next] at old
      simp [List.getElem?_eq_getElem old]
  · rfl

theorem modify_append_of_le {α : Type} {old added : List α} {position : Nat}
    (behind : old.length ≤ position) (change : α → α) :
    (old ++ added).modify position change = old ++ added.modify (position - old.length) change := by
  induction old generalizing position with
  | nil => simp
  | cons item others ih =>
      cases position with
      | zero => simp at behind
      | succ position =>
          simp only [List.length_cons, Nat.add_le_add_iff_right] at behind
          simp [ih behind]

/-! ## Ids and links -/

namespace Keeps

@[refl] theorem refl (graph : Graph) : Keeps graph graph :=
  ⟨Nat.le_refl _, fun _ _ => rfl, fun _ _ => rfl⟩

theorem trans (first : Keeps before between) (second : Keeps between after) :
    Keeps before after where
  next_le := Nat.le_trans first.next_le second.next_le
  id_eq ref old :=
    (second.id_eq ref (Nat.lt_of_lt_of_le old first.next_le)).trans (first.id_eq ref old)
  links_eq ref old :=
    (second.links_eq ref (Nat.lt_of_lt_of_le old first.next_le)).trans (first.links_eq ref old)

theorem lt (kept : Keeps before after) (old : ref < before.next) : ref < after.next :=
  Nat.lt_of_lt_of_le old kept.next_le

theorem add (graph : Graph) (node : Node) : Keeps graph (graph.add node) where
  next_le := by simp
  id_eq ref old := congrArg Node.id (node_append_of_lt graph [node] old)
  links_eq ref old := congrArg Node.links (node_append_of_lt graph [node] old)

/-- A change of the actions or of the execution of one node keeps ids and links. -/
theorem update (graph : Graph) {change : Node → Node} (id_eq : ∀ node, (change node).id = node.id)
    (links_eq : ∀ node, (change node).links = node.links) (old : ref < graph.next) :
    Keeps graph (graph.update ref change) where
  next_le := by simp
  id_eq other _ := by
    rw [node_update graph ref other change old]
    split
    · exact id_eq _
    · rfl
  links_eq other _ := by
    rw [node_update graph ref other change old]
    split
    · exact links_eq _
    · rfl

/-- The parents of a node keep their ids. -/
theorem parentIds_eq (kept : Keeps before after) (acyclic : before.Acyclic)
    (old : ref < before.next) :
    after.parentIds (after.node ref).links = before.parentIds (before.node ref).links := by
  rw [kept.links_eq ref old]
  cases links : (before.node ref).links with
  | named ids => rfl
  | held parents =>
      refine List.map_congr_left fun parent member => kept.id_eq parent ?_
      have held : parent ∈ (before.node ref).links.keeps := by rwa [links]
      exact Nat.lt_trans (acyclic.lt held) old

end Keeps

/-- Whatever roots reach was there if the roots were. -/
theorem Reaches.lt {graph : Graph} (acyclic : graph.Acyclic) {roots : List NodeRef}
    (old : ∀ root ∈ roots, root < graph.next) (reached : Reaches graph roots ref) :
    ref < graph.next := by
  induction reached with
  | root member => exact old _ member
  | parent _ held ih => exact Nat.lt_trans (acyclic.lt held) ih

/-! ## Further nodes -/

namespace Appends

@[refl] theorem refl (graph : Graph) : Appends graph graph :=
  ⟨[], by simp, by simp⟩

theorem trans (first : Appends before between) (second : Appends between after) :
    Appends before after := by
  rcases first with ⟨added, named, rfl⟩
  rcases second with ⟨others, alsoNamed, rfl⟩
  refine ⟨added ++ others, ?_, by simp⟩
  intro node member
  exact (List.mem_append.mp member).elim (named node) (alsoNamed node)

theorem add (graph : Graph) {node : Node} (named : node.links.areHeld = false) :
    Appends graph (graph.add node) :=
  ⟨[node], by simpa using named, rfl⟩

theorem node_eq (appends : Appends before after) (old : ref < before.next) :
    after.node ref = before.node ref := by
  rcases appends with ⟨added, -, rfl⟩
  exact node_append_of_lt before added old

theorem keeps (appends : Appends before after) : Keeps before after where
  next_le := by
    rcases appends with ⟨added, -, rfl⟩
    simp [next]
  id_eq ref old := by rw [appends.node_eq old]
  links_eq ref old := by rw [appends.node_eq old]

/-- A further node holds no other node. -/
theorem keeps_eq_nil (appends : Appends before after) (new : before.next ≤ ref) :
    (after.node ref).links.keeps = [] := by
  rcases appends with ⟨added, named, rfl⟩
  simp only [next] at new
  simp only [node, List.getElem?_append_right new]
  cases found : added[ref - before.nodes.length]? with
  | none => rfl
  | some node => exact keeps_eq_nil_of_not_areHeld (named node (List.mem_of_getElem? found))

/-- A further node may be changed in place. -/
theorem update (appends : Appends before after) (new : before.next ≤ ref) {change : Node → Node}
    (links_eq : ∀ node, (change node).links = node.links) :
    Appends before (after.update ref change) := by
  rcases appends with ⟨added, named, rfl⟩
  simp only [next] at new
  refine ⟨added.modify (ref - before.nodes.length) change, ?_, ?_⟩
  · intro node member
    rw [List.mem_iff_getElem?] at member
    rcases member with ⟨position, found⟩
    rw [List.getElem?_modify] at found
    cases at_ : added[position]? with
    | none => simp [at_] at found
    | some old =>
        have isNamed := named old (List.mem_of_getElem? at_)
        rw [at_] at found
        split at found
        · obtain rfl : change old = node := by simpa using found
          rw [links_eq]
          exact isNamed
        · obtain rfl : old = node := by simpa using found
          exact isNamed
  · simp only [Graph.update, modify_append_of_le new]

theorem acyclic (appends : Appends before after) (acyclic : before.Acyclic) : after.Acyclic := by
  intro ref node there parent held
  by_cases old : ref < before.next
  · have same := node?_eq_some_node (appends.keeps.lt old)
    rw [there, appends.node_eq old] at same
    obtain rfl : node = before.node ref := by simpa using same
    exact acyclic.lt held
  · have none := appends.keeps_eq_nil (Nat.le_of_not_lt old)
    have same : after.node ref = node := by
      simp only [node?] at there
      simp [Graph.node, there]
    simp [same ▸ none] at held

end Appends

/-! ## No cycles -/

theorem acyclic_empty : Graph.Acyclic {} := by
  intro ref node there
  simp [node?] at there

theorem Acyclic.of_links_eq (acyclic : before.Acyclic)
    (links_eq : ∀ ref, (after.node ref).links = (before.node ref).links) : after.Acyclic := by
  intro ref node there parent held
  have same : after.node ref = node := by
    simp only [node?] at there
    simp [Graph.node, there]
  rw [← same, links_eq] at held
  exact acyclic.lt held

theorem Acyclic.add {graph : Graph} (acyclic : graph.Acyclic) {node : Node}
    (old : ∀ parent ∈ node.links.keeps, parent < graph.next) : (graph.add node).Acyclic := by
  intro ref found there parent held
  by_cases isOld : ref < graph.next
  · rw [node?_add_of_lt node isOld, node?_eq_some_node isOld] at there
    obtain rfl : graph.node ref = found := by simpa using there
    exact acyclic.lt held
  · have bound : ref < (graph.add node).next := by
      simp only [node?] at there
      exact (List.getElem?_eq_some_iff.mp there).1
    rw [next_add] at bound
    obtain rfl : ref = graph.next :=
      Nat.le_antisymm (Nat.le_of_lt_succ bound) (Nat.le_of_not_lt isOld)
    rw [node?_add_next] at there
    obtain rfl : node = found := by simpa using there
    exact old parent held

end TraceStore.Graph
