import TraceStore.Proofs.Repository.Loading
import TraceStore.Proofs.Store.Effects

/-!
# What operations leave of the nodes

A graph *retains* its nodes if each of them is there as it was: its id, its links, its actions and
its execution.  Storing, looking up and loading retain all nodes, whoever shares them.  A load adds
nodes of its own, and `Graph.Loads` says that what waking does is seen on one of these only: the
others are as a document tells of them, with neither actions nor execution.
-/

namespace TraceStore

namespace Graph

variable {before between after : Graph} {ref : NodeRef} {loaded : Option NodeRef}

/-- All nodes are still there, as they were. -/
structure Retains (before after : Graph) : Prop where
  next_le : before.next ≤ after.next
  node_eq : ∀ ref < before.next, after.node ref = before.node ref

/-- All nodes are still there as they were, and only the node that was loaded came with actions or
with an execution. -/
structure Loads (before after : Graph) (loaded : Option NodeRef) : Prop where
  retains : Retains before after
  new : ∀ ref ∈ loaded, before.next ≤ ref ∧ ref < after.next
  bare : ∀ ref, before.next ≤ ref → ref < after.next → loaded ≠ some ref →
    (after.node ref).actions = [] ∧ (after.node ref).owner = none

/-- A change of one node leaves the others. -/
theorem node_update_other (graph : Graph) {other : NodeRef} (apart : ref ≠ other)
    (change : Node → Node) : (graph.update ref change).node other = graph.node other := by
  have same := node?_update graph ref other change
  rw [if_neg apart] at same
  simp only [node?] at same
  rw [node, node, same]

namespace Retains

@[refl] theorem refl (graph : Graph) : Retains graph graph := ⟨Nat.le_refl _, fun _ _ => rfl⟩

theorem trans (first : Retains before between) (second : Retains between after) :
    Retains before after where
  next_le := Nat.le_trans first.next_le second.next_le
  node_eq ref old :=
    (second.node_eq ref (Nat.lt_of_lt_of_le old first.next_le)).trans (first.node_eq ref old)

theorem of_nodes_eq (same : after.nodes = before.nodes) : Retains before after where
  next_le := by rw [next, next, same]
  node_eq ref _ := by rw [node, node, same]

theorem of_eq (same : after = before) : Retains before after := same ▸ refl before

theorem add (graph : Graph) (node : Node) : Retains graph (graph.add node) where
  next_le := by simp
  node_eq _ old := node_append_of_lt graph [node] old

/-- A node that came later may be changed. -/
theorem update (retains : Retains before after) (new : before.next ≤ ref)
    (change : Node → Node) : Retains before (after.update ref change) where
  next_le := by simpa using retains.next_le
  node_eq other old := by
    have apart : ref ≠ other := Nat.ne_of_gt (Nat.lt_of_lt_of_le old new)
    rw [node_update_other after apart change, retains.node_eq other old]

end Retains

theorem Appends.retains (appends : Appends before after) : Retains before after :=
  ⟨appends.keeps.next_le, fun _ old => appends.node_eq old⟩

namespace Loads

/-- Nothing is loaded. -/
theorem refl (graph : Graph) : Loads graph graph none where
  retains := .refl graph
  new := by simp
  bare _ new old := absurd old (Nat.not_lt.mpr new)

/-- The nodes that a document tells of come without actions and without an execution. -/
theorem withNodes (start : Record.Session) (nodes : List (String × List String)) :
    Loads start.graph (start.withNodes nodes).graph none where
  retains := (Record.Session.appends_withNodes nodes).retains
  new := by simp
  bare ref new there _ := by
    obtain ⟨position, rfl⟩ := Nat.exists_eq_add_of_le new
    have created := @Record.Session.node?_withNodes start nodes position
    rw [node?_eq_some_node there] at created
    obtain ⟨told, -, same⟩ := Option.map_eq_some_iff.mp created.symm
    rw [← same]
    exact ⟨rfl, rfl⟩

/-- One of the nodes that came is loaded. -/
theorem update (loads : Loads before after none) (new : before.next ≤ ref)
    (there : ref < after.next) (change : Node → Node) :
    Loads before (after.update ref change) (some ref) where
  retains := loads.retains.update new change
  new := by
    rintro _ ⟨⟩
    exact ⟨new, by simpa using there⟩
  bare other newOther thereOther apart := by
    rw [next_update] at thereOther
    rw [node_update after ref other change there, if_neg fun same => apart (congrArg some same)]
    exact loads.bare other newOther thereOther nofun

end Loads

end Graph

namespace Repository

/-- Reading a record leaves the nodes that were there, and wakes actions on no other node than the
one that it gives. -/
theorem read_loads (repository : Repository) (site : Site) (id : String)
    (execution : ExecutionRef) :
    Graph.Loads site.graph (repository.read site id execution).2.graph
      ((repository.read site id execution).1.toOption.map Loaded.node) := by
  cases found : repository.path id with
  | error failure =>
      simp only [read, found]
      exact .refl _
  | ok path =>
      cases there : site.files.read site.working path with
      | error fault =>
          have unread : ∃ failure, repository.read site id execution = (.error failure, site) := by
            simp only [read, found, content, there]
            cases fault <;> exact ⟨_, rfl⟩
          obtain ⟨failure, unread⟩ := unread
          rw [unread]
          exact .refl _
      | ok bytes =>
          obtain ⟨nodes, after, isCreated⟩ := Record.decode_fresh site.graph bytes
          have created := Graph.Loads.withNodes ⟨site.graph, {}, none⟩ nodes
          rw [← after] at created
          cases decoded : Record.decode ⟨site.graph, {}, none⟩ bytes with
          | mk session result =>
              rw [decoded] at created isCreated after
              cases result with
              | error fault =>
                  simp only [read, found, content, there, decoded]
                  exact created
              | ok record =>
                  rcases record with ⟨_ | ref, actions⟩
                  · simp only [read, found, content, there, decoded, accept]
                    exact created
                  · obtain ⟨position, within, isRef⟩ := isCreated _ rfl ref rfl
                    have here : ref < session.graph.next := by
                      simp only at after
                      rw [isRef, after, Record.Session.next_withNodes]
                      exact Nat.add_lt_add_left within _
                    obtain ⟨stored, parentIds, woken, events, -, -, isRead⟩ :=
                      read_decoded found there decoded execution
                    rw [isRead]
                    exact created.update (isRef ▸ Nat.le_add_right _ _) here _

end Repository

namespace Store

/-- A lookup leaves the nodes that were there.  If it loads a node, that is the node it gives. -/
theorem get_loads (store : Store) (site : Site) (id : String) :
    ∃ loaded, Graph.Loads site.graph (store.get site id).2.2.graph loaded ∧
      ∀ ref ∈ loaded, (store.get site id).1 = .ok (some ref) := by
  have nothing (answer : Except StoreError (Option NodeRef)) :
      ∃ loaded, Graph.Loads site.graph site.graph loaded ∧
        ∀ ref ∈ loaded, answer = .ok (some ref) :=
    ⟨none, .refl _, by simp⟩
  rw [get]
  split
  · exact nothing _
  · split
    · exact nothing _
    · have loads := Repository.read_loads store.repository site id store.execution
      simp only [fetch]
      cases read : store.repository.read site id store.execution with
      | mk result after =>
          rw [read] at loads
          cases result with
          | ok loaded => exact ⟨some loaded.node, loads, by simp⟩
          | error failure =>
              refine ⟨none, ?_, by simp⟩
              simp only
              split <;> exact loads

/-- Loading the actions of a node leaves the nodes that were there, that node included. -/
theorem loadActions_loads (store : Store) (site : Site) (node : NodeRef) :
    ∃ loaded, Graph.Loads site.graph (store.loadActions site node).2.2.graph loaded := by
  have loads := Repository.read_loads store.repository site (site.graph.node node).id
    store.execution
  rw [loadActions]
  split
  · exact ⟨none, .refl _⟩
  · exact ⟨none, .refl _⟩
  · split
    · next result =>
        rw [result] at loads
        exact ⟨_, loads⟩
    · next result =>
        rw [result] at loads
        split <;> exact ⟨_, loads⟩

end Store

theorem Repository.graph_write (repository : Repository) (site : Site) (node : NodeRef)
    (actions : List Action) : (repository.write site node actions).2.graph = site.graph := by
  cases written : repository.write site node actions with
  | mk result after =>
      cases result with
      | error failure =>
          obtain ⟨files, rfl, -⟩ := write_error written
          rfl
      | ok _ =>
          obtain ⟨path, bytes, files, event, -, -, -, rfl⟩ := write_ok written
          rfl

end TraceStore
