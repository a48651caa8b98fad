import Mathlib.Data.List.Induction
import TraceStore.Proofs.Graph.Growth
import TraceStore.Record.Reading

/-!
# Sessions

Reading changes a session by creating nodes whose links are ids, and by recording each of them.  The
session after some nodes is `Session.withNodes`.  Whatever was recorded before, the list of recorded
nodes goes on with the new ones in order, and each of these is recorded under its own id.
-/

namespace TraceStore

namespace Registry

variable {registry : Registry} {position : Nat}

/-- What is on the list is recorded under some id. -/
theorem exists_idOf? {ref : NodeRef} (listed : registry.at? position = some ref) :
    ∃ id, registry.idOf? ref = some id := by
  obtain ⟨entry, there, rfl⟩ := Option.map_eq_some_iff.mp listed
  have found : (registry.entries.reverse.find? (·.1 = entry.1)).isSome :=
    List.find?_isSome.mpr ⟨entry, by simpa using List.mem_of_getElem? there, by simp⟩
  obtain ⟨last, found⟩ := Option.isSome_iff_exists.mp found
  exact ⟨last.2, by rw [idOf?, found]; rfl⟩

theorem at?_eq_none_iff : registry.at? position = none ↔ registry.size ≤ position := by
  rw [at?, Option.map_eq_none_iff, List.getElem?_eq_none_iff, size]

/-- Links to nodes that are all recorded are resolved to their ids. -/
theorem idsOf_eq_ok {refs : List NodeRef} {ids : List String}
    (recorded : refs.map registry.idOf? = ids.map some) (position : Nat) :
    registry.idsOf position refs = .ok ids := by
  induction refs generalizing ids position with
  | nil =>
      obtain rfl : ids = [] := by simpa using recorded.symm
      rfl
  | cons ref others ih =>
      cases ids with
      | nil => simp at recorded
      | cons id ids =>
          simp only [List.map_cons, List.cons.injEq] at recorded
          rw [idsOf, recorded.1, ih recorded.2]
          rfl

end Registry

namespace Record

namespace Session

/-- A session after a node was created whose links are ids. -/
def withNode (session : Session) (id : String) (parentIds : List String) : Session :=
  { session with
    graph := session.graph.add (.detached id (.named parentIds))
    registry := session.registry.record session.graph.next id }

/-- A session after nodes were created one after the other, whose links are ids. -/
def withNodes (session : Session) (nodes : List (String × List String)) : Session :=
  nodes.foldl (fun session node => session.withNode node.1 node.2) session

variable {start : Session} (nodes : List (String × List String))

theorem withNodes_append (more : List (String × List String)) :
    start.withNodes (nodes ++ more) = (start.withNodes nodes).withNodes more :=
  List.foldl_append

theorem withNodes_concat (id : String) (parentIds : List String) :
    start.withNodes (nodes ++ [(id, parentIds)]) = (start.withNodes nodes).withNode id parentIds :=
  withNodes_append nodes _

theorem graph_withNodes : (start.withNodes nodes).graph =
    { start.graph with
      nodes := start.graph.nodes ++ nodes.map fun node => .detached node.1 (.named node.2) } := by
  induction nodes using List.reverseRecOn with
  | nil => simp [withNodes]
  | append_singleton nodes node ih =>
      rw [withNodes_concat nodes node.1 node.2]
      simp [withNode, Graph.add, ih]

theorem nodes_withNodes : (start.withNodes nodes).graph.nodes =
    start.graph.nodes ++ nodes.map fun node => .detached node.1 (.named node.2) :=
  congrArg Graph.nodes (graph_withNodes nodes)

theorem violation_withNodes : (start.withNodes nodes).violation = start.violation := by
  induction nodes using List.reverseRecOn with
  | nil => rfl
  | append_singleton nodes node ih => rwa [withNodes_concat nodes node.1 node.2]

theorem next_withNodes : (start.withNodes nodes).graph.next = start.graph.next + nodes.length := by
  simp [Graph.next, nodes_withNodes]

theorem node?_withNodes (position : Nat) :
    (start.withNodes nodes).graph.node? (start.graph.next + position) =
      nodes[position]?.map fun node => .detached node.1 (.named node.2) := by
  rw [Graph.node?, nodes_withNodes, Graph.next, List.getElem?_append_right (Nat.le_add_right _ _),
    Nat.add_sub_cancel_left, List.getElem?_map]

theorem entries_withNodes : (start.withNodes nodes).registry.entries =
    start.registry.entries ++
      (nodes.map Prod.fst).mapIdx fun position id => (start.graph.next + position, id) := by
  induction nodes using List.reverseRecOn with
  | nil => simp [withNodes]
  | append_singleton nodes node ih =>
      rw [withNodes_concat nodes node.1 node.2]
      simp [withNode, Registry.record, ih, next_withNodes]

/-- In a fresh registry the nodes stand in the order in which they were created. -/
theorem at?_withNodes (fresh : start.registry.entries = []) (position : Nat) :
    (start.withNodes nodes).registry.at? position =
      nodes[position]?.map fun _ => start.graph.next + position := by
  simp [Registry.at?, entries_withNodes, fresh, Option.map_map, Function.comp_def]

/-- A node that was created is recorded under its own id, whatever was recorded before. -/
theorem idOf?_created (position : Nat) :
    (start.withNodes nodes).registry.idOf? (start.graph.next + position) =
      (nodes.map Prod.fst)[position]?.or
        (start.registry.idOf? (start.graph.next + position)) := by
  induction nodes using List.reverseRecOn with
  | nil => simp [withNodes]
  | append_singleton nodes node ih =>
      rw [withNodes_concat nodes node.1 node.2]
      simp only [withNode, Registry.idOf?_record, next_withNodes, ih, Nat.add_left_cancel_iff]
      rw [List.map_append, List.getElem?_append, List.length_map]
      split <;> grind

/-- In a fresh registry every node is recorded under its own id, and nothing else is recorded. -/
theorem idOf?_withNodes (fresh : start.registry.entries = []) (position : Nat) :
    (start.withNodes nodes).registry.idOf? (start.graph.next + position) =
      (nodes.map Prod.fst)[position]? := by
  have none : start.registry.idOf? (start.graph.next + position) = none := by
    rw [Registry.idOf?, fresh]
    rfl
  rw [idOf?_created, none, Option.or_none]

/-- Nodes that were there before keep the ids that they are recorded under. -/
theorem idOf?_of_lt {ref : NodeRef} (old : ref < start.graph.next) :
    (start.withNodes nodes).registry.idOf? ref = start.registry.idOf? ref := by
  induction nodes using List.reverseRecOn with
  | nil => rfl
  | append_singleton nodes node ih =>
      have other : (start.withNodes nodes).graph.next ≠ ref := by
        rw [next_withNodes]
        exact Nat.ne_of_gt (Nat.lt_of_lt_of_le old (Nat.le_add_right _ _))
      rw [withNodes_concat nodes node.1 node.2, withNode, Registry.idOf?_record, if_neg other, ih]

theorem appends_withNodes : start.graph.Appends (start.withNodes nodes).graph := by
  induction nodes using List.reverseRecOn with
  | nil => exact .refl _
  | append_singleton nodes node ih =>
      rw [withNodes_concat nodes node.1 node.2]
      exact ih.trans (.add _ rfl)

end Session

theorem create_of_resolve {session : Session} {id : String} {links : Links} {ids : List String}
    (resolved : session.registry.resolve links = .ok (.named ids)) :
    create session id links = (session.withNode id ids, .ok session.graph.next) := by
  rw [create, resolved]
  rfl

end Record

end TraceStore
