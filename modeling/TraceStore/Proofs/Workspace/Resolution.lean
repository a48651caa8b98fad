import TraceStore.Proofs.Graph.Waking
import TraceStore.Proofs.Registry
import TraceStore.Workspace.Perform

/-!
# Resolving the links of a node

A node is resolved in place, by what the registry of its workspace knows of the nodes that it
holds.  Either all of its links become ids, or nothing changes and the first node that was never
recorded is told.
-/

namespace TraceStore

/-- An answer that shows a node. -/
def Answer.ShowsNode (answer : Answer) : Prop := ∃ view, answer = .node (some view)

namespace Workspace

open Registry (FirstUnrecorded Resolves ofRecords)

variable {workspace : Workspace} {records : List (NodeRef × String)} {ref : NodeRef}

/-- A name for a node changes nothing but names. -/
theorem site_holdAs (workspace : Workspace) (name : Option String) (ref : NodeRef) :
    (workspace.holdAs name ref).site = workspace.site := by
  cases name <;> rfl

/-- Resolving replaces the links of the node and shows it. -/
theorem resolve_of_ok {links : Links}
    (resolved : workspace.registry.resolve (workspace.site.graph.node ref).links = .ok links)
    (name : Option String) :
    (workspace.resolve ref name).2.ShowsNode ∧
      (workspace.resolve ref name).1.site.graph =
        workspace.site.graph.update ref fun node => { node with links } := by
  rw [resolve, resolved]
  simp only [give, site_holdAs, and_true]
  exact ⟨_, rfl⟩

/-- Links that cannot be resolved are told, and the graph stays as it was. -/
theorem resolve_of_error {position : Nat}
    (stopped : workspace.registry.resolve (workspace.site.graph.node ref).links = .error position)
    (name : Option String) :
    (∃ view, (workspace.resolve ref name).2 =
        .unresolved (.unresolvedParent (workspace.site.graph.node ref).id position) view) ∧
      (workspace.resolve ref name).1.site.graph = workspace.site.graph := by
  rw [resolve, stopped]
  simp only [site_holdAs, Site.report, and_true]
  exact ⟨_, rfl⟩

theorem resolve_cases (recorded : workspace.registry = ofRecords records) (ref : NodeRef)
    (name : Option String) :
    (∃ links, Resolves records (workspace.site.graph.node ref).links links ∧
      (workspace.resolve ref name).2.ShowsNode ∧
      (workspace.resolve ref name).1.site.graph =
        workspace.site.graph.update ref fun node => { node with links }) ∨
    ∃ position, FirstUnrecorded records (workspace.site.graph.node ref).links.keeps position ∧
      (∃ view, (workspace.resolve ref name).2 =
        .unresolved (.unresolvedParent (workspace.site.graph.node ref).id position) view) ∧
      (¬ ∃ links, Resolves records (workspace.site.graph.node ref).links links) ∧
      (workspace.resolve ref name).1.site.graph = workspace.site.graph := by
  cases result : workspace.registry.resolve (workspace.site.graph.node ref).links with
  | ok links =>
      obtain ⟨shown, graph⟩ := resolve_of_ok result name
      rw [recorded] at result
      exact .inl ⟨links, Registry.resolve_ofRecords_eq_ok.mp result, shown, graph⟩
  | error position =>
      obtain ⟨told, graph⟩ := resolve_of_error result name
      rw [recorded] at result
      refine .inr ⟨position, (Registry.resolve_ofRecords_eq_error result).2, told, ?_, graph⟩
      rintro ⟨links, resolves⟩
      rw [Registry.resolve_ofRecords_eq_ok.mpr resolves] at result
      cases result

/-- Links that are ids are resolved by every registry, and stay as they are. -/
theorem resolve_of_named {ids : List String}
    (named : (workspace.site.graph.node ref).links = .named ids) (name : Option String) :
    (workspace.resolve ref name).2.ShowsNode ∧
      (workspace.resolve ref name).1.site.graph = workspace.site.graph := by
  have resolved : workspace.registry.resolve (workspace.site.graph.node ref).links =
      .ok (.named ids) := by
    rw [named]
    rfl
  obtain ⟨shown, graph⟩ := resolve_of_ok resolved name
  have same : workspace.site.graph.update ref (fun node => { node with links := .named ids }) =
      workspace.site.graph.update ref id := by
    apply Graph.update_congr
    rw [← named]
    rfl
  exact ⟨shown, graph.trans (same.trans (Graph.update_id _ _))⟩

/-- Resolving succeeds if the links are ids already, or if every node that they hold was recorded.
Then each link is the id of the last record of its node, nothing else has changed, and whatever
registry comes next has nothing left to do.  Otherwise the first node that was not recorded is told,
and nothing has changed at all. -/
theorem resolve_is_exact (recorded : workspace.registry = ofRecords records)
    (there : ref < workspace.site.graph.next) (name : Option String) :
    let before := workspace.site.graph
    let after := (workspace.resolve ref name).1
    let answer := (workspace.resolve ref name).2
    (answer.ShowsNode ↔ (before.node ref).links.areHeld = false ∨
      ∀ parent ∈ (before.node ref).links.keeps, ∃ id, (parent, id) ∈ records) ∧
    (answer.ShowsNode →
      (∃ links, Resolves records (before.node ref).links links ∧
        after.site.graph.node ref = { before.node ref with links }) ∧
      (∀ other ≠ ref, after.site.graph.node other = before.node other) ∧
      ∀ registry again, ({ after with registry }.resolve ref again).2.ShowsNode ∧
        ({ after with registry }.resolve ref again).1.site.graph = after.site.graph) ∧
    (¬ answer.ShowsNode → after.site.graph = before ∧
      ∃ position view, FirstUnrecorded records (before.node ref).links.keeps position ∧
        answer = .unresolved (.unresolvedParent (before.node ref).id position) view) := by
  intro before after answer
  rw [← Registry.exists_resolves_iff]
  obtain ⟨links, resolves, shown, graph⟩ | ⟨position, first, ⟨view, told⟩, none, graph⟩ :=
    resolve_cases recorded ref name
  · have node : after.site.graph.node ref = { before.node ref with links } := by
      rw [graph, Graph.node_update before ref ref _ there, if_pos rfl]
    refine ⟨iff_of_true shown ⟨links, resolves⟩, ?_, fun not => absurd shown not⟩
    intro _
    refine ⟨⟨links, resolves, node⟩, ?_, ?_⟩
    · intro other apart
      rw [graph, Graph.node_update before ref other _ there, if_neg (Ne.symm apart)]
    · intro registry again
      obtain ⟨ids, rfl⟩ := resolves.eq_named
      have named : ({ after with registry }.site.graph.node ref).links = .named ids :=
        congrArg Node.links node
      exact resolve_of_named named again
  · have notShown : ¬ answer.ShowsNode := by
      rintro ⟨_, shown⟩
      exact absurd (told.symm.trans shown) nofun
    exact ⟨iff_of_false notShown none, fun shown => absurd shown notShown,
      fun _ => ⟨graph, position, view, first, told⟩⟩

/-- One node was recorded under two ids, and of two nodes that look alike only one was recorded. -/
def lookingAlike : Workspace :=
  { Workspace.opened {} [] "workflow" "job #1" none false with
    site.graph := ⟨[.detached "p" (.named []), .detached "q" (.named []), .detached "p" (.named []),
      .detached "c" (.held [1, 0, 1]), .detached "d" (.held [0, 2])], []⟩
    registry := ofRecords [(0, "p"), (1, "q"), (1, "r")] }

theorem resolve_among_lookingAlike :
    (lookingAlike.resolve 3 none).2.ShowsNode ∧
      (lookingAlike.resolve 3 none).1.site.graph.node 3 = .detached "c" (.named ["r", "p", "r"]) ∧
      ¬ (lookingAlike.resolve 4 none).2.ShowsNode := by
  have decided (ref : NodeRef) (there : ref < 5) :=
    (@resolve_is_exact lookingAlike _ _ rfl there none).1
  refine ⟨(decided 3 (by decide)).mpr (.inr ?_), rfl, ?_⟩
  · intro parent (member : parent ∈ [1, 0, 1])
    obtain rfl | rfl | rfl : parent = 1 ∨ parent = 0 ∨ parent = 1 := by simpa using member
    · exact ⟨"r", by simp⟩
    · exact ⟨"p", by simp⟩
    · exact ⟨"r", by simp⟩
  · intro shown
    obtain named | recorded := (decided 4 (by decide)).mp shown
    · cases named
    · obtain ⟨id, listed⟩ := recorded 2 (show 2 ∈ [0, 2] by decide)
      simp at listed

end Workspace

end TraceStore
