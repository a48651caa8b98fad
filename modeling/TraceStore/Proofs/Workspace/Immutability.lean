import TraceStore.Proofs.Store.Retention
import TraceStore.Proofs.Workspace.Resolution

/-!
# Nodes change by attaching only

A node may be held under names, by caches, buffers and registries and by other nodes at once.
Whatever steps are taken with any of these, it stays as it was, except that a step that attaches
actions to it puts them behind those it has: `nodes_change_by_attaching`.  Steps that create nodes,
resolve their links or load them do so with nodes that were not there before.
-/

namespace TraceStore.Workspace

/-! ## Runs -/

/-- A run of steps. -/
def run (workspace : Workspace) (steps : List Step) : Workspace :=
  steps.foldl (fun workspace step => (workspace.perform step).1) workspace

/-- The actions that a step attaches to a node. -/
def attachedBy (workspace : Workspace) (ref : NodeRef) : Step → List Action
  | .onNode (.attach name actions) => if workspace.find? name = some ref then actions else []
  | _ => []

/-- The actions that a run attaches to a node, in order. -/
def attached (ref : NodeRef) (workspace : Workspace) : List Step → List Action
  | [] => []
  | step :: steps =>
      workspace.attachedBy ref step ++ attached ref (workspace.perform step).1 steps

/-! ## What steps leave of the nodes -/

/-- A step leaves every node as it was. -/
abbrev Keeps (workspace : Workspace) (result : Result) : Prop :=
  workspace.site.graph.Retains result.1.site.graph

variable {workspace : Workspace}

theorem keeps_withNode {name : String} {use : NodeRef → Result}
    (each : ∀ ref, workspace.Keeps (use ref)) : workspace.Keeps (workspace.withNode name use) := by
  rw [withNode]
  split
  · exact each _
  · exact .refl _

theorem keeps_give {after : Workspace}
    (retains : workspace.site.graph.Retains after.site.graph) (node : Option NodeRef)
    (name : Option String) : workspace.Keeps (after.give node name) := by
  cases node with
  | none => exact retains
  | some node =>
      rw [Keeps, give, site_holdAs]
      exact retains

/-- What is done with a new node is done behind all nodes that were there. -/
theorem keeps_create {id : String} {links : NewLinks} {actions : List Action}
    {use : NodeRef → Workspace → Result}
    (each : ∀ after : Workspace, workspace.site.graph.Retains after.site.graph →
      workspace.Keeps (use workspace.site.graph.next after)) :
    workspace.Keeps (workspace.create id links actions use) := by
  rw [create]
  split
  · exact .refl _
  · split
    · exact each _ (.add _ _)
    · split
      · exact each _ (.add _ _)
      · exact .refl _

theorem keeps_performNode (step : NodeStep)
    (notAttach : ∀ name actions, step ≠ .attach name actions) :
    workspace.Keeps (workspace.performNode step) := by
  cases step with
  | startExecution name => exact .of_nodes_eq rfl
  | dropExecution => exact .of_nodes_eq rfl
  | create name id links actions =>
      exact keeps_create fun after retains => keeps_give retains _ _
  | attach name actions => exact absurd rfl (notAttach name actions)
  | inspect name => exact keeps_withNode fun ref => .refl _
  | drop name => exact .refl _
  | display name => exact keeps_withNode fun ref => .refl _
  | encode name actions =>
      refine keeps_withNode fun ref => ?_
      dsimp only
      split <;> exact .refl _
  | tell failure => exact .refl _

theorem keeps_settleFiles (result : Except FileFault Unit × FileTree) :
    workspace.Keeps (workspace.settleFiles result) := by
  rw [settleFiles]
  split <;> exact .refl _

theorem keeps_performFile (step : FileStep) : workspace.Keeps (workspace.performFile step) := by
  cases step with
  | write path content =>
      simp only [performFile]
      split <;> exact keeps_settleFiles _
  | read path =>
      simp only [performFile]
      split <;> exact .refl _
  | remove path => exact keeps_settleFiles _
  | makeDirectories path => exact keeps_settleFiles _
  | list => exact .refl _
  | replace path content atomic => exact keeps_settleFiles _

/-- Resolving changes its own node only. -/
theorem keeps_resolve {after : Workspace} {ref : NodeRef}
    (retains : workspace.site.graph.Retains after.site.graph)
    (new : workspace.site.graph.next ≤ ref) (name : Option String) :
    workspace.Keeps (after.resolve ref name) := by
  cases resolved : after.registry.resolve (after.site.graph.node ref).links with
  | ok links =>
      rw [Keeps, (resolve_of_ok resolved name).2]
      exact retains.update new _
  | error position =>
      rw [Keeps, (resolve_of_error resolved name).2]
      exact retains

theorem keeps_performRegistry (step : RegistryStep) :
    workspace.Keeps (workspace.performRegistry step) := by
  cases step with
  | record name id => exact keeps_withNode fun ref => .refl _
  | size => exact .refl _
  | idOf name => exact keeps_withNode fun ref => .refl _
  | nodeAt position => exact keeps_give (.refl _) _ _
  | resolve id links name =>
      exact keeps_create fun after retains => keeps_resolve retains (Nat.le_refl _) name
  | decode document name =>
      let start : Record.Session := ⟨workspace.site.graph, workspace.registry, none⟩
      have retains : start.graph.Retains (Record.decode start document).1.graph := by
        obtain ⟨nodes, created⟩ := Record.exists_withNodes_decode start document
        rw [created]
        exact (Record.Session.appends_withNodes nodes).retains
      simp only [performRegistry]
      split
      · exact retains
      · split
        · exact retains
        · rw [Keeps, site_holdAs]
          exact retains

theorem keeps_performDeferred (step : DeferredStep) :
    workspace.Keeps (workspace.performDeferred step) := by
  cases step with
  | defer name => exact keeps_withNode fun ref => .refl _
  | replace name => exact keeps_withNode fun ref => .refl _
  | get id => exact keeps_give (.refl _) _ _
  | contains id => exact .refl _
  | exempt id => exact .refl _
  | release id => exact .refl _
  | remove id name =>
      exact @keeps_give workspace { workspace with deferred := workspace.deferred.remove id }
        (.refl _) _ _
  | clear => exact .refl _
  | pending => exact .refl _

/-! ## The cache -/

/-- A load ends with a node that was there, with a new one, or with none. -/
theorem retains_endLoad (ending : LoadEnd) :
    workspace.site.graph.Retains (workspace.endLoad ending).1.site.graph := by
  cases ending with
  | fails failure => exact .refl _
  | gives name =>
      rw [endLoad]
      split <;> exact .refl _
  | makes id parentIds =>
      rw [endLoad]
      split
      · exact .refl _
      · exact .add _ _

theorem keeps_finishLoad {after : Workspace}
    (retains : workspace.site.graph.Retains after.site.graph) (id : String)
    (inner : List (Answer × Cache)) (ending : LoadEnd) (name : Option String) :
    workspace.Keeps (after.finishLoad id inner ending name) := by
  have ended := retains.trans (retains_endLoad ending)
  rw [finishLoad]
  split
  · next last node found =>
      rw [found] at ended
      rw [Keeps, site_holdAs]
      exact ended
  · next last failure found =>
      rw [found] at ended
      split <;> exact ended

theorem graph_serveCallers (node : NodeRef) (id : String) (callers : Nat) (workspace : Workspace) :
    (serveCallers node id callers workspace).1.site.graph = workspace.site.graph := by
  induction callers generalizing workspace with
  | zero => rfl
  | succ callers ih =>
      rw [serveCallers]
      split
      · exact ih _
      · exact ih _

mutual

theorem keeps_performCache (step : CacheStep) (workspace : Workspace) :
    workspace.Keeps (performCache step workspace) := by
  cases step with
  | insert name =>
      rw [performCache]
      exact keeps_withNode fun ref => .refl _
  | peek id name =>
      rw [performCache]
      exact keeps_give (.refl _) _ _
  | reclaim => rw [performCache]
  | size => rw [performCache]
  | get id inner ending name =>
      rw [performCache]
      split
      · rw [Keeps, site_holdAs]
      · next cache _ =>
          exact keeps_finishLoad (retains_performInner inner { workspace with cache }) _ _ _ _
  | getShared id newId parentIds callers =>
      have made := @retains_endLoad workspace (.makes newId parentIds)
      rw [performCache]
      split
      · next found =>
          rw [found] at made
          exact made
      · next after node found =>
          rw [found] at made
          rw [Keeps, graph_serveCallers]
          exact made
  | refuse reason =>
      rw [performCache]
      exact .refl _

/-- The steps of a load are steps on the cache. -/
theorem retains_performInner (steps : List CacheStep) (workspace : Workspace) :
    workspace.site.graph.Retains (performInner steps workspace).1.site.graph := by
  cases steps with
  | nil =>
      rw [performInner]
  | cons step others =>
      rw [performInner]
      exact (keeps_performCache step workspace).trans (retains_performInner others _)

end

/-! ## The repository and the store -/

theorem keeps_settle {after : Workspace}
    (retains : workspace.site.graph.Retains after.site.graph) (result : Except StoreError Unit) :
    workspace.Keeps (after.settle result) := by
  cases result <;> exact retains

theorem keeps_performRepository (step : RepositoryStep) :
    workspace.Keeps (workspace.performRepository step) := by
  cases step with
  | place => exact .refl _
  | path id =>
      simp only [performRepository]
      split <;> exact .refl _
  | holds id =>
      simp only [performRepository]
      split <;> exact .refl _
  | write name actions =>
      exact keeps_withNode fun ref => keeps_settle (.of_eq (Repository.graph_write _ _ _ _)) _
  | read id name display =>
      have loads := (Repository.read_loads workspace.repository workspace.site id
        workspace.execution).retains
      simp only [performRepository]
      split
      · next read =>
          rw [read] at loads
          exact loads
      · next read =>
          rw [read] at loads
          rw [Keeps, site_holdAs]
          exact loads

theorem keeps_changeStore (name : String) {change : Store → Site → NodeRef → Store.Outcome Unit}
    (same : ∀ store site node, (change store site node).2.2.graph = site.graph) :
    workspace.Keeps (workspace.changeStore name change) :=
  keeps_withNode fun ref => keeps_settle (.of_eq (same _ workspace.surroundings ref)) _

theorem retains_get (workspace : Workspace) (id : String) : workspace.site.graph.Retains
    (workspace.store.get workspace.surroundings id).2.2.graph := by
  obtain ⟨loaded, loads, -⟩ := Store.get_loads workspace.store workspace.surroundings id
  exact loads.retains

theorem retains_lookUpShared (id : String) (callers : Nat) (workspace : Workspace) :
    workspace.site.graph.Retains (lookUpShared id callers workspace).1.site.graph := by
  induction callers generalizing workspace with
  | zero => exact .refl _
  | succ callers ih =>
      rw [lookUpShared]
      have later := (retains_get workspace id).trans (ih (workspace.withStore
        (workspace.store.get workspace.surroundings id).2.1
        (workspace.store.get workspace.surroundings id).2.2))
      dsimp only
      split <;> exact later

theorem keeps_performStore (step : StoreStep) : workspace.Keeps (workspace.performStore step) := by
  cases step with
  | reopen capacity direct =>
      simp only [performStore]
      split <;> exact .refl _
  | put name later =>
      exact keeps_changeStore name fun store site node =>
        Scene.graph_perform ⟨store, site⟩ (.put node later) rfl
  | get id name =>
      have retains := retains_get workspace id
      simp only [performStore]
      split
      · exact keeps_give retains _ _
      · exact retains
  | getShared id callers =>
      have retains := retains_lookUpShared id callers workspace
      simp only [performStore]
      split
      · next shared =>
          rw [shared] at retains
          exact retains
      · next shared =>
          rw [shared] at retains
          exact retains
  | autopersist name =>
      exact keeps_changeStore name fun store site node =>
        Scene.graph_perform ⟨store, site⟩ (.autopersist node) rfl
  | flushNode name =>
      exact keeps_changeStore name fun store site node =>
        Scene.graph_perform ⟨store, site⟩ (.flushNode node) rfl
  | flush =>
      have same := Scene.graph_perform ⟨workspace.store, workspace.surroundings⟩ .flush rfl
      exact keeps_settle (.of_eq same) _
  | save name actions =>
      exact keeps_changeStore name fun store site node =>
        Scene.graph_perform ⟨store, site⟩ (.saveActions node actions) rfl
  | load name =>
      refine keeps_withNode fun ref => ?_
      obtain ⟨loaded, loads⟩ := Store.loadActions_loads workspace.store workspace.surroundings ref
      dsimp only
      split <;> exact loads.retains
  | isPersisted => exact .refl _
  | exempt id => exact .refl _
  | path id =>
      simp only [performStore]
      split <;> exact .refl _
  | directory => exact .refl _
  | reclaim => exact .refl _
  | peek id name => exact keeps_give (.refl _) _ _

/-! ## All steps -/

theorem keeps_perform {step : Step}
    (notAttach : ∀ name actions, step ≠ .onNode (.attach name actions)) :
    workspace.Keeps (workspace.perform step) := by
  let start : Workspace := { workspace with site.events := [] }
  show start.Keeps (workspace.perform step)
  cases step with
  | onNode step =>
      exact keeps_performNode step fun name actions same => notAttach name actions (same ▸ rfl)
  | onFile step => exact keeps_performFile step
  | onRegistry step => exact keeps_performRegistry step
  | onDeferred step => exact keeps_performDeferred step
  | onCache step => exact keeps_performCache step start
  | onRepository step => exact keeps_performRepository step
  | onStore step => exact keeps_performStore step

/-- A node with further actions behind those it has. -/
def extended (node : Node) (actions : List Action) : Node :=
  { node with actions := node.actions ++ actions }

theorem extended_nil (node : Node) : extended node [] = node := by
  rw [extended, List.append_nil]

theorem extended_append (node : Node) (actions others : List Action) :
    extended node (actions ++ others) = extended (extended node actions) others := by
  rw [extended, extended, extended, List.append_assoc]

theorem attachedBy_eq_nil {step : Step}
    (notAttach : ∀ name actions, step ≠ .onNode (.attach name actions)) (ref : NodeRef) :
    workspace.attachedBy ref step = [] := by
  rw [attachedBy]
  exact notAttach

/-- Attaching changes the node that is held under the name, by putting actions behind. -/
theorem node_attach (workspace : Workspace) (name : String) (actions : List Action)
    {ref : NodeRef} (old : ref < workspace.site.graph.next) :
    let after := (workspace.performNode (.attach name actions)).1
    workspace.site.graph.next = after.site.graph.next ∧
      after.site.graph.node ref =
        extended (workspace.site.graph.node ref)
          (workspace.attachedBy ref (.onNode (.attach name actions))) := by
  simp only [performNode, withNode, attachedBy]
  cases workspace.find? name with
  | none => exact ⟨rfl, (extended_nil _).symm⟩
  | some node =>
      refine ⟨(Graph.next_update _ _ _).symm, ?_⟩
      by_cases same : node = ref
      · subst same
        rw [Graph.node_update _ node node _ old, if_pos rfl, if_pos rfl]
        rfl
      · rw [if_neg fun found => same (Option.some.inj found), extended_nil]
        exact Graph.node_update_other _ same _

/-- What a step does to a node that was there: nothing, unless it attaches actions to it. -/
theorem node_perform (workspace : Workspace) (step : Step) {ref : NodeRef}
    (old : ref < workspace.site.graph.next) :
    ref < (workspace.perform step).1.site.graph.next ∧
      (workspace.perform step).1.site.graph.node ref =
        extended (workspace.site.graph.node ref) (workspace.attachedBy ref step) := by
  by_cases attaching : ∃ name actions, step = .onNode (.attach name actions)
  · obtain ⟨name, actions, rfl⟩ := attaching
    obtain ⟨next_eq, node_eq⟩ :=
      node_attach { workspace with site.events := [] } name actions old
    exact ⟨Nat.lt_of_lt_of_eq old next_eq, node_eq⟩
  · have notAttach : ∀ name actions, step ≠ .onNode (.attach name actions) :=
      fun name actions same => attaching ⟨name, actions, same⟩
    have keeps := @keeps_perform workspace step notAttach
    refine ⟨Nat.lt_of_lt_of_le old keeps.next_le, ?_⟩
    rw [keeps.node_eq ref old, attachedBy_eq_nil notAttach, extended_nil]

/-- After a run every node that was there has, behind its own actions, those that the run attached
to it, and is otherwise the same. -/
theorem node_run (workspace : Workspace) (steps : List Step) {ref : NodeRef}
    (old : ref < workspace.site.graph.next) :
    (workspace.run steps).site.graph.node ref =
      extended (workspace.site.graph.node ref) (attached ref workspace steps) := by
  induction steps generalizing workspace with
  | nil => exact (extended_nil _).symm
  | cons step steps ih =>
      obtain ⟨there, node⟩ := node_perform workspace step old
      rw [attached, extended_append, ← node]
      exact ih (workspace.perform step).1 there

/-- Whatever is done with stores, repositories, caches, buffers and registries, a node that is
there keeps its id, its links, its execution and its actions; a run only puts the actions behind
that it attaches to the node, in order.  A load wakes actions on no other node than one that it has
made itself, however the record is read: the other nodes that it makes have neither actions nor an
execution. -/
theorem nodes_change_by_attaching :
    (∀ (workspace : Workspace) (steps : List Step), ∀ ref < workspace.site.graph.next,
      (workspace.run steps).site.graph.node ref =
        extended (workspace.site.graph.node ref) (attached ref workspace steps)) ∧
    (∀ (repository : Repository) (site : Site) (id : String) (execution : ExecutionRef),
      Graph.Loads site.graph (repository.read site id execution).2.graph
        ((repository.read site id execution).1.toOption.map Loaded.node)) ∧
    (∀ (store : Store) (site : Site) (id : String), ∃ loaded,
      Graph.Loads site.graph (store.get site id).2.2.graph loaded ∧
        ∀ ref ∈ loaded, (store.get site id).1 = .ok (some ref)) ∧
    ∀ (store : Store) (site : Site) (node : NodeRef), ∃ loaded,
      Graph.Loads site.graph (store.loadActions site node).2.2.graph loaded :=
  ⟨fun workspace steps _ old => node_run workspace steps old, Repository.read_loads,
    Store.get_loads, Store.loadActions_loads⟩

end TraceStore.Workspace
