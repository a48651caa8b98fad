import TraceStore.Display
import TraceStore.Workspace.Step

/-!
# Performing steps

`Workspace.perform` does one step and gives its answer.  Every answer shows nodes as they were
before the step's own name for them took effect.  The reports in the workspace afterwards are those
of the step.
-/

namespace TraceStore.Workspace

/-- What a step leaves. -/
abbrev Result := Workspace × Answer

/-- A step that is refused changes nothing. -/
def refuse (workspace : Workspace) (reason : String) : Result :=
  (workspace, .failed (.refused reason))

/-- Uses the node held under a name. -/
def withNode (workspace : Workspace) (name : String) (use : NodeRef → Result) : Result :=
  match workspace.find? name with
  | some node => use node
  | none => workspace.refuse ("no handle " ++ name)

/-- Answers with a node that may be absent, and then holds it if a name is given. -/
def give (workspace : Workspace) (node : Option NodeRef) (name : Option String) : Result :=
  match node with
  | none => (workspace, .node none)
  | some node => (workspace.holdAs name node, .node (some (workspace.view node)))

/-- The answer of an operation of the store without a result of its own. -/
def settle (workspace : Workspace) : Except StoreError Unit → Result
  | .ok () => (workspace, .done)
  | .error failure => (workspace, .failed (.store failure))

/-! ## Nodes -/

/-- The nodes held under given names, or the first name that holds none. -/
def findAll (workspace : Workspace) : List String → Except String (List NodeRef)
  | [] => .ok []
  | name :: others =>
      match workspace.find? name with
      | none => .error name
      | some node => (workspace.findAll others).map (node :: ·)

/-- Creates a node for the running execution. -/
def create (workspace : Workspace) (id : String) (links : NewLinks) (actions : List Action)
    (use : NodeRef → Workspace → Result) : Result :=
  if (workspace.site.graph.running? workspace.execution).isNone then
    workspace.refuse "no execution"
  else
    let graph := workspace.site.graph
    let add (links : Links) :=
      use graph.next
        { workspace with
          site.graph := graph.add ⟨id, links, actions, some workspace.execution⟩ }
    match links with
    | .ids ids => add (.named ids)
    | .names names =>
        match workspace.findAll names with
        | .ok parents => add (.held parents)
        | .error name => workspace.refuse ("no handle " ++ name)

/-- Ends the execution and starts another one. -/
def startExecution (workspace : Workspace) (name : String) : Workspace :=
  let graph := workspace.site.graph.stop workspace.execution
  { workspace with site.graph := graph.start name, execution := graph.executions.length }

/-- Does a step on executions and nodes. -/
def performNode (workspace : Workspace) : NodeStep → Result
  | .startExecution name => (workspace.startExecution name, .done)
  | .dropExecution =>
      ({ workspace with
          site.graph := workspace.site.graph.stop workspace.execution }, .done)
  | .create name id links actions =>
      workspace.create id links actions fun node workspace =>
        workspace.give (some node) (some name)
  | .attach name actions =>
      workspace.withNode name fun node =>
        let graph := workspace.site.graph.update node fun node =>
          { node with actions := node.actions ++ actions }
        ({ workspace with site.graph := graph }, .count (graph.node node).actions.length)
  | .inspect name =>
      workspace.withNode name fun node => (workspace, .node (some (workspace.view node)))
  | .drop name => (workspace.drop name, .flag (workspace.find? name).isSome)
  | .display name =>
      workspace.withNode name fun ref =>
        let graph := workspace.site.graph
        let node := graph.node ref
        (workspace, .displays (graph.displayNode node) (graph.displayLinks node.links))
  | .encode name actions =>
      workspace.withNode name fun ref =>
        let graph := workspace.site.graph
        let node := graph.node ref
        let written :=
          Record.encode node.id (graph.parentIds node.links) (actions.getD node.actions)
        match written with
        | .ok bytes => (workspace, .bytes bytes)
        | .error fault => (workspace, .failed (.record fault.message))
  | .tell failure => (workspace, .told failure.message failure.isNotFound)

/-! ## Files -/

/-- The answer of a file operation without a result of its own. -/
def settleFiles (workspace : Workspace) (result : Except FileFault Unit × FileTree) : Result :=
  let workspace := { workspace with site.files := result.2 }
  match result.1 with
  | .ok () => (workspace, .done)
  | .error fault => (workspace, .failed (.file fault))

/-- Does a step on files. -/
def performFile (workspace : Workspace) (step : FileStep) : Result :=
  let files := workspace.site.files
  let working := workspace.site.working
  match step with
  | .write path content =>
      match files.ensureDirectories working (FileTree.homeOf path) with
      | (.error fault, files) => workspace.settleFiles (.error fault, files)
      | (.ok (), files) => workspace.settleFiles (files.overwrite working path content)
  | .read path =>
      match files.read working path with
      | .ok content => (workspace, .bytes content)
      | .error fault => (workspace, .failed (.file fault))
  | .remove path => workspace.settleFiles (files.removeFile working path)
  | .makeDirectories path => workspace.settleFiles (files.ensureDirectories working path)
  | .list => (workspace, .texts (files.listing working))
  | .replace path content atomic =>
      workspace.settleFiles (files.replace working path content atomic)

/-! ## The registry -/

/-- The report of a predecessor that is not recorded. -/
def sawUnresolved (node : String) (position : Nat) (parent : String) : Event :=
  ⟨.error, .resolver, "Parent reference was not decoded from this record",
    [("node", .text node), ("position", .count position), ("parent", .text parent)]⟩

/-- Replaces the held predecessors of a node by their recorded ids. -/
def resolve (workspace : Workspace) (ref : NodeRef) (name : Option String) : Result :=
  let graph := workspace.site.graph
  let node := graph.node ref
  match workspace.registry.resolve node.links with
  | .ok links =>
      let graph := graph.update ref fun node => { node with links }
      { workspace with site.graph := graph }.give (some ref) name
  | .error position =>
      let parent := (graph.parentIds node.links)[position]?.getD ""
      let reported :=
        { workspace with site := workspace.site.report (sawUnresolved node.id position parent) }
      (reported.holdAs name ref,
        .unresolved (.unresolvedParent node.id position) (workspace.view ref))

/-- Does a step on the registry. -/
def performRegistry (workspace : Workspace) : RegistryStep → Result
  | .record name id =>
      workspace.withNode name fun node =>
        let id := id.getD (workspace.site.graph.node node).id
        let registry := workspace.registry.record node id
        ({ workspace with registry }, .size registry.size)
  | .size => (workspace, .size workspace.registry.size)
  | .idOf name =>
      workspace.withNode name fun node =>
        (workspace, .textOrNone (workspace.registry.idOf? node))
  | .nodeAt position => workspace.give (workspace.registry.at? position) none
  | .resolve id links name =>
      workspace.create id links [] fun node workspace => workspace.resolve node name
  | .decode document name =>
      let (session, result) :=
        Record.decode ⟨workspace.site.graph, workspace.registry, none⟩ document
      let workspace :=
        { workspace with site.graph := session.graph, registry := session.registry }
      match result with
      | .error fault => (workspace, .undecoded (fault.message document) session.registry.size)
      | .ok record =>
          let answer :=
            Answer.decoded (record.node.map workspace.view) record.actions session.registry.size
          match record.node with
          | none => (workspace, answer)
          | some node => (workspace.holdAs name node, answer)

/-! ## The buffer -/

/-- Does a step on the buffer. -/
def performDeferred (workspace : Workspace) (step : DeferredStep) : Result :=
  let buffer := workspace.deferred
  let idOf (node : NodeRef) := (workspace.site.graph.node node).id
  match step with
  | .defer name =>
      workspace.withNode name fun node =>
        ({ workspace with deferred := buffer.defer (idOf node) node }, .done)
  | .replace name =>
      workspace.withNode name fun node =>
        ({ workspace with deferred := buffer.replace (idOf node) node }, .done)
  | .get id => workspace.give (buffer.get? id) none
  | .contains id => (workspace, .flag (buffer.contains id))
  | .exempt id => (workspace, .flag (buffer.isExempt id))
  | .release id =>
      ({ workspace with deferred := buffer.release id }, .flag (buffer.isExempt id))
  | .remove id name => { workspace with deferred := buffer.remove id }.give (buffer.get? id) name
  | .clear => ({ workspace with deferred := buffer.clear }, .done)
  | .pending => (workspace, .nodes (buffer.nodes.map workspace.view))

/-! ## The cache -/

/-- Puts a changed cache and its reports into the workspace. -/
def withCache (workspace : Workspace) (cache : Cache) (events : List Event) : Workspace :=
  { workspace with cache, site := workspace.site.reportAll events }

/-- The node that a load ends with.  Loads make nodes for the running execution. -/
def endLoad (workspace : Workspace) : LoadEnd → Workspace × Except StepFailure NodeRef
  | .fails failure => (workspace, .error (.store failure))
  | .gives name =>
      match workspace.find? name with
      | some node => (workspace, .ok node)
      | none => (workspace, .error (.refused ("no handle " ++ name)))
  | .makes id parentIds =>
      if (workspace.site.graph.running? workspace.execution).isNone then
        (workspace, .error (.refused "no execution"))
      else
        let graph := workspace.site.graph
        let node : Node := ⟨id, .named parentIds, [], some workspace.execution⟩
        ({ workspace with site.graph := graph.add node }, .ok graph.next)

/-- Ends the load of an id whose inner steps are done. -/
def finishLoad (workspace : Workspace) (id : String) (inner : List (Answer × Cache))
    (ending : LoadEnd) (name : Option String) : Result :=
  match workspace.endLoad ending with
  | (workspace, .ok node) =>
      let (cache, events) := workspace.cache.publish workspace.site.graph
        workspace.heldOutsideCache id node
      let workspace := workspace.withCache cache events
      (workspace.holdAs name node, .fetched true inner (.ok (workspace.view node)))
  | (workspace, .error failure) =>
      let workspace := { workspace with cache := workspace.cache.abandon id }
      match failure with
      | .store failure => (workspace, .fetched true inner (.error failure))
      | other => (workspace, .failed other)

/-- The callers of a node one after the other, each answered with the node or not at all; `load`
makes the node for the one that finds none. -/
def serveCallers (node : NodeRef) (id : String) : (callers : Nat) → Workspace →
    Workspace × List NodeRef × Nat
  | 0, workspace => (workspace, [], 0)
  | callers + 1, workspace =>
      match workspace.cache.request id with
      | (some found, cache) =>
          let (workspace, given, loads) :=
            serveCallers node id callers { workspace with cache }
          (workspace, found :: given, loads)
      | (none, cache) =>
          let (cache, events) :=
            cache.publish workspace.site.graph (node :: workspace.heldOutsideCache) id node
          let (workspace, given, loads) :=
            serveCallers node id callers (workspace.withCache cache events)
          (workspace, node :: given, loads + 1)

/-- Whether all nodes of a list are one. -/
def areOne (nodes : List NodeRef) : Bool :=
  match nodes with
  | [] => true
  | node :: others => others.all (· = node)

mutual

/-- Does a step on the cache. -/
def performCache : CacheStep → Workspace → Result
  | .insert name, workspace =>
      workspace.withNode name fun node =>
        let (cache, events) :=
          workspace.cache.insert workspace.site.graph workspace.heldOutsideCache node
        (workspace.withCache cache events, .done)
  | .peek id name, workspace => workspace.give (workspace.cache.peek id) name
  | .reclaim, workspace =>
      let (dropped, cache) :=
        workspace.cache.reclaim workspace.site.graph workspace.heldOutsideCache none
      ({ workspace with cache }, .count dropped)
  | .size, workspace => (workspace, .size workspace.cache.size)
  | .get id inner ending name, workspace =>
      match workspace.cache.request id with
      | (some node, cache) =>
          let workspace := { workspace with cache }
          (workspace.holdAs name node, .fetched false [] (.ok (workspace.view node)))
      | (none, cache) =>
          let (workspace, answers) := performInner inner { workspace with cache }
          workspace.finishLoad id answers ending name
  | .getShared id newId parentIds callers, workspace =>
      match workspace.endLoad (.makes newId parentIds) with
      | (workspace, .error failure) => (workspace, .failed failure)
      | (workspace, .ok node) =>
          let (workspace, given, loads) := serveCallers node id callers workspace
          (workspace, .shared (given.head?.map workspace.view) (areOne given) (some loads))
  | .refuse reason, workspace => workspace.refuse reason

/-- Does steps on the cache in order, each with the cache that it leaves. -/
def performInner : List CacheStep → Workspace → Workspace × List (Answer × Cache)
  | [], workspace => (workspace, [])
  | step :: others, workspace =>
      let (workspace, answer) := performCache step workspace
      let (last, answers) := performInner others workspace
      (last, (answer, workspace.cache) :: answers)

end

/-! ## The repository -/

/-- Does a step on the repository. -/
def performRepository (workspace : Workspace) (step : RepositoryStep) : Result :=
  let repository := workspace.repository
  match step with
  | .place => (workspace, .place repository.directory repository.atomic)
  | .path id =>
      match repository.path id with
      | .ok path => (workspace, .text path)
      | .error failure => (workspace, .failed (.store failure))
  | .holds id =>
      match repository.holds workspace.site id with
      | .ok held => (workspace, .flag held)
      | .error failure => (workspace, .failed (.store failure))
  | .write name actions =>
      workspace.withNode name fun node =>
        let (result, site) := repository.write workspace.site node actions
        { workspace with site }.settle result
  | .read id name display =>
      match repository.read workspace.site id workspace.execution with
      | (.error failure, site) => ({ workspace with site }, .failed (.store failure))
      | (.ok loaded, site) =>
          let workspace := { workspace with site }
          let shown := if display then some (loaded.display site.graph) else none
          (workspace.holdAs name loaded.node,
            .loaded (workspace.view loaded.node) loaded.actions shown)

/-! ## The store -/

/-- Puts what a store operation leaves into the workspace. -/
def withStore (workspace : Workspace) (store : Store) (site : Site) : Workspace :=
  { workspace with store, site }

/-- Does a store operation on a named node that has no result of its own. -/
def changeStore (workspace : Workspace) (name : String)
    (change : Store → Site → NodeRef → Store.Outcome Unit) : Result :=
  workspace.withNode name fun node =>
    let (result, store, site) := change workspace.store workspace.surroundings node
    (workspace.withStore store site).settle result

/-- The callers of a node of the store one after the other, up to the first failure. -/
def lookUpShared (id : String) : (callers : Nat) → Workspace →
    Workspace × Except StoreError (List (Option NodeRef))
  | 0, workspace => (workspace, .ok [])
  | callers + 1, workspace =>
      let (result, store, site) := workspace.store.get workspace.surroundings id
      let (workspace, others) := lookUpShared id callers (workspace.withStore store site)
      match result with
      | .error failure => (workspace, .error failure)
      | .ok node => (workspace, others.map (node :: ·))

/-- Does a step on the store. -/
def performStore (workspace : Workspace) (step : StoreStep) : Result :=
  let store := workspace.store
  match step with
  | .reopen capacity direct =>
      if (workspace.site.graph.running? workspace.execution).isNone then
        workspace.refuse "no execution"
      else
        let store := Store.opened workspace.execution store.repository.directory
          (capacity.getD usualCapacity) direct
        ({ workspace with store }, .done)
  | .put name later => workspace.changeStore name fun store site node => store.put site node later
  | .get id name =>
      let (result, store, site) := store.get workspace.surroundings id
      let workspace := workspace.withStore store site
      match result with
      | .ok node => workspace.give node name
      | .error failure => (workspace, .failed (.store failure))
  | .getShared id callers =>
      match lookUpShared id callers workspace with
      | (workspace, .error failure) => (workspace, .failed (.store failure))
      | (workspace, .ok nodes) =>
          let given := nodes.filterMap fun node => node
          (workspace, .shared (given.head?.map workspace.view)
            (areOne given && (given.isEmpty || given.length = nodes.length)) none)
  | .autopersist name => workspace.changeStore name Store.autopersist
  | .flushNode name => workspace.changeStore name Store.flushNode
  | .flush =>
      let (result, store, site) := store.flush workspace.surroundings
      (workspace.withStore store site).settle result
  | .save name actions =>
      workspace.changeStore name fun store site node => store.saveActions site node actions
  | .load name =>
      workspace.withNode name fun node =>
        let (result, store, site) := store.loadActions workspace.surroundings node
        let workspace := workspace.withStore store site
        match result with
        | .ok actions => (workspace, .actions actions)
        | .error failure => (workspace, .failed (.store failure))
  | .isPersisted => (workspace, .flag store.isPersisted)
  | .exempt id => (workspace, .flag (store.deferred.isExempt id))
  | .path id =>
      match store.repository.path id with
      | .ok path => (workspace, .text path)
      | .error failure => (workspace, .failed (.store failure))
  | .directory => (workspace, .text store.repository.directory)
  | .reclaim =>
      let (dropped, store) := store.reclaim workspace.surroundings
      ({ workspace with store }, .count dropped)
  | .peek id name => workspace.give (store.cache.peek id) name

/-! ## All steps -/

/-- Does one step.  Earlier reports are forgotten. -/
def perform (workspace : Workspace) (step : Step) : Result :=
  let workspace := { workspace with site.events := [] }
  match step with
  | .onNode step => workspace.performNode step
  | .onFile step => workspace.performFile step
  | .onRegistry step => workspace.performRegistry step
  | .onDeferred step => workspace.performDeferred step
  | .onCache step => performCache step workspace
  | .onRepository step => workspace.performRepository step
  | .onStore step => workspace.performStore step

end TraceStore.Workspace
