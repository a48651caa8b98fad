import TraceStore.Store

/-!
# Runs of a store

A store is used step by step, by a caller who creates nodes, holds them and lets go of them, while
executions come and go and the system may refuse to write.  An `Operation` is one such step, and a
`Scene` is the store in its surroundings between two steps.  A caller can name a node only while
holding it; a step with other nodes cannot be taken, and leaves a run as it is.

A `History` keeps a `Ledger` next to the scene.  The ledger is what the caller was promised: which
node was accepted last for each id, with which actions the record of an id was written last, and
which operations failed.
-/

namespace TraceStore

/-- One step of a run. -/
inductive Operation where
  | put (node : NodeRef) (later : Bool)
  | autopersist (node : NodeRef)
  | flushNode (node : NodeRef)
  | flush
  | saveActions (node : NodeRef) (actions : List Action)
  | get (id : String)
  | loadActions (node : NodeRef)
  | reclaim
  /-- A new node, which the caller holds. -/
  | create (node : Node)
  | attach (node : NodeRef) (action : Action)
  /-- One more handle for a node that is alive. -/
  | hold (node : NodeRef)
  /-- One handle less. -/
  | drop (node : NodeRef)
  | start (name : String)
  | stop (execution : ExecutionRef)
  /-- From now on the system refuses to write at these paths. -/
  | refuse (refusals : List (String × FileFault))
  deriving Repr, DecidableEq

namespace Operation

/-- The node that the caller has to hold. -/
def node? : Operation → Option NodeRef
  | .put node _ | .autopersist node | .flushNode node | .saveActions node _ | .loadActions node
  | .attach node _ | .drop node => some node
  | _ => none

/-- Whether an operation puts nodes into the buffer or writes them. -/
def mutates : Operation → Bool
  | .put _ _ | .autopersist _ | .flushNode _ | .flush | .saveActions _ _ => true
  | _ => false

end Operation

/-- A store in its surroundings. -/
structure Scene where
  store : Store
  site : Site
  deriving Repr, DecidableEq, Inhabited

namespace Scene

/-- A new store over a file tree, before there are any nodes. -/
def opened (execution : ExecutionRef) (directory : String) (capacity : Nat) (direct : Bool)
    (files : FileTree) (working : Route) : Scene where
  store := .opened execution directory capacity direct
  site := { files, working }

/-- The nodes that are kept alive. -/
def roots (scene : Scene) : List NodeRef :=
  scene.store.outside scene.site ++ scene.store.cache.keeps

/-- Whether the caller can take a step: nodes have to be held, and one that is taken into hold has
to be alive. -/
def permits (scene : Scene) : Operation → Bool
  | .create node => node.links.keeps.all scene.site.held.contains
  | .hold node => scene.site.graph.reachable scene.roots node
  | operation => operation.node?.all scene.site.held.contains

/-- The node that a lookup gave. -/
def given : Except StoreError (Option NodeRef) → List NodeRef
  | .ok (some node) => [node]
  | _ => []

/-- Takes a step.  A node that is looked up is held afterwards. -/
def perform (scene : Scene) (operation : Operation) : Except StoreError Unit × Scene :=
  let { store, site } := scene
  let settle (outcome : Store.Outcome Unit) : Except StoreError Unit × Scene :=
    (outcome.1, ⟨outcome.2.1, outcome.2.2⟩)
  match operation with
  | .put node later => settle (store.put site node later)
  | .autopersist node => settle (store.autopersist site node)
  | .flushNode node => settle (store.flushNode site node)
  | .flush => settle (store.flush site)
  | .saveActions node actions => settle (store.saveActions site node actions)
  | .get id =>
      let (result, store, site) := store.get site id
      (result.map fun _ => (), ⟨store, { site with held := site.held ++ given result }⟩)
  | .loadActions node =>
      let (result, store, site) := store.loadActions site node
      (result.map fun _ => (), ⟨store, site⟩)
  | .reclaim => (.ok (), ⟨(store.reclaim site).2, site⟩)
  | .create node =>
      (.ok (), ⟨store,
        { site with graph := site.graph.add node, held := site.held ++ [site.graph.next] }⟩)
  | .attach node action =>
      (.ok (), ⟨store, { site with graph := site.graph.update node (·.attach action) }⟩)
  | .hold node => (.ok (), ⟨store, { site with held := site.held ++ [node] }⟩)
  | .drop node => (.ok (), ⟨store, { site with held := site.held.erase node }⟩)
  | .start name => (.ok (), ⟨store, { site with graph := site.graph.start name }⟩)
  | .stop execution => (.ok (), ⟨store, { site with graph := site.graph.stop execution }⟩)
  | .refuse refusals => (.ok (), ⟨store, { site with refusals }⟩)

/-! ## What a step promises -/

/-- The node that an operation accepts if it succeeds.  Autopersisting accepts a node only while its
id is buffered. -/
def accepts? (scene : Scene) : Operation → Option NodeRef
  | .put node _ | .flushNode node | .saveActions node _ => some node
  | .autopersist node =>
      if scene.store.deferred.contains (scene.site.graph.node node).id then some node else none
  | _ => none

/-- The actions that are written with a node that is written for itself. -/
def ownRecord (scene : Scene) (node : NodeRef) : String × List Action :=
  ((scene.site.graph.node node).id, (scene.site.graph.node node).actions)

/-- The records that an operation writes if it succeeds: ids, each with the actions in its
record. -/
def records (scene : Scene) : Operation → List (String × List Action)
  | .put node later => if later then [] else [scene.ownRecord node]
  | .flushNode node => [scene.ownRecord node]
  | .autopersist node =>
      if scene.store.deferred.contains (scene.site.graph.node node).id then [scene.ownRecord node]
      else []
  | .flush => scene.store.deferred.nodes.map scene.ownRecord
  | .saveActions node actions =>
      let id := (scene.site.graph.node node).id
      if scene.store.deferred.isExempt id then [] else [(id, actions)]
  | _ => []

end Scene

/-- What the caller of a store was promised. -/
structure Ledger where
  /-- The node accepted last for an id. -/
  accepted : String → Option NodeRef := fun _ => none
  /-- The actions with which the record of an id was written last. -/
  written : String → List Action := fun _ => []
  /-- The failures of operations that put nodes into the buffer or write them. -/
  failures : List StoreError := []

namespace Ledger

/-- Notes the node of an id as accepted. -/
def accept (ledger : Ledger) (id : String) (node : NodeRef) : Ledger :=
  { ledger with
    accepted := fun other => if other = id then some node else ledger.accepted other }

/-- Notes records as written. -/
def write (ledger : Ledger) (records : List (String × List Action)) : Ledger :=
  { ledger with
    written := fun id =>
      ((records.find? (·.1 = id)).map (·.2)).getD (ledger.written id) }

/-- The ledger after an operation that was begun in a given scene. -/
def after (ledger : Ledger) (scene : Scene) (operation : Operation) :
    Except StoreError Unit → Ledger
  | .ok () =>
      let written := ledger.write (scene.records operation)
      match scene.accepts? operation with
      | some node => written.accept (scene.site.graph.node node).id node
      | none => written
  | .error failure =>
      if operation.mutates then { ledger with failures := ledger.failures ++ [failure] }
      else ledger

end Ledger

/-- A scene with the promises that led to it. -/
structure History where
  scene : Scene
  ledger : Ledger := {}

namespace History

/-- The beginning of a run: a new store over a file tree, and nothing promised. -/
def opened (execution : ExecutionRef) (directory : String) (capacity : Nat) (direct : Bool)
    (files : FileTree) (working : Route) : History where
  scene := .opened execution directory capacity direct files working

/-- One step of a run. -/
def step (history : History) (operation : Operation) : History :=
  if history.scene.permits operation then
    let (result, scene) := history.scene.perform operation
    ⟨scene, history.ledger.after history.scene operation result⟩
  else history

/-- A run from a given history on. -/
def run (history : History) (operations : List Operation) : History :=
  operations.foldl step history

/-- What holds at first and is kept by every step holds after every run. -/
theorem run_induction {motive : History → Prop} {start : History} (initial : motive start)
    (steps : ∀ history operation, motive history → history.scene.permits operation = true →
      motive ⟨(history.scene.perform operation).2,
        history.ledger.after history.scene operation (history.scene.perform operation).1⟩)
    (operations : List Operation) : motive (start.run operations) := by
  induction operations generalizing start with
  | nil => exact initial
  | cons operation others ih =>
      apply ih
      rw [step]
      split
      · next permitted => exact steps start operation initial permitted
      · exact initial

end History

end TraceStore
