import TraceStore.Cache
import TraceStore.Deferred
import TraceStore.Repository

/-!
# The store

A store keeps one record a node and lets writes be put off.  A node has up to three homes: the
buffer of deferred nodes, the cache and its record.  Lookups ask them in this order, so the buffer,
which holds the latest state of a node until that is written, always wins; and every write goes
through the cache, so what was written last is what later lookups see.

The absence of a record is reported by the two lookups as no node and no actions.  Every other
failure is given back to the caller.
-/

namespace TraceStore

/-- A store for the nodes of one execution. -/
structure Store where
  execution : ExecutionRef
  repository : Repository
  cache : Cache
  deferred : Deferred := {}
  deriving Repr, DecidableEq, Inhabited

/-- What an operation answers, and the store and its surroundings afterwards. -/
abbrev Store.Outcome (α : Type) := Except StoreError α × Store × Site

namespace Store

/-- A store without nodes over a directory. -/
def opened (execution : ExecutionRef) (directory : String) (capacity : Nat) (direct : Bool) :
    Store where
  execution := execution
  repository := ⟨directory, !direct⟩
  cache := { capacity }

/-- The nodes that are kept alive by something else than the cache. -/
def outside (store : Store) (site : Site) : List NodeRef := site.held ++ store.deferred.nodes

/-! ## Looking up -/

/-- The report of a lookup without a record. -/
def sawNoFile (id execution : String) : Event :=
  ⟨.trace, .store, "Tried to load flow node where file does not exist",
    [("node", .text id), ("exec", .plain execution)]⟩

/-- Loads a node that the cache does not have, into the slot that waits for it. -/
def fetch (store : Store) (site : Site) (id : String) : Outcome (Option NodeRef) :=
  match store.repository.read site id store.execution with
  | (.ok loaded, site) =>
      let (cache, events) := store.cache.publish site.graph (store.outside site) id loaded.node
      (.ok (some loaded.node), { store with cache }, site.reportAll events)
  | (.error failure, site) =>
      let store := { store with cache := store.cache.abandon id }
      if failure.isNotFound then
        (.ok none, store, site.report (sawNoFile id (site.executionName store.execution)))
      else (.error failure, store, site)

/-- Looks a node up: in the buffer, in the cache, or else in its record. -/
def get (store : Store) (site : Site) (id : String) : Outcome (Option NodeRef) :=
  match store.deferred.get? id with
  | some node => (.ok (some node), store, site)
  | none =>
      match store.cache.request id with
      | (some node, cache) => (.ok (some node), { store with cache }, site)
      | (none, cache) => { store with cache }.fetch site id

/-- The actions in the record of a node; none without a record. -/
def loadActions (store : Store) (site : Site) (node : NodeRef) : Outcome (List Action) :=
  let id := (site.graph.node node).id
  match store.repository.holds site id with
  | .error failure => (.error failure, store, site)
  | .ok false => (.ok [], store, site)
  | .ok true =>
      match store.repository.read site id store.execution with
      | (.ok loaded, site) => (.ok loaded.actions, store, site)
      | (.error failure, site) =>
          if failure.isNotFound then (.ok [], store, site) else (.error failure, store, site)

/-! ## Writing -/

/-- Caches a node and writes its record with given actions. -/
def writeNode (store : Store) (site : Site) (node : NodeRef) (actions : List Action) :
    Outcome Unit :=
  let (cache, events) := store.cache.insert site.graph (store.outside site) node
  let (result, site) := store.repository.write (site.reportAll events) node actions
  (result, { store with cache }, site)

/-- Writes a node with its own actions, and takes it from the buffer. -/
def flushNode (store : Store) (site : Site) (node : NodeRef) : Outcome Unit :=
  let flushed := site.graph.node node
  match store.writeNode site node flushed.actions with
  | (.error failure, store, site) => (.error failure, store, site)
  | (.ok (), store, site) =>
      (.ok (), { store with deferred := store.deferred.remove flushed.id }, site)

/-- The report of a write that was put off. -/
def putOff (id : String) : Event :=
  ⟨.debug, .store, "Deferring flow node write", [("node", .text id)]⟩

/-- Stores a node, at once or later. -/
def put (store : Store) (site : Site) (node : NodeRef) (later : Bool) : Outcome Unit :=
  if later then
    let id := (site.graph.node node).id
    (.ok (), { store with deferred := store.deferred.defer id node }, site.report (putOff id))
  else store.flushNode site node

/-- Writes a node if it is buffered, and ends the exemption of its id. -/
def autopersist (store : Store) (site : Site) (node : NodeRef) : Outcome Unit :=
  let id := (site.graph.node node).id
  let release (store : Store) := { store with deferred := store.deferred.release id }
  if store.deferred.contains id then
    match store.flushNode site node with
    | (.error failure, store, site) => (.error failure, store, site)
    | (.ok (), store, site) => (.ok (), release store, site)
  else (.ok (), release store, site)

/-- Writes nodes with their own actions, in order, up to the first failure. -/
def writeNodes (store : Store) (site : Site) : List NodeRef → Outcome Unit
  | [] => (.ok (), store, site)
  | node :: others =>
      match store.writeNode site node (site.graph.node node).actions with
      | (.error failure, store, site) => (.error failure, store, site)
      | (.ok (), store, site) => writeNodes store site others

/-- The report of an emptied buffer. -/
def flushed (count : Nat) (execution : String) : Event :=
  ⟨.info, .store, "Flushed deferred flow nodes",
    [("count", .count count), ("exec", .plain execution)]⟩

/-- Writes all buffered nodes in ascending order of ids.  The buffer is emptied once all are
written, and stays as it is after a failure. -/
def flush (store : Store) (site : Site) : Outcome Unit :=
  if store.deferred.isEmpty then (.ok (), store, site)
  else
    match store.writeNodes site store.deferred.nodes with
    | (.error failure, store, site) => (.error failure, store, site)
    | (.ok (), store, site) =>
        (.ok (), { store with deferred := store.deferred.clear },
          site.report (flushed store.deferred.size (site.executionName store.execution)))

/-- The report of a node that was buffered instead of written. -/
def buffered (id : String) : Event :=
  ⟨.debug, .store, "Autopersist exempt, buffering flow node", [("node", .text id)]⟩

/-- Saves a node with given actions.  While its id is exempt the node is buffered instead, and
will be written with the actions it has then. -/
def saveActions (store : Store) (site : Site) (node : NodeRef) (actions : List Action) :
    Outcome Unit :=
  let id := (site.graph.node node).id
  if store.deferred.isExempt id then
    (.ok (), { store with deferred := store.deferred.replace id node }, site.report (buffered id))
  else store.writeNode site node actions

/-! ## The cache -/

/-- Drops cached nodes that nothing else keeps alive.  Gives how many there were. -/
def reclaim (store : Store) (site : Site) : Nat × Store :=
  let (dropped, cache) := store.cache.reclaim site.graph (store.outside site) none
  (dropped, { store with cache })

/-- Whether every node that was stored is written. -/
def isPersisted (store : Store) : Bool := store.deferred.isEmpty

end Store

end TraceStore
