import TraceStore.Store

/-!
# Workspaces

A workspace puts the parts of the library next to each other over one graph and one file tree: an
open store, and a repository, a cache, a registry and a buffer of their own.  Nodes are held here
under names, as a caller of the library would hold them, and the parts hold each other's nodes
alive.
-/

namespace TraceStore

/-- The parts of the library side by side. -/
structure Workspace where
  site : Site := {}
  /-- The execution that new nodes belong to, whether or not it still runs. -/
  execution : ExecutionRef := 0
  /-- The nodes held here, by name. -/
  names : List (String × NodeRef) := []
  /-- The ids of all nodes that were ever held here. -/
  known : List String := []
  registry : Registry := {}
  deferred : Deferred := {}
  cache : Cache := {}
  repository : Repository
  store : Store
  deriving Repr, DecidableEq, Inhabited

/-- A node as it shows itself at a moment. -/
structure View where
  id : String
  parentIds : List String
  inMemory : Bool
  actions : List Action
  /-- The name of its execution while that runs. -/
  execution : Option String
  /-- Whether it was given an execution. -/
  owned : Bool
  /-- The names it is held under, in ascending order. -/
  names : List String
  deriving Repr, DecidableEq, Inhabited

namespace Workspace

/-- How large the cache of a store becomes if nothing else is asked for. -/
def usualCapacity : Nat := 4096

/-- A workspace whose store and repository keep their records in a directory.  Without a wish for
the store both its capacity and its way of writing are the usual ones. -/
def opened (files : FileTree) (working : Route) (directory execution : String)
    (capacity : Option Nat) (direct : Bool) : Workspace where
  site := { graph := Graph.start {} execution, files, working }
  cache := { capacity := capacity.getD 0 }
  repository := ⟨directory, !direct⟩
  store := .opened 0 directory (capacity.getD usualCapacity) direct

/-! ## Names -/

/-- The node held under a name. -/
def find? (workspace : Workspace) (name : String) : Option NodeRef :=
  (workspace.names.find? (·.1 = name)).map (·.2)

/-- Holds a node under a name, in place of what was held under it. -/
def hold (workspace : Workspace) (name : String) (node : NodeRef) : Workspace :=
  { workspace with
    names := workspace.names.filter (·.1 ≠ name) ++ [(name, node)]
    known := workspace.known ++ [(workspace.site.graph.node node).id] }

/-- Holds a node if a name is given. -/
def holdAs (workspace : Workspace) (name : Option String) (node : NodeRef) : Workspace :=
  match name with
  | some name => workspace.hold name node
  | none => workspace

/-- Gives up a name. -/
def drop (workspace : Workspace) (name : String) : Workspace :=
  { workspace with names := workspace.names.filter (·.1 ≠ name) }

/-- A node as it is now. -/
def view (workspace : Workspace) (ref : NodeRef) : View :=
  let graph := workspace.site.graph
  let node := graph.node ref
  { id := node.id
    parentIds := graph.parentIds node.links
    inMemory := node.links.areHeld
    actions := node.actions
    execution := graph.owner? node
    owned := node.owner.isSome
    names := ((workspace.names.filter (·.2 = ref)).map (·.1)).mergeSort }

/-- The known ids that a buffer exempts, in ascending order. -/
def exempted (workspace : Workspace) (deferred : Deferred) : List String :=
  ((workspace.known.filter deferred.isExempt).mergeSort).eraseDups

/-! ## What holds what -/

/-- The nodes held by names, the registry and the buffer. -/
def heldHere (workspace : Workspace) : List NodeRef :=
  workspace.names.map (·.2) ++ workspace.registry.keeps ++ workspace.deferred.nodes

/-- The nodes held from outside the store. -/
def heldOutsideStore (workspace : Workspace) : List NodeRef :=
  workspace.heldHere ++ workspace.cache.keeps

/-- The nodes held from outside the cache. -/
def heldOutsideCache (workspace : Workspace) : List NodeRef :=
  workspace.heldHere ++ workspace.store.deferred.nodes ++ workspace.store.cache.keeps

/-- The surroundings of the store. -/
def surroundings (workspace : Workspace) : Site :=
  { workspace.site with held := workspace.heldOutsideStore }

end Workspace

end TraceStore
