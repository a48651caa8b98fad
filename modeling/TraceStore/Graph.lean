import TraceStore.Action.Basic

/-!
# The trace graph

A *node* records one step of an execution: an id, the links to the steps before it, the actions
attached to it and the execution it belongs to.  Nodes are shared objects: several places may name
the same one, and a change made through one of them is seen through all.  So nodes live in a
`Graph`, and a place holds a `NodeRef`, which is the node's position in the order of creation.

The graph only ever grows, and its three ways to change are named here: `add`, `start` and
`update`.  A node that no place names any more simply stays behind; whether that is so is a
question about roots, answered by `Graph.reachable`.  Since a node can only hold nodes that were
there before it, holding has no cycles.
-/

namespace TraceStore

/-- The identity of a node: its position in the order of creation. -/
abbrev NodeRef := Nat

/-- The identity of an execution: its position in the order in which executions were started. -/
abbrev ExecutionRef := Nat

/-- The links of a node to its predecessors: the nodes themselves, or their ids. -/
inductive Links where
  | held (parents : List NodeRef)
  | named (ids : List String)
  deriving Repr, DecidableEq, Inhabited

namespace Links

/-- Whether the predecessors themselves are held. -/
def areHeld : Links → Bool
  | .held _ => true
  | .named _ => false

/-- How many predecessors there are. -/
def count : Links → Nat
  | .held parents => parents.length
  | .named ids => ids.length

/-- The nodes that these links keep alive. -/
def keeps : Links → List NodeRef
  | .held parents => parents
  | .named _ => []

end Links

/-- A step of an execution. -/
structure Node where
  id : String
  links : Links
  actions : List Action
  /-- The execution that the node was given, whether or not it is still running. -/
  owner : Option ExecutionRef
  deriving Repr, DecidableEq, Inhabited

namespace Node

/-- A node with neither actions nor execution. -/
def detached (id : String) (links : Links) : Node := ⟨id, links, [], none⟩

/-- The node with an action attached behind those it has. -/
def attach (node : Node) (action : Action) : Node :=
  { node with actions := node.actions ++ [action] }

/-- The node with given actions in place of those it has. -/
def install (node : Node) (actions : List Action) : Node := { node with actions }

/-- Replaces the first actions of a list one by one.  Those behind stay as they are. -/
def replaceFirst : (actions replacements : List Action) → List Action
  | _ :: actions, replacement :: replacements => replacement :: replaceFirst actions replacements
  | actions, _ => actions

/-- The node with given actions in place of its first ones. -/
def adopt (node : Node) (actions : List Action) : Node :=
  { node with actions := replaceFirst node.actions actions }

end Node

/-- An execution, running or not. -/
structure Execution where
  name : String
  running : Bool
  deriving Repr, DecidableEq, Inhabited

/-- All nodes and executions in the order in which they came to be. -/
structure Graph where
  nodes : List Node := []
  executions : List Execution := []
  deriving Repr, DecidableEq, Inhabited

namespace Graph

/-! ## Nodes -/

/-- The node of a given identity. -/
def node? (graph : Graph) (ref : NodeRef) : Option Node := graph.nodes[ref]?

/-- The node of a given identity, or an empty one if there is none. -/
def node (graph : Graph) (ref : NodeRef) : Node := graph.nodes[ref]?.getD default

/-- The identity that the next node takes. -/
def next (graph : Graph) : NodeRef := graph.nodes.length

/-- Adds a node. -/
def add (graph : Graph) (node : Node) : Graph :=
  { graph with nodes := graph.nodes ++ [node] }

/-- Changes a node in place, for all who name it. -/
def update (graph : Graph) (ref : NodeRef) (change : Node → Node) : Graph :=
  { graph with nodes := graph.nodes.modify ref change }

@[simp] theorem next_add (graph : Graph) (node : Node) : (graph.add node).next =
    graph.next + 1 := by
  simp [next, add]

@[simp] theorem node?_add_next (graph : Graph) (node : Node) :
    (graph.add node).node? graph.next = some node := by
  simp [node?, add, next]

theorem node?_add_of_lt {graph : Graph} {ref : NodeRef} (node : Node) (old : ref < graph.next) :
    (graph.add node).node? ref = graph.node? ref := by
  simp only [next] at old
  simp [node?, add, List.getElem?_append_left old]

@[simp] theorem next_update (graph : Graph) (ref : NodeRef) (change : Node → Node) :
    (graph.update ref change).next = graph.next := by
  simp [next, update]

theorem node?_update (graph : Graph) (ref other : NodeRef) (change : Node → Node) :
    (graph.update ref change).node? other =
      if ref = other then (graph.node? other).map change else graph.node? other := by
  simp only [node?, update, List.getElem?_modify]
  split <;> simp

/-- The ids of the predecessors, in the order of the links. -/
def parentIds (graph : Graph) : Links → List String
  | .held parents => parents.map fun parent => (graph.node parent).id
  | .named ids => ids

/-! ## Executions -/

/-- Starts an execution; its identity is the number of executions before it. -/
def start (graph : Graph) (name : String) : Graph :=
  { graph with executions := graph.executions ++ [⟨name, true⟩] }

/-- Ends an execution.  Its nodes keep their reference to it. -/
def stop (graph : Graph) (ref : ExecutionRef) : Graph :=
  { graph with executions := graph.executions.modify ref fun it => { it with running := false } }

/-- The name of an execution that is still running. -/
def running? (graph : Graph) (ref : ExecutionRef) : Option String :=
  match graph.executions[ref]? with
  | some execution => if execution.running then some execution.name else none
  | none => none

/-- The name of the execution of a node, if it was given one that is still running. -/
def owner? (graph : Graph) (node : Node) : Option String := node.owner.bind graph.running?

/-! ## Waking -/

/-- What an action of a node sees when it is woken. -/
def sighting (graph : Graph) (ref : NodeRef) : Sighting :=
  let node := graph.node ref
  ⟨node.id, graph.owner? node, node.actions.length⟩

/-- Wakes an action of a node: it may remember what it sees, and it may add to the node. -/
def wake (graph : Graph) (ref : NodeRef) (action : Action) : Action × Graph :=
  (action.remember (graph.sighting ref),
    graph.update ref fun node => action.growth.foldl Node.attach node)

/-- Wakes actions of a node in order.  Each sees what those before it have added. -/
def wakeAll (graph : Graph) (ref : NodeRef) : List Action → List Action × Graph
  | [] => ([], graph)
  | action :: others =>
      let (woken, graph) := graph.wake ref action
      let (wokenOthers, graph) := graph.wakeAll ref others
      (woken :: wokenOthers, graph)

/-! ## Reachability -/

/-- The nodes that can be reached from given roots, each with the roots themselves: newest first, a
node that is reached adds the nodes that its links keep. -/
def closure (graph : Graph) (roots : List NodeRef) : List NodeRef :=
  graph.nodes.zipIdx.foldr
    (fun (node, ref) reached => if ref ∈ reached then node.links.keeps ++ reached else reached)
    roots

/-- Whether a node is one of the roots or is held, directly or not, by one of them. -/
def reachable (graph : Graph) (roots : List NodeRef) (ref : NodeRef) : Bool :=
  (graph.closure roots).contains ref

/-- Every node holds only nodes that were there before it. -/
def Acyclic (graph : Graph) : Prop :=
  ∀ ref node, graph.node? ref = some node → ∀ parent ∈ node.links.keeps, parent < ref

end Graph

end TraceStore
