import TraceStore.Action.Form
import TraceStore.Graph
import TraceStore.Repository

/-!
# Displays of nodes

How nodes show themselves in reports for people: the fields by name, texts in quotation marks, and
of predecessors only their ids, so that a display is as long as the node and not as its history.
-/

namespace TraceStore

/-- A list of displays. -/
def shownList (shown : List String) : String := "[" ++ ", ".intercalate shown ++ "]"

/-- Links show which kind they are and the ids they lead to. -/
def Graph.displayLinks (graph : Graph) (links : Links) : String :=
  (if links.areHeld then "InMemory(" else "OnDisk(") ++
    shownList ((graph.parentIds links).map Text.quoted) ++ ")"

/-- The display of a list of actions. -/
def Action.displayAll (actions : List Action) : String := shownList (actions.map Action.display)

/-- A node shows its own actions and the name of its execution while that runs. -/
def Graph.displayNode (graph : Graph) (node : Node) : String :=
  Action.shownFields "FlowNode"
    [Action.shownField "id" (Text.quoted node.id),
      Action.shownField "parents" (graph.displayLinks node.links),
      Action.shownField "actions" (Action.displayAll node.actions),
      Action.shownField "exec" (Action.shownOption ((graph.owner? node).map Text.quoted))]

/-- What was loaded shows the node and the actions of its record. -/
def Loaded.display (graph : Graph) (loaded : Loaded) : String :=
  Action.shownFields "Tag"
    [Action.shownField "node" (graph.displayNode (graph.node loaded.node)),
      Action.shownField "actions" (Action.displayAll loaded.actions)]

end TraceStore
