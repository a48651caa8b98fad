/-!
# Actions

An action is a piece of metadata attached to a node of the trace and kept with it.  Reading a node
back *wakes* its actions once, in order (`Graph.wakeAll`): a marked action remembers what it saw,
and a seed grows a label on the node.

What a marked action remembers is not part of its payload: it is never written, and
`Action.payload` forgets it.
-/

namespace TraceStore

/-- What a marked action saw when it was woken: the id of its node, the name of the node's
execution if that was still running, and how many actions the node had. -/
structure Sighting where
  id : String
  execution : Option String
  actions : Nat
  deriving Repr, DecidableEq

/-- Metadata attached to a node. -/
inductive Action where
  | label (text : String)
  | argument (name value : String)
  | timing (millis : UInt64)
  | marked (mark : String) (seen : Option Sighting)
  | seed (text : String)
  | flag
  | adjustment (note : Option String) (delta : Int64)
  | broken (reason : String)
  deriving Repr, DecidableEq, Inhabited

namespace Action

/-- The part of an action that is written: what it remembers is forgotten. -/
def payload : Action → Action
  | .marked mark _ => .marked mark none
  | other => other

@[simp] theorem payload_payload (action : Action) : action.payload.payload = action.payload := by
  cases action <;> rfl

/-- An action that may remember takes the first sighting it is offered. -/
def remember (sighting : Sighting) : Action → Action
  | .marked mark none => .marked mark (some sighting)
  | other => other

@[simp] theorem payload_remember (sighting : Sighting) (action : Action) :
    (action.remember sighting).payload = action.payload := by
  cases action with
  | marked mark seen => cases seen <;> rfl
  | _ => rfl

/-- The actions that waking an action adds to its node. -/
def growth : Action → List Action
  | .seed text => [.label ("leaf:" ++ text)]
  | _ => []

end Action

end TraceStore
