import TraceStore.FileTree.Basic
import TraceStore.Json.Fault

/-!
# Failures of the store

What can go wrong when a node is looked up, written or read back, with the text that tells it.
`RecordFault` is the part that concerns the content of a record alone.
-/

namespace TraceStore

/-- Why a record cannot be read or written. -/
inductive RecordFault where
  /-- The record is no document of the expected form. -/
  | unreadable (cause : Json.Cause) (position : Json.Position)
  /-- An action refuses to be written. -/
  | unwritable (reason : String)
  deriving Repr, DecidableEq

namespace RecordFault

/-- A fault met in a document. -/
def ofFault (fault : Json.Fault) (document : Json.Input) : RecordFault :=
  .unreadable fault.cause (Json.Position.reached document fault.left.length)

/-- The text of a record fault. -/
def message : RecordFault → String
  | .unreadable cause position => cause.message ++ position.suffix
  | .unwritable reason => reason

end RecordFault

/-- Why a store operation fails. -/
inductive StoreError where
  /-- There is no record for the node. -/
  | notFound (path : String)
  /-- The record is a document without a node. -/
  | corruptRecord (path : String) (content : String)
  /-- The record cannot be read or written. -/
  | codec (path : String) (fault : RecordFault)
  /-- A predecessor of a node has no recorded id. -/
  | unresolvedParent (node : String) (position : Nat)
  /-- The node belongs to an execution already. -/
  | backReference (node : String)
  /-- The id cannot name a file. -/
  | invalidPath (id : String)
  /-- The system refused a file operation. -/
  | io (fault : FileFault)
  deriving Repr, DecidableEq

namespace StoreError

/-- The text of a failure. -/
def message : StoreError → String
  | .notFound path => "Flow node file not found: " ++ path
  | .corruptRecord path content => "failed to load flow node from " ++ path ++ ": " ++ content
  | .codec path fault => "Malformed flow node record " ++ path ++ ": " ++ fault.message
  | .unresolvedParent node position =>
      "Parent #" ++ toString position ++ " of flow node " ++ node ++ " has no recorded id"
  | .backReference node =>
      "Failed to install execution back-reference on flow node " ++ node
  | .invalidPath id => "Invalid flow node id: " ++ Text.quoted id
  | .io fault => "I/O error: " ++ fault.message

/-- Whether the failure is the absence of a record, which lookups report as no node. -/
def isNotFound : StoreError → Bool
  | .notFound _ => true
  | _ => false

end StoreError

end TraceStore
