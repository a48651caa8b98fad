import TraceStore.Record.Reading
import TraceStore.Site

/-!
# The repository of records

A repository keeps the record of each node in a file of its own, directly below one directory and
named by the id of the node.  Ids that could lead anywhere else name no file and are refused before
the file tree is touched.

`Repository.read` wires the node that it gives back: the node gets its execution and its actions,
and then the actions are woken.  The actions are given back as they are after waking.
-/

namespace TraceStore

/-- Where records are kept, and whether they are replaced in one move. -/
structure Repository where
  directory : String
  atomic : Bool
  deriving Repr, DecidableEq, Inhabited

/-- A node read from its record, and the actions of the record after waking. -/
structure Loaded where
  node : NodeRef
  actions : List Action
  deriving Repr, DecidableEq, Inhabited

namespace Repository

/-- What the name of a record ends in. -/
def extension : String := ".json"

/-- Whether an id can name a file: it is no name for a directory, and holds no character that
separates or ends names. -/
def isSafeId (id : String) : Bool :=
  id ≠ "" && id ≠ "." && id ≠ ".." &&
    id.toList.all fun character => character ≠ '/' && character ≠ '\\' && character ≠ '\x00'

/-- The path of the record for an id. -/
def path (repository : Repository) (id : String) : Except StoreError String :=
  if isSafeId id then .ok (Path.join repository.directory (id ++ extension))
  else .error (.invalidPath id)

/-- Whether there is a record for an id. -/
def holds (repository : Repository) (site : Site) (id : String) : Except StoreError Bool :=
  (repository.path id).map (site.files.isFile site.working)

/-! ## Writing -/

/-- The report of a record that was written. -/
def wrote (id : String) (actions : Nat) (path : String) : Event :=
  ⟨.debug, .repository, "Wrote flow node",
    [("node", .text id), ("actions", .count actions), ("path", .plain path)]⟩

/-- Writes the record of a node with given actions. -/
def write (repository : Repository) (site : Site) (node : NodeRef) (actions : List Action) :
    Except StoreError Unit × Site :=
  let written := site.graph.node node
  match repository.path written.id with
  | .error failure => (.error failure, site)
  | .ok path =>
      match Record.encode written.id (site.graph.parentIds written.links) actions with
      | .error fault => (.error (.codec path fault), site)
      | .ok bytes =>
          match site.replaceFile path bytes repository.atomic with
          | (.error fault, files) => (.error (.io fault), { site with files })
          | (.ok (), files) =>
              (.ok (), { site with files }.report (wrote written.id actions.length path))

/-! ## Reading -/

/-- The content of the record at a path. -/
def content (site : Site) (path : String) : Except StoreError (List UInt8) :=
  match site.files.read site.working path with
  | .ok bytes => .ok bytes
  | .error .missing => .error (.notFound path)
  | .error fault => .error (.io fault)

/-- The report of a record without a node. -/
def sawNoNode (path : String) : Event :=
  ⟨.error, .repository, "Flow node record has no node", [("path", .plain path)]⟩

/-- The report of a record that holds another node than its name says. -/
def sawOther (requested stored : String) : Event :=
  ⟨.warn, .repository, "Flow node record id does not match its file name",
    [("requested", .text requested), ("stored", .text stored)]⟩

/-- The report of a node that could not get its execution. -/
def notWired (id : String) : Event :=
  ⟨.error, .repository, "Could not wire flow node to its execution", [("node", .text id)]⟩

/-- The report of a node that was read. -/
def loaded (id : String) (actions : Nat) : Event :=
  ⟨.debug, .repository, "Loaded flow node", [("node", .text id), ("actions", .count actions)]⟩

/-- Gives a node that was read its execution and copies of its actions.  Then the actions are woken,
and the node gets them in place of the copies; what waking has added stays behind them. -/
def wire (site : Site) (node : NodeRef) (actions : List Action) (execution : ExecutionRef) :
    Except StoreError Loaded × Site :=
  let found := site.graph.node node
  if found.owner.isSome then (.error (.backReference found.id), site.report (notWired found.id))
  else
    let graph := site.graph.update node fun it => { it with owner := some execution }
    let graph := graph.update node (·.install actions)
    let (woken, graph) := graph.wakeAll node actions
    let graph := graph.update node (·.adopt woken)
    (.ok ⟨node, woken⟩, { site with graph }.report (loaded found.id woken.length))

/-- Wires the node of a decoded record, which has to have one. -/
def accept (site : Site) (id path : String) (bytes : List UInt8) (record : Record.Decoded)
    (execution : ExecutionRef) : Except StoreError Loaded × Site :=
  match record.node with
  | none => (.error (.corruptRecord path (Text.lossy bytes)), site.report (sawNoNode path))
  | some node =>
      let stored := (site.graph.node node).id
      wire (if stored = id then site else site.report (sawOther id stored)) node record.actions
        execution

/-- Reads the record of an id, for a given execution. -/
def read (repository : Repository) (site : Site) (id : String) (execution : ExecutionRef) :
    Except StoreError Loaded × Site :=
  match repository.path id with
  | .error failure => (.error failure, site)
  | .ok path =>
      match content site path with
      | .error failure => (.error failure, site)
      | .ok bytes =>
          let (session, result) := Record.decode ⟨site.graph, {}, none⟩ bytes
          let site := { site with graph := session.graph }
          match result with
          | .error fault =>
              (.error (session.violation.getD (.codec path (.ofFault fault bytes))), site)
          | .ok record => accept site id path bytes record execution

end Repository

end TraceStore
