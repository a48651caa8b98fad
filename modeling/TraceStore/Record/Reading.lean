import TraceStore.Registry
import TraceStore.Record.Writing

/-!
# Reading records

A record is read in one pass.  Besides the form that is written, a node may hold its predecessors:
its member `parents` then lists node objects, or objects `{"ref": k}` that stand for the node
decoded k-th from the same document.  Every node met is created, resolved to ids and recorded, a
node after its predecessors, in the `Session` that reading threads through; what was recorded stays
recorded when the rest of the document is refused.

Members may stand in any order, unknown ones are passed over, and of a repeated one the last
counts.
-/

namespace TraceStore.Record

open Json (Cause Fault Input)

/-- What reading a document changes: nodes are created and recorded. -/
structure Session where
  graph : Graph
  registry : Registry
  /-- The first predecessor that could not be resolved, if any. -/
  violation : Option StoreError
  deriving Repr, DecidableEq, Inhabited

/-- What a node object has told so far.  `ν` is what stands for a node. -/
structure NodeFieldsOf (ν : Type) where
  id : Option String := none
  parentIds : Option (List String) := none
  parents : Option (List ν) := none
  reference : Option Nat := none
  deriving Repr, DecidableEq, Inhabited

/-- What a node object has told so far, where predecessors are nodes of the graph. -/
abbrev NodeFields := NodeFieldsOf NodeRef

/-- What a record holds.  `ν` is what stands for a node. -/
structure DecodedOf (ν : Type) where
  node : Option ν := none
  actions : List Action := []
  deriving Repr, DecidableEq, Inhabited

/-- What a record holds, with a node of the graph. -/
abbrev Decoded := DecodedOf NodeRef

/-- Readers that thread a state through. -/
abbrev ReaderIn (σ α : Type) := σ → Input → σ × Except Fault (α × Input)

/-- Readers of something that may create and record nodes. -/
abbrev Reader (α : Type) := ReaderIn Session α

/-- Creates a node with resolved links and records it under its id. -/
def create (session : Session) (id : String) (links : Links) : Session × Except Cause NodeRef :=
  match session.registry.resolve links with
  | .error position =>
      let failure := StoreError.unresolvedParent id position
      ({ session with violation := session.violation.or (some failure) },
        .error (.refused failure.message))
  | .ok links =>
      let ref := session.graph.next
      ({ session with
          graph := session.graph.add (.detached id links)
          registry := session.registry.record ref id },
        .ok ref)

/-- The node that a node object stands for.  A reference counts before everything else. -/
def build (session : Session) (fields : NodeFields) : Session × Except Cause NodeRef :=
  match fields.reference with
  | some position =>
      match session.registry.at? position with
      | some ref => (session, .ok ref)
      | none =>
          (session, .error (.refused
            ("reference to node #" ++ toString position ++ " which has not been decoded")))
  | none =>
      match fields.id with
      | none => (session, .error (.missingField "id"))
      | some id =>
          match fields.parents, fields.parentIds with
          | some _, some _ =>
              (session, .error (.refused
                ("node " ++ id ++ " carries both `parents` and `parentIds`")))
          | some parents, none => create session id (.held parents)
          | none, ids => create session id (.named (ids.getD []))

/-- What is made of a node object once its members are read.  The readers below leave it to the
state that they thread through. -/
class Builds (σ : Type) (ν : outParam Type) where
  make : σ → NodeFieldsOf ν → σ × Except Cause ν

instance : Builds Session NodeRef := ⟨build⟩

@[simp] theorem make_session (session : Session) (fields : NodeFields) :
    Builds.make session fields = build session fields := rfl

section Readers

variable {σ ν : Type}

/-- Reads one predecessor of a list of them. -/
def readParent (read : ReaderIn σ ν) (state : σ × List ν) (input : Input) :
    (σ × List ν) × Except Fault Input :=
  match read state.1 input with
  | (session, .error fault) => ((session, state.2), .error fault)
  | (session, .ok (ref, rest)) => ((session, state.2 ++ [ref]), .ok rest)

/-- Reads a list of predecessors; without a reader for them the nesting limit is reached. -/
def readParents (parent : Option (ReaderIn σ ν)) : ReaderIn σ (List ν) :=
  fun session input =>
    let content := parent.map fun read state input =>
      Json.foldElements (readParent read) (input.length + 1) true state input
    match Json.readList "a list of parent nodes" content (session, []) input with
    | ((session, _), .error fault) => (session, .error fault)
    | ((session, parents), .ok rest) => (session, .ok (parents, rest))

/-- Reads a member of a node object. -/
def readNodeMember (budget : Nat) (parent : Option (ReaderIn σ ν)) (state : σ × NodeFieldsOf ν)
    (key : String) (input : Input) : (σ × NodeFieldsOf ν) × Except Fault Input :=
  let (session, fields) := state
  match Json.skipColon input with
  | .error fault => (state, .error fault)
  | .ok input =>
      if key = "id" then
        match Json.readText "a string" input with
        | .error fault => (state, .error fault)
        | .ok (id, rest) => ((session, { fields with id := some id }), .ok rest)
      else if key = "parentIds" then
        match Json.readListOf budget (fun _ => Json.readText "a string") input with
        | .error fault => (state, .error fault)
        | .ok (ids, rest) => ((session, { fields with parentIds := some ids }), .ok rest)
      else if key = "parents" then
        match readParents parent session input with
        | (session, .error fault) => ((session, fields), .error fault)
        | (session, .ok (parents, rest)) =>
            ((session, { fields with parents := some parents }), .ok rest)
      else if key = "ref" then
        match Json.readNatural "usize" Word.size input with
        | .error fault => (state, .error fault)
        | .ok (position, rest) =>
            ((session, { fields with reference := some position }), .ok rest)
      else (state, Json.skipValue input)

variable [Builds σ ν]

/-- Reads a node object whose members have `budget` levels of nesting left. -/
def readNodeObject (budget : Nat) (parent : Option (ReaderIn σ ν)) : ReaderIn σ ν :=
  fun session input =>
    let content := fun state input =>
      Json.foldMembers (readNodeMember budget parent) (input.length + 1) true state input
    match Json.readObject "a flow node" (some content) (session, {}) input with
    | ((session, _), .error fault) => (session, .error fault)
    | ((session, fields), .ok rest) =>
        match Builds.make session fields with
        | (session, .ok ref) => (session, .ok (ref, rest))
        | (session, .error cause) => (session, .error (.here cause rest))

/-- Reads a node object, with `budget` levels of nesting left. -/
def readNode : (budget : Nat) → ReaderIn σ ν
  | 0 => fun session input =>
      match Json.readObject "a flow node" none session input with
      | (session, .error fault) => (session, .error fault)
      | (session, .ok rest) => (session, .error (.next .tooDeep rest))
  | 1 => readNodeObject 0 none
  | budget + 2 => readNodeObject (budget + 1) (some (readNode budget))

/-- Reads a node object or `null`. -/
def readNodeOrNull (budget : Nat) : ReaderIn σ (Option ν) := fun session input =>
  let readSome (input : Input) :=
    match readNode budget session input with
    | (session, .error fault) => (session, .error fault)
    | (session, .ok (ref, rest)) => (session, .ok (some ref, rest))
  match Json.skipBlank input with
  | [] => readSome []
  | byte :: rest =>
      match Json.word? byte with
      | some (none, letters) => (session, (Json.readWord letters rest).map (none, ·))
      | _ => readSome (byte :: rest)

/-- Reads a member of a record. -/
def readRecordMember (budget : Nat) (state : σ × DecodedOf ν) (key : String) (input : Input) :
    (σ × DecodedOf ν) × Except Fault Input :=
  let (session, record) := state
  match Json.skipColon input with
  | .error fault => (state, .error fault)
  | .ok input =>
      if key = "node" then
        match readNodeOrNull budget session input with
        | (session, .error fault) => ((session, record), .error fault)
        | (session, .ok (node, rest)) => ((session, { record with node := node }), .ok rest)
      else if key = "actions" then
        match Action.readMany budget input with
        | .error fault => (state, .error fault)
        | .ok (actions, rest) =>
            ((session, { record with actions := actions.getD [] }), .ok rest)
      else (state, Json.skipValue input)

/-- Reads a record.  Nothing but blanks may follow it. -/
def readRecord (session : σ) (document : Input) : σ × Except Fault (DecodedOf ν) :=
  let content := fun state input =>
    Json.foldMembers (readRecordMember (Json.nestingLimit - 1)) (input.length + 1) true state input
  match Json.readObject "a flow node record" (some content) (session, {}) document with
  | ((session, _), .error fault) => (session, .error fault)
  | ((session, record), .ok rest) => (session, (Json.readEnd rest).map fun _ => record)

end Readers

/-- Reads the bytes of a record. -/
def decode (session : Session) (document : Input) : Session × Except Fault Decoded :=
  readRecord session document

end TraceStore.Record
