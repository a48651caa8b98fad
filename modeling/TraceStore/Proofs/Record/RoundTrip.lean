import TraceStore.Proofs.Action.RoundTrip
import TraceStore.Proofs.Record.Sessions

/-!
# Records read back

A record that was written is read as one new node with the id and the parent ids that were written,
next to the payloads of the actions.  Whatever the reader knew before stays as it is: the node is
the next one of the graph and is recorded behind those that were recorded already.

`decode_encode` says this of the session that reading threads through.  `encode_payload` says that
what was read is written as the same bytes again, since what an action remembers is not written.
-/

namespace TraceStore.Record

open TraceStore.Json

/-! ## Writing -/

/-- A record can be written exactly if none of its actions refuses. -/
theorem encode_eq_ok_iff (id : String) (parentIds : List String) (actions : List Action)
    (bytes : List UInt8) :
    encode id parentIds actions = .ok bytes ↔
      (∀ action ∈ actions, action.unwritable? = none) ∧
        bytes = (toValue id parentIds (actions.map Action.toValue)).pretty 0 := by
  rw [encode]
  cases written : Action.writeAll actions with
  | error reason =>
      have fails := Action.writeAll_eq_ok_iff actions (actions.map Action.toValue)
      simp only [written, reduceCtorEq, and_true, false_iff] at fails
      simp [fails]
  | ok values =>
      rcases (Action.writeAll_eq_ok_iff actions values).mp written with ⟨writable, rfl⟩
      simp only [Except.ok.injEq]
      exact ⟨fun equal => ⟨writable, equal.symm⟩, fun both => both.2.symm⟩

theorem exists_encode_iff (id : String) (parentIds : List String) (actions : List Action) :
    (∃ bytes, encode id parentIds actions = .ok bytes) ↔
      ∀ action ∈ actions, action.unwritable? = none := by
  simp [encode_eq_ok_iff]

/-- What actions remember makes no difference to their record. -/
theorem encode_payload (id : String) (parentIds : List String) (actions : List Action) :
    encode id parentIds (actions.map Action.payload) = encode id parentIds actions := by
  rw [encode, encode, Action.writeAll_payload]

/-! ## The node -/

theorem readListOf_texts (budget level : Nat) (texts : List String) (rest : Input) :
    readListOf (budget + 1) (fun _ => readText "a string")
        ((Value.texts texts).pretty level ++ rest) = .ok (texts, rest) := by
  have list := readListOf_pretty (fun _ => readText "a string") budget level texts Value.text
    (fun text => text)
    (fun text _ rest _ => readText_pretty "a string" (level + 1) text rest)
    (fun text _ => opensElement_text (level + 1) text) rest
  rwa [List.map_id'] at list

theorem takesMember_id (budget level : Nat) (parent : Option (Reader NodeRef)) (session : Session)
    (fields : NodeFields) (id : String) :
    TakesMember (readNodeMember budget parent) level (session, fields) "id" (.text id)
      (session, { fields with id := some id }) := by
  intro rest _
  simp [readNodeMember, skipColon_colon, readText_pretty]

theorem takesMember_parentIds (budget level : Nat) (parent : Option (Reader NodeRef))
    (session : Session) (fields : NodeFields) (ids : List String) :
    TakesMember (readNodeMember (budget + 1) parent) level (session, fields) "parentIds"
      (.texts ids) (session, { fields with parentIds := some ids }) := by
  intro rest _
  simp [readNodeMember, skipColon_colon, readListOf_texts]

/-- The node of a record as it is written. -/
def nodeMembers (id : String) (parentIds : List String) : List (String × Value) :=
  [("id", .text id), ("parentIds", .texts parentIds)]

/-- A written node object makes the next node of the graph. -/
theorem readNodeObject_pretty (budget level : Nat) (parent : Option (Reader NodeRef))
    (session : Session) (id : String) (parentIds : List String) (rest : Input) :
    readNodeObject (budget + 1) parent session
        ((Value.object (nodeMembers id parentIds)).pretty level ++ rest) =
      (session.withNode id parentIds, .ok (session.graph.next, rest)) := by
  have takes : TakesMembers (readNodeMember (budget + 1) parent) (level + 1) (session, {})
      (nodeMembers id parentIds) (session, ⟨some id, some parentIds, none, none⟩) :=
    .cons (takesMember_id (budget + 1) (level + 1) parent session {} id)
      (.cons (takesMember_parentIds budget (level + 1) parent session _ parentIds) (.nil _))
  rw [readNodeObject]
  simp only [readObject_pretty takes "a flow node" rest]
  rfl

theorem readNodeOrNull_pretty (budget level : Nat) (session : Session) (id : String)
    (parentIds : List String) (rest : Input) :
    readNodeOrNull (budget + 3) session
        (0x20 :: ((Value.object (nodeMembers id parentIds)).pretty level ++ rest)) =
      (session.withNode id parentIds, .ok (some session.graph.next, rest)) := by
  have object := readNodeObject_pretty (budget + 1) level (some (readNode (budget + 1))) session id
    parentIds rest
  have noWord : word? openBrace = none := by decide
  rcases object_pretty_eq_cons level (nodeMembers id parentIds) with ⟨text, written⟩
  rw [written, List.cons_append] at object ⊢
  rw [readNodeOrNull, skipBlank_space, skipBlank_cons (by decide)]
  simp only [noWord, readNode, object]

/-! ## The record -/

theorem takesMember_node (budget level : Nat) (session : Session) (record : Decoded) (id : String)
    (parentIds : List String) :
    TakesMember (readRecordMember (budget + 3)) level (session, record) "node"
      (.object (nodeMembers id parentIds))
      (session.withNode id parentIds, { record with node := some session.graph.next }) := by
  intro rest _
  simp [readRecordMember, skipColon_colon, readNodeOrNull_pretty]

theorem takesMember_actions (budget level : Nat) (session : Session) (record : Decoded)
    (actions : List Action) :
    TakesMember (readRecordMember (budget + 2)) level (session, record) "actions"
      (.list (actions.map Action.toValue))
      (session, { record with actions := actions.map Action.payload }) := by
  intro rest _
  simp [readRecordMember, skipColon_colon, Action.readMany_pretty]

/-- A written record is read as one new node and the payloads of its actions. -/
theorem decode_pretty (session : Session) (id : String) (parentIds : List String)
    (actions : List Action) :
    decode session ((toValue id parentIds (actions.map Action.toValue)).pretty 0) =
      (session.withNode id parentIds,
        .ok ⟨some session.graph.next, actions.map Action.payload⟩) := by
  have takesNode := takesMember_node 123 1 session {} id parentIds
  have takes : TakesMembers (readRecordMember (nestingLimit - 1)) 1 (session, {})
      (("node", .object (nodeMembers id parentIds)) ::
        if (actions.map Action.toValue).isEmpty then []
        else [("actions", .list (actions.map Action.toValue))])
      (session.withNode id parentIds,
        ⟨some session.graph.next, actions.map Action.payload⟩) := by
    cases actions with
    | nil => exact .cons takesNode (.nil _)
    | cons action others =>
        exact .cons takesNode
          (.cons (takesMember_actions 124 1 _ _ (action :: others)) (.nil _))
  have object := readObject_pretty takes "a flow node record" []
  rw [List.append_nil] at object
  simp only [decode, readRecord]
  rw [toValue]
  simp only [nodeMembers] at object
  rw [object]
  rfl

/-- Reading what was written gives the node and the payloads of the actions back. -/
theorem decode_encode {id : String} {parentIds : List String} {actions : List Action}
    {bytes : List UInt8} (encoded : encode id parentIds actions = .ok bytes) (session : Session) :
    decode session bytes =
      (session.withNode id parentIds,
        .ok ⟨some session.graph.next, actions.map Action.payload⟩) := by
  rcases (encode_eq_ok_iff id parentIds actions bytes).mp encoded with ⟨-, rfl⟩
  exact decode_pretty session id parentIds actions

/-- A node is written exactly if none of the actions refuses.  Its record is then read, with nothing
recorded before, as one node with the same id and the same parent ids in order, which holds its
links as ids and has neither actions nor execution, next to the actions without what they remember.
The node is the only one recorded, and it is written as the same bytes again. -/
theorem decode_undoes_encode (graph : Graph) (node : Node) (actions : List Action) :
    ((∃ bytes, encode node.id (graph.parentIds node.links) actions = .ok bytes) ↔
        ∀ action ∈ actions, action.unwritable? = none) ∧
      ∀ bytes, encode node.id (graph.parentIds node.links) actions = .ok bytes →
        ∀ receiver : Graph, ∃ session decoded,
          decode ⟨receiver, {}, none⟩ bytes =
              (session, .ok ⟨some receiver.next, actions.map Action.payload⟩) ∧
            session.graph.node? receiver.next = some decoded ∧
            decoded = ⟨node.id, .named (graph.parentIds node.links), [], none⟩ ∧
            session.registry.entries = [(receiver.next, node.id)] ∧
            encode decoded.id (session.graph.parentIds decoded.links)
              (actions.map Action.payload) = .ok bytes := by
  refine ⟨exists_encode_iff _ _ actions, ?_⟩
  intro bytes encoded receiver
  refine ⟨_, .detached node.id (.named (graph.parentIds node.links)),
    decode_encode encoded ⟨receiver, {}, none⟩, ?_, rfl, rfl, ?_⟩
  · exact Graph.node?_add_next receiver _
  · rw [encode_payload]
    exact encoded

end TraceStore.Record
