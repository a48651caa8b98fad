import TraceStore.Proofs.Json.Rearranging
import TraceStore.Proofs.Record.Reading

/-!
# Records with their members in another order

Neither the order of members nor what unknown members hold matters to a record.  `SameRecord`
relates two documents whose envelopes, and whose node objects at any depth, are rearrangements of
each other; `decode_of_sameRecord` says that if one is accepted, so is the other, with the same
nodes recorded in the same order.

Nodes are recorded while a document is read, and a reference counts the nodes before it.  The order
of recording does not change because only one member of each object may hold nodes, and the elements
of a list of predecessors keep their order.
-/

namespace TraceStore.Record

open Json (Blank EndsNumber Input IsValue ListText Member ObjectText ReadsFrom Rearranged Runs
  RunsOverMembers StepsOverMembers Swaps TakesBehind)
open NodeTree (nodeKeys)

/-! ## Documents that mean the same -/

/-- The same value, or two lists of predecessors that are the same one by one. -/
def SameNodeMember (same : Input → Input → Prop) (key : String) (value other : Input) : Prop :=
  value = other ∨ (key = "parents" ∧ ∃ elements others,
    ListText elements value ∧ ListText others other ∧ List.Forall₂ same elements others)

/-- The same text, or two node objects that are rearrangements of each other, in which predecessors
may again be rearranged up to a depth. -/
def SameNode : (depth : Nat) → Input → Input → Prop
  | 0, text, other => text = other
  | depth + 1, text, other => text = other ∨ ∃ members others,
      ObjectText members text ∧ ObjectText others other ∧
        Rearranged nodeKeys (SameNodeMember (SameNode depth)) members others

/-- The same value, or two nodes that are rearrangements of each other. -/
def SameRecordMember (depth : Nat) (key : String) (value other : Input) : Prop :=
  value = other ∨ (key = "node" ∧ SameNode depth value other)

/-- Two documents whose envelopes are rearrangements of each other, and so are their nodes. -/
def SameRecord (document other : Input) : Prop :=
  ∃ depth members others text moved, Padded text document ∧ Padded moved other ∧
    ObjectText members text ∧ ObjectText others moved ∧
      Rearranged recordKeys (SameRecordMember depth) members others

/-! ## Members in either order -/

section NodeMembers

variable {budget : Nat} {parent : Option (Reader NodeRef)}

theorem nodeStep_swaps : Swaps (NodeStep budget parent) := by
  rintro state ⟨first, _, value⟩ between ⟨second, _, other⟩ last apart earlier later
  simp only [NodeStep] at earlier later ⊢
  cases earlier <;> cases later
  all_goals first
    | exact absurd rfl apart
    | exact ⟨_, by constructor <;> assumption, by constructor <;> assumption⟩

theorem nodeStep_ignores (state : Session × NodeFields) (member : Member)
    (next : Session × NodeFields) (unknown : member.key ∉ nodeKeys)
    (told : NodeStep budget parent state member next) : next = state := by
  obtain ⟨key, head, value⟩ := member
  simp only [NodeStep] at told
  cases told with
  | id | parentIds | parents | ref => exact absurd (by simp [nodeKeys]) unknown
  | unknown => rfl

end NodeMembers

/-! ## Nodes -/

/-- A reader that gets from a text what it gets from any text that is the same. -/
def Respects (read : Reader NodeRef) (same : Input → Input → Prop) : Prop :=
  ∀ session text other after ref, same text other → NodeFrom read session text after ref →
    NodeFrom read session other after ref

section Nodes

variable {budget : Nat} {parent : Option (Reader NodeRef)} {same : Input → Input → Prop}

theorem readParents_respects {read : Reader NodeRef} (nodes : ReadsNodes read)
    (respects : Respects read same) {session after : Session} {parents : List NodeRef}
    {elements others : List Input} {value other : Input} (list : ListText elements value)
    (otherList : ListText others other) (matched : List.Forall₂ same elements others)
    (reads : ReadsFrom EndsNumber
      (fun input rest => readParents (some read) session input = (after, .ok (parents, rest)))
      value) :
    ReadsFrom EndsNumber
      (fun input rest => readParents (some read) session input = (after, .ok (parents, rest)))
      other := by
  have listed := readParents_some_eq_ok.mp (reads [] [] Json.blank_nil Json.endsNumber_nil)
  obtain ⟨-, runs⟩ := Json.runs_of_readList (readParent_steps nodes) Json.blank_nil list listed
  intro gap more blank _
  refine readParents_some_eq_ok.mpr (Json.readList_append blank otherList ?_ more)
  refine runs.forall₂ ?_ matched
  rintro part other ⟨session, seen⟩ ⟨after, refs⟩ related taken
  obtain ⟨ref, isFrom, rfl⟩ := takesAt_readParent.mp taken
  exact takesAt_readParent.mpr ⟨ref, respects _ _ _ _ _ related isFrom, rfl⟩

theorem nodeStep_transfers (nodes : ∀ read, parent = some read → ReadsNodes read)
    (respects : ∀ read, parent = some read → Respects read same) (member other : Member)
    (state next : Session × NodeFields) (sameKey : member.key = other.key)
    (related : SameNodeMember same member.key member.value other.value)
    (told : NodeStep budget parent state member next) :
    NodeStep budget parent state other next := by
  obtain ⟨key, head, value⟩ := member
  obtain ⟨otherKey, otherHead, otherValue⟩ := other
  simp only [NodeStep] at sameKey related told ⊢
  subst sameKey
  rcases related with rfl | ⟨isParents, elements, others, list, otherList, matched⟩
  · exact told
  · cases told with
    | parents reads =>
        cases parent with
        | none =>
            exact absurd (reads [] [] Json.blank_nil Json.endsNumber_nil) (readParents_none _)
        | some read =>
            exact .parents (readParents_respects (nodes read rfl) (respects read rfl) list otherList
              matched reads)
    | id | parentIds | ref => exact absurd isParents (by decide)
    | unknown unknown => exact absurd (by simp [nodeKeys, isParents]) unknown

theorem readNodeObject_respects (nodes : ∀ read, parent = some read → ReadsNodes read)
    (respects : ∀ read, parent = some read → Respects read same) {members others : List Member}
    {text other : Input} (object : ObjectText members text) (otherObject : ObjectText others other)
    (rearranged : Rearranged nodeKeys (SameNodeMember same) members others)
    {session after : Session} {ref : NodeRef}
    (reads : NodeFrom (readNodeObject budget parent) session text after ref) :
    NodeFrom (readNodeObject budget parent) session other after ref := by
  obtain ⟨between, fields, read, built⟩ :=
    readNodeObject_eq_ok.mp (reads [] [] Json.blank_nil Json.endsNumber_nil)
  obtain ⟨-, runs⟩ :=
    Json.runs_of_readObject (readNodeMember_steps nodes) Json.blank_nil object read
  have told : Runs (NodeStep budget parent) (session, {}) members (between, fields) :=
    runs.imp fun member among _ _ => nodeStep_of_takesBehind nodes (object.1 member among).2
  have toldOthers : Runs (NodeStep budget parent) (session, {}) others (between, fields) :=
    told.rearranged nodeStep_swaps nodeStep_ignores
      (fun member among unknown _ => .unknown unknown (otherObject.1 member among).2)
      (nodeStep_transfers nodes respects) rearranged
  have runsOthers : RunsOverMembers (readNodeMember budget parent) (session, {}) others
      (between, fields) :=
    toldOthers.imp fun _ _ _ _ told => NodeTold.takesBehind told
  intro gap more blank _
  exact readNodeObject_eq_ok.mpr
    ⟨between, fields, Json.readObject_append blank otherObject runsOthers more, built⟩

theorem readNode_respects (depth : Nat) :
    ∀ budget, Respects (readNode budget) (SameNode depth) := by
  induction depth with
  | zero =>
      rintro budget session text other after ref rfl reads
      exact reads
  | succ depth ih =>
      rintro budget session text other after ref (rfl | ⟨members, others, object, otherObject,
        rearranged⟩) reads
      · exact reads
      · match budget with
        | 0 =>
            exact absurd (reads [] [] Json.blank_nil Json.endsNumber_nil) (readNode_zero ref)
        | 1 =>
            exact readNodeObject_respects (by simp) (by simp) object otherObject rearranged reads
        | budget + 2 =>
            refine readNodeObject_respects ?_ ?_ object otherObject rearranged reads
            · rintro read ⟨⟩
              exact readsNodes_readNode budget
            · rintro read ⟨⟩
              exact ih budget

end Nodes

/-! ## Records -/

section Records

variable {budget depth : Nat} {session after : Session}

theorem recordStep_swaps : @Swaps (Session × Decoded) (RecordStep budget) := by
  rintro state ⟨first, _, value⟩ between ⟨second, _, other⟩ last apart earlier later
  simp only [RecordStep] at earlier later ⊢
  cases earlier <;> cases later
  all_goals first
    | exact absurd rfl apart
    | exact ⟨_, by constructor <;> assumption, by constructor <;> assumption⟩

theorem recordStep_ignores (state : Session × Decoded) (member : Member)
    (next : Session × Decoded) (unknown : member.key ∉ recordKeys)
    (told : RecordStep budget state member next) : next = state := by
  obtain ⟨key, head, value⟩ := member
  simp only [RecordStep] at told
  cases told with
  | node | actions => exact absurd (by simp [recordKeys]) unknown
  | unknown => rfl

theorem readNodeOrNull_respects {node : Option NodeRef} {value other : Input}
    (same : SameNode depth value other)
    (reads : ReadsFrom EndsNumber
      (fun input rest => readNodeOrNull budget session input = (after, .ok (node, rest))) value) :
    ReadsFrom EndsNumber
      (fun input rest => readNodeOrNull budget session input = (after, .ok (node, rest)))
        other := by
  cases depth with
  | zero => exact same ▸ reads
  | succ depth =>
      have noWord : Json.word? Json.openBrace = none := by decide
      have notNull (letters : List UInt8) : Json.word? Json.openBrace ≠ some (none, letters) := by
        simp [noWord]
      have related := same
      rcases same with rfl | ⟨members, others, object, otherObject, -⟩
      · exact reads
      · have isValue := object.isValue
        obtain ⟨-, inner, -, rfl⟩ := object
        obtain ⟨-, otherInner, -, rfl⟩ := otherObject
        obtain ⟨ref, isRead, rfl⟩ := (readNodeOrNull_some (by decide) notNull).mp
          (reads [] [] Json.blank_nil Json.endsNumber_nil)
        obtain ⟨-, isFrom⟩ := (readsNodes_readNode budget session after ref).of_isValue isValue
          Json.blank_nil Json.endsNumber_nil Json.endsNumber_nil isRead
        have otherFrom := readNode_respects (depth + 1) budget _ _ _ _ _ related isFrom
        intro gap more blank ends
        rw [readNodeOrNull_append blank]
        exact (readNodeOrNull_some (by decide) notNull).mpr
          ⟨ref, otherFrom [] more Json.blank_nil ends, rfl⟩

theorem recordStep_transfers (member other : Member) (state next : Session × Decoded)
    (sameKey : member.key = other.key)
    (related : SameRecordMember depth member.key member.value other.value)
    (told : RecordStep budget state member next) : RecordStep budget state other next := by
  obtain ⟨key, head, value⟩ := member
  obtain ⟨otherKey, otherHead, otherValue⟩ := other
  simp only [RecordStep] at sameKey related told ⊢
  subst sameKey
  rcases related with rfl | ⟨isNode, same⟩
  · exact told
  · cases told with
    | node reads => exact .node (readNodeOrNull_respects same reads)
    | actions => exact absurd isNode (by decide)
    | unknown unknown => exact absurd (by simp [recordKeys, isNode]) unknown

/-- Neither the order of members nor unknown members change what a record means.  If a document is
accepted, then so is every document that arises from it by reordering the members of its envelope
and of its node objects at any depth and by adding or removing unknown ones: with the same node, the
same actions, and the same nodes created and recorded in the same order. -/
theorem decode_of_sameRecord {document other : Input} (same : SameRecord document other)
    {record : Decoded} (accepted : decode session document = (after, .ok record)) :
    decode session other = (after, .ok record) := by
  obtain ⟨depth, members, others, text, moved, ⟨gap, behind, blankGap, blankBehind, rfl⟩,
    ⟨otherGap, otherBehind, blankOtherGap, blankOtherBehind, rfl⟩, object, otherObject,
    rearranged⟩ := same
  obtain ⟨rest, -, read⟩ := decode_eq_ok_iff.mp accepted
  obtain ⟨-, runs⟩ := Json.runs_of_readObject readRecordMember_steps blankGap object read
  have told : Runs (RecordStep recordBudget) (session, {}) members (after, record) :=
    runs.imp fun member among _ _ => recordStep_of_takesBehind (object.1 member among).2
  have toldOthers : Runs (RecordStep recordBudget) (session, {}) others (after, record) :=
    told.rearranged recordStep_swaps recordStep_ignores
      (fun member among unknown _ => .unknown unknown (otherObject.1 member among).2)
      recordStep_transfers rearranged
  have runsOthers : RunsOverMembers (readRecordMember recordBudget) (session, {}) others
      (after, record) :=
    toldOthers.imp fun _ _ _ _ told => RecordTold.takesBehind told
  exact decode_eq_ok_iff.mpr ⟨otherBehind, blankOtherBehind,
    Json.readObject_append blankOtherGap otherObject runsOthers otherBehind⟩

end Records

/-- A node with one predecessor `a` and an unknown member, and the same with the members of the
envelope and of the node reordered, the unknown member left out and another one added to the
predecessor, is read as the same two nodes. -/
theorem decode_rearranged_predecessor : ∃ document other, document ≠ other ∧
    SameRecord document other ∧ ∃ after, after.registry.entries = [(0, "a"), (1, "b")] ∧
      decode default document = (after, .ok ⟨some 1, []⟩) ∧
      decode default other = (after, .ok ⟨some 1, []⟩) := by
  let isA := Member.compact "id" (Json.writeString "a")
  let isB := Member.compact "id" (Json.writeString "b")
  let note := Member.compact "note" (Json.compactList [Json.compactObject []])
  let kind := Member.compact "kind" (Json.writeString "b")
  let plain := Json.compactObject [isA]
  let noted := Json.compactObject [note, isA]
  let parents := Member.compact "parents" (Json.compactList [plain])
  let notedParents := Member.compact "parents" (Json.compactList [noted])
  let actions := Member.compact "actions" (Json.compactList [])
  let node := Member.compact "node" (Json.compactObject [isB, kind, parents])
  let turned := Member.compact "node" (Json.compactObject [notedParents, isB])
  have standsA : isA.Stands := Member.stands_compact _ (Json.isValue_writeString "a")
  have standsB : isB.Stands := Member.stands_compact _ (Json.isValue_writeString "b")
  have empty : IsValue (Json.compactObject []) := (Json.objectText_compactObject (by simp)).isValue
  have standsNote : note.Stands :=
    Member.stands_compact _ (Json.listText_compactList (by simpa using empty)).isValue
  have object : ObjectText [isA] plain := Json.objectText_compactObject (by simpa using standsA)
  have notedObject : ObjectText [note, isA] noted :=
    Json.objectText_compactObject (by simpa using ⟨standsNote, standsA⟩)
  have samePredecessor : SameNode 1 plain noted := by
    refine .inr ⟨_, _, object, notedObject, .add [] [isA] (by decide) ?_⟩
    exact .of_perm (fun _ _ => .inl rfl) (by decide) (.refl _)
  have list : ListText [plain] (Json.compactList [plain]) :=
    Json.listText_compactList (by simpa using object.isValue)
  have notedList : ListText [noted] (Json.compactList [noted]) :=
    Json.listText_compactList (by simpa using notedObject.isValue)
  have standsKind : kind.Stands := Member.stands_compact _ (Json.isValue_writeString "b")
  have nodeObject : ObjectText [isB, kind, parents] (Json.compactObject [isB, kind, parents]) :=
    Json.objectText_compactObject
      (by simpa using ⟨standsB, standsKind, Member.stands_compact "parents" list.isValue⟩)
  have turnedObject : ObjectText [notedParents, isB] (Json.compactObject [notedParents, isB]) :=
    Json.objectText_compactObject
      (by simpa using ⟨Member.stands_compact "parents" notedList.isValue, standsB⟩)
  have turnedMembers : Json.Rearranged nodeKeys (SameNodeMember (SameNode 1)) [isB, parents]
      [notedParents, isB] :=
    ⟨by decide, [parents, isB], .swap _ _ _,
      .cons ⟨rfl, .inr ⟨rfl, _, _, list, notedList, .cons samePredecessor .nil⟩⟩
        (.cons ⟨rfl, .inl rfl⟩ .nil)⟩
  have sameNode : SameNode 2 (Json.compactObject [isB, kind, parents])
      (Json.compactObject [notedParents, isB]) :=
    .inr ⟨_, _, nodeObject, turnedObject, .remove [isB] [parents] (by decide) turnedMembers⟩
  have standsActions : actions.Stands :=
    Member.stands_compact _ (Json.listText_compactList (by simp)).isValue
  have same : SameRecord (Json.compactObject [node, actions])
      (Json.compactObject [actions, turned]) := by
    refine ⟨2, [node, actions], [actions, turned], _, _,
      ⟨[], [], Json.blank_nil, Json.blank_nil, by simp⟩,
      ⟨[], [], Json.blank_nil, Json.blank_nil, by simp⟩,
      Json.objectText_compactObject ?_, Json.objectText_compactObject ?_, by decide,
      [actions, node], .swap _ _ _, .cons ⟨rfl, .inl rfl⟩ (.cons ⟨rfl, .inr ⟨rfl, sameNode⟩⟩ .nil)⟩
    · simpa using ⟨Member.stands_compact "node" nodeObject.isValue, standsActions⟩
    · simpa using ⟨standsActions, Member.stands_compact "node" turnedObject.isValue⟩
  have accepted : decode default (Json.compactObject [node, actions]) =
      ((decode default (Json.compactObject [node, actions])).1, .ok ⟨some 1, []⟩) :=
    Prod.ext rfl (by decide +kernel)
  refine ⟨_, _, by decide, same, _, ?_, accepted, decode_of_sameRecord same accepted⟩
  decide +kernel

end TraceStore.Record
