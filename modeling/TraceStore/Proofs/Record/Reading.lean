import TraceStore.Proofs.Action.Reading
import TraceStore.Proofs.Record.NodeTree

/-!
# Records in their place

What a member tells a node object (`NodeTold`), or a record (`RecordTold`), is told by its key and
the text of its value, wherever the member stands.  So an object that is read is run over its
members, and nodes and records are values that their readers take.

Only the member `parents` of a node object, and only the member `node` of a record, touches the
state that the readers thread through.  All of this is so for any such state: for the session in
which nodes are created, and for the log in which they are only taken down.
-/

namespace TraceStore.Record

open Json (Anything Blank EndsNumber Fault Input IsValue Member ReadsFrom ReadsValues
  RunsOverMembers StepsOverElements StepsOverMembers TakesBehind overElements overMembers)
open NodeTree (nodeKeys)

/-! ## Predecessors -/

variable {σ ν : Type}

/-- A reader of nodes that reads values. -/
def ReadsNodes (read : ReaderIn σ ν) : Prop :=
  ∀ session after ref, ReadsValues EndsNumber fun input rest =>
    read session input = (after, .ok (ref, rest))

variable {budget : Nat} {parent : Option (ReaderIn σ ν)} {session after : σ}
  {input rest : Input}

theorem readParent_steps {read : ReaderIn σ ν} (nodes : ReadsNodes read) :
    StepsOverElements (readParent read) := by
  rintro ⟨session, seen⟩ next input rest ends stepped
  rw [readParent] at stepped
  split at stepped
  · cases stepped
  · next after ref left isRead =>
      cases stepped
      obtain ⟨gap, text, blank, isValue, split, again⟩ := nodes _ _ _ _ _ ends isRead
      refine ⟨gap, text, blank, isValue, split, fun gap more blank endsMore => ?_⟩
      beta_reduce
      rw [readParent, again gap more blank endsMore]

/-- A text from which a reader gets a node. -/
def NodeFrom (read : ReaderIn σ ν) (session : σ) (text : Input) (after : σ)
    (ref : ν) : Prop :=
  ReadsFrom EndsNumber (fun input rest => read session input = (after, .ok (ref, rest))) text

theorem takesAt_readParent {read : ReaderIn σ ν} {session after : σ}
    {seen refs : List ν} {text : Input} :
    Json.TakesAt (readParent read) (session, seen) text (after, refs) ↔
      ∃ ref, NodeFrom read session text after ref ∧ refs = seen ++ [ref] := by
  have step (input rest : Input) :
      readParent read (session, seen) input = ((after, refs), .ok rest) ↔
        ∃ ref, read session input = (after, .ok (ref, rest)) ∧ refs = seen ++ [ref] := by
    rw [readParent]
    rcases read session input with ⟨between, fault | ⟨ref, left⟩⟩
    · simp
    · simp only [Prod.mk.injEq, Except.ok.injEq]
      constructor
      · rintro ⟨⟨rfl, rfl⟩, rfl⟩
        exact ⟨ref, ⟨rfl, rfl, rfl⟩, rfl⟩
      · rintro ⟨_, ⟨rfl, rfl, rfl⟩, rfl⟩
        exact ⟨⟨rfl, rfl⟩, rfl⟩
  constructor
  · intro taken
    obtain ⟨ref, isRead, rfl⟩ := (step _ _).mp (taken [] [] Json.blank_nil Json.endsNumber_nil)
    refine ⟨ref, fun gap more blank endsMore => ?_, rfl⟩
    obtain ⟨other, again, same⟩ := (step _ _).mp (taken gap more blank endsMore)
    obtain rfl : ref = other := by simpa using same
    exact again
  · rintro ⟨ref, isFrom, rfl⟩ gap more blank endsMore
    exact (step _ _).mpr ⟨ref, isFrom gap more blank endsMore, rfl⟩

theorem readParents_some_eq_ok {read : ReaderIn σ ν} {parents : List ν} :
    readParents (some read) session input = (after, .ok (parents, rest)) ↔
      Json.readList "a list of parent nodes" (overElements (readParent read)) (session, []) input =
        ((after, parents), .ok rest) := by
  rw [readParents, Option.map_some, ← overElements]
  rcases Json.readList "a list of parent nodes" (overElements (readParent read)) (session, []) input
    with ⟨⟨between, seen⟩, fault | left⟩
  · simp
  · simp [and_assoc]

theorem readParents_none (parents : List ν) :
    readParents none session input ≠ (after, .ok (parents, rest)) := by
  rw [readParents]
  split
  · simp
  · next read => exact absurd read (Json.readList_none _ _ _ _)

theorem readParents_readsValues (nodes : ∀ read, parent = some read → ReadsNodes read)
    (parents : List ν) :
    ReadsValues Anything fun input rest =>
      readParents parent session input = (after, .ok (parents, rest)) := by
  cases parent with
  | none => exact fun _ _ _ read => absurd read (readParents_none parents)
  | some read =>
      exact (Json.readList_readsValues (readParent_steps (nodes read rfl))).imp fun _ _ =>
        readParents_some_eq_ok

/-! ## The members of a node object -/

/-- What a member tells a node object. -/
inductive NodeTold (budget : Nat) (parent : Option (ReaderIn σ ν)) :
    σ × NodeFieldsOf ν → String → Input → σ × NodeFieldsOf ν → Prop where
  | id {session : σ} {fields : NodeFieldsOf ν} {id : String} {value : Input}
      (reads : ReadsFrom EndsNumber
        (fun input rest => Json.readText "a string" input = .ok (id, rest)) value) :
      NodeTold budget parent (session, fields) "id" value (session, { fields with id := some id })
  | parentIds {session : σ} {fields : NodeFieldsOf ν} {ids : List String} {value : Input}
      (reads : ReadsFrom EndsNumber
        (fun input rest =>
          Json.readListOf budget (fun _ => Json.readText "a string") input = .ok (ids, rest))
        value) :
      NodeTold budget parent (session, fields) "parentIds" value
        (session, { fields with parentIds := some ids })
  | parents {session after : σ} {fields : NodeFieldsOf ν} {parents : List ν}
      {value : Input}
      (reads : ReadsFrom EndsNumber
        (fun input rest => readParents parent session input = (after, .ok (parents, rest))) value) :
      NodeTold budget parent (session, fields) "parents" value
        (after, { fields with parents := some parents })
  | ref {session : σ} {fields : NodeFieldsOf ν} {position : Nat} {value : Input}
      (reads : ReadsFrom EndsNumber
        (fun input rest => Json.readNatural "usize" Word.size input = .ok (position, rest)) value) :
      NodeTold budget parent (session, fields) "ref" value
        (session, { fields with reference := some position })
  | unknown {state : σ × NodeFieldsOf ν} {key : String} {value : Input}
      (unknown : key ∉ nodeKeys) (isValue : IsValue value) :
      NodeTold budget parent state key value state

theorem NodeTold.takesBehind {state next : σ × NodeFieldsOf ν} {key : String} {value : Input}
    (told : NodeTold budget parent state key value next) :
    TakesBehind (readNodeMember budget parent) state key value next := by
  intro before gap more blankBefore blank ends
  cases told with
  | id reads | parentIds reads | parents reads | ref reads =>
      simp [readNodeMember, Json.skipColon_append blankBefore, reads gap more blank ends]
  | unknown unknown isValue =>
      simp only [nodeKeys, List.mem_cons, List.not_mem_nil, or_false, not_or] at unknown
      simp [readNodeMember, Json.skipColon_append blankBefore, unknown,
        Json.skipValue_append blank isValue ends]

theorem told_of_readNodeMember (nodes : ∀ read, parent = some read → ReadsNodes read)
    {state next : σ × NodeFieldsOf ν} {key : String} (ends : EndsNumber rest)
    (stepped : readNodeMember budget parent state key input = (next, .ok rest)) :
    ∃ before gap value, Blank before ∧ Blank gap ∧ IsValue value ∧
      input = before ++ Json.colon :: (gap ++ (value ++ rest)) ∧
      NodeTold budget parent state key value next := by
  obtain ⟨session, fields⟩ := state
  rw [readNodeMember] at stepped
  split at stepped
  · cases stepped
  · next behind colons =>
      refine Json.member_of_skipColon colons ?_
      split at stepped
      · next isId =>
          obtain rfl := isId
          split at stepped
          · cases stepped
          · next id left isRead =>
              cases stepped
              obtain ⟨gap, value, blank, isValue, split, again⟩ :=
                (Json.readText_readsValues id).of_anything _ _ ends isRead
              exact ⟨gap, value, blank, isValue, split, .id again⟩
      · split at stepped
        · next isParentIds =>
            obtain rfl := isParentIds
            split at stepped
            · cases stepped
            · next ids left isRead =>
                cases stepped
                have texts (_ : Nat) (text : String) : ReadsValues EndsNumber fun input rest =>
                    Json.readText "a string" input = .ok (text, rest) :=
                  (Json.readText_readsValues text).of_anything
                obtain ⟨gap, value, blank, isValue, split, again⟩ :=
                  (Json.readListOf_readsValues budget texts ids).of_anything _ _ ends isRead
                exact ⟨gap, value, blank, isValue, split, .parentIds again⟩
        · split at stepped
          · next isParents =>
              obtain rfl := isParents
              split at stepped
              · cases stepped
              · next after parents left isRead =>
                  cases stepped
                  obtain ⟨gap, value, blank, isValue, split, again⟩ :=
                    (readParents_readsValues nodes parents).of_anything _ _ ends isRead
                  exact ⟨gap, value, blank, isValue, split, .parents again⟩
          · split at stepped
            · next isRef =>
                obtain rfl := isRef
                split at stepped
                · cases stepped
                · next position left isRead =>
                    cases stepped
                    obtain ⟨gap, value, blank, isValue, split, again⟩ :=
                      Json.readNatural_readsValues _ position _ _ ends isRead
                    exact ⟨gap, value, blank, isValue, split, .ref again⟩
            · next notId notParentIds notParents notRef =>
                obtain ⟨rfl, skipped⟩ := Prod.mk.inj stepped
                obtain ⟨gap, value, blank, isValue, split⟩ := Json.value_of_skipValue skipped
                have unknown : key ∉ nodeKeys := by
                  simp [nodeKeys, notId, notParentIds, notParents, notRef]
                exact ⟨gap, value, blank, isValue, split, .unknown unknown isValue⟩

theorem readNodeMember_steps (nodes : ∀ read, parent = some read → ReadsNodes read) :
    StepsOverMembers (readNodeMember budget parent) := by
  intro state key input next rest ends stepped
  obtain ⟨before, gap, value, blankBefore, blank, isValue, split, told⟩ :=
    told_of_readNodeMember nodes ends stepped
  exact ⟨before, gap, value, blankBefore, blank, isValue, split, told.takesBehind⟩

/-- What a member of a node object tells, as a step from one state to the next. -/
def NodeStep (budget : Nat) (parent : Option (ReaderIn σ ν)) (state : σ × NodeFieldsOf ν)
    (member : Member) (next : σ × NodeFieldsOf ν) : Prop :=
  NodeTold budget parent state member.key member.value next

/-- What a step over a member does, the member tells. -/
theorem nodeStep_of_takesBehind (nodes : ∀ read, parent = some read → ReadsNodes read)
    {state next : σ × NodeFieldsOf ν} {member : Member} (isValue : IsValue member.value)
    (taken : TakesBehind (readNodeMember budget parent) state member.key member.value next) :
    NodeStep budget parent state member next := by
  have stepped := taken [] [] [] Json.blank_nil Json.blank_nil Json.endsNumber_nil
  obtain ⟨before, gap, value, blankBefore, blank, isOther, split, told⟩ :=
    told_of_readNodeMember nodes Json.endsNumber_nil stepped
  obtain ⟨same, -⟩ := isValue.unique_behind isOther Json.blank_nil blankBefore Json.blank_nil blank
    Json.endsNumber_nil Json.endsNumber_nil split
  rw [NodeStep, same]
  exact told

/-! ## Nodes -/

variable [Builds σ ν]

theorem readNodeObject_eq_ok {ref : ν} :
    readNodeObject budget parent session input = (after, .ok (ref, rest)) ↔
      ∃ between fields,
        Json.readObject "a flow node" (overMembers (readNodeMember budget parent)) (session, {})
          input = ((between, fields), .ok rest) ∧
        Builds.make between fields = (after, .ok ref) := by
  rw [readNodeObject, ← overMembers]
  rcases Json.readObject "a flow node" (overMembers (readNodeMember budget parent)) (session, {})
    input with ⟨⟨between, fields⟩, fault | left⟩
  · simp
  · rcases built : Builds.make between fields with ⟨last, cause | node⟩
    · simp [built]
    · simp only [built, Prod.mk.injEq, Except.ok.injEq]
      constructor
      · rintro ⟨rfl, rfl, rfl⟩
        exact ⟨between, fields, ⟨⟨rfl, rfl⟩, rfl⟩, built⟩
      · rintro ⟨_, _, ⟨⟨rfl, rfl⟩, rfl⟩, again⟩
        rw [built] at again
        cases again
        exact ⟨rfl, rfl, rfl⟩

theorem readNodeObject_readsValues (nodes : ∀ read, parent = some read → ReadsNodes read)
    (ref : ν) :
    ReadsValues Anything fun input rest =>
      readNodeObject budget parent session input = (after, .ok (ref, rest)) := by
  intro input rest _ read
  obtain ⟨between, fields, object, built⟩ := readNodeObject_eq_ok.mp read
  obtain ⟨gap, text, blank, isValue, split, again⟩ :=
    Json.readObject_readsValues (readNodeMember_steps nodes) _ _ trivial object
  refine ⟨gap, text, blank, isValue, split, fun gap more blank _ => ?_⟩
  exact readNodeObject_eq_ok.mpr ⟨between, fields, again gap more blank trivial, built⟩

theorem readNode_zero (ref : ν) :
    readNode 0 session input ≠ (after, .ok (ref, rest)) := by
  simp only [readNode]
  split <;> simp

theorem readNode_readsValues : ∀ (budget : Nat) (session after : σ) (ref : ν),
    ReadsValues Anything fun input rest =>
      readNode budget session input = (after, .ok (ref, rest))
  | 0, _, _, ref => fun _ _ _ read => absurd read (readNode_zero ref)
  | 1, _, _, ref => readNodeObject_readsValues (by simp) ref
  | budget + 2, _, _, ref => by
      apply readNodeObject_readsValues
      rintro read ⟨⟩ session after ref
      exact (readNode_readsValues budget session after ref).of_anything

theorem readsNodes_readNode (budget : Nat) : ReadsNodes (readNode budget : ReaderIn σ ν) :=
  fun session after ref => (readNode_readsValues budget session after ref).of_anything

section Nullable

variable {byte : UInt8} {tail : Input}

theorem readNodeOrNull_null {letters : List UInt8} (notBlank : Json.isBlank byte = false)
    (isNull : Json.word? byte = some (none, letters)) :
    readNodeOrNull budget session (byte :: tail) =
      (session, (Json.readWord letters tail).map (none, ·)) := by
  rw [readNodeOrNull, Json.skipBlank_cons notBlank]
  simp only [isNull]

theorem readNodeOrNull_some {node : Option ν} (notBlank : Json.isBlank byte = false)
    (notNull : ∀ letters, Json.word? byte ≠ some (none, letters)) :
    readNodeOrNull budget session (byte :: tail) = (after, .ok (node, rest)) ↔
      ∃ ref, readNode budget session (byte :: tail) = (after, .ok (ref, rest)) ∧
        some ref = node := by
  rw [readNodeOrNull, Json.skipBlank_cons notBlank]
  simp only
  rcases readNode budget session (byte :: tail) with ⟨between, fault | ⟨ref, left⟩⟩
  · simp
  · simp only [Prod.mk.injEq, Except.ok.injEq]
    constructor
    · rintro ⟨rfl, rfl, rfl⟩
      exact ⟨ref, ⟨rfl, rfl, rfl⟩, rfl⟩
    · rintro ⟨_, ⟨rfl, rfl, rfl⟩, same⟩
      exact ⟨rfl, same, rfl⟩

theorem readNodeOrNull_append {gap : Input} (blank : Blank gap) (input : Input) :
    readNodeOrNull budget session (gap ++ input) = readNodeOrNull budget session input := by
  simp only [readNodeOrNull, Json.skipBlank_append blank]

theorem readNodeOrNull_readsValues (node : Option ν) :
    ReadsValues Anything fun input rest =>
      readNodeOrNull budget session input = (after, .ok (node, rest)) := by
  apply Json.readsValues_of_skipBlank
  · intro input rest
    simp only [readNodeOrNull, Json.skipBlank_skipBlank]
  · intro rest _ read
    simp only [readNodeOrNull, Json.skipBlank, List.dropWhile_nil] at read
    split at read
    · cases read
    · next ref left isRead =>
        obtain ⟨gap, text, -, isValue, split, -⟩ := readNode_readsValues _ _ _ _ _ _ trivial isRead
        obtain ⟨byte, more, rfl, -⟩ := isValue.opens
        simp at split
  · intro byte tail rest notBlank _ read
    by_cases isNull : ∃ letters, Json.word? byte = some (none, letters)
    · obtain ⟨letters, isNull⟩ := isNull
      rw [readNodeOrNull_null notBlank isNull, Prod.mk.injEq, map_eq_ok_iff] at read
      obtain ⟨rfl, left, isRead, same⟩ := read
      cases same
      obtain ⟨text, isValue, rfl, again⟩ := Json.readWord_readsTexts isNull isRead
      refine ⟨_, isValue, rfl, fun more _ => ?_⟩
      rw [List.cons_append, readNodeOrNull_null notBlank isNull, again more]
      rfl
    · rw [not_exists] at isNull
      obtain ⟨ref, isRead, rfl⟩ := (readNodeOrNull_some notBlank isNull).mp read
      obtain ⟨text, isValue, same, again⟩ :=
        (readNode_readsValues _ _ _ ref).of_notBlank notBlank trivial isRead
      obtain ⟨first, others, rfl, -⟩ := isValue.opens
      obtain ⟨rfl, -⟩ := List.cons.inj same
      refine ⟨_, isValue, same, fun more _ => ?_⟩
      exact (readNodeOrNull_some notBlank isNull).mpr ⟨ref, again more trivial, rfl⟩

end Nullable

/-! ## The members of a record -/

/-- What a member tells a record. -/
inductive RecordTold (budget : Nat) :
    σ × DecodedOf ν → String → Input → σ × DecodedOf ν → Prop where
  | node {session after : σ} {record : DecodedOf ν} {node : Option ν} {value : Input}
      (reads : ReadsFrom EndsNumber
        (fun input rest => readNodeOrNull budget session input = (after, .ok (node, rest))) value) :
      RecordTold budget (session, record) "node" value (after, { record with node := node })
  | actions {session : σ} {record : DecodedOf ν} {actions : Option (List Action)}
      {value : Input}
      (reads : ReadsFrom EndsNumber
        (fun input rest => Action.readMany budget input = .ok (actions, rest)) value) :
      RecordTold budget (session, record) "actions" value
        (session, { record with actions := actions.getD [] })
  | unknown {state : σ × DecodedOf ν} {key : String} {value : Input}
      (unknown : key ∉ recordKeys) (isValue : IsValue value) :
      RecordTold budget state key value state

theorem RecordTold.takesBehind {state next : σ × DecodedOf ν} {key : String} {value : Input}
    (told : RecordTold budget state key value next) :
    TakesBehind (readRecordMember budget) state key value next := by
  intro before gap more blankBefore blank ends
  cases told with
  | node reads | actions reads =>
      simp [readRecordMember, Json.skipColon_append blankBefore, reads gap more blank ends]
  | unknown unknown isValue =>
      simp only [recordKeys, List.mem_cons, List.not_mem_nil, or_false, not_or] at unknown
      simp [readRecordMember, Json.skipColon_append blankBefore, unknown,
        Json.skipValue_append blank isValue ends]

theorem told_of_readRecordMember {state next : σ × DecodedOf ν} {key : String}
    (ends : EndsNumber rest)
    (stepped : readRecordMember budget state key input = (next, .ok rest)) :
    ∃ before gap value, Blank before ∧ Blank gap ∧ IsValue value ∧
      input = before ++ Json.colon :: (gap ++ (value ++ rest)) ∧
      RecordTold budget state key value next := by
  obtain ⟨session, record⟩ := state
  rw [readRecordMember] at stepped
  split at stepped
  · cases stepped
  · next behind colons =>
      refine Json.member_of_skipColon colons ?_
      split at stepped
      · next isNode =>
          obtain rfl := isNode
          split at stepped
          · cases stepped
          · next after node left isRead =>
              cases stepped
              obtain ⟨gap, value, blank, isValue, split, again⟩ :=
                (readNodeOrNull_readsValues node).of_anything _ _ ends isRead
              exact ⟨gap, value, blank, isValue, split, .node again⟩
      · split at stepped
        · next isActions =>
            obtain rfl := isActions
            split at stepped
            · cases stepped
            · next actions left isRead =>
                cases stepped
                obtain ⟨gap, value, blank, isValue, split, again⟩ :=
                  (Action.readMany_readsValues budget actions).of_anything _ _ ends isRead
                exact ⟨gap, value, blank, isValue, split, .actions again⟩
        · next notNode notActions =>
            obtain ⟨rfl, skipped⟩ := Prod.mk.inj stepped
            obtain ⟨gap, value, blank, isValue, split⟩ := Json.value_of_skipValue skipped
            have unknown : key ∉ recordKeys := by simp [recordKeys, notNode, notActions]
            exact ⟨gap, value, blank, isValue, split, .unknown unknown isValue⟩

theorem readRecordMember_steps :
    @StepsOverMembers (σ × DecodedOf ν) (readRecordMember budget) := by
  intro state key input next rest ends stepped
  obtain ⟨before, gap, value, blankBefore, blank, isValue, split, told⟩ :=
    told_of_readRecordMember ends stepped
  exact ⟨before, gap, value, blankBefore, blank, isValue, split, told.takesBehind⟩

/-- What a member of a record tells, as a step from one state to the next. -/
def RecordStep (budget : Nat) (state : σ × DecodedOf ν) (member : Member)
    (next : σ × DecodedOf ν) : Prop :=
  RecordTold budget state member.key member.value next

theorem recordStep_of_takesBehind {state next : σ × DecodedOf ν} {member : Member}
    (isValue : IsValue member.value)
    (taken : TakesBehind (readRecordMember budget) state member.key member.value next) :
    RecordStep budget state member next := by
  have stepped := taken [] [] [] Json.blank_nil Json.blank_nil Json.endsNumber_nil
  obtain ⟨before, gap, value, blankBefore, blank, isOther, split, told⟩ :=
    told_of_readRecordMember Json.endsNumber_nil stepped
  obtain ⟨same, -⟩ := isValue.unique_behind isOther Json.blank_nil blankBefore Json.blank_nil blank
    Json.endsNumber_nil Json.endsNumber_nil split
  rw [RecordStep, same]
  exact told

/-! ## Records -/

/-- How many levels of nesting are left for the members of a record. -/
abbrev recordBudget : Nat := Json.nestingLimit - 1

theorem readEnd_eq_ok_iff : Json.readEnd rest = .ok () ↔ Blank rest := by
  obtain ⟨gap, blank, split⟩ := Json.exists_blank rest
  rw [Json.readEnd]
  constructor
  · intro ended
    split at ended
    · next start => rwa [split, start, List.append_nil]
    · cases ended
  · intro blankRest
    have start : Json.skipBlank rest = [] := by
      simpa [Json.skipBlank] using Json.skipBlank_append blankRest []
    rw [start]

/-- A document that is one text between blanks. -/
def Padded (text document : Input) : Prop :=
  ∃ gap behind, Blank gap ∧ Blank behind ∧ document = gap ++ (text ++ behind)

/-- A record is one object with nothing but blanks behind it. -/
theorem readRecord_eq_ok_iff {document : Input} {record : DecodedOf ν} :
    readRecord session document = (after, .ok record) ↔
      ∃ rest, Blank rest ∧
        Json.readObject "a flow node record" (overMembers (readRecordMember recordBudget))
          (session, {}) document = ((after, record), .ok rest) := by
  rw [readRecord, ← overMembers]
  rcases Json.readObject "a flow node record" (overMembers (readRecordMember recordBudget))
    (session, {}) document with ⟨⟨between, read⟩, fault | left⟩
  · simp
  · simp only [Prod.mk.injEq, Except.ok.injEq, map_eq_ok_iff]
    constructor
    · rintro ⟨rfl, ended, isEnd, rfl⟩
      exact ⟨left, readEnd_eq_ok_iff.mp isEnd, ⟨rfl, rfl⟩, rfl⟩
    · rintro ⟨_, blank, ⟨rfl, rfl⟩, rfl⟩
      exact ⟨rfl, (), readEnd_eq_ok_iff.mpr blank, rfl⟩

theorem decode_eq_ok_iff {session after : Session} {document : Input} {record : Decoded} :
    decode session document = (after, .ok record) ↔
      ∃ rest, Blank rest ∧
        Json.readObject "a flow node record" (overMembers (readRecordMember recordBudget))
          (session, {}) document = ((after, record), .ok rest) :=
  readRecord_eq_ok_iff

end TraceStore.Record
