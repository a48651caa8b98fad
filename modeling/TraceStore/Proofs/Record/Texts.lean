import TraceStore.Proofs.Record.Outline
import TraceStore.Proofs.Record.Reading

/-!
# What the text of a record tells

What becomes of a state when a record is read is said here of the text alone.  A node object is run
over its members; each of them tells by its key and the text of its value, and what they have told
is left to the state (`Builds.make`).  `readRecord_eq_ok_iff_tells` says that a record is accepted
exactly if its text tells of it, for every state that is threaded through: for the sessions in which
nodes are created, whatever was recorded in them before, and for the logs of outlines.

So a reference is the text of its position in both.  `mention_eq_reference_iff` and
`at?_of_refers` say what becomes of a node object with the member `"ref": k`: in an outline it is
the reference to `k`, and in a session the node that was recorded `k`-th.
-/

namespace TraceStore.Record

open Json (Blank EndsNumber Input IsValue ListText Member ObjectText ReadsFrom Runs TakesBehind
  writeNatural)
open NodeTree (nodeKeys)

/-! ## Texts of node objects -/

/-- What texts of node objects tell: the state before, the text, the state behind it, and what
stands for the node. -/
abbrev Telling (σ ν : Type) := σ → Input → σ → ν → Prop

section Telling

variable {σ ν : Type}

/-- The text of a predecessor tells of one more node. -/
def ParentTells (tells : Telling σ ν) (state : σ × List ν) (text : Input) (next : σ × List ν) :
    Prop :=
  ∃ ref, tells state.1 text next.1 ref ∧ next.2 = state.2 ++ [ref]

/-- What a member of a node object tells by its text.  Predecessors can be told of only where the
nesting goes on. -/
inductive MemberTells (budget : Nat) (parent : Option (Telling σ ν)) :
    σ × NodeFieldsOf ν → Member → σ × NodeFieldsOf ν → Prop where
  | id {state : σ} {fields : NodeFieldsOf ν} {head value : Input} {id : String}
      (reads : ReadsFrom EndsNumber
        (fun input rest => Json.readText "a string" input = .ok (id, rest)) value) :
      MemberTells budget parent (state, fields) ⟨"id", head, value⟩
        (state, { fields with id := some id })
  | parentIds {state : σ} {fields : NodeFieldsOf ν} {head value : Input} {ids : List String}
      (reads : ReadsFrom EndsNumber
        (fun input rest =>
          Json.readListOf budget (fun _ => Json.readText "a string") input = .ok (ids, rest))
        value) :
      MemberTells budget parent (state, fields) ⟨"parentIds", head, value⟩
        (state, { fields with parentIds := some ids })
  | parents {state after : σ} {fields : NodeFieldsOf ν} {head value : Input} {parents : List ν}
      {elements : List Input} {tells : Telling σ ν} (nested : parent = some tells)
      (list : ListText elements value)
      (told : Runs (ParentTells tells) (state, []) elements (after, parents)) :
      MemberTells budget parent (state, fields) ⟨"parents", head, value⟩
        (after, { fields with parents := some parents })
  | ref {state : σ} {fields : NodeFieldsOf ν} {head : Input} {position : Nat}
      (fits : position < Word.size) :
      MemberTells budget parent (state, fields) ⟨"ref", head, writeNatural position⟩
        (state, { fields with reference := some position })
  | unknown {state : σ × NodeFieldsOf ν} {member : Member} (unknown : member.key ∉ nodeKeys) :
      MemberTells budget parent state member state

variable [Builds σ ν]

/-- What the text of a node object tells whose members have `budget` levels of nesting left. -/
def ObjectTells (budget : Nat) (parent : Option (Telling σ ν)) : Telling σ ν :=
  fun state text after ref => ∃ members between fields, ObjectText members text ∧
    Runs (MemberTells budget parent) (state, {}) members (between, fields) ∧
      Builds.make between fields = (after, .ok ref)

/-- What the text of a node object tells, with `budget` levels of nesting left. -/
def NodeTells : (budget : Nat) → Telling σ ν
  | 0 => fun _ _ _ _ => False
  | 1 => ObjectTells 0 none
  | budget + 2 => ObjectTells (budget + 1) (some (NodeTells budget))

end Telling

/-! ## Readers of node objects -/

section Readers

variable {σ ν : Type} {budget : Nat} {parent : Option (ReaderIn σ ν)}
  {tellings : Option (Telling σ ν)} {state after : σ} {text : Input} {ref : ν}

/-- A reader gets a node from a value exactly if its text tells of the node. -/
structure Heeds (read : ReaderIn σ ν) (tells : Telling σ ν) : Prop where
  nodes : ReadsNodes read
  iff : ∀ state text after ref, IsValue text →
    (NodeFrom read state text after ref ↔ tells state text after ref)

/-- A position is read from the text in which it is written, and from no other value. -/
theorem readsFrom_readNatural_iff {value : Input} (isValue : IsValue value) {position : Nat} :
    ReadsFrom EndsNumber
        (fun input rest => Json.readNatural "usize" Word.size input = .ok (position, rest)) value ↔
      position < Word.size ∧ value = writeNatural position := by
  constructor
  · intro reads
    obtain ⟨fits, -, written⟩ :=
      Json.natural_of_readNatural (reads [] [] Json.blank_nil Json.endsNumber_nil)
    obtain ⟨byte, rest, rfl, opens⟩ := isValue.opens
    rw [List.nil_append, List.cons_append, opens.skipBlank, ← List.cons_append, List.append_nil,
      List.append_nil] at written
    exact ⟨fits, written⟩
  · rintro ⟨fits, rfl⟩ gap more blank ends
    obtain ⟨byte, rest, written, opens⟩ := isValue.opens
    refine Json.readNatural_of_lt ⟨?_, ends⟩ fits (Nat.le_refl _) "usize"
    rw [Json.skipBlank_append blank, written, List.cons_append, opens.skipBlank]

/-- Predecessors are read from the list of their texts. -/
theorem readsFrom_readParents_iff {read : ReaderIn σ ν} {tells : Telling σ ν}
    (heeds : Heeds read tells) {value : Input} (isValue : IsValue value) {parents : List ν} :
    ReadsFrom EndsNumber
        (fun input rest => readParents (some read) state input = (after, .ok (parents, rest)))
        value ↔
      ∃ elements, ListText elements value ∧
        Runs (ParentTells tells) (state, []) elements (after, parents) := by
  have step (element : Input) (isElement : IsValue element) (before next : σ × List ν) :
      Json.TakesAt (readParent read) before element next ↔
        ParentTells tells before element next := by
    obtain ⟨state, seen⟩ := before
    obtain ⟨after, refs⟩ := next
    rw [takesAt_readParent, ParentTells]
    simp only [heeds.iff _ _ _ _ isElement]
  constructor
  · intro reads
    have listed := readParents_some_eq_ok.mp (reads [] [] Json.blank_nil Json.endsNumber_nil)
    obtain ⟨gap, elements, text, blank, list, split, runs⟩ :=
      Json.readList_eq_ok (readParent_steps heeds.nodes) listed
    obtain ⟨rfl, -⟩ := isValue.unique list.isValue Json.blank_nil blank Json.endsNumber_nil
      Json.endsNumber_nil split
    exact ⟨elements, list, runs.imp fun element among before next taken =>
      (step element (list.1 element among) before next).mp taken⟩
  · rintro ⟨elements, list, told⟩ gap more blank -
    have runs : Runs (Json.TakesAt (readParent read)) (state, []) elements (after, parents) :=
      told.imp fun element among before next tells =>
        (step element (list.1 element among) before next).mpr tells
    exact readParents_some_eq_ok.mpr (Json.readList_append blank list runs more)

/-- What a member tells the reader of a node object, it tells by its text. -/
theorem nodeStep_iff_memberTells (heeds : Option.Rel Heeds parent tellings) {member : Member}
    (isValue : IsValue member.value) (before next : σ × NodeFieldsOf ν) :
    NodeStep budget parent before member next ↔ MemberTells budget tellings before member next := by
  obtain ⟨key, head, value⟩ := member
  simp only [NodeStep] at isValue ⊢
  constructor
  · intro told
    cases told with
    | id reads => exact .id reads
    | parentIds reads => exact .parentIds reads
    | parents reads =>
        cases heeds with
        | none =>
            exact absurd (reads [] [] Json.blank_nil Json.endsNumber_nil) (readParents_none _)
        | some heeds =>
            obtain ⟨elements, list, told⟩ := (readsFrom_readParents_iff heeds isValue).mp reads
            exact .parents rfl list told
    | ref reads =>
        obtain ⟨fits, rfl⟩ := (readsFrom_readNatural_iff isValue).mp reads
        exact .ref fits
    | unknown unknown => exact .unknown unknown
  · intro told
    cases told with
    | id reads => exact .id reads
    | parentIds reads => exact .parentIds reads
    | parents nested list told =>
        cases heeds with
        | none => cases nested
        | some heeds =>
            cases nested
            exact .parents ((readsFrom_readParents_iff heeds isValue).mpr ⟨_, list, told⟩)
    | ref fits => exact .ref ((readsFrom_readNatural_iff isValue).mpr ⟨fits, rfl⟩)
    | unknown unknown => exact .unknown unknown isValue

theorem Heeds.nodes_of_rel (heeds : Option.Rel Heeds parent tellings) :
    ∀ read, parent = some read → ReadsNodes read := by
  rintro read rfl
  cases heeds with
  | some heeds => exact heeds.nodes

variable [Builds σ ν]

/-- From a node object with given members a node is got exactly if the members tell of it. -/
theorem nodeFrom_iff_of_objectText (heeds : Option.Rel Heeds parent tellings)
    {members : List Member} (object : ObjectText members text) :
    NodeFrom (readNodeObject budget parent) state text after ref ↔
      ∃ between fields, Runs (MemberTells budget tellings) (state, {}) members (between, fields) ∧
        Builds.make between fields = (after, .ok ref) := by
  have nodes := Heeds.nodes_of_rel heeds
  constructor
  · intro isFrom
    obtain ⟨between, fields, read, made⟩ :=
      readNodeObject_eq_ok.mp (isFrom [] [] Json.blank_nil Json.endsNumber_nil)
    obtain ⟨-, runs⟩ :=
      Json.runs_of_readObject (readNodeMember_steps nodes) Json.blank_nil object read
    refine ⟨between, fields, runs.imp fun member among before next taken => ?_, made⟩
    have isValue := (object.1 member among).2
    exact (nodeStep_iff_memberTells heeds isValue before next).mp
      (nodeStep_of_takesBehind nodes isValue taken)
  · rintro ⟨between, fields, told, made⟩ gap more blank -
    have runs : Json.RunsOverMembers (readNodeMember budget parent) (state, {}) members
        (between, fields) :=
      told.imp fun member among before next tells => NodeTold.takesBehind
        ((nodeStep_iff_memberTells heeds (object.1 member among).2 before next).mpr tells)
    exact readNodeObject_eq_ok.mpr
      ⟨between, fields, Json.readObject_append blank object runs more, made⟩

/-- A value from which a node is got is an object. -/
theorem exists_objectText (nodes : ∀ read, parent = some read → ReadsNodes read)
    (isValue : IsValue text)
    (isFrom : NodeFrom (readNodeObject budget parent) state text after ref) :
    ∃ members, ObjectText members text := by
  obtain ⟨between, fields, read, -⟩ :=
    readNodeObject_eq_ok.mp (isFrom [] [] Json.blank_nil Json.endsNumber_nil)
  obtain ⟨gap, members, other, blank, object, split, -⟩ :=
    Json.readObject_eq_ok (readNodeMember_steps nodes) read
  obtain ⟨rfl, -⟩ := isValue.unique object.isValue Json.blank_nil blank Json.endsNumber_nil
    Json.endsNumber_nil split
  exact ⟨members, object⟩

theorem heeds_readNodeObject (budget : Nat) (heeds : Option.Rel Heeds parent tellings) :
    Heeds (readNodeObject budget parent) (ObjectTells budget tellings) where
  nodes _ _ ref := (readNodeObject_readsValues (Heeds.nodes_of_rel heeds) ref).of_anything
  iff state text after ref isValue := by
    constructor
    · intro isFrom
      obtain ⟨members, object⟩ := exists_objectText (Heeds.nodes_of_rel heeds) isValue isFrom
      obtain ⟨between, fields, told, made⟩ := (nodeFrom_iff_of_objectText heeds object).mp isFrom
      exact ⟨members, between, fields, object, told, made⟩
    · rintro ⟨members, between, fields, object, told, made⟩
      exact (nodeFrom_iff_of_objectText heeds object).mpr ⟨between, fields, told, made⟩

/-- A node is read from a value exactly if its text tells of the node. -/
theorem heeds_readNode : ∀ budget, Heeds (readNode budget : ReaderIn σ ν) (NodeTells budget)
  | 0 => ⟨readsNodes_readNode 0, fun _ _ _ ref _ =>
      iff_of_false (fun isFrom => readNode_zero ref (isFrom [] [] Json.blank_nil
        Json.endsNumber_nil)) (fun tells => tells)⟩
  | 1 => heeds_readNodeObject 0 .none
  | budget + 2 => heeds_readNodeObject (budget + 1) (.some (heeds_readNode budget))

end Readers

/-! ## Texts of records -/

section Records

variable {σ ν : Type} [Builds σ ν] {budget : Nat} {state after : σ}

/-- What a member of a record tells by its text. -/
inductive RecordTells (budget : Nat) : σ × DecodedOf ν → Member → σ × DecodedOf ν → Prop where
  | null {state : σ} {record : DecodedOf ν} {head : Input} {byte : UInt8} {letters : List UInt8}
      (isNull : Json.word? byte = some (none, letters)) :
      RecordTells budget (state, record) ⟨"node", head, byte :: letters⟩
        (state, { record with node := none })
  | node {state after : σ} {record : DecodedOf ν} {head value : Input} {ref : ν}
      (tells : NodeTells budget state value after ref) :
      RecordTells budget (state, record) ⟨"node", head, value⟩
        (after, { record with node := some ref })
  | actions {state : σ} {record : DecodedOf ν} {head value : Input}
      {actions : Option (List Action)}
      (reads : ReadsFrom EndsNumber
        (fun input rest => Action.readMany budget input = .ok (actions, rest)) value) :
      RecordTells budget (state, record) ⟨"actions", head, value⟩
        (state, { record with actions := actions.getD [] })
  | unknown {state : σ × DecodedOf ν} {member : Member} (unknown : member.key ∉ recordKeys) :
      RecordTells budget state member state

theorem objectText_of_nodeTells {text : Input} {ref : ν} :
    ∀ {budget}, NodeTells budget state text after ref → ∃ members, ObjectText members text
  | 1, ⟨members, _, _, object, _⟩ | _ + 2, ⟨members, _, _, object, _⟩ => ⟨members, object⟩

/-- The node of a record is read from its text, or from the word for none. -/
theorem readsFrom_readNodeOrNull_iff {value : Input} (isValue : IsValue value) {node : Option ν} :
    ReadsFrom EndsNumber
        (fun input rest => readNodeOrNull budget state input = (after, .ok (node, rest))) value ↔
      (∃ byte letters, Json.word? byte = some (none, letters) ∧ value = byte :: letters ∧
        node = none ∧ after = state) ∨
      ∃ ref, NodeTells budget state value after ref ∧ node = some ref := by
  have heeds : Heeds (readNode budget : ReaderIn σ ν) (NodeTells budget) := heeds_readNode budget
  constructor
  · intro reads
    have read := reads [] [] Json.blank_nil Json.endsNumber_nil
    obtain ⟨byte, tail, rfl, opens⟩ := isValue.opens
    simp only [List.nil_append, List.append_nil] at read
    by_cases isNull : ∃ letters, Json.word? byte = some (none, letters)
    · obtain ⟨letters, isNull⟩ := isNull
      rw [readNodeOrNull_null opens.1 isNull, Prod.mk.injEq, map_eq_ok_iff] at read
      obtain ⟨rfl, left, isRead, same⟩ := read
      cases same
      have isWord := Json.readWord_eq_ok_iff.mp isRead
      rw [List.append_nil] at isWord
      exact .inl ⟨byte, letters, isNull, by rw [isWord], rfl, rfl⟩
    · rw [not_exists] at isNull
      obtain ⟨ref, isRead, rfl⟩ := (readNodeOrNull_some opens.1 isNull).mp read
      have placed :
          readNode budget state ([] ++ (byte :: tail ++ [])) = (after, .ok (ref, [])) := by
        simpa using isRead
      obtain ⟨-, isFrom⟩ := (heeds.nodes state after ref).of_isValue isValue Json.blank_nil
        Json.endsNumber_nil Json.endsNumber_nil placed
      exact .inr ⟨ref, (heeds.iff _ _ _ _ isValue).mp isFrom, rfl⟩
  · rintro (⟨byte, letters, isNull, rfl, rfl, rfl⟩ | ⟨ref, tells, rfl⟩) gap more blank ends
    · obtain ⟨first, others, split, opens⟩ := isValue.opens
      obtain ⟨rfl, -⟩ := List.cons.inj split
      rw [readNodeOrNull_append blank, List.cons_append, readNodeOrNull_null opens.1 isNull,
        Json.readWord_eq_ok_iff.mpr rfl]
      rfl
    · have isFrom := (heeds.iff _ _ _ _ isValue).mpr tells
      obtain ⟨members, -, inner, -, rfl⟩ := objectText_of_nodeTells tells
      have noWord (letters : List UInt8) :
          Json.word? Json.openBrace ≠ some (none, letters) := by
        have none : Json.word? Json.openBrace = none := by decide
        simp [none]
      rw [readNodeOrNull_append blank]
      exact (readNodeOrNull_some (by decide) noWord).mpr
        ⟨ref, isFrom [] more Json.blank_nil ends, rfl⟩

/-- What a member tells the reader of a record, it tells by its text. -/
theorem recordStep_iff_recordTells {member : Member} (isValue : IsValue member.value)
    (before next : σ × DecodedOf ν) :
    RecordStep budget before member next ↔ RecordTells budget before member next := by
  obtain ⟨key, head, value⟩ := member
  simp only [RecordStep] at isValue ⊢
  constructor
  · intro told
    cases told with
    | node reads =>
        obtain ⟨byte, letters, isNull, rfl, rfl, rfl⟩ | ⟨ref, tells, rfl⟩ :=
          (readsFrom_readNodeOrNull_iff isValue).mp reads
        · exact .null isNull
        · exact .node tells
    | actions reads => exact .actions reads
    | unknown unknown => exact .unknown unknown
  · intro told
    cases told with
    | null isNull =>
        exact .node ((readsFrom_readNodeOrNull_iff isValue).mpr
          (.inl ⟨_, _, isNull, rfl, rfl, rfl⟩))
    | node tells =>
        exact .node ((readsFrom_readNodeOrNull_iff isValue).mpr (.inr ⟨_, tells, rfl⟩))
    | actions reads => exact .actions reads
    | unknown unknown => exact .unknown unknown isValue

/-- A document is accepted exactly if it is one object between blanks whose members tell of the
record, whatever the state is that the readers thread through. -/
theorem readRecord_eq_ok_iff_tells {document : Input} {record : DecodedOf ν} :
    readRecord state document = (after, .ok record) ↔
      ∃ members text, Padded text document ∧ ObjectText members text ∧
        Runs (RecordTells recordBudget) (state, {}) members (after, record) := by
  rw [readRecord_eq_ok_iff]
  constructor
  · rintro ⟨behind, blankBehind, read⟩
    obtain ⟨gap, members, text, blank, object, rfl, runs⟩ :=
      Json.readObject_eq_ok readRecordMember_steps read
    refine ⟨members, text, ⟨gap, behind, blank, blankBehind, rfl⟩, object,
      runs.imp fun member among before next taken => ?_⟩
    have isValue := (object.1 member among).2
    exact (recordStep_iff_recordTells isValue before next).mp
      (recordStep_of_takesBehind isValue taken)
  · rintro ⟨members, text, ⟨gap, behind, blank, blankBehind, rfl⟩, object, told⟩
    have runs : Json.RunsOverMembers (readRecordMember recordBudget) (state, {}) members
        (after, record) :=
      told.imp fun member among before next tells => RecordTold.takesBehind
        ((recordStep_iff_recordTells (object.1 member among).2 before next).mpr tells)
    exact ⟨behind, blankBehind, Json.readObject_append blank object runs behind⟩

end Records

/-! ## References -/

/-- The text of the last member `ref` of a node object. -/
def refText (members : List Member) : Option Input :=
  ((members.filter fun member => member.key = "ref").getLast?).map Member.value

theorem refText_cons (member : Member) (members : List Member) :
    refText (member :: members) =
      (refText members).or (if member.key = "ref" then some member.value else none) := by
  by_cases isRef : member.key = "ref"
  · rw [refText, List.filter_cons_of_pos (by simpa using isRef), List.getLast?_cons, if_pos isRef,
      refText]
    cases (members.filter fun member => member.key = "ref").getLast? <;> rfl
  · rw [refText, List.filter_cons_of_neg (by simpa using isRef), if_neg isRef, Option.or_none,
      refText]

theorem writeNatural_inj {value other : Nat} :
    writeNatural value = writeNatural other ↔ value = other := by
  refine ⟨fun same => ?_, congrArg _⟩
  rw [← Json.digitsValue_writeNatural value, same, Json.digitsValue_writeNatural]

section Objects

variable {σ ν : Type} {budget : Nat} {tellings : Option (Telling σ ν)} {state between : σ}
  {members : List Member} {text : Input}

/-- The position that a node object has told of in the end is written in its last member `ref`. -/
theorem reference_of_runs {before told : NodeFieldsOf ν}
    (runs : Runs (MemberTells budget tellings) (state, before) members (between, told)) :
    told.reference.map writeNatural = (refText members).or (before.reference.map writeNatural) := by
  generalize isStart : (state, before) = start at runs
  generalize isLast : (between, told) = last at runs
  induction runs generalizing state before with
  | nil _ =>
      cases isStart
      cases isLast
      rfl
  | @cons _ next _ member members taken _ ih =>
      subst isStart
      have later := ih rfl isLast
      have here : next.2.reference.map writeNatural =
          (if member.key = "ref" then some member.value else none).or
            (before.reference.map writeNatural) := by
        cases taken with
        | id | parentIds | parents | ref => rfl
        | unknown unknown =>
            have notRef : member.key ≠ "ref" := by
              intro isRef
              simp [nodeKeys, isRef] at unknown
            rw [if_neg notRef, Option.none_or]
      rw [later, here, refText_cons, Option.or_assoc]

variable [Builds σ ν]

/-- What the text of a node object tells is told by its members. -/
theorem runs_of_nodeTells {after : σ} {ref : ν} (object : ObjectText members text) :
    ∀ {budget}, NodeTells budget state text after ref → ∃ inner tellings between fields,
      Runs (MemberTells inner tellings) (state, {}) members (between, fields) ∧
        fields.reference.map writeNatural = refText members ∧
          Builds.make between fields = (after, .ok ref) := by
  have told {inner : Nat} {parent : Option (ReaderIn σ ν)} {tellings : Option (Telling σ ν)}
      (heeds : Option.Rel Heeds parent tellings)
      (tells : ObjectTells inner tellings state text after ref) : ∃ between fields,
        Runs (MemberTells inner tellings) (state, {}) members (between, fields) ∧
          fields.reference.map writeNatural = refText members ∧
            Builds.make between fields = (after, .ok ref) := by
    have isFrom := ((heeds_readNodeObject inner heeds).iff _ _ _ _ object.isValue).mpr tells
    obtain ⟨between, fields, runs, made⟩ := (nodeFrom_iff_of_objectText heeds object).mp isFrom
    have isText := reference_of_runs runs
    rw [Option.map_none, Option.or_none] at isText
    exact ⟨between, fields, runs, isText, made⟩
  intro budget tells
  match budget, tells with
  | 1, tells =>
      obtain ⟨between, fields, told⟩ := told .none tells
      exact ⟨_, _, between, fields, told⟩
  | budget + 2, tells =>
      obtain ⟨between, fields, told⟩ := told (.some (heeds_readNode budget)) tells
      exact ⟨_, _, between, fields, told⟩

end Objects

/-- In an outline a node object is a reference to a position exactly if this is the text of its last
member `ref`. -/
theorem mention_eq_reference_iff {budget : Nat} {log after : Log} {mention : Mention} {text : Input}
    {members : List Member} (object : ObjectText members text)
    (tells : NodeTells budget log text after mention) (position : Nat) :
    mention = .reference position ↔ refText members = some (writeNatural position) := by
  obtain ⟨-, -, between, fields, -, isText, made⟩ := runs_of_nodeTells object tells
  change between.tell fields = _ at made
  rw [← isText]
  rw [Log.tell] at made
  split at made
  · next told isReference =>
      split at made
      · cases made
        simp [isReference, writeNatural_inj]
      · cases made
  · next isNone =>
      have notReference : mention ≠ .reference position := by
        rintro rfl
        split at made
        · cases made
        · split at made <;> cases made
      simp [isNone, notReference]

/-- The mentions of predecessors go with their texts one by one. -/
theorem mentions_of_runs {budget : Nat} {log after : Log} {elements : List Input}
    {seen mentions : List Mention}
    (runs : Runs (ParentTells (NodeTells budget)) (log, seen) elements (after, mentions)) :
    ∃ told, mentions = seen ++ told ∧
      List.Forall₂ (fun element mention => ∀ members, ObjectText members element → ∀ position,
        mention = .reference position ↔ refText members = some (writeNatural position))
        elements told := by
  generalize isStart : (log, seen) = start at runs
  generalize isLast : (after, mentions) = last at runs
  induction runs generalizing log seen with
  | nil _ =>
      cases isStart
      cases isLast
      exact ⟨[], by simp, .nil⟩
  | @cons _ next _ element elements taken _ ih =>
      subst isStart
      rcases next with ⟨between, shown⟩
      obtain ⟨mention, tells, isNext⟩ := taken
      obtain ⟨told, rfl, matched⟩ := ih rfl isLast
      obtain rfl : shown = seen ++ [mention] := isNext
      refine ⟨mention :: told, by simp, .cons ?_ matched⟩
      intro members object position
      exact mention_eq_reference_iff object tells position

/-- In a session a node object whose last member `ref` is the text of a position is the node that
was recorded there, whatever was recorded before. -/
theorem at?_of_refers {budget : Nat} {session after : Session} {ref : NodeRef} {text : Input}
    {members : List Member} (object : ObjectText members text)
    (tells : NodeTells budget session text after ref) {position : Nat}
    (refers : refText members = some (writeNatural position)) :
    after.registry.at? position = some ref := by
  obtain ⟨-, -, between, fields, -, isText, made⟩ := runs_of_nodeTells object tells
  change build between fields = _ at made
  rw [refers, Option.map_eq_some_iff] at isText
  obtain ⟨told, isReference, same⟩ := isText
  rw [writeNatural_inj] at same
  subst same
  rw [build, isReference] at made
  split at made
  · next other isReference =>
      cases isReference
      split at made
      · next ref there =>
          cases made
          exact there
      · cases made
  · next isNone => cases isNone

end TraceStore.Record
