import Mathlib.Data.List.Forall2
import Mathlib.Data.Option.Basic
import TraceStore.Proofs.Json.Folds
import TraceStore.Record.Reading

/-!
# Readers that build alike

The readers of records leave it to the state what is made of a node object.  So whatever
corresponds between two kinds of states and the nodes that they make goes on to do so through every
reader, if it does where nodes are made: the two readers refuse at the same place for the same
reason, or they read equally far and give what corresponds (`readRecord_reads`).

Nodes may be made long after others were met that they refer to.  For this what corresponds has to
correspond in all later states as well, which is a part of going `Onward`.
-/

namespace TraceStore

namespace Record

open Json (Fault InStep Input Paired PairsContents)

/-- What corresponds of two kinds of states, and in given states of the nodes that they make. -/
structure Correspondence (σ τ ν μ : Type) where
  States : σ → τ → Prop
  Nodes : σ → τ → ν → μ → Prop

/-- What two node objects have told corresponds. -/
structure NodeFieldsOf.Like {ν μ : Type} (same : ν → μ → Prop) (fields : NodeFieldsOf ν)
    (others : NodeFieldsOf μ) : Prop where
  id : fields.id = others.id
  parentIds : fields.parentIds = others.parentIds
  parents : Option.Rel (List.Forall₂ same) fields.parents others.parents
  reference : fields.reference = others.reference

/-- What two records hold corresponds. -/
structure DecodedOf.Like {ν μ : Type} (same : ν → μ → Prop) (record : DecodedOf ν)
    (other : DecodedOf μ) : Prop where
  node : Option.Rel same record.node other.node
  actions : record.actions = other.actions

section Monotone

variable {ν μ : Type} {same later : ν → μ → Prop} (more : ∀ node other, same node other →
  later node other)

include more

theorem optionRel_imp {node : Option ν} {other : Option μ} (related : Option.Rel same node other) :
    Option.Rel later node other := by
  cases related with
  | none => exact .none
  | some related => exact .some (more _ _ related)

theorem NodeFieldsOf.Like.imp {fields : NodeFieldsOf ν} {others : NodeFieldsOf μ}
    (like : fields.Like same others) : fields.Like later others where
  id := like.id
  parentIds := like.parentIds
  parents := optionRel_imp (fun _ _ => List.Forall₂.imp more) like.parents
  reference := like.reference

theorem DecodedOf.Like.imp {record : DecodedOf ν} {other : DecodedOf μ}
    (like : record.Like same other) : record.Like later other where
  node := optionRel_imp more like.node
  actions := like.actions

end Monotone

namespace Correspondence

variable {σ τ ν μ : Type} (corresponds : Correspondence σ τ ν μ)

/-- Two states that correspond, and in which everything does that corresponded in earlier ones. -/
structure Onward (left : σ) (right : τ) (later : σ) (other : τ) : Prop where
  states : corresponds.States later other
  nodes : ∀ node twin,
    corresponds.Nodes left right node twin → corresponds.Nodes later other node twin

/-- Onward states next to what was gathered on the way. -/
def OnwardWith {α β : Type} (like : (ν → μ → Prop) → α → β → Prop) (left : σ) (right : τ)
    (later : σ × α) (other : τ × β) : Prop :=
  corresponds.Onward left right later.1 other.1 ∧
    like (corresponds.Nodes later.1 other.1) later.2 other.2

/-- Two readers of what corresponds. -/
def Reads {α β : Type} (like : (ν → μ → Prop) → α → β → Prop) (read : ReaderIn σ α)
    (other : ReaderIn τ β) : Prop :=
  ∀ left right input, corresponds.States left right →
    Paired (corresponds.Onward left right)
      (fun later beside value twin =>
        like (corresponds.Nodes later beside) value.1 twin.1 ∧ value.2 = twin.2)
      (read left input) (other right input)

variable {corresponds} {left : σ} {right : τ} {input : Input}

theorem Onward.refl (states : corresponds.States left right) :
    corresponds.Onward left right left right :=
  ⟨states, fun _ _ => id⟩

theorem Onward.trans {between later : σ} {beside other : τ}
    (first : corresponds.Onward left right between beside)
    (second : corresponds.Onward between beside later other) :
    corresponds.Onward left right later other :=
  ⟨second.states, fun node twin related => second.nodes node twin (first.nodes node twin related)⟩

/-! ## Predecessors -/

section Predecessors

variable {read : ReaderIn σ ν} {other : ReaderIn τ μ} {parent : Option (ReaderIn σ ν)}
  {beside : Option (ReaderIn τ μ)}

theorem readParent_pairs (reads : corresponds.Reads id read other) (state : σ × List ν)
    (twin : τ × List μ) (input : Input)
    (onward : corresponds.OnwardWith List.Forall₂ left right state twin) :
    InStep (corresponds.OnwardWith List.Forall₂ left right) (readParent read state input)
      (readParent other twin input) := by
  have paired := reads state.1 twin.1 input onward.1.states
  rw [readParent, readParent]
  generalize read state.1 input = run at paired ⊢
  generalize other twin.1 input = ran at paired ⊢
  cases paired with
  | error further fault =>
      exact .error ⟨onward.1.trans further, onward.2.imp further.nodes⟩ fault
  | ok further given =>
      obtain ⟨same, rest⟩ := given
      exact .ok ⟨onward.1.trans further,
        List.rel_append (onward.2.imp further.nodes) (.cons same .nil)⟩ rest

theorem readParents_reads (reads : Option.Rel (corresponds.Reads id) parent beside) :
    corresponds.Reads List.Forall₂ (readParents parent) (readParents beside) := by
  intro left right input states
  have contents : PairsContents (corresponds.OnwardWith List.Forall₂ left right)
      (parent.map fun read state input =>
        Json.foldElements (readParent read) (input.length + 1) true state input)
      (beside.map fun read state input =>
        Json.foldElements (readParent read) (input.length + 1) true state input) := by
    cases reads with
    | none => exact .none
    | some reads =>
        exact .some fun state twin input onward =>
          Json.foldElements_pairs (readParent_pairs reads) _ _ input onward
  have started : corresponds.OnwardWith List.Forall₂ left right (left, []) (right, []) :=
    ⟨.refl states, .nil⟩
  have paired := Json.readList_pairs "a list of parent nodes" contents input started
  rw [readParents, readParents]
  generalize Json.readList _ _ (left, ([] : List ν)) input = run at paired ⊢
  generalize Json.readList _ _ (right, ([] : List μ)) input = ran at paired ⊢
  cases paired with
  | error onward fault => exact .error onward.1 fault
  | ok onward rest => exact .ok onward.1 ⟨onward.2, rest⟩

theorem readNodeMember_pairs (budget : Nat)
    (reads : Option.Rel (corresponds.Reads id) parent beside) (state : σ × NodeFieldsOf ν)
    (twin : τ × NodeFieldsOf μ) (key : String) (input : Input)
    (onward : corresponds.OnwardWith NodeFieldsOf.Like left right state twin) :
    InStep (corresponds.OnwardWith NodeFieldsOf.Like left right)
      (readNodeMember budget parent state key input)
      (readNodeMember budget beside twin key input) := by
  obtain ⟨state, fields⟩ := state
  obtain ⟨twin, others⟩ := twin
  obtain ⟨onward, like⟩ := onward
  simp only [readNodeMember]
  rcases Json.skipColon input with fault | input
  · exact .error ⟨onward, like⟩ fault
  dsimp only
  split_ifs with isId areIds areParents isReference
  · rcases Json.readText "a string" input with fault | ⟨id, rest⟩
    · exact .error ⟨onward, like⟩ fault
    · exact .ok ⟨onward, { like with id := rfl }⟩ rfl
  · rcases Json.readListOf budget (fun _ => Json.readText "a string") input with fault | ⟨ids, rest⟩
    · exact .error ⟨onward, like⟩ fault
    · exact .ok ⟨onward, { like with parentIds := rfl }⟩ rfl
  · -- Only the predecessors change the states, and with them what corresponds.
    have paired := readParents_reads reads state twin input onward.states
    generalize readParents parent state input = run at paired ⊢
    generalize readParents beside twin input = ran at paired ⊢
    cases paired with
    | error further fault => exact .error ⟨onward.trans further, like.imp further.nodes⟩ fault
    | ok further given =>
        obtain ⟨same, rest⟩ := given
        have later := like.imp further.nodes
        exact .ok ⟨onward.trans further, { later with parents := .some same }⟩ rest
  · rcases Json.readNatural "usize" Word.size input with fault | ⟨position, rest⟩
    · exact .error ⟨onward, like⟩ fault
    · exact .ok ⟨onward, { like with reference := rfl }⟩ rfl
  · exact .inStep ⟨onward, like⟩ _

/-! ## Nodes -/

variable [Builds σ ν] [Builds τ μ]

variable (corresponds) in
/-- What corresponds is made of what corresponds. -/
def Makes : Prop :=
  ∀ left right fields others, corresponds.States left right →
    NodeFieldsOf.Like (corresponds.Nodes left right) fields others →
      Paired (corresponds.Onward left right) corresponds.Nodes (Builds.make left fields)
        (Builds.make right others)

theorem readNodeObject_reads (makes : corresponds.Makes) (budget : Nat)
    (reads : Option.Rel (corresponds.Reads id) parent beside) :
    corresponds.Reads id (readNodeObject budget parent) (readNodeObject budget beside) := by
  intro left right input states
  have contents : PairsContents (corresponds.OnwardWith NodeFieldsOf.Like left right)
      (some fun state input =>
        Json.foldMembers (readNodeMember budget parent) (input.length + 1) true state input)
      (some fun state input =>
        Json.foldMembers (readNodeMember budget beside) (input.length + 1) true state input) :=
    .some fun state twin input onward =>
      Json.foldMembers_pairs (readNodeMember_pairs budget reads) _ _ input onward
  have started : corresponds.OnwardWith NodeFieldsOf.Like left right (left, {}) (right, {}) :=
    ⟨.refl states, ⟨rfl, rfl, .none, rfl⟩⟩
  have paired := Json.readObject_pairs "a flow node" contents input started
  rw [readNodeObject, readNodeObject]
  generalize Json.readObject _ _ (left, ({} : NodeFieldsOf ν)) input = run at paired ⊢
  generalize Json.readObject _ _ (right, ({} : NodeFieldsOf μ)) input = ran at paired ⊢
  cases paired with
  | error onward fault => exact .error onward.1 fault
  | @ok state twin rest _ onward same =>
      cases same
      have made := makes _ _ _ _ onward.1.states onward.2
      dsimp only
      generalize Builds.make state.1 state.2 = making at made ⊢
      generalize Builds.make twin.1 twin.2 = makes at made ⊢
      cases made with
      | error further cause => exact .error (onward.1.trans further) _
      | ok further same => exact .ok (onward.1.trans further) ⟨same, rfl⟩

theorem readNode_reads (makes : corresponds.Makes) :
    ∀ budget, corresponds.Reads id (readNode budget) (readNode budget)
  | 0 => by
      intro left right input states
      have paired := Json.readObject_pairs "a flow node" .none input (Onward.refl states)
      simp only [readNode]
      generalize Json.readObject _ _ left input = run at paired ⊢
      generalize Json.readObject _ _ right input = ran at paired ⊢
      cases paired with
      | error onward fault => exact .error onward fault
      | ok onward same =>
          cases same
          exact .error onward _
  | 1 => readNodeObject_reads makes 0 .none
  | budget + 2 => readNodeObject_reads makes (budget + 1) (.some (readNode_reads makes budget))

/-! ## Records -/

theorem readNodeOrNull_reads (makes : corresponds.Makes) (budget : Nat) :
    corresponds.Reads Option.Rel (readNodeOrNull budget) (readNodeOrNull budget) := by
  intro left right input states
  have node (input : Input) := readNode_reads makes budget left right input states
  rw [readNodeOrNull, readNodeOrNull]
  rcases Json.skipBlank input with _ | ⟨byte, tail⟩
  · have paired := node []
    dsimp only
    generalize readNode budget left [] = run at paired ⊢
    generalize readNode budget right [] = ran at paired ⊢
    cases paired with
    | error onward fault => exact .error onward fault
    | ok onward given => exact .ok onward ⟨.some given.1, given.2⟩
  · dsimp only
    split
    · next letters _ =>
        rcases Json.readWord letters tail with fault | rest
        · exact .error (.refl states) fault
        · exact .ok (.refl states) ⟨.none, rfl⟩
    · have paired := node (byte :: tail)
      generalize readNode budget left (byte :: tail) = run at paired ⊢
      generalize readNode budget right (byte :: tail) = ran at paired ⊢
      cases paired with
      | error onward fault => exact .error onward fault
      | ok onward given => exact .ok onward ⟨.some given.1, given.2⟩

theorem readRecordMember_pairs (makes : corresponds.Makes) (budget : Nat)
    (state : σ × DecodedOf ν) (twin : τ × DecodedOf μ) (key : String) (input : Input)
    (onward : corresponds.OnwardWith DecodedOf.Like left right state twin) :
    InStep (corresponds.OnwardWith DecodedOf.Like left right)
      (readRecordMember budget state key input) (readRecordMember budget twin key input) := by
  obtain ⟨state, record⟩ := state
  obtain ⟨twin, other⟩ := twin
  obtain ⟨onward, like⟩ := onward
  simp only [readRecordMember]
  rcases Json.skipColon input with fault | input
  · exact .error ⟨onward, like⟩ fault
  dsimp only
  split_ifs with isNode areActions
  · have paired := readNodeOrNull_reads makes budget state twin input onward.states
    generalize readNodeOrNull budget state input = run at paired ⊢
    generalize readNodeOrNull budget twin input = ran at paired ⊢
    cases paired with
    | error further fault => exact .error ⟨onward.trans further, like.imp further.nodes⟩ fault
    | ok further given =>
        obtain ⟨same, rest⟩ := given
        exact .ok ⟨onward.trans further, ⟨same, like.actions⟩⟩ rest
  · rcases Action.readMany budget input with fault | ⟨actions, rest⟩
    · exact .error ⟨onward, like⟩ fault
    · exact .ok ⟨onward, ⟨like.node, rfl⟩⟩ rfl
  · exact .inStep ⟨onward, like⟩ _

/-- Records are read alike from states that correspond. -/
theorem readRecord_pairs (makes : corresponds.Makes) (document : Input)
    (states : corresponds.States left right) :
    Paired (corresponds.Onward left right)
      (fun later other => DecodedOf.Like (corresponds.Nodes later other))
      (readRecord left document) (readRecord right document) := by
  have contents : PairsContents (corresponds.OnwardWith DecodedOf.Like left right)
      (some fun state input => Json.foldMembers (readRecordMember (Json.nestingLimit - 1))
        (input.length + 1) true state input)
      (some fun state input => Json.foldMembers (readRecordMember (Json.nestingLimit - 1))
        (input.length + 1) true state input) :=
    .some fun state twin input onward =>
      Json.foldMembers_pairs (readRecordMember_pairs makes _) _ _ input onward
  have started : corresponds.OnwardWith DecodedOf.Like left right (left, {}) (right, {}) :=
    ⟨.refl states, ⟨.none, rfl⟩⟩
  have paired := Json.readObject_pairs "a flow node record" contents document started
  rw [readRecord, readRecord]
  generalize Json.readObject _ _ (left, ({} : DecodedOf ν)) document = run at paired ⊢
  generalize Json.readObject _ _ (right, ({} : DecodedOf μ)) document = ran at paired ⊢
  cases paired with
  | error onward fault => exact .error onward.1 fault
  | @ok _ _ rest _ onward same =>
      cases same
      dsimp only
      rcases Json.readEnd rest with fault | ended
      · exact .error onward.1 fault
      · exact .ok onward.1 onward.2

end Predecessors

end Correspondence

end Record

end TraceStore
