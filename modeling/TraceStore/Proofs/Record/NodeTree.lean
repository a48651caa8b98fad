import TraceStore.Proofs.Json.Positions
import TraceStore.Proofs.Record.RoundTrip

/-!
# Trees of node objects

In a record a node may hold its predecessors, as node objects that stand inside of its own, and as
references to node objects that stand elsewhere.  `NodeTree` is such a tree.  Its node objects are
complete in post-order: the predecessors of a node from left to right, then the node.  A reference
gives a position in that order.

What a tree means is said without any reader: `ids` lists the node objects in their order, `records`
the nodes that they stand for, and `Backward` says that every reference names a node object that is
complete where the reference stands.  `StandsAt` says that a tree is written in a document, whatever
the layout, the order of members and the members besides; `holds_writeTree` gives a document for
every tree.
-/

namespace TraceStore.Record

open Json

/-- A node object, or a reference to one. -/
inductive NodeTree where
  /-- Stands for the node object at a position in the order in which they are complete. -/
  | reference (position : Nat)
  /-- A node object with the ids of its predecessors, if it tells any. -/
  | named (id : String) (parentIds : Option (List String))
  /-- A node object that holds its predecessors. -/
  | holding (id : String) (parents : List NodeTree)
  deriving Repr

namespace NodeTree

/-! ## The order of node objects -/

mutual

/-- The ids of the node objects in the order in which they are complete. -/
def ids : NodeTree → List String
  | .reference _ => []
  | .named id _ => [id]
  | .holding id parents => idsOf parents ++ [id]

/-- The ids of the node objects of several trees. -/
def idsOf : List NodeTree → List String
  | [] => []
  | tree :: others => tree.ids ++ idsOf others

end

/-- The position of the node that a tree stands for, behind `complete` node objects. -/
def position (complete : Nat) : NodeTree → Nat
  | .reference position => position
  | .named _ _ => complete
  | .holding _ parents => complete + (idsOf parents).length

/-- The positions of the nodes that trees stand for, one tree behind the other. -/
def positionsOf : (complete : Nat) → List NodeTree → List Nat
  | _, [] => []
  | complete, tree :: others =>
      tree.position complete :: positionsOf (complete + tree.ids.length) others

mutual

/-- Whether references only name node objects that are complete, where `complete` of them are in
front of the tree. -/
def Backward (complete : Nat) : NodeTree → Prop
  | .reference position => position < complete
  | .named _ _ => True
  | .holding _ parents => BackwardAll complete parents

/-- Whether references in trees, one behind the other, only name complete node objects. -/
def BackwardAll (complete : Nat) : List NodeTree → Prop
  | [] => True
  | tree :: others => tree.Backward complete ∧ BackwardAll (complete + tree.ids.length) others

end

/-! ## The nodes -/

/-- The id of the node that a tree stands for, where `names` are the ids of all node objects. -/
def name (names : List String) : NodeTree → String
  | .reference position => names[position]?.getD ""
  | .named id _ => id
  | .holding id _ => id

mutual

/-- The nodes that the node objects stand for, each with the ids of its predecessors. -/
def records (names : List String) : NodeTree → List (String × List String)
  | .reference _ => []
  | .named id parentIds => [(id, parentIds.getD [])]
  | .holding id parents => recordsOf names parents ++ [(id, parents.map (name names))]

/-- The nodes that the node objects of several trees stand for. -/
def recordsOf (names : List String) : List NodeTree → List (String × List String)
  | [] => []
  | tree :: others => tree.records names ++ recordsOf names others

end

mutual

@[simp] theorem map_fst_records (names : List String) :
    (tree : NodeTree) → (tree.records names).map Prod.fst = tree.ids
  | .reference _ => rfl
  | .named _ _ => rfl
  | .holding id parents => by simp [records, ids, map_fst_recordsOf names parents]

@[simp] theorem map_fst_recordsOf (names : List String) :
    (trees : List NodeTree) → (recordsOf names trees).map Prod.fst = idsOf trees
  | [] => rfl
  | tree :: others => by
      simp [recordsOf, idsOf, map_fst_records names tree, map_fst_recordsOf names others]

end

@[simp] theorem length_records (names : List String) (tree : NodeTree) :
    (tree.records names).length = tree.ids.length := by
  rw [← map_fst_records names tree, List.length_map]

@[simp] theorem length_recordsOf (names : List String) (trees : List NodeTree) :
    (recordsOf names trees).length = (idsOf trees).length := by
  rw [← map_fst_recordsOf names trees, List.length_map]

section Names

variable {before known names : List String}

/-- The node object at the position of a tree has the id of the node that the tree stands for. -/
theorem getElem?_position {tree : NodeTree} (backward : tree.Backward before.length)
    (reached : before ++ tree.ids <+: known) (all : known <+: names) :
    known[tree.position before.length]? = some (tree.name names) := by
  rcases reached with ⟨more, rfl⟩
  cases tree with
  | reference position =>
      rcases all with ⟨later, rfl⟩
      have there : position < before.length := backward
      simp only [ids, List.append_nil, List.append_assoc, NodeTree.position, name]
      rw [List.getElem?_append_left there, List.getElem?_append_left there,
        List.getElem?_eq_getElem there]
      rfl
  | named id parentIds => simp [NodeTree.position, name, ids]
  | holding id parents => simp [NodeTree.position, name, ids]

theorem getElem?_positionsOf {trees : List NodeTree} (backward : BackwardAll before.length trees)
    (reached : before ++ idsOf trees <+: known) (all : known <+: names) :
    (positionsOf before.length trees).map (known[·]?) =
      (trees.map (name names)).map some := by
  induction trees generalizing before with
  | nil => rfl
  | cons tree others ih =>
      rw [idsOf, ← List.append_assoc] at reached
      have first := getElem?_position backward.1 ((List.prefix_append _ _).trans reached) all
      have later := backward.2
      rw [← List.length_append] at later
      have rest := ih later reached
      rw [List.length_append] at rest
      rw [positionsOf, List.map_cons, first, rest]
      rfl

end Names

/-! ## Documents -/

mutual

/-- How many brackets are open at once in a tree. -/
def nesting : NodeTree → Nat
  | .reference _ => 1
  | .named _ parentIds => parentIds.isSome.toNat + 1
  | .holding _ parents => nestingOf parents + 2

/-- How many brackets are open at once in several trees. -/
def nestingOf : List NodeTree → Nat
  | [] => 0
  | tree :: others => max tree.nesting (nestingOf others)

end

/-- The members that node objects recognize. -/
def nodeKeys : List String := ["id", "parentIds", "parents", "ref"]

/-- A text is read. -/
def TextAt (text : String) (input rest : Input) : Prop :=
  readText "a string" input = .ok (text, rest)

/-- A list of texts is read.  It holds no further brackets, so one level of nesting is enough. -/
def TextsAt (texts : List String) (input rest : Input) : Prop :=
  readListOf 1 (fun _ => readText "a string") input = .ok (texts, rest)

mutual

/-- A tree of node objects. -/
def StandsAt : NodeTree → Input → Input → Prop
  | .reference position => ObjectAt nodeKeys [("ref", NaturalAt position)]
  | .named id none => ObjectAt nodeKeys [("id", TextAt id)]
  | .named id (some parentIds) =>
      ObjectAt nodeKeys [("id", TextAt id), ("parentIds", TextsAt parentIds)]
  | .holding id parents => ObjectAt nodeKeys
      [("id", TextAt id), ("parents", fun input rest =>
        ∃ inside, skipBlank input = openBracket :: inside ∧ ElementsAt true parents inside rest)]

/-- Trees as the elements of a list, up to and with the bracket that closes it. -/
def ElementsAt : (first : Bool) → List NodeTree → Input → Input → Prop
  | _, [], input, rest => skipBlank input = closeBracket :: rest
  | first, tree :: others, input, rest =>
      ∃ start between, PartAt first input start ∧ tree.StandsAt start between ∧
        ElementsAt false others between rest

end

/-- Trees as a list. -/
def ListAt (trees : List NodeTree) (input rest : Input) : Prop :=
  ∃ inside, skipBlank input = openBracket :: inside ∧ ElementsAt true trees inside rest

theorem standsAt_holding (id : String) (parents : List NodeTree) :
    (holding id parents).StandsAt =
      ObjectAt nodeKeys [("id", TextAt id), ("parents", ListAt parents)] := rfl

theorem opens_of_standsAt {tree : NodeTree} {input rest : Input}
    (stands : tree.StandsAt input rest) : ∃ inside, skipBlank input = openBrace :: inside := by
  match tree, stands with
  | .reference _, ⟨inside, _, opens, _⟩ => exact ⟨inside, opens⟩
  | .named _ none, ⟨inside, _, opens, _⟩ => exact ⟨inside, opens⟩
  | .named _ (some _), ⟨inside, _, opens, _⟩ => exact ⟨inside, opens⟩
  | .holding _ _, ⟨inside, _, opens, _⟩ => exact ⟨inside, opens⟩

/-- Blanks in front of a tree make no difference. -/
theorem standsAt_congr {tree : NodeTree} {input other rest : Input}
    (same : skipBlank input = skipBlank other) :
    tree.StandsAt input rest ↔ tree.StandsAt other rest := by
  have object (parts : List (String × (Input → Input → Prop))) :
      ObjectAt nodeKeys parts input rest ↔ ObjectAt nodeKeys parts other rest := by
    rw [ObjectAt, ObjectAt, same]
  match tree with
  | .reference _ => exact object _
  | .named _ none => exact object _
  | .named _ (some _) => exact object _
  | .holding _ _ => exact object _

/-! ## Lengths -/

mutual

/-- Every node object takes up a byte of the document. -/
theorem length_ids_lt : (tree : NodeTree) → {input rest : Input} → tree.StandsAt input rest →
    tree.ids.length + rest.length < input.length
  | .reference _, input, rest, stands => by
      have short := ObjectAt.length_lt stands
      simp only [ids, List.length_nil]
      omega
  | .named _ none, input, rest, stands => by
      have short := ObjectAt.length_lt stands
      simp only [ids, List.length_singleton]
      omega
  | .named _ (some _), input, rest, stands => by
      have short := ObjectAt.length_lt stands
      simp only [ids, List.length_singleton]
      omega
  | .holding _ parents, input, rest, stands => by
      rcases ObjectAt.part_of_mem stands (List.mem_cons_of_mem _ (List.mem_singleton_self _))
        (by simp [nodeKeys]) with ⟨value, after, ⟨inside, opens, elements⟩, starts, ends⟩
      have inner := length_idsOf_lt parents elements
      have shorter := skipBlank_length_le value
      rw [opens] at shorter
      simp only [ids, List.length_append, List.length_cons, List.length_nil] at shorter ⊢
      omega

theorem length_idsOf_lt : (trees : List NodeTree) → {first : Bool} → {input rest : Input} →
    ElementsAt first trees input rest → (idsOf trees).length + rest.length < input.length
  | [], first, input, rest, closes => by
      have shorter := skipBlank_length_le input
      rw [ElementsAt] at closes
      rw [closes] at shorter
      simp only [idsOf, List.length_nil, List.length_cons] at shorter ⊢
      omega
  | tree :: others, first, input, rest, ⟨start, between, part, stands, elements⟩ => by
      have starts := part.length_le
      have head := length_ids_lt tree stands
      have tail := length_idsOf_lt others elements
      simp only [idsOf, List.length_append]
      omega

end

theorem length_lt_of_elementsAt {trees : List NodeTree} {first : Bool} {input rest : Input}
    (elements : ElementsAt first trees input rest) : trees.length < input.length := by
  induction trees generalizing first input with
  | nil =>
      have short := length_idsOf_lt [] elements
      exact Nat.zero_lt_of_lt short
  | cons tree others ih =>
      rcases elements with ⟨start, between, part, stands, elements⟩
      have starts := part.length_le
      have head := length_ids_lt tree stands
      have tail := ih elements
      simp only [List.length_cons]
      omega

/-! ## Written trees -/

mutual

/-- A tree as a value. -/
def toValue : NodeTree → Value
  | .reference position => .object [("ref", .natural position)]
  | .named id none => .object [("id", .text id)]
  | .named id (some parentIds) => .object [("id", .text id), ("parentIds", .texts parentIds)]
  | .holding id parents => .object [("id", .text id), ("parents", .list (toValues parents))]

/-- Trees as values. -/
def toValues : List NodeTree → List Value
  | [] => []
  | tree :: others => tree.toValue :: toValues others

end

theorem textAt_pretty (level : Nat) (text : String) (rest : Input) :
    TextAt text (0x20 :: ((Value.text text).pretty level ++ rest)) rest := by
  rw [TextAt, readText_space, readText_pretty]

theorem textsAt_pretty (level : Nat) (texts : List String) (rest : Input) :
    TextsAt texts (0x20 :: ((Value.texts texts).pretty level ++ rest)) rest := by
  rw [TextsAt, readListOf_space, readListOf_texts]

theorem listAt_pretty {trees : List NodeTree} (level : Nat) (rest : Input)
    (elements : trees ≠ [] → ElementsAt true trees
      (Value.prettyElements (level + 1) (toValues trees) ++
        (Value.newLine level ++ closeBracket :: rest)) rest) :
    ListAt trees (0x20 :: ((Value.list (toValues trees)).pretty level ++ rest)) rest := by
  cases trees with
  | nil =>
      refine ⟨closeBracket :: rest, ?_, ?_⟩
      · rw [skipBlank_space, toValues, Value.pretty, List.cons_append,
          skipBlank_cons (by decide)]
        rfl
      · rw [ElementsAt, skipBlank_cons (by decide)]
  | cons tree others =>
      refine ⟨_, ?_, elements (by simp)⟩
      rw [skipBlank_space, toValues, Value.pretty, List.cons_append, List.cons_append,
        List.cons_append, skipBlank_cons (by decide)]
      simp

mutual

/-- Every tree can be written. -/
theorem standsAt_pretty : (tree : NodeTree) → (level : Nat) → (rest : Input) →
    tree.StandsAt (tree.toValue.pretty level ++ rest) rest
  | .reference position, level, rest => by
      refine objectAt_pretty level (by simp) (by simp [nodeKeys]) ?_ rest
      intro found among left ends
      obtain rfl := List.mem_singleton.mp among
      simpa [MemberOf, nodeKeys] using naturalAt_pretty (level + 1) position ends
  | .named id none, level, rest => by
      refine objectAt_pretty level (by simp) (by simp [nodeKeys]) ?_ rest
      intro found among left ends
      obtain rfl := List.mem_singleton.mp among
      simpa [MemberOf, nodeKeys] using textAt_pretty (level + 1) id left
  | .named id (some parentIds), level, rest => by
      refine objectAt_pretty level (by simp) (by simp [nodeKeys]) ?_ rest
      intro found among left ends
      rcases List.mem_pair.mp among with rfl | rfl
      · simpa [MemberOf, nodeKeys] using textAt_pretty (level + 1) id left
      · simpa [MemberOf, nodeKeys] using textsAt_pretty (level + 1) parentIds left
  | .holding id parents, level, rest => by
      rw [standsAt_holding]
      refine objectAt_pretty level (by simp) (by simp [nodeKeys]) ?_ rest
      intro found among left ends
      rcases List.mem_pair.mp among with rfl | rfl
      · simpa [MemberOf, nodeKeys] using textAt_pretty (level + 1) id left
      · simpa [MemberOf, nodeKeys] using listAt_pretty (level + 1) left
          fun someParent => elementsAt_pretty parents someParent (level + 1 + 1) (level + 1) rfl

/-- Trees that are written as elements stand in front of the bracket that closes their list. -/
theorem elementsAt_pretty : (trees : List NodeTree) → trees ≠ [] → (level outer : Nat) →
    {first : Bool} → {input rest : Input} →
    PartAt first input (Value.prettyElements level (toValues trees) ++
      (Value.newLine outer ++ closeBracket :: rest)) →
    ElementsAt first trees input rest
  | [tree], _, level, outer, first, input, rest, part => by
      have stands := standsAt_pretty tree level (Value.newLine outer ++ closeBracket :: rest)
      simp only [toValues, Value.prettyElements, List.append_assoc] at part
      refine ⟨_, _, part, (standsAt_congr (skipBlank_newLine level _)).mpr stands, ?_⟩
      rw [ElementsAt, skipBlank_newLine, skipBlank_cons (by decide)]
  | tree :: other :: others, _, level, outer, first, input, rest, part => by
      simp only [toValues, Value.prettyElements, List.append_assoc, List.cons_append] at part
      refine ⟨_, _, part, (standsAt_congr (skipBlank_newLine level _)).mpr
        (standsAt_pretty tree level _), ?_⟩
      apply elementsAt_pretty (other :: others) (by simp) level outer
      exact skipBlank_cons (by decide) _

end

end NodeTree

/-! ## Records -/

/-- The members that records recognize. -/
def recordKeys : List String := ["node", "actions"]

/-- A list of actions, or `null` for none, is read. -/
def ActionsAt (actions : List Action) (input rest : Input) : Prop :=
  ∃ found, Action.readMany (nestingLimit - 1) input = .ok (found, rest) ∧ found.getD [] = actions

/-- A document is a record that holds a tree, and actions unless there are none.  Nothing but blanks
follows it. -/
def Holds (document : Input) (tree : NodeTree) (actions : List Action) : Prop :=
  ∃ parts rest, ObjectAt recordKeys (("node", tree.StandsAt) :: parts) document rest ∧
    (parts = [] ∧ actions = [] ∨ parts = [("actions", ActionsAt actions)]) ∧ skipBlank rest = []

/-- A document has more bytes than the tree in it has node objects. -/
theorem Holds.length_ids_lt {document : Input} {tree : NodeTree} {actions : List Action}
    (holds : Holds document tree actions) : tree.ids.length < document.length := by
  rcases holds with ⟨parts, rest, object, -, -⟩
  rcases object.part_of_mem (List.mem_cons_self) (by simp [recordKeys]) with
    ⟨value, after, stands, starts, -⟩
  have inner := NodeTree.length_ids_lt tree stands
  omega

/-- A tree and actions as they are written in a record. -/
def writeTree (tree : NodeTree) (actions : List Action) : Input :=
  (Value.object [("node", tree.toValue),
    ("actions", .list (actions.map Action.toValue))]).pretty 0

/-- The record of a tree holds it, and the actions without what they remember. -/
theorem holds_writeTree (tree : NodeTree) (actions : List Action) :
    Holds (writeTree tree actions) tree (actions.map Action.payload) := by
  refine ⟨[("actions", ActionsAt (actions.map Action.payload))], [], ?_, .inr rfl, rfl⟩
  rw [← List.append_nil (writeTree tree actions)]
  refine objectAt_pretty 0 (by simp) (by simp [recordKeys]) ?_ []
  intro found among left ends
  rcases List.mem_pair.mp among with rfl | rfl
  · have behindSpace : tree.StandsAt (0x20 :: (tree.toValue.pretty 1 ++ left)) left :=
      (NodeTree.standsAt_congr (skipBlank_space _)).mpr (tree.standsAt_pretty 1 left)
    simpa [MemberOf, recordKeys] using behindSpace
  · have read : ActionsAt (actions.map Action.payload)
        (0x20 :: ((Value.list (actions.map Action.toValue)).pretty 1 ++ left)) left :=
      ⟨_, Action.readMany_pretty 124 1 actions left, rfl⟩
    simpa [MemberOf, recordKeys] using read

end TraceStore.Record
