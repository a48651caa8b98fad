import TraceStore.Proofs.Record.NodeObjects

/-!
# Object graphs read as their trees say

A record whose node holds its predecessors is read in one pass, where a reference is looked up among
the nodes that were recorded until then.  Since a node object is recorded when it ends, these are
the node objects that are complete in front of the reference, whichever subtree they belong to.

The invariant of the recursion is that the session is a fresh one after `withNodes`, for the nodes
of the part of the tree that was read: `readNode_of_standsAt` adds those of one tree, and
`foldElements_of_elementsAt` those of the trees in a list.  A reference to a node object that is not
complete stops the reading at once, so `readNode_error_of_standsAt` follows the same recursion up to
the first such reference.  `decode_objectGraph` is what both say of a whole record.
-/

namespace TraceStore.Record

open Json

/-! ## Trees -/

/-- The reader of predecessors inside of a node object whose members have `budget` levels of nesting
left. -/
def parentReader : (budget : Nat) → Option (Reader NodeRef)
  | 0 => none
  | budget + 1 => some (readNode budget)

theorem readNode_succ (budget : Nat) :
    readNode (budget + 1) = readNodeObject budget (parentReader budget) := by
  cases budget <;> rfl

/-- Blanks in front of a node object make no difference. -/
theorem readNode_skipBlank (budget : Nat) (session : Session) (input : Input) :
    readNode budget session (skipBlank input) = readNode budget session input := by
  cases budget with
  | zero => simp only [readNode, readObject_skipBlank]
  | succ budget => simp only [readNode_succ, readNodeObject, readObject_skipBlank]

theorem readParents_of_fold {read : Reader NodeRef} {before after : Session} {refs : List NodeRef}
    {value inside rest : Input} (opens : skipBlank value = openBracket :: inside)
    (folded : foldElements (readParent read) (inside.length + 1) true (before, []) inside =
      ((after, refs), .ok (closeBracket :: rest))) :
    readParents (some read) before value = (after, .ok (refs, rest)) := by
  simp only [readParents, Option.map_some, readList, opens, beq_self_eq_true, if_true, folded,
    finish, closeList_closeBracket]

theorem readParents_of_fold_error {read : Reader NodeRef} {before : Session}
    {value inside : Input} (opens : skipBlank value = openBracket :: inside)
    (stopped : ∃ last fault,
      foldElements (readParent read) (inside.length + 1) true (before, []) inside =
        (last, .error fault)) :
    ∃ last fault, readParents (some read) before value = (last, .error fault) := by
  rcases stopped with ⟨last, fault, folded⟩
  simp only [readParents, Option.map_some, readList, opens, beq_self_eq_true, if_true, folded,
    finish]
  exact ⟨_, _, rfl⟩

section Trees

variable {start : Session} {names : List String}

/-- The next element of a list is read where it starts. -/
theorem nextElement_of_standsAt {tree : NodeTree} {first : Bool} {input element rest : Input}
    (part : PartAt first input element) (stands : tree.StandsAt element rest) :
    nextElement first input = .ok (true, skipBlank element) := by
  rcases NodeTree.opens_of_standsAt stands with ⟨inside, opens⟩
  rw [nextElement_of_partAt part opens (by decide), opens]

/-- The nodes that predecessors stand for are resolved to the ids that the tree names. -/
theorem idsOf_positionsOf (fresh : start.registry.entries = [])
    {done : List (String × List String)} {parents : List NodeTree}
    (backward : NodeTree.BackwardAll done.length parents)
    (reached : done.map Prod.fst ++ NodeTree.idsOf parents <+: names) :
    (start.withNodes (done ++ NodeTree.recordsOf names parents)).registry.idsOf 0
        ((NodeTree.positionsOf done.length parents).map (start.graph.next + ·)) =
      .ok (parents.map (NodeTree.name names)) := by
  rw [← List.length_map Prod.fst] at backward ⊢
  have looked := NodeTree.getElem?_positionsOf backward (List.prefix_refl _) reached
  apply Registry.idsOf_eq_ok
  rw [← looked, List.map_map]
  simp only [Function.comp_def, Session.idOf?_withNodes _ fresh, List.map_append,
    NodeTree.map_fst_recordsOf]

mutual

/-- A tree whose references are backward adds its nodes, and gives the one it stands for. -/
theorem readNode_of_standsAt (fresh : start.registry.entries = [])
    (few : names.length ≤ Word.size) :
    (tree : NodeTree) → {budget : Nat} → {done : List (String × List String)} →
    {input rest : Input} → tree.StandsAt input rest → tree.Backward done.length →
    tree.nesting ≤ budget → done.map Prod.fst ++ tree.ids <+: names →
    readNode budget (start.withNodes done) input =
      (start.withNodes (done ++ tree.records names),
        .ok (start.graph.next + tree.position done.length, rest))
  | .reference position, budget + 1, done, input, rest, stands, backward, _, known => by
      have there : position < done.length := backward
      -- no more nodes are done than the tree has node objects, and these are few enough
      have fits : position < Word.size := by
        have short := known.length_le
        simp only [List.length_append, List.length_map] at short
        omega
      have found : (start.withNodes done).registry.at? position =
          some (start.graph.next + position) := by
        rw [Session.at?_withNodes done fresh, List.getElem?_eq_getElem there, Option.map_some]
      rw [readNode_succ, readNodeObject_reference stands fits found, NodeTree.records,
        List.append_nil, NodeTree.position]
  | .named id parentIds, budget + 1, done, input, rest, stands, _, shallow, _ => by
      rw [readNode_succ, readNodeObject_named stands shallow, NodeTree.records,
        Session.withNodes_concat, Session.next_withNodes, NodeTree.position]
  | .holding id parents, budget + 2, done, input, rest, stands, backward, shallow, known => by
      rw [NodeTree.Backward] at backward
      rw [NodeTree.nesting] at shallow
      rw [NodeTree.ids, ← List.append_assoc] at known
      have reached := (List.prefix_append _ _).trans known
      have reads : ∀ value rest, NodeTree.ListAt parents value rest →
          readParents (some (readNode budget)) (start.withNodes done) value =
            (start.withNodes (done ++ NodeTree.recordsOf names parents),
              .ok ((NodeTree.positionsOf done.length parents).map (start.graph.next + ·),
                rest)) := by
        intro value rest ⟨inside, opens, elements⟩
        have short := NodeTree.length_lt_of_elementsAt elements
        exact readParents_of_fold opens
          (foldElements_of_elementsAt fresh few parents elements backward (by omega) reached []
            (inside.length + 1) (by omega))
      have resolved := idsOf_positionsOf fresh backward reached
      rw [readNode_succ]
      refine (readNodeObject_holding stands reads resolved).trans ?_
      rw [NodeTree.records, ← List.append_assoc, Session.withNodes_concat, Session.next_withNodes,
        List.length_append, NodeTree.length_recordsOf, NodeTree.position]

/-- Trees in a list add their nodes one tree after the other. -/
theorem foldElements_of_elementsAt (fresh : start.registry.entries = [])
    (few : names.length ≤ Word.size) :
    (trees : List NodeTree) → {first : Bool} → {budget : Nat} →
    {done : List (String × List String)} → {input rest : Input} →
    NodeTree.ElementsAt first trees input rest → NodeTree.BackwardAll done.length trees →
    NodeTree.nestingOf trees ≤ budget → done.map Prod.fst ++ NodeTree.idsOf trees <+: names →
    ∀ refs rounds, trees.length < rounds →
      foldElements (readParent (readNode budget)) rounds first (start.withNodes done, refs) input =
        ((start.withNodes (done ++ NodeTree.recordsOf names trees),
          refs ++ (NodeTree.positionsOf done.length trees).map (start.graph.next + ·)),
            .ok (closeBracket :: rest))
  | [], first, budget, done, input, rest, closes, _, _, _, refs, rounds + 1, _ => by
      rw [NodeTree.ElementsAt] at closes
      rw [foldElements, nextElement_closeBracket first input rest closes]
      simp [NodeTree.recordsOf, NodeTree.positionsOf]
  | tree :: others, first, budget, done, input, rest, ⟨element, between, part, stands, elements⟩,
      backward, shallow, known, refs, rounds + 1, enough => by
      rw [NodeTree.idsOf, ← List.append_assoc] at known
      have nestings : tree.nesting ≤ budget ∧ NodeTree.nestingOf others ≤ budget := by
        rwa [NodeTree.nestingOf, Nat.max_le] at shallow
      -- the head is read with the nodes done so far, the others with those of the head besides
      have head := readNode_of_standsAt fresh few tree stands backward.1 nestings.1
        ((List.prefix_append _ _).trans known)
      have later : NodeTree.BackwardAll (done ++ tree.records names).length others := by
        rw [List.length_append, NodeTree.length_records]
        exact backward.2
      have tail := foldElements_of_elementsAt fresh few others elements later nestings.2
        (by rwa [List.map_append, NodeTree.map_fst_records])
        (refs ++ [start.graph.next + tree.position done.length]) rounds (by simpa using enough)
      rw [foldElements, nextElement_of_standsAt part stands]
      simp only [readParent, readNode_skipBlank, head, tail]
      simp [NodeTree.recordsOf, NodeTree.positionsOf]

end

mutual

/-- A tree with a reference that is not backward is refused. -/
theorem readNode_error_of_standsAt (fresh : start.registry.entries = [])
    (few : names.length ≤ Word.size) :
    (tree : NodeTree) → {budget : Nat} → {done : List (String × List String)} →
    {input rest : Input} → tree.StandsAt input rest → ¬tree.Backward done.length →
    tree.nesting ≤ budget → done.map Prod.fst ++ tree.ids <+: names →
    ∃ last fault, readNode budget (start.withNodes done) input = (last, .error fault)
  | .reference position, budget + 1, done, input, rest, stands, forward, _, _ => by
      have missing : (start.withNodes done).registry.at? position = none := by
        rw [Session.at?_withNodes done fresh,
          List.getElem?_eq_none (Nat.le_of_not_lt forward), Option.map_none]
      rw [readNode_succ]
      exact readNodeObject_reference_error stands missing
  | .named _ _, _, _, _, _, _, forward, _, _ => absurd trivial forward
  | .holding id parents, budget + 2, done, input, rest, stands, forward, shallow, known => by
      rw [NodeTree.Backward] at forward
      rw [NodeTree.nesting] at shallow
      rw [NodeTree.ids, ← List.append_assoc] at known
      have reached := (List.prefix_append _ _).trans known
      rw [readNode_succ]
      refine readNodeObject_holding_error stands ?_
      intro value rest ⟨inside, opens, elements⟩
      exact readParents_of_fold_error opens
        (foldElements_error_of_elementsAt fresh few parents elements forward (by omega) reached []
          (inside.length + 1))

/-- A list is refused at the first of its trees that has a reference which is not backward. -/
theorem foldElements_error_of_elementsAt (fresh : start.registry.entries = [])
    (few : names.length ≤ Word.size) :
    (trees : List NodeTree) → {first : Bool} → {budget : Nat} →
    {done : List (String × List String)} → {input rest : Input} →
    NodeTree.ElementsAt first trees input rest → ¬NodeTree.BackwardAll done.length trees →
    NodeTree.nestingOf trees ≤ budget → done.map Prod.fst ++ NodeTree.idsOf trees <+: names →
    ∀ refs rounds, ∃ last fault,
      foldElements (readParent (readNode budget)) rounds first (start.withNodes done, refs) input =
        (last, .error fault)
  | [], _, _, _, _, _, _, forward, _, _, _, _ => absurd trivial forward
  | _ :: _, _, _, _, _, _, _, _, _, _, _, 0 => ⟨_, _, rfl⟩
  | tree :: others, first, budget, done, input, rest, ⟨element, between, part, stands, elements⟩,
      forward, shallow, known, refs, rounds + 1 => by
      rw [NodeTree.idsOf, ← List.append_assoc] at known
      have nestings : tree.nesting ≤ budget ∧ NodeTree.nestingOf others ≤ budget := by
        rwa [NodeTree.nestingOf, Nat.max_le] at shallow
      have reached := (List.prefix_append _ _).trans known
      rw [foldElements, nextElement_of_standsAt part stands]
      by_cases backward : tree.Backward done.length
      · have head := readNode_of_standsAt fresh few tree stands backward nestings.1 reached
        have later : ¬NodeTree.BackwardAll (done ++ tree.records names).length others := by
          rw [List.length_append, NodeTree.length_records]
          exact fun all => forward ⟨backward, all⟩
        simp only [readParent, readNode_skipBlank, head]
        exact foldElements_error_of_elementsAt fresh few others elements later nestings.2
          (by rwa [List.map_append, NodeTree.map_fst_records]) _ rounds
      · rcases readNode_error_of_standsAt fresh few tree stands backward nestings.1 reached with
          ⟨last, fault, head⟩
        simp only [readParent, readNode_skipBlank, head]
        exact ⟨_, _, rfl⟩

end

end Trees

/-! ## Records -/

/-- Where reading a record stands when the members of some keys were read. -/
def recordRead (before after : Session) (record : Decoded) (seen : List String) :
    Session × Decoded :=
  (if "node" ∈ seen then after else before,
    { node := if "node" ∈ seen then record.node else none
      actions := if "actions" ∈ seen then record.actions else [] })

section Records

variable {before after : Session} {record : Decoded}

/-- One more key tells of its own field, and of the session if it is that of the node. -/
theorem recordRead_append (before after : Session) (record : Decoded) (seen : List String)
    (key : String) :
    recordRead before after record (seen ++ [key]) =
      (if "node" = key then after else (recordRead before after record seen).1,
        { node := if "node" = key then record.node
            else (recordRead before after record seen).2.node
          actions := if "actions" = key then record.actions
            else (recordRead before after record seen).2.actions }) := by
  simp only [recordRead, ite_mem_append]

theorem recordRead_fresh (before after : Session) (record : Decoded) {seen : List String}
    (fresh : "node" ∉ seen) : (recordRead before after record seen).1 = before :=
  if_neg fresh

theorem takes_node {budget : Nat} {stands : Input → Input → Prop}
    (reads : ∀ value rest, stands value rest →
      readNodeOrNull budget before value = (after, .ok (record.node, rest))) :
    Takes (readRecordMember budget) (recordRead before after record) "node" stands := by
  intro seen behind value rest fresh isColon holds
  have read := reads value rest holds
  rw [← recordRead_fresh before after record fresh] at read
  simp [readRecordMember, skipColon_of_colon isColon, recordRead_append, read]

theorem refuses_node (budget : Nat) (record : Decoded) {stands : Input → Input → Prop}
    (refuses : ∀ value rest, stands value rest →
      ∃ last fault, readNodeOrNull budget before value = (last, .error fault)) :
    Refuses (readRecordMember budget) (recordRead before after record) "node" stands := by
  intro seen behind value rest fresh isColon holds
  rcases refuses value rest holds with ⟨last, fault, read⟩
  rw [← recordRead_fresh before after record fresh] at read
  refine ⟨(last, (recordRead before after record seen).2), fault, ?_⟩
  simp [readRecordMember, skipColon_of_colon isColon, read]

theorem takes_actions :
    Takes (readRecordMember (nestingLimit - 1)) (recordRead before after record) "actions"
      (ActionsAt record.actions) := by
  intro seen behind value rest fresh isColon ⟨found, read, given⟩
  simp [readRecordMember, skipColon_of_colon isColon, recordRead_append, read, given]

theorem passes_recordMember {budget : Nat} {key : String} (unknown : key ∉ recordKeys) :
    Takes (readRecordMember budget) (recordRead before after record) key
      fun value rest => skipValue value = .ok rest := by
  intro seen behind value rest fresh isColon skipped
  simp only [recordKeys, List.mem_cons, List.not_mem_nil, or_false, not_or] at unknown
  rcases unknown with ⟨notNode, notActions⟩
  simp [readRecordMember, skipColon_of_colon isColon, recordRead_append, skipped, notNode,
    notActions, Ne.symm notNode, Ne.symm notActions]

theorem readNodeOrNull_of_standsAt {budget : Nat} {tree : NodeTree} {input rest : Input}
    (stands : tree.StandsAt input rest) :
    readNodeOrNull budget before input =
      ((readNode budget before input).1,
        (readNode budget before input).2.map fun found => (some found.1, found.2)) := by
  have noWord : word? openBrace = none := by decide
  rcases NodeTree.opens_of_standsAt stands with ⟨inside, opens⟩
  have same := readNode_skipBlank budget before input
  rw [opens] at same
  simp only [readNodeOrNull, opens, noWord, same]
  rcases readNode budget before input with ⟨last, _ | ⟨ref, left⟩⟩ <;> rfl

/-- When the members of a record were read, all that there is to tell is told. -/
theorem recordRead_eq {parts : List (String × (Input → Input → Prop))} {keys : List String}
    {actions : List Action} {node : Option NodeRef} {stands : Input → Input → Prop}
    (listed : ∀ key ∈ recordKeys, key ∈ keys ↔ key ∈ (("node", stands) :: parts).map Prod.fst)
    (which : parts = [] ∧ actions = [] ∨ parts = [("actions", ActionsAt actions)]) :
    recordRead before after ⟨node, actions⟩ keys = (after, ⟨node, actions⟩) := by
  have hasNode : "node" ∈ keys := (listed "node" (by decide)).mpr (by simp)
  rcases which with ⟨-, rfl⟩ | rfl
  · simp [recordRead, hasNode]
  · have hasActions : "actions" ∈ keys := (listed "actions" (by decide)).mpr (by simp)
    simp [recordRead, hasNode, hasActions]

variable {document : Input} {tree : NodeTree} {actions : List Action}

/-- A record is read if its tree is. -/
theorem decode_of_holds {ref : NodeRef} (holds : Holds document tree actions)
    (reads : ∀ value rest, tree.StandsAt value rest →
      readNode (nestingLimit - 1) before value = (after, .ok (ref, rest))) :
    decode before document = (after, .ok ⟨some ref, actions⟩) := by
  rcases holds with ⟨parts, rest, object, which, ends⟩
  have takesNode : Takes (readRecordMember (nestingLimit - 1))
      (recordRead before after ⟨some ref, actions⟩) "node" tree.StandsAt := by
    apply takes_node
    intro value rest stands
    rw [readNodeOrNull_of_standsAt stands, reads value rest stands]
    rfl
  have takes : ∀ part ∈ ("node", tree.StandsAt) :: parts,
      Takes (readRecordMember (nestingLimit - 1)) (recordRead before after ⟨some ref, actions⟩)
        part.1 part.2 := by
    rcases which with ⟨rfl, -⟩ | rfl
    · simpa using takesNode
    · simpa using ⟨takesNode, takes_actions⟩
  rcases readObject_of_objectAt object takes (fun _ => passes_recordMember) "a flow node record"
    with ⟨keys, listed, read⟩
  rw [recordRead_eq listed which] at read
  have start : recordRead before after ⟨some ref, actions⟩ [] = (before, {}) := rfl
  rw [start] at read
  simp only [decode, readRecord, read, readEnd, ends]
  rfl

/-- A record is refused if its tree is. -/
theorem decode_error_of_holds (holds : Holds document tree actions)
    (refuses : ∀ value rest, tree.StandsAt value rest →
      ∃ last fault, readNode (nestingLimit - 1) before value = (last, .error fault)) :
    ∃ last fault, decode before document = (last, .error fault) := by
  rcases holds with ⟨parts, rest, object, which, -⟩
  have refusesNode : Refuses (readRecordMember (nestingLimit - 1))
      (recordRead before before ⟨none, actions⟩) "node" tree.StandsAt := by
    apply refuses_node
    intro value rest stands
    rcases refuses value rest stands with ⟨last, fault, read⟩
    refine ⟨last, fault, ?_⟩
    rw [readNodeOrNull_of_standsAt stands, read]
    rfl
  have either : ∀ part ∈ ("node", tree.StandsAt) :: parts,
      Takes (readRecordMember (nestingLimit - 1)) (recordRead before before ⟨none, actions⟩)
        part.1 part.2 ∨
      Refuses (readRecordMember (nestingLimit - 1)) (recordRead before before ⟨none, actions⟩)
        part.1 part.2 := by
    rcases which with ⟨rfl, -⟩ | rfl
    · simpa using .inr refusesNode
    · simpa using ⟨.inr refusesNode, .inl takes_actions⟩
  rcases readObject_of_refuses object either (fun _ => passes_recordMember) List.mem_cons_self
    (by simp [recordKeys]) refusesNode "a flow node record" with ⟨last, fault, read⟩
  have start : recordRead before before ⟨none, actions⟩ [] = (before, {}) := rfl
  rw [start] at read
  simp only [decode, readRecord, read]
  exact ⟨last.1, fault, rfl⟩

/-- A record that holds a tree of node objects is read, with nothing recorded before, exactly if
every reference in the tree names a node object that is complete where the reference stands.  Then
the nodes that were decoded are the node objects in the order in which they are complete, each with
the id that it tells.  They hold their links as ids, one for each predecessor in the order of the
document: a reference stands for the id of the node decoded at its position.

The brackets that are open at once, those of the record included, must be as few as are read at
all, and the bytes of the document as few as a word can number. -/
theorem decode_objectGraph (graph : Graph) (holds : Holds document tree actions)
    (shallow : tree.nesting < nestingLimit) (addressable : document.length < Word.size) :
    ((∃ record, (decode ⟨graph, {}, none⟩ document).2 = .ok record) ↔ tree.Backward 0) ∧
      ∀ session record, decode ⟨graph, {}, none⟩ document = (session, .ok record) →
        record = ⟨some (graph.next + tree.position 0), actions⟩ ∧
        session.registry.entries =
          tree.ids.mapIdx (fun position id => (graph.next + position, id)) ∧
        ∀ position, session.graph.node? (graph.next + position) =
          (tree.records tree.ids)[position]?.map fun node => .detached node.1 (.named node.2) := by
  have few : tree.ids.length ≤ Word.size :=
    Nat.le_of_lt (Nat.lt_trans holds.length_ids_lt addressable)
  have shallow : tree.nesting ≤ nestingLimit - 1 := Nat.le_pred_of_lt shallow
  by_cases backward : tree.Backward 0
  · have read : decode ⟨graph, {}, none⟩ document =
        (Session.withNodes ⟨graph, {}, none⟩ (tree.records tree.ids),
          .ok ⟨some (graph.next + tree.position 0), actions⟩) :=
      decode_of_holds holds fun value rest stands =>
        @readNode_of_standsAt ⟨graph, {}, none⟩ tree.ids rfl few tree _ [] value rest stands
          backward shallow (List.prefix_refl _)
    refine ⟨by simp [read, backward], ?_⟩
    intro session record decoded
    rw [read] at decoded
    rcases Prod.mk.inj decoded with ⟨rfl, same⟩
    obtain rfl := Except.ok.inj same
    refine ⟨rfl, ?_, Session.node?_withNodes _⟩
    rw [Session.entries_withNodes, NodeTree.map_fst_records]
    rfl
  · have refused : ∃ last fault, decode ⟨graph, {}, none⟩ document = (last, .error fault) :=
      decode_error_of_holds holds fun value rest stands =>
        @readNode_error_of_standsAt ⟨graph, {}, none⟩ tree.ids rfl few tree _ [] value rest stands
          backward shallow (List.prefix_refl _)
    rcases refused with ⟨last, fault, read⟩
    refine ⟨by simp [read, backward], ?_⟩
    intro session record decoded
    rw [read] at decoded
    cases (Prod.mk.inj decoded).2

/-- References into an earlier subtree and to an earlier predecessor: no node is decoded twice. -/
theorem decode_objectGraph_shared :
    let tree : NodeTree := .holding "4"
      [.holding "2" [.named "1" (some [])], .holding "3" [.reference 0], .reference 1]
    ∃ session, decode ⟨{}, {}, none⟩ (writeTree tree []) = (session, .ok ⟨some 3, []⟩) ∧
      session.registry.entries = [(0, "1"), (1, "2"), (2, "3"), (3, "4")] ∧
      session.graph.node? 2 = some (.detached "3" (.named ["1"])) ∧
      session.graph.node? 3 = some (.detached "4" (.named ["2", "3", "2"])) := by
  intro tree
  have short : (writeTree tree []).length < 1000 := by decide +kernel
  have backward : tree.Backward 0 := by
    simp [tree, NodeTree.Backward, NodeTree.BackwardAll, NodeTree.ids, NodeTree.idsOf]
  rcases decode_objectGraph {} (holds_writeTree tree []) (by decide)
    (Nat.lt_of_lt_of_le short (by decide)) with ⟨accepted, decoded⟩
  rcases accepted.mpr backward with ⟨record, read⟩
  rcases decoded _ record (Prod.ext rfl read) with ⟨rfl, entries, nodes⟩
  exact ⟨_, Prod.ext rfl read, entries, nodes 2, nodes 3⟩

end Records

end TraceStore.Record
