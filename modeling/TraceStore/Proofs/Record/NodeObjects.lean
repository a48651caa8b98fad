import TraceStore.Proofs.Record.NodeTree
import TraceStore.Proofs.Record.RoundTrip

/-!
# Node objects in any layout

One node object creates at most one node.  What it makes of a session is said here for each kind of
node object, whatever the order of its members and the members besides: `readNodeObject_reference`,
`readNodeObject_named` and `readNodeObject_holding`.  How the predecessors are read that a node
object holds is left to the caller.
-/

namespace TraceStore

namespace Record

open Json

/-! ## Members -/

/-- What depends on the keys seen depends on the last one first. -/
theorem ite_mem_append {α : Type} (name key : String) (seen : List String) (new old : α) :
    (if name ∈ seen ++ [key] then new else old) =
      if name = key then new else if name ∈ seen then new else old := by
  by_cases same : name = key <;> simp [same]

/-- What the members of some keys have told of a node. -/
def NodeFields.upTo (fields : NodeFields) (seen : List String) : NodeFields where
  id := if "id" ∈ seen then fields.id else none
  parentIds := if "parentIds" ∈ seen then fields.parentIds else none
  parents := if "parents" ∈ seen then fields.parents else none
  reference := if "ref" ∈ seen then fields.reference else none

/-- Where reading a node object stands when the members of some keys were read: only the list of
predecessors changes the session. -/
def membersRead (before after : Session) (fields : NodeFields) (seen : List String) :
    Session × NodeFields :=
  (if "parents" ∈ seen then after else before, fields.upTo seen)

section Members

variable {budget : Nat} {parent : Option (Reader NodeRef)} {before after : Session}
  {fields : NodeFields}

/-- One more key tells of its own field, and of the session if it is that of the list. -/
theorem membersRead_append (before after : Session) (fields : NodeFields) (seen : List String)
    (key : String) :
    membersRead before after fields (seen ++ [key]) =
      (if "parents" = key then after else (membersRead before after fields seen).1,
        { id := if "id" = key then fields.id else (membersRead before after fields seen).2.id
          parentIds := if "parentIds" = key then fields.parentIds
            else (membersRead before after fields seen).2.parentIds
          parents := if "parents" = key then fields.parents
            else (membersRead before after fields seen).2.parents
          reference := if "ref" = key then fields.reference
            else (membersRead before after fields seen).2.reference }) := by
  simp only [membersRead, NodeFields.upTo, ite_mem_append]

theorem membersRead_fresh (before after : Session) (fields : NodeFields) {seen : List String}
    (fresh : "parents" ∉ seen) : (membersRead before after fields seen).1 = before :=
  if_neg fresh

theorem takes_id {id : String} (told : fields.id = some id) :
    Takes (readNodeMember budget parent) (membersRead before after fields) "id"
      (NodeTree.TextAt id) := by
  intro seen behind value rest fresh isColon stands
  rw [NodeTree.TextAt] at stands
  simp [readNodeMember, skipColon_of_colon isColon, membersRead_append, stands, told]

theorem takes_parentIds {parentIds : List String} (told : fields.parentIds = some parentIds) :
    Takes (readNodeMember (budget + 1) parent) (membersRead before after fields) "parentIds"
      (NodeTree.TextsAt parentIds) := by
  intro seen behind value rest fresh isColon stands
  have read : readListOf (budget + 1) (fun _ => readText "a string") value =
    .ok (parentIds, rest) := stands
  simp [readNodeMember, skipColon_of_colon isColon, membersRead_append, read, told]

theorem takes_reference {position : Nat} (told : fields.reference = some position)
    (fits : position < Word.size) :
    Takes (readNodeMember budget parent) (membersRead before after fields) "ref"
      (NaturalAt position) := by
  intro seen behind value rest fresh isColon stands
  have read := readNatural_of_lt stands fits (Nat.le_refl _) "usize"
  simp [readNodeMember, skipColon_of_colon isColon, membersRead_append, read, told]

theorem refuses_reference (budget : Nat) (parent : Option (Reader NodeRef))
    (before after : Session) (fields : NodeFields) {position : Nat} (large : Word.size ≤ position) :
    Refuses (readNodeMember budget parent) (membersRead before after fields) "ref"
      (NaturalAt position) := by
  intro seen behind value rest fresh isColon stands
  rcases readNatural_of_size_le stands large "usize" with ⟨fault, read⟩
  refine ⟨membersRead before after fields seen, fault, ?_⟩
  simp [readNodeMember, skipColon_of_colon isColon, read]

theorem takes_parents {refs : List NodeRef} {stands : Input → Input → Prop}
    (told : fields.parents = some refs)
    (reads : ∀ value rest, stands value rest →
      readParents parent before value = (after, .ok (refs, rest))) :
    Takes (readNodeMember budget parent) (membersRead before after fields) "parents" stands := by
  intro seen behind value rest fresh isColon holds
  have read := reads value rest holds
  rw [← membersRead_fresh before after fields fresh] at read
  simp [readNodeMember, skipColon_of_colon isColon, membersRead_append, read, told]

theorem refuses_parents (budget : Nat) (before after : Session) (fields : NodeFields)
    {stands : Input → Input → Prop}
    (refuses : ∀ value rest, stands value rest →
      ∃ last fault, readParents parent before value = (last, .error fault)) :
    Refuses (readNodeMember budget parent) (membersRead before after fields) "parents" stands := by
  intro seen behind value rest fresh isColon holds
  rcases refuses value rest holds with ⟨last, fault, read⟩
  rw [← membersRead_fresh before after fields fresh] at read
  refine ⟨(last, (membersRead before after fields seen).2), fault, ?_⟩
  simp [readNodeMember, skipColon_of_colon isColon, read]

theorem passes_member {key : String} (unknown : key ∉ NodeTree.nodeKeys) :
    Takes (readNodeMember budget parent) (membersRead before after fields) key
      fun value rest => skipValue value = .ok rest := by
  intro seen behind value rest fresh isColon skipped
  simp only [NodeTree.nodeKeys, List.mem_cons, List.not_mem_nil, or_false, not_or] at unknown
  rcases unknown with ⟨notId, notIds, notParents, notRef⟩
  simp [readNodeMember, skipColon_of_colon isColon, membersRead_append, skipped, notId, notIds,
    notParents, notRef, Ne.symm notId, Ne.symm notIds, Ne.symm notParents, Ne.symm notRef]

/-- When the members of the parts were read, all that there is to tell is told. -/
theorem membersRead_eq {parts : List (String × (Input → Input → Prop))} {keys : List String}
    (listed : ∀ key ∈ NodeTree.nodeKeys, key ∈ keys ↔ key ∈ parts.map Prod.fst)
    (told : fields.upTo (parts.map Prod.fst) = fields)
    (changed : "parents" ∈ parts.map Prod.fst ∨ after = before) :
    membersRead before after fields keys = (after, fields) := by
  have same : fields.upTo keys = fields.upTo (parts.map Prod.fst) := by
    simp only [NodeFields.upTo, listed "id" (by decide), listed "parentIds" (by decide),
      listed "parents" (by decide), listed "ref" (by decide)]
  rw [membersRead, same, told, Prod.mk.injEq]
  refine ⟨?_, rfl⟩
  rcases changed with among | unchanged
  · rw [if_pos ((listed "parents" (by decide)).mpr among)]
  · rw [unchanged, ite_self]

/-- Whichever way the members of a node object are laid out, they tell of the node what the listed
parts say. -/
theorem readObject_membersRead (budget : Nat) (parent : Option (Reader NodeRef))
    (before after : Session) (fields : NodeFields)
    {parts : List (String × (Input → Input → Prop))} {input rest : Input}
    (object : ObjectAt NodeTree.nodeKeys parts input rest)
    (takes : ∀ part ∈ parts,
      Takes (readNodeMember budget parent) (membersRead before after fields) part.1 part.2)
    (told : fields.upTo (parts.map Prod.fst) = fields)
    (changed : "parents" ∈ parts.map Prod.fst ∨ after = before) :
    readObject "a flow node"
        (some fun state input =>
          foldMembers (readNodeMember budget parent) (input.length + 1) true state input)
        (before, {}) input = ((after, fields), .ok rest) := by
  rcases readObject_of_objectAt object takes (fun _ => passes_member) "a flow node" with
    ⟨keys, listed, read⟩
  rw [membersRead_eq listed told changed] at read
  exact read

/-- A node object is refused if one of its members is. -/
theorem readNodeObject_of_refuses (before after : Session) (fields : NodeFields)
    {parts : List (String × (Input → Input → Prop))} {input rest : Input}
    (object : ObjectAt NodeTree.nodeKeys parts input rest)
    (either : ∀ part ∈ parts,
      Takes (readNodeMember budget parent) (membersRead before after fields) part.1 part.2 ∨
      Refuses (readNodeMember budget parent) (membersRead before after fields) part.1 part.2)
    {refused : String × (Input → Input → Prop)} (listed : refused ∈ parts)
    (known : refused.1 ∈ NodeTree.nodeKeys)
    (refuses : Refuses (readNodeMember budget parent) (membersRead before after fields)
      refused.1 refused.2) :
    ∃ last fault, readNodeObject budget parent before input = (last, .error fault) := by
  rcases readObject_of_refuses object either (fun _ => passes_member) listed known refuses
    "a flow node" with ⟨last, fault, read⟩
  have start : membersRead before after fields [] = (before, {}) := rfl
  rw [start] at read
  simp only [readNodeObject, read]
  exact ⟨last.1, fault, rfl⟩

end Members

/-! ## Node objects -/

section Objects

variable {budget : Nat} {parent : Option (Reader NodeRef)} {before after : Session}
  {input rest : Input}

theorem readNodeObject_reference {position : Nat} {ref : NodeRef}
    (stands : (NodeTree.reference position).StandsAt input rest) (fits : position < Word.size)
    (found : before.registry.at? position = some ref) :
    readNodeObject budget parent before input = (before, .ok (ref, rest)) := by
  rw [NodeTree.StandsAt] at stands
  have read := readObject_membersRead budget parent before before ⟨none, none, none, some position⟩
    stands (by simpa using takes_reference rfl fits) rfl (.inr rfl)
  simp only [readNodeObject, read, make_session, build, found]

/-- A reference to a node that is not complete is refused, whether or not its position fits into a
word. -/
theorem readNodeObject_reference_error {position : Nat}
    (stands : (NodeTree.reference position).StandsAt input rest)
    (missing : before.registry.at? position = none) :
    ∃ last fault, readNodeObject budget parent before input = (last, .error fault) := by
  rw [NodeTree.StandsAt] at stands
  by_cases fits : position < Word.size
  · have read := readObject_membersRead budget parent before before
      ⟨none, none, none, some position⟩ stands (by simpa using takes_reference rfl fits) rfl
      (.inr rfl)
    simp only [readNodeObject, read, make_session, build, missing]
    exact ⟨_, _, rfl⟩
  · have refuses := refuses_reference budget parent before before {} (Nat.le_of_not_lt fits)
    exact readNodeObject_of_refuses before before {} stands (by simpa using .inr refuses)
      (List.mem_singleton_self _) (by simp [NodeTree.nodeKeys]) refuses

theorem readNodeObject_named {id : String} {parentIds : Option (List String)}
    (stands : (NodeTree.named id parentIds).StandsAt input rest)
    (shallow : (NodeTree.named id parentIds).nesting ≤ budget + 1) :
    readNodeObject budget parent before input =
      (before.withNode id (parentIds.getD []), .ok (before.graph.next, rest)) := by
  have read : readObject "a flow node"
      (some fun state input =>
        foldMembers (readNodeMember budget parent) (input.length + 1) true state input)
      (before, {}) input = ((before, ⟨some id, parentIds, none, none⟩), .ok rest) := by
    cases parentIds with
    | none =>
        rw [NodeTree.StandsAt] at stands
        exact readObject_membersRead budget parent before before _ stands
          (by simpa using takes_id rfl) rfl (.inr rfl)
    | some parentIds =>
        rw [NodeTree.StandsAt] at stands
        cases budget with
        | zero => simp [NodeTree.nesting] at shallow
        | succ budget =>
            exact readObject_membersRead (budget + 1) parent before before _ stands
              (by simpa using ⟨takes_id rfl, takes_parentIds rfl⟩) rfl (.inr rfl)
  simp only [readNodeObject, read]
  rfl

theorem readNodeObject_holding {id : String} {parents : List NodeTree} {refs : List NodeRef}
    {ids : List String} (stands : (NodeTree.holding id parents).StandsAt input rest)
    (reads : ∀ value rest, NodeTree.ListAt parents value rest →
      readParents parent before value = (after, .ok (refs, rest)))
    (resolved : after.registry.idsOf 0 refs = .ok ids) :
    readNodeObject budget parent before input =
      (after.withNode id ids, .ok (after.graph.next, rest)) := by
  rw [NodeTree.standsAt_holding] at stands
  have read := readObject_membersRead budget parent before after ⟨some id, none, some refs, none⟩
    stands (by simpa using ⟨takes_id rfl, takes_parents rfl reads⟩) rfl (.inl (by simp))
  have named : after.registry.resolve (.held refs) = .ok (.named ids) := by
    rw [Registry.resolve, resolved]
    rfl
  simp only [readNodeObject, read, make_session, build, create_of_resolve named]

theorem readNodeObject_holding_error {id : String} {parents : List NodeTree}
    (stands : (NodeTree.holding id parents).StandsAt input rest)
    (refuses : ∀ value rest, NodeTree.ListAt parents value rest →
      ∃ last fault, readParents parent before value = (last, .error fault)) :
    ∃ last fault, readNodeObject budget parent before input = (last, .error fault) := by
  rw [NodeTree.standsAt_holding] at stands
  have refused := refuses_parents budget before before ⟨some id, none, none, none⟩ refuses
  exact readNodeObject_of_refuses before before ⟨some id, none, none, none⟩ stands
    (by simpa using ⟨.inl (takes_id rfl), .inr refused⟩)
    (List.mem_cons_of_mem _ (List.mem_singleton_self _)) (by simp [NodeTree.nodeKeys]) refused

end Objects

end Record

end TraceStore
