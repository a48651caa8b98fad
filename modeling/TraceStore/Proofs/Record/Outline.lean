import TraceStore.Proofs.Record.Correspondence
import TraceStore.Proofs.Record.Sessions

/-!
# Reading only appends

The *outline* of a document is found by the readers of records when they make no nodes, but only
take down what the document tells of: the nodes, in the order in which their objects end, and how
each mentions its predecessors.  A mention is a node object that tells of a node, or a reference to
a position of the list of recorded nodes.  Apart from the document, an outline depends on nothing
but the length of that list, as references beyond its end are refused.

What an outline is in terms of the text alone is said in `Proofs.Record.Texts`.

Reading a document replays its outline (`decode_replays`).  Every node told of is created, with ids
as links, and recorded under its own id; whatever was there before stays as it is; and since all
that is mentioned is recorded, every mention finds its id.
-/

namespace TraceStore

namespace Record

open Json (Cause Fault Input Paired)

/-! ## Outlines -/

/-- How a document mentions a node: as the one that it told of at a position, or by the position on
the list of recorded nodes. -/
inductive Mention where
  | told (position : Nat)
  | reference (position : Nat)
  deriving Repr, DecidableEq

/-- The links that a document tells of: the ids of predecessors, or their mentions. -/
inductive ToldLinks where
  | named (ids : List String)
  | held (mentions : List Mention)
  deriving Repr, DecidableEq

/-- A node that a document tells of. -/
structure Told where
  id : String
  links : ToldLinks
  deriving Repr, DecidableEq

/-- What was taken down so far, and how many nodes were recorded before. -/
structure Log where
  known : Nat
  told : List Told := []
  deriving Repr, DecidableEq

namespace Log

/-- Takes a node down. -/
def add (log : Log) (id : String) (links : ToldLinks) : Log × Except Cause Mention :=
  ({ log with told := log.told ++ [⟨id, links⟩] }, .ok (.told log.told.length))

/-- The mention that a node object is. -/
def tell (log : Log) (fields : NodeFieldsOf Mention) : Log × Except Cause Mention :=
  match fields.reference with
  | some position =>
      if position < log.known + log.told.length then (log, .ok (.reference position))
      else
        (log, .error (.refused
          ("reference to node #" ++ toString position ++ " which has not been decoded")))
  | none =>
      match fields.id with
      | none => (log, .error (.missingField "id"))
      | some id =>
          match fields.parents, fields.parentIds with
          | some _, some _ =>
              (log, .error (.refused
                ("node " ++ id ++ " carries both `parents` and `parentIds`")))
          | some mentions, none => log.add id (.held mentions)
          | none, ids => log.add id (.named (ids.getD []))

instance : Builds Log Mention := ⟨tell⟩

end Log

/-- The outline of a document, where `known` nodes were recorded before: what it tells of until it
ends or is refused, and what the record holds. -/
def outline (known : Nat) (document : Input) : Log × Except Fault (DecodedOf Mention) :=
  readRecord (⟨known, []⟩ : Log) document

/-! ## Mentions -/

/-- Whether a mention stands for a node in a session, where reading began with `start`: what the
document told of was created since. -/
def Mention.StandsFor (start session : Session) : Mention → NodeRef → Prop
  | .told position, ref => ref = start.graph.next + position ∧ ref < session.graph.next
  | .reference position, ref => session.registry.at? position = some ref

/-- The parent ids that links become.  A mention becomes the id under which the node it stands for
was recorded last. -/
def ToldLinks.Become (start session : Session) : ToldLinks → List String → Prop
  | .named ids, parentIds => parentIds = ids
  | .held mentions, parentIds =>
      List.Forall₂ (fun mention id => ∃ ref, mention.StandsFor start session ref ∧
        session.registry.idOf? ref = some id) mentions parentIds

/-- Nodes with their parent ids, that came from nodes told of, one after the other. -/
inductive Replays (start : Session) : List Told → List (String × List String) → Prop where
  | nil : Replays start [] []
  | append {told : List Told} {nodes : List (String × List String)}
      (earlier : Replays start told nodes) (id : String) {links : ToldLinks}
      {parentIds : List String} (become : links.Become start (start.withNodes nodes) parentIds) :
      Replays start (told ++ [⟨id, links⟩]) (nodes ++ [(id, parentIds)])

theorem Replays.length_eq {start : Session} {told : List Told}
    {nodes : List (String × List String)} (replays : Replays start told nodes) :
    nodes.length = told.length := by
  induction replays with
  | nil => rfl
  | append _ _ _ ih => simp [ih]

namespace Mention.StandsFor

variable {start session : Session} {mention : Mention} {ref : NodeRef}

theorem withNode (stands : mention.StandsFor start session ref) (id : String)
    (parentIds : List String) : mention.StandsFor start (session.withNode id parentIds) ref := by
  cases mention with
  | told position =>
      refine ⟨stands.1, Nat.lt_of_lt_of_le stands.2 ?_⟩
      rw [Session.withNode, Graph.next_add]
      exact Nat.le_succ _
  | reference position =>
      obtain ⟨entry, there, rfl⟩ := Option.map_eq_some_iff.mp stands
      have within := (List.getElem?_eq_some_iff.mp there).1
      rw [StandsFor, Session.withNode, Registry.at?, Registry.record,
        List.getElem?_append_left within, there]
      rfl

/-- Whatever a mention stands for is recorded. -/
theorem recorded {nodes : List (String × List String)}
    (stands : mention.StandsFor start (start.withNodes nodes) ref) :
    ∃ id, (start.withNodes nodes).registry.idOf? ref = some id := by
  cases mention with
  | told position =>
      obtain ⟨rfl, there⟩ := stands
      rw [Session.next_withNodes] at there
      have within : position < (nodes.map Prod.fst).length := by
        rw [List.length_map]
        exact Nat.lt_of_add_lt_add_left there
      refine ⟨(nodes.map Prod.fst)[position], ?_⟩
      rw [Session.idOf?_created, List.getElem?_eq_getElem within]
      rfl
  | reference position => exact Registry.exists_idOf? stands

/-- With nothing recorded before, a mention stands for a node that was created. -/
theorem created {nodes : List (String × List String)} (fresh : start.registry.entries = [])
    (stands : mention.StandsFor start (start.withNodes nodes) ref) :
    ∃ position < nodes.length, ref = start.graph.next + position := by
  cases mention with
  | told position =>
      obtain ⟨rfl, there⟩ := stands
      rw [Session.next_withNodes] at there
      exact ⟨position, Nat.lt_of_add_lt_add_left there, rfl⟩
  | reference position =>
      rw [StandsFor, Session.at?_withNodes _ fresh, Option.map_eq_some_iff] at stands
      obtain ⟨node, there, rfl⟩ := stands
      exact ⟨position, (List.getElem?_eq_some_iff.mp there).1, rfl⟩

end Mention.StandsFor

/-- Predecessors that mentions stand for are resolved to the ids that the mentions become. -/
theorem exists_become {start : Session} {nodes : List (String × List String)}
    {parents : List NodeRef} {mentions : List Mention}
    (stand : List.Forall₂ (fun ref mention => mention.StandsFor start (start.withNodes nodes) ref)
      parents mentions) :
    ∃ parentIds, (start.withNodes nodes).registry.resolve (.held parents) = .ok (.named parentIds) ∧
      (ToldLinks.held mentions).Become start (start.withNodes nodes) parentIds := by
  obtain ⟨parentIds, recorded, become⟩ : ∃ parentIds : List String,
      parents.map (start.withNodes nodes).registry.idOf? = parentIds.map some ∧
        (ToldLinks.held mentions).Become start (start.withNodes nodes) parentIds := by
    induction stand with
    | nil => exact ⟨[], rfl, .nil⟩
    | cons stands _ ih =>
        obtain ⟨parentIds, recorded, become⟩ := ih
        obtain ⟨id, isId⟩ := stands.recorded
        exact ⟨id :: parentIds, by rw [List.map_cons, isId, recorded, List.map_cons],
          .cons ⟨_, stands, isId⟩ become⟩
  refine ⟨parentIds, ?_, become⟩
  rw [Registry.resolve, Registry.idsOf_eq_ok recorded]
  rfl

/-! ## Replaying -/

/-- A session corresponds to a log that it replays, and nodes to the mentions that stand for
them. -/
def replaying (start : Session) : Correspondence Session Log NodeRef Mention where
  States session log := log.known = start.registry.size ∧
    ∃ nodes, session = start.withNodes nodes ∧ Replays start log.told nodes
  Nodes session _ ref mention := mention.StandsFor start session ref

section Making

variable {start : Session} {log : Log} {nodes : List (String × List String)}

/-- A node with links that can be resolved is created where a log takes it down. -/
theorem create_replays (known : log.known = start.registry.size)
    (replays : Replays start log.told nodes) (id : String) {links : Links} {told : ToldLinks}
    {parentIds : List String}
    (resolved : (start.withNodes nodes).registry.resolve links = .ok (.named parentIds))
    (become : told.Become start (start.withNodes nodes) parentIds) :
    Paired ((replaying start).Onward (start.withNodes nodes) log) (replaying start).Nodes
      (create (start.withNodes nodes) id links) (log.add id told) := by
  rw [create_of_resolve resolved]
  refine .ok ⟨⟨known, nodes ++ [(id, parentIds)], ?_, replays.append id become⟩, ?_⟩ ⟨?_, ?_⟩
  · rw [Session.withNodes_concat]
  · exact fun _ _ stands => stands.withNode id parentIds
  · rw [Session.next_withNodes, replays.length_eq]
  · rw [Session.withNode, Graph.next_add]
    exact Nat.lt_succ_self _

theorem replaying_makes (start : Session) : (replaying start).Makes := by
  rintro session log ⟨id, parentIds, parents, reference⟩ ⟨id', parentIds', mentions, reference'⟩
    ⟨known, nodes, rfl, replays⟩ like
  obtain ⟨rfl, rfl, stand, rfl⟩ := like
  have states : (replaying start).States (start.withNodes nodes) log := ⟨known, nodes, rfl, replays⟩
  change Paired _ _ (build (start.withNodes nodes) _) (log.tell _)
  rw [build, Log.tell]
  cases reference with
  | some position =>
      -- The list is as long as the log counts, so both refuse the same positions.
      have size : (start.withNodes nodes).registry.size = log.known + log.told.length := by
        simp [Registry.size, Session.entries_withNodes, known, replays.length_eq]
      rcases listed : (start.withNodes nodes).registry.at? position with _ | ref
      · have beyond := Nat.not_lt.mpr (Registry.at?_eq_none_iff.mp listed)
        rw [size] at beyond
        simp only [listed, if_neg beyond]
        exact .error (.refl states) _
      · have within : position < log.known + log.told.length := by
          by_contra beyond
          rw [← size, Nat.not_lt, ← Registry.at?_eq_none_iff, listed] at beyond
          cases beyond
        simp only [listed, if_pos within]
        exact .ok (.refl states) listed
  | none =>
      cases id with
      | none => exact .error (.refl states) _
      | some id =>
          dsimp only at stand ⊢
          cases stand with
          | none => exact create_replays known replays id rfl rfl
          | some stand =>
              cases parentIds with
              | some _ => exact .error (.refl states) _
              | none =>
                  obtain ⟨parentIds, resolved, become⟩ := exists_become stand
                  exact create_replays known replays id resolved become

end Making

/-- Reading a document replays its outline, and refuses what the outline refuses. -/
theorem decode_replays (start : Session) (document : Input) :
    Paired ((replaying start).Onward start ⟨start.registry.size, []⟩)
      (fun after _ => DecodedOf.Like fun ref mention => mention.StandsFor start after ref)
      (decode start document) (outline start.registry.size document) :=
  Correspondence.readRecord_pairs (replaying_makes start) document ⟨rfl, [], rfl, .nil⟩

/-- Reading a document creates nodes, whatever was recorded before. -/
theorem exists_withNodes_decode (start : Session) (document : Input) :
    ∃ nodes, (decode start document).1 = start.withNodes nodes := by
  have paired := decode_replays start document
  generalize decode start document = run at paired ⊢
  generalize outline _ document = outlined at paired
  cases paired with
  | error onward fault =>
      obtain ⟨-, nodes, rfl, -⟩ := onward.states
      exact ⟨nodes, rfl⟩
  | ok onward like =>
      obtain ⟨-, nodes, rfl, -⟩ := onward.states
      exact ⟨nodes, rfl⟩

/-- With nothing recorded before, reading a document creates nodes, and the node of the record is
one of them. -/
theorem decode_fresh (graph : Graph) (document : Input) :
    ∃ nodes, (decode ⟨graph, {}, none⟩ document).1 = Session.withNodes ⟨graph, {}, none⟩ nodes ∧
      ∀ record, (decode ⟨graph, {}, none⟩ document).2 = .ok record →
        ∀ ref ∈ record.node, ∃ position < nodes.length, ref = graph.next + position := by
  have paired := decode_replays ⟨graph, {}, none⟩ document
  generalize decode ⟨graph, {}, none⟩ document = run at paired ⊢
  generalize outline _ document = outlined at paired
  cases paired with
  | error onward fault =>
      obtain ⟨-, nodes, rfl, -⟩ := onward.states
      exact ⟨nodes, rfl, by simp⟩
  | @ok _ _ record told onward like =>
      obtain ⟨-, nodes, rfl, -⟩ := onward.states
      refine ⟨nodes, rfl, ?_⟩
      rintro _ ⟨⟩ ref isNode
      have related := like.node
      rw [isNode] at related
      generalize told.node = mentioned at related
      cases related with
      | some stands => exact stands.created rfl

/-- A session after nodes were appended. -/
structure Session.Appended (start : Session) (nodes : List (String × List String))
    (after : Session) : Prop where
  /-- The new nodes have ids as links, no actions and no execution.  The others are the old ones. -/
  graph : after.graph =
    { start.graph with
      nodes := start.graph.nodes ++ nodes.map fun node => ⟨node.1, .named node.2, [], none⟩ }
  /-- The new nodes stand behind those that were recorded before, each once. -/
  entries : after.registry.entries =
    start.registry.entries ++
      nodes.mapIdx fun position node => (start.graph.next + position, node.1)
  /-- Every new node is recorded under its own id. -/
  own : ∀ position node, nodes[position]? = some node →
    after.registry.idOf? (start.graph.next + position) = some node.1
  /-- Every old node is recorded as it was. -/
  old : ∀ ref < start.graph.next, after.registry.idOf? ref = start.registry.idOf? ref
  /-- There was no predecessor that could not be resolved. -/
  violation : after.violation = start.violation

theorem Session.appended_withNodes (start : Session) (nodes : List (String × List String)) :
    start.Appended nodes (start.withNodes nodes) where
  graph := graph_withNodes nodes
  entries := by
    rw [entries_withNodes]
    congr 1
    exact List.ext_getElem (by simp) (by simp)
  own position node there := by
    rw [idOf?_created, List.getElem?_map, there]
    rfl
  old _ older := idOf?_of_lt nodes older
  violation := violation_withNodes nodes

/-- Whatever the document is, and whether it is accepted or not, reading it only appends the nodes
that it tells of: each with ids as links and under its own id.  Where it refers to a position, the
parent id is the one under which the node at that position was recorded last.  The node of the
record is the new one that it tells of or the recorded one that it refers to, and nothing is refused
but what its outline refuses, where nothing is resolved. -/
theorem decode_only_appends (start : Session) (document : Input) :
    ∃ nodes,
      start.Appended nodes (decode start document).1 ∧
      Replays start (outline start.registry.size document).1.told nodes ∧
      (∀ fault, (decode start document).2 = .error fault ↔
        (outline start.registry.size document).2 = .error fault) ∧
      ∀ record, (decode start document).2 = .ok record →
        ∃ told, (outline start.registry.size document).2 = .ok told ∧
          record.actions = told.actions ∧
          Option.Rel (fun ref mention => mention.StandsFor start (decode start document).1 ref)
            record.node told.node := by
  have paired := decode_replays start document
  generalize decode start document = run at paired ⊢
  generalize outline start.registry.size document = outlined at paired ⊢
  cases paired with
  | error onward fault =>
      obtain ⟨-, nodes, rfl, replays⟩ := onward.states
      exact ⟨nodes, start.appended_withNodes nodes, replays, fun _ => by simp, by simp⟩
  | ok onward like =>
      obtain ⟨-, nodes, rfl, replays⟩ := onward.states
      refine ⟨nodes, start.appended_withNodes nodes, replays, fun _ => by simp, ?_⟩
      rintro record ⟨⟩
      exact ⟨_, rfl, like.actions, like.node⟩

/-- A predecessor that the document tells of, next to a reference to a node that was recorded as `x`
and then as `y`. -/
theorem decode_predecessor_and_reference :
    let document := (Json.Value.object [("node", .object [("id", .text "b"), ("parents",
      .list [.object [("id", .text "a")], .object [("ref", .number (.integer 0))]])])]).pretty 0
    let start : Session :=
      ⟨⟨[.detached "x" (.held [])], []⟩, ⟨[(0, "x"), (0, "y")]⟩, none⟩
    let told : List Told := [⟨"a", .named []⟩, ⟨"b", .held [.told 0, .reference 0]⟩]
    let nodes := [("a", []), ("b", ["a", "y"])]
    outline 2 document = (⟨2, told⟩, .ok ⟨some (.told 1), []⟩) ∧
      start.Appended nodes (decode start document).1 ∧ Replays start told nodes ∧
      (decode start document).2 = .ok ⟨some 2, []⟩ := by
  intro document start told nodes
  have both : outline 2 document = (⟨2, told⟩, .ok ⟨some (.told 1), []⟩) ∧
      (decode start document).1.graph.nodes = start.graph.nodes ++
        [.detached "a" (.named []), .detached "b" (.named ["a", "y"])] ∧
      (decode start document).2 = .ok ⟨some 2, []⟩ := by decide +kernel
  obtain ⟨outlined, made, accepted⟩ := both
  clear_value document
  have size : start.registry.size = 2 := rfl
  obtain ⟨appended, isAppended, replays, -, -⟩ := decode_only_appends start document
  rw [size, outlined] at replays
  have injective : Function.Injective
      fun node : String × List String => (⟨node.1, .named node.2, [], none⟩ : Node) := by
    rintro ⟨id, ids⟩ ⟨other, others⟩ same
    simpa using same
  obtain rfl : appended = nodes := by
    have graph := congrArg Graph.nodes isAppended.graph
    rw [made, List.append_cancel_left_eq] at graph
    exact List.map_injective_iff.mpr injective graph.symm
  exact ⟨outlined, isAppended, replays, accepted⟩

end Record

end TraceStore
