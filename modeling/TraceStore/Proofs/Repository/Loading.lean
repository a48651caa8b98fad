import TraceStore.Proofs.Repository.Records
import TraceStore.Proofs.Results

/-!
# Loading a record

The actions of a document remember nothing, and the nodes of a document have neither actions nor
execution.  So the node of a record can always be wired, every marked action in it takes the
sighting it is offered, and `read_decoded` says all that reading a record does once its bytes are
decoded.
-/

namespace TraceStore

/-! ## Elements -/

namespace Json

/-- What every element that can be read satisfies, all elements of a list do. -/
theorem forall_of_readListOf {α : Type} {satisfies : α → Prop} {budget : Nat}
    {read : Nat → Input → Except Fault (α × Input)} {input rest : Input} {values : List α}
    (each : ∀ budget input value rest, read budget input = .ok (value, rest) → satisfies value)
    (given : readListOf budget read input = .ok (values, rest)) :
    ∀ value ∈ values, satisfies value := by
  have collects (budget : Nat) (seen : List α) (input : Input)
      (holds : ∀ value ∈ seen, satisfies value) :
      ∀ value ∈ (collect (read budget) seen input).1, satisfies value := by
    rw [collect]
    split
    · exact holds
    · next value _ isRead =>
        rw [List.forall_mem_append]
        exact ⟨holds, by simpa using each _ _ _ _ isRead⟩
  simp only [readListOf, settled, map_eq_ok_iff, Prod.mk.injEq] at given
  obtain ⟨left, -, rfl, rfl⟩ := given
  apply readList_keeps (fun seen => ∀ value ∈ seen, satisfies value) _ ?_ _ _ (by simp)
  cases budget with
  | zero => simp
  | succ budget =>
      rintro inner ⟨⟩ state input holds
      exact foldElements_keeps _ (collects budget) _ _ _ _ holds

end Json

/-! ## Actions of documents -/

namespace Action

open Json (Cause Input)

variable {action : Action} {budget : Nat} {input rest : Input}

/-- What is built from fields remembers nothing. -/
theorem payload_of_ofFields {kind : Kind} {fields : List (String × Json.Value)}
    (built : ofFields kind fields = .ok action) : action.payload = action := by
  cases kind with
  | label | timing | marked | seed | broken =>
      obtain ⟨_, _, built⟩ := bind_eq_ok_iff.mp built
      obtain ⟨_, _, built⟩ := bind_eq_ok_iff.mp built
      obtain rfl := Except.ok.inj built
      rfl
  | argument =>
      obtain ⟨_, _, built⟩ := bind_eq_ok_iff.mp built
      obtain ⟨_, _, built⟩ := bind_eq_ok_iff.mp built
      obtain ⟨_, _, built⟩ := bind_eq_ok_iff.mp built
      obtain ⟨_, _, built⟩ := bind_eq_ok_iff.mp built
      obtain rfl := Except.ok.inj built
      rfl
  | flag =>
      obtain rfl := Except.ok.inj built
      rfl
  | adjustment =>
      rw [ofFields] at built
      split at built
      all_goals
        obtain ⟨_, _, built⟩ := bind_eq_ok_iff.mp built
        obtain ⟨_, _, built⟩ := bind_eq_ok_iff.mp built
        obtain ⟨_, _, built⟩ := bind_eq_ok_iff.mp built
        obtain rfl := Except.ok.inj built
        rfl

theorem payload_of_ofContent {kind : Kind} {content : Content}
    (built : ofContent kind content = .ok action) : action.payload = action := by
  cases content with
  | members members =>
      obtain ⟨fields, _, built⟩ := bind_eq_ok_iff.mp built
      exact payload_of_ofFields built
  | elements elements =>
      obtain ⟨fields, _, built⟩ := bind_eq_ok_iff.mp built
      split at built
      · cases built
      · exact payload_of_ofFields built

theorem payload_of_read (given : read budget input = .ok (action, rest)) :
    action.payload = action := by
  have complete_payload {kind : Option Kind} {content : Content} {left : Input}
      (completed : complete kind content left = .ok (action, rest)) :
      action.payload = action := by
    rw [complete.eq_def] at completed
    split at completed
    · cases completed
    · split at completed
      · next built =>
          obtain ⟨rfl, -⟩ := Prod.mk.inj (Except.ok.inj completed)
          exact payload_of_ofContent built
      · cases completed
  rw [read] at given
  split at given
  · cases given
  · split at given
    · split at given
      · cases given
      · exact complete_payload given
    · split at given
      · split at given
        · cases given
        · exact complete_payload given
      · cases given

theorem payload_of_readMany {actions : Option (List Action)}
    (given : readMany budget input = .ok (actions, rest)) :
    ∀ action ∈ actions.getD [], action.payload = action := by
  have of_some {input : Input}
      (given : (Json.readListOf budget read input).map (fun (value, rest) => (some value, rest)) =
        .ok (actions, rest)) : ∀ action ∈ actions.getD [], action.payload = action := by
    obtain ⟨⟨values, left⟩, isRead, same⟩ := map_eq_ok_iff.mp given
    obtain ⟨rfl, rfl⟩ := Prod.mk.inj same
    exact Json.forall_of_readListOf (fun _ _ _ _ => payload_of_read) isRead
  rw [readMany, Json.readNullable] at given
  split at given
  · split at given
    · obtain ⟨left, -, same⟩ := map_eq_ok_iff.mp given
      obtain ⟨rfl, rfl⟩ := Prod.mk.inj same
      simp
    · exact of_some given
  · exact of_some given

/-- Whatever actions see when they are woken, their payloads stay. -/
theorem map_payload_remember (actions : List Action) (sightings : Nat → Sighting) :
    (actions.mapIdx fun position action => action.remember (sightings position)).map payload =
      actions.map payload := by
  apply List.ext_getElem?
  intro position
  simp [Function.comp_def]

end Action

/-! ## What a document gives -/

namespace Record

variable {session after : Session} {document : Json.Input}

/-- The actions of a document remember nothing. -/
theorem payload_of_decode {record : Decoded}
    (decoded : decode session document = (after, .ok record)) :
    ∀ action ∈ record.actions, action.payload = action := by
  have keeps (state : Session × Decoded) (key : String) (input : Json.Input)
      (holds : ∀ action ∈ state.2.actions, action.payload = action) :
      ∀ action ∈ (readRecordMember (Json.nestingLimit - 1) state key input).1.2.actions,
        action.payload = action := by
    simp only [readRecordMember]
    split
    · exact holds
    · split
      · split
        · exact holds
        · exact holds
      · split
        · split
          · exact holds
          · next given => exact Action.payload_of_readMany given
        · exact holds
  have kept : ∀ action ∈ (Json.readObject "a flow node record" (some fun state input =>
      Json.foldMembers (readRecordMember (Json.nestingLimit - 1)) (input.length + 1) true state
        input) (session, {}) document).1.2.actions, action.payload = action := by
    refine Json.readObject_keeps
      (fun state : Session × Decoded => ∀ action ∈ state.2.actions, action.payload = action)
      _ ?_ _ _ (by simp)
    rintro inner ⟨⟩ state input holds
    exact Json.foldMembers_keeps _ keeps _ _ _ _ holds
  simp only [decode, readRecord] at decoded
  generalize Json.readObject _ _ _ _ = outcome at decoded kept
  rcases outcome with ⟨⟨session', record'⟩, result⟩
  cases result with
  | error fault => simp at decoded
  | ok rest =>
      obtain ⟨-, -, rfl⟩ : _ = after ∧ _ ∧ record' = record := by
        simpa [map_eq_ok_iff] using decoded
      exact kept

end Record

/-! ## Loading -/

namespace Repository

/-- All that reading a record does, once its bytes are decoded: the node gets its execution and the
woken actions, with what the seeds have added behind them. -/
theorem read_decoded {repository : Repository} {site : Site} {id path : String}
    {bytes : List UInt8} {session : Record.Session} {ref : NodeRef} {actions : List Action}
    (found : repository.path id = .ok path)
    (there : site.files.read site.working path = .ok bytes)
    (decoded : Record.decode ⟨site.graph, {}, none⟩ bytes = (session, .ok ⟨some ref, actions⟩))
    (execution : ExecutionRef) :
    ∃ stored parentIds woken events,
      session.graph.node? ref = some (.detached stored (.named parentIds)) ∧
      woken = (actions.mapIdx fun position action =>
        action.remember ⟨stored, site.graph.running? execution,
          actions.length + (actions.take position).countP Action.isSeed⟩) ∧
      repository.read site id execution =
        (.ok ⟨ref, woken⟩,
          { site with
            graph := session.graph.update ref fun _ =>
              ⟨stored, .named parentIds, woken ++ Action.sprouts actions, some execution⟩
            events }) := by
  obtain ⟨nodes, after, isCreated⟩ := Record.decode_fresh site.graph bytes
  simp only [decoded] at after isCreated
  obtain ⟨position, within, isRef⟩ := isCreated _ rfl ref rfl
  have here : ref < session.graph.next := by
    rw [isRef, after, Record.Session.next_withNodes]
    exact Nat.add_lt_add_left within _
  obtain ⟨stored, parentIds, isNode⟩ : ∃ stored parentIds,
      session.graph.node? ref = some (.detached stored (.named parentIds)) := by
    have created := @Record.Session.node?_withNodes ⟨site.graph, {}, none⟩ nodes position
    rw [List.getElem?_eq_getElem within] at created
    exact ⟨_, _, by rw [isRef, after]; exact created⟩
  have created : session.graph.node ref = .detached stored (.named parentIds) := by
    rw [Graph.node, ← Graph.node?, isNode, Option.getD_some]
  have running : session.graph.running? execution = site.graph.running? execution := by
    rw [after, Graph.running?, Record.Session.graph_withNodes]
    rfl
  -- The node was created just now, so no execution has it and wiring cannot refuse it.
  have unowned : (session.graph.node ref).owner = none := by rw [created, Node.detached]
  obtain ⟨reports, seen⟩ : ∃ reports,
      (if (session.graph.node ref).id = id then { site with graph := session.graph }
        else ({ site with graph := session.graph } : Site).report
          (sawOther id (session.graph.node ref).id)) =
        { site with graph := session.graph, events := reports } := by
    split
    · exact ⟨site.events, rfl⟩
    · exact ⟨_, rfl⟩
  obtain ⟨woken, -, wired, remembered⟩ :=
    wire_eq { site with graph := session.graph, events := reports } unowned actions execution
  refine ⟨stored, parentIds, woken,
    reports ++ [loaded (session.graph.node ref).id actions.length], isNode, ?_, ?_⟩
  · rw [remembered here, created, running]
    rfl
  · have change : session.graph.update ref (fun it =>
          { it with owner := some execution, actions := woken ++ Action.sprouts actions }) =
        session.graph.update ref fun _ =>
          ⟨stored, .named parentIds, woken ++ Action.sprouts actions, some execution⟩ := by
      apply Graph.update_congr
      rw [created]
      rfl
    simp only [read, found, content, there, decoded, accept, seen, wired, change]

end Repository

end TraceStore
