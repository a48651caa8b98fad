import Mathlib.Data.List.Find
import TraceStore.Proofs.Store.Soundness

/-!
# No accepted node is lost

A node that the store has accepted is either in the buffer or in its record, and in both places it
is the one accepted last.  `Scene.Keeps` says this of one id, `History.Kept` of all ids and of what
the ledger has noted for them.  Writes may fail at any point: what a failed write leaves behind are
directories, so records stay what they were.

The invariant rests on the ids that are exempt.  A save that is not put off finds nothing in the
buffer under its id, since what is buffered is exempt; so the node that it writes is not hidden by
an older one.
-/

namespace TraceStore

open Repository (Stored)

/-! ## Records after a write -/

namespace Store

variable {store store' : Store} {site site' : Site} {id : String} {node : NodeRef}
  {actions : List Action} {bytes : List UInt8} {result : Except StoreError Unit}

/-- The record of an id holds a node of that id with given parent ids and actions. -/
def Holds (store : Store) (site : Site) (id : String) (parentIds : List String)
    (actions : List Action) : Prop :=
  ∃ bytes, store.repository.Stored site id bytes ∧
    Record.encode id parentIds actions = .ok bytes

/-- A write keeps the records of other ids. -/
theorem Wrote.stored_other
    (wrote : Wrote store site node actions (result, store', site'))
    (distinct : (site.graph.node node).id ≠ id) (stored : store.repository.Stored site id bytes) :
    store'.repository.Stored site' id bytes := by
  cases wrote with
  | done recorded =>
      rcases recorded with ⟨path, written, found, -, replaced⟩
      exact stored.of_replace_other distinct found replaced
  | failed grows => exact stored.of_grows grows

/-- A write that succeeds leaves the record of the node. -/
theorem Wrote.holds (wrote : Wrote store site node actions (.ok (), store', site')) :
    store'.Holds site' (site.graph.node node).id
      (site.graph.parentIds (site.graph.node node).links) actions := by
  cases wrote with
  | done recorded =>
      rcases recorded with ⟨path, bytes, found, encoded, replaced⟩
      exact ⟨bytes, .of_replace_self found replaced, encoded⟩

/-- Writing nodes keeps the records of all other ids. -/
theorem stored_writeNodes (nodes : List NodeRef)
    (others : ∀ node ∈ nodes, (site.graph.node node).id ≠ id)
    (stored : store.repository.Stored site id bytes) :
    (store.writeNodes site nodes).2.1.repository.Stored (store.writeNodes site nodes).2.2 id
      bytes := by
  suffices (store.writeNodes site nodes).2.2.graph = site.graph ∧
      (store.writeNodes site nodes).2.1.repository.Stored (store.writeNodes site nodes).2.2 id
        bytes from this.2
  refine writeNodes_induction (motive := fun store' site' => site'.graph = site.graph ∧
    store'.repository.Stored site' id bytes) nodes ⟨rfl, stored⟩ ?_
  intro between surroundings holds node member result store' site' wrote
  rcases holds with ⟨graph, stored⟩
  refine ⟨?_, wrote.stored_other (graph ▸ others node member) stored⟩
  cases wrote with
  | done _ => exact graph
  | failed _ => exact graph

/-- Once nodes of distinct ids are all written, the record of each holds that node with the actions
that it has. -/
theorem holds_writeNodes (nodes : List NodeRef)
    (distinct : ∀ node ∈ nodes, ∀ other ∈ nodes,
      (site.graph.node node).id = (site.graph.node other).id → node = other)
    (written : store.writeNodes site nodes = (.ok (), store', site')) :
    ∀ node ∈ nodes, store'.Holds site' (site.graph.node node).id
      (site.graph.parentIds (site.graph.node node).links) (site.graph.node node).actions := by
  have finished := writeNodes_ok (motive := fun rest store' site' => site'.graph = site.graph ∧
    ∀ node ∈ nodes, node ∈ rest ∨ store'.Holds site' (site.graph.node node).id
      (site.graph.parentIds (site.graph.node node).links) (site.graph.node node).actions)
    written ⟨rfl, fun node member => .inl member⟩ ?_
  · intro node member
    exact (finished.2 node member).resolve_left (by simp)
  intro first isNode rest between surroundings store' site' earlier wrote
  rcases earlier with ⟨graph, done⟩
  have holds := wrote.holds
  rw [graph] at holds
  constructor
  · cases wrote with
    | done _ => exact graph
  · intro node member
    by_cases same : node = first
    · exact .inr (same ▸ holds)
    · apply (done node member).imp (fun ahead => (List.mem_cons.mp ahead).resolve_left same)
      rintro ⟨bytes, stored, encoded⟩
      have apart : (site.graph.node first).id ≠ (site.graph.node node).id := fun equal =>
        same (distinct first isNode node member equal).symm
      exact ⟨bytes, wrote.stored_other (graph ▸ apart) stored, encoded⟩

end Store

/-! ## What is kept of one id -/

namespace Scene

variable {before after : Scene} {store store' : Store} {site site' : Site} {id : String}
  {node : NodeRef} {written actions : List Action} {result : Except StoreError Unit}

/-- A node is the last one of an id: in the buffer, or else in the record, next to given actions. -/
structure Keeps (scene : Scene) (id : String) (node : NodeRef) (written : List Action) : Prop where
  there : node < scene.site.graph.next
  named : (scene.site.graph.node node).id = id
  buffered : ∀ held, scene.store.deferred.get? id = some held → held = node
  recorded : scene.store.deferred.get? id = none →
    scene.store.Holds scene.site id
      (scene.site.graph.parentIds (scene.site.graph.node node).links) written

/-- The buffer has the same node for an id, and the record is the same if the buffer has none. -/
structure Untouched (id : String) (before after : Scene) : Prop where
  graph : before.site.graph.Keeps after.site.graph
  pending : after.store.deferred.get? id = before.store.deferred.get? id
  stored : before.store.deferred.get? id = none → ∀ bytes,
    before.store.repository.Stored before.site id bytes →
      after.store.repository.Stored after.site id bytes

theorem Keeps.of_untouched (keeps : before.Keeps id node written)
    (acyclic : before.site.graph.Acyclic) (untouched : Untouched id before after) :
    after.Keeps id node written where
  there := untouched.graph.lt keeps.there
  named := (untouched.graph.id_eq node keeps.there).trans keeps.named
  buffered held found := keeps.buffered held (untouched.pending ▸ found)
  recorded notPending := by
    rw [untouched.pending] at notPending
    rcases keeps.recorded notPending with ⟨bytes, stored, encoded⟩
    rw [untouched.graph.parentIds_eq acyclic keeps.there]
    exact ⟨bytes, untouched.stored notPending bytes stored, encoded⟩

/-- Steps that leave the buffer, the repository and the files alone touch no id. -/
theorem untouched_of_frame (graph : before.site.graph.Keeps after.site.graph)
    (deferred : after.store.deferred = before.store.deferred)
    (repository : after.store.repository = before.store.repository)
    (working : after.site.working = before.site.working)
    (files : after.site.files = before.site.files) (id : String) : Untouched id before after where
  graph := graph
  pending := by rw [deferred]
  stored _ bytes stored := by
    rcases stored with ⟨path, found, there⟩
    exact ⟨path, repository ▸ found, by rw [files, working, there]⟩

theorem untouched_wrote (wrote : Store.Wrote store site node actions (result, store', site'))
    (distinct : (site.graph.node node).id ≠ id) : Untouched id ⟨store, site⟩ ⟨store', site'⟩ := by
  have stored (bytes : List UInt8) (there : store.repository.Stored site id bytes) :=
    wrote.stored_other distinct there
  cases wrote with
  | done _ => exact ⟨.refl _, rfl, fun _ => stored⟩
  | failed _ => exact ⟨.refl _, rfl, fun _ => stored⟩

theorem untouched_of_failed {failure : StoreError}
    (wrote : Store.Wrote store site node actions (.error failure, store', site')) (id : String) :
    Untouched id ⟨store, site⟩ ⟨store', site'⟩ := by
  cases wrote with
  | failed grows => exact ⟨.refl _, rfl, fun _ bytes stored => stored.of_grows grows⟩

/-- The buffer may change for other ids. -/
theorem Untouched.withDeferred (untouched : Untouched id before ⟨store', site'⟩)
    {deferred : Deferred} {events : List Event}
    (pending : deferred.get? id = before.store.deferred.get? id) :
    Untouched id before ⟨{ store' with deferred }, { site' with events }⟩ :=
  ⟨untouched.graph, pending, untouched.stored⟩

/-! ## Steps that touch no id -/

/-- Steps that neither store nor write nodes leave the buffer and the files alone. -/
theorem frame_of_not_mutates {scene : Scene} (acyclic : scene.site.graph.Acyclic)
    {operation : Operation} (idle : operation.mutates = false) :
    (scene.perform operation).2.store.deferred = scene.store.deferred ∧
      (scene.perform operation).2.store.repository = scene.store.repository ∧
      (scene.perform operation).2.site.working = scene.site.working ∧
      (scene.perform operation).2.site.files = scene.site.files := by
  rcases scene with ⟨store, site⟩
  cases operation with
  | put _ _ | autopersist _ | flushNode _ | flush | saveActions _ _ =>
      simp [Operation.mutates] at idle
  | get id' =>
      have looked := Store.get_looked acyclic store id'
      simp only [perform]
      generalize store.get site id' = outcome at looked
      cases looked <;> exact ⟨rfl, rfl, rfl, rfl⟩
  | loadActions node =>
      rcases Store.loadActions_reads store site node with ⟨store_eq, reads⟩
      simp only [perform]
      generalize store.loadActions site node = outcome at store_eq reads
      rcases outcome with ⟨result, store', site'⟩
      rcases reads with ⟨⟨graph, events, rfl⟩, -⟩
      simp only at store_eq
      subst store_eq
      exact ⟨rfl, rfl, rfl, rfl⟩
  | reclaim | create _ | attach _ _ | hold _ | drop _ | start _ | stop _ | refuse _ =>
      exact ⟨rfl, rfl, rfl, rfl⟩

theorem untouched_of_not_mutates {scene : Scene} (sound : scene.Sound) {operation : Operation}
    (permitted : scene.permits operation = true) (idle : operation.mutates = false) (id : String) :
    Untouched id scene (scene.perform operation).2 := by
  rcases frame_of_not_mutates sound.acyclic idle with ⟨deferred, repository, working, files⟩
  exact untouched_of_frame (sound_perform sound permitted).2 deferred repository working files id

theorem id_ne_of_not_pending (sound : Sound ⟨store, site⟩)
    (notPending : store.deferred.get? id = none) :
    ∀ node ∈ store.deferred.nodes, (site.graph.node node).id ≠ id := by
  rintro node member rfl
  rcases (Deferred.mem_nodes_iff sound.deferred.ascending node).mp member with ⟨other, found⟩
  rw [sound.deferred.named other node found, found] at notPending
  simp at notPending

/-- Writing out the buffer touches only the records of ids in it. -/
theorem untouched_writeNodes (sound : Sound ⟨store, site⟩) (id : String) :
    Untouched id ⟨store, site⟩ ⟨(store.writeNodes site store.deferred.nodes).2.1,
      (store.writeNodes site store.deferred.nodes).2.2⟩ := by
  obtain ⟨graph, deferred⟩ := Store.writeNodes_leaves store site store.deferred.nodes
  refine ⟨?_, by rw [deferred], ?_⟩
  · simp only [graph]
    exact .refl _
  · intro notPending bytes stored
    exact Store.stored_writeNodes _ (id_ne_of_not_pending sound notPending) stored

/-- An operation that fails touches no id. -/
theorem untouched_of_error {scene : Scene} (sound : scene.Sound) {operation : Operation}
    (permitted : scene.permits operation = true) {failure : StoreError}
    (failed : (scene.perform operation).1 = .error failure) (id : String) :
    Untouched id scene (scene.perform operation).2 := by
  cases mutates : operation.mutates with
  | false => exact untouched_of_not_mutates sound permitted mutates id
  | true =>
      have effect := scene.effect_perform mutates
      generalize scene.perform operation = outcome at effect failed
      cases effect with
      | buffers _ _ => simp at failed
      | writes _ _ written buffer =>
          obtain rfl : _ = Except.error failure := failed
          subst buffer
          exact (untouched_of_failed (Store.wrote_of_eq written) id).withDeferred rfl
      | flushes _ written buffer =>
          obtain rfl : _ = Except.error failure := failed
          have untouched := untouched_writeNodes sound id
          rw [written] at untouched
          subst buffer
          exact untouched.withDeferred rfl

/-! ## What an operation that succeeds has written -/

theorem keeps_of_wrote (there : node < site.graph.next)
    (wrote : Store.Wrote store site node actions (.ok (), store', site')) {deferred : Deferred}
    (notPending : deferred.get? (site.graph.node node).id = none) :
    Keeps ⟨{ store' with deferred }, site'⟩ (site.graph.node node).id node actions := by
  have holds := wrote.holds
  cases wrote with
  | done _ => exact ⟨there, rfl, fun held found => by simp [notPending] at found, fun _ => holds⟩

theorem keeps_of_buffered (there : node < site.graph.next)
    (pending : store.deferred.get? (site.graph.node node).id = some node) :
    Keeps ⟨store, site⟩ (site.graph.node node).id node written where
  there := there
  named := rfl
  buffered held found := by
    rw [pending] at found
    exact (Option.some.inj found).symm
  recorded notPending := by simp [pending] at notPending

/-- Flushing writes the record of an id with the actions of its buffered node. -/
theorem find?_records_flush (sound : Sound ⟨store, site⟩) (id : String) :
    (records ⟨store, site⟩ .flush).find? (·.1 = id) =
      (store.deferred.get? id).map (ownRecord ⟨store, site⟩) := by
  have named : ∀ item ∈ store.deferred.pending, (site.graph.node item.2).id = item.1 :=
    fun item member => sound.deferred.named item.1 item.2
      ((Deferred.get?_eq_some_iff sound.deferred.ascending _ _).mpr member)
  have own : store.deferred.pending.find? ((fun record => decide (record.1 = id)) ∘
      ownRecord ⟨store, site⟩ ∘ (·.2)) = store.deferred.pending.find? (·.1 = id) :=
    List.find?_congr fun item member => by simp [ownRecord, named item member]
  rw [records, Deferred.nodes, Deferred.get?, List.map_map, List.find?_map, own, Option.map_map]

/-- Once the buffer is emptied, its nodes are in their records. -/
theorem keeps_of_flush (sound : Sound ⟨store, site⟩) {events : List Event}
    (written : store.writeNodes site store.deferred.nodes = (.ok (), store', site'))
    (pending : store.deferred.get? id = some node) :
    Keeps ⟨{ store' with deferred := store.deferred.clear }, { site' with events }⟩ id node
      (site.graph.node node).actions := by
  have graph := (Store.writeNodes_leaves store site store.deferred.nodes).1
  rw [written] at graph
  simp only at graph
  have distinct : ∀ node ∈ store.deferred.nodes, ∀ other ∈ store.deferred.nodes,
      (site.graph.node node).id = (site.graph.node other).id → node = other :=
    fun _ member _ isOther => sound.deferred.eq_of_id_eq member isOther
  have member := (Deferred.mem_nodes_iff sound.deferred.ascending node).mpr ⟨id, pending⟩
  have holds := Store.holds_writeNodes store.deferred.nodes distinct written node member
  have named := sound.deferred.named id node pending
  rw [named] at holds
  refine ⟨?_, ?_, fun held found => by simp at found, ?_⟩
  · exact graph ▸ sound.deferred.there id node pending
  · exact graph ▸ named
  · intro _
    simp only [graph]
    exact holds

end Scene

/-! ## Runs -/

/-- Operations that neither store nor write nodes promise nothing. -/
theorem Ledger.after_of_not_mutates (ledger : Ledger) (scene : Scene) {operation : Operation}
    (idle : operation.mutates = false) (result : Except StoreError Unit) :
    (ledger.after scene operation result).accepted = ledger.accepted ∧
      (ledger.after scene operation result).written = ledger.written := by
  cases result with
  | error failure => simp [Ledger.after, idle]
  | ok _ =>
      cases operation <;> simp_all [Operation.mutates, Ledger.after, Scene.records, Scene.accepts?,
        Ledger.write]

theorem Ledger.after_of_accepts (ledger : Ledger) {scene : Scene} {operation : Operation}
    {node : NodeRef} (accepted : scene.accepts? operation = some node) :
    ledger.after scene operation (.ok ()) =
      (ledger.write (scene.records operation)).accept (scene.site.graph.node node).id node := by
  rw [after, accepted]

namespace History

/-- What was accepted is kept. -/
structure Kept (history : History) : Prop where
  sound : history.scene.Sound
  keeps : ∀ id node, history.ledger.accepted id = some node →
    history.scene.Keeps id node (history.ledger.written id)

theorem kept_opened (execution : ExecutionRef) (directory : String) (capacity : Nat)
    (direct : Bool) (files : FileTree) (working : Route) :
    (opened execution directory capacity direct files working).Kept where
  sound := Scene.sound_opened execution directory capacity direct files working
  keeps id node accepted := by simp [opened] at accepted

variable {history : History} {after : Scene} {id : String} {node : NodeRef}

/-- A step that touches no id keeps what was accepted. -/
theorem Kept.of_untouched (kept : history.Kept) (sound : after.Sound)
    (untouched : ∀ id, Scene.Untouched id history.scene after) {ledger : Ledger}
    (accepted : ledger.accepted = history.ledger.accepted)
    (written : ledger.written = history.ledger.written) : Kept ⟨after, ledger⟩ where
  sound := sound
  keeps id node isAccepted := by
    rw [accepted] at isAccepted
    rw [written]
    exact (kept.keeps id node isAccepted).of_untouched kept.sound.acyclic (untouched id)

/-- A step that stores one node keeps that node and touches no other id. -/
theorem Kept.accept (kept : history.Kept) (sound : after.Sound)
    {records : List (String × List Action)} (own : ∀ record ∈ records, record.1 = id)
    (untouched : ∀ other, id ≠ other → Scene.Untouched other history.scene after)
    (keeps : after.Keeps id node ((history.ledger.write records).written id)) :
    Kept ⟨after, (history.ledger.write records).accept id node⟩ where
  sound := sound
  keeps other held isAccepted := by
    simp only [Ledger.accept] at isAccepted ⊢
    split at isAccepted
    · next same =>
        obtain rfl := Option.some.inj isAccepted
        rw [same]
        exact keeps
    · next apart =>
        have notWritten : (history.ledger.write records).written other =
            history.ledger.written other := by
          have none : records.find? (·.1 = other) = none := by
            rw [List.find?_eq_none]
            intro record member
            simp [own record member, Ne.symm apart]
          simp [Ledger.write, none]
        rw [notWritten]
        exact (kept.keeps other held isAccepted).of_untouched kept.sound.acyclic
          (untouched other (Ne.symm apart))

theorem kept_of_flush {store store' : Store} {site site' : Site} {ledger : Ledger}
    (kept : Kept ⟨⟨store, site⟩, ledger⟩) {events : List Event}
    (sound : Scene.Sound ⟨{ store' with deferred := store.deferred.clear }, { site' with events }⟩)
    (written : store.writeNodes site store.deferred.nodes = (.ok (), store', site')) :
    Kept ⟨⟨{ store' with deferred := store.deferred.clear }, { site' with events }⟩,
      ledger.write (Scene.records ⟨store, site⟩ .flush)⟩ where
  sound := sound
  keeps id node isAccepted := by
    have keeps := kept.keeps id node isAccepted
    simp only [Ledger.write, Scene.find?_records_flush kept.sound]
    cases pending : store.deferred.get? id with
    | some held =>
        obtain rfl := keeps.buffered held pending
        exact Scene.keeps_of_flush kept.sound written pending
    | none =>
        have untouched := Scene.untouched_writeNodes kept.sound id
        rw [written] at untouched
        exact keeps.of_untouched kept.sound.acyclic (untouched.withDeferred (by simp [pending]))

/-- Every effect of an operation that succeeds keeps what was accepted. -/
theorem kept_of_effect (kept : history.Kept) (sound : after.Sound) {operation : Operation}
    (there : ∀ node, operation.node? = some node → node < history.scene.site.graph.next)
    (effect : history.scene.Effect operation (.ok (), after)) :
    Kept ⟨after, history.ledger.after history.scene operation (.ok ())⟩ := by
  have pending := kept.sound.get?_bufferAfter operation
  cases effect with
  | buffers nothing buffer =>
      simp only [← buffer, nothing] at pending
      cases accepted : history.scene.accepts? operation with
      | none =>
          refine kept.of_untouched sound (fun id => ⟨.refl _, ?_, fun _ _ stored => stored⟩) ?_ ?_
          · simp [pending, accepted]
          · simp [Ledger.after, accepted, Ledger.write]
          · simp [Ledger.after, accepted, nothing, Ledger.write]
      | some node =>
          rw [history.ledger.after_of_accepts accepted]
          refine kept.accept sound (by simp [nothing])
            (fun other apart => ⟨.refl _, ?_, fun _ _ stored => stored⟩)
            (Scene.keeps_of_buffered (there node (Scene.node?_of_accepts? accepted)) ?_)
          · simp [pending, accepted, Option.filter_some, apart]
          · simp [pending, accepted, Option.filter_some]
  | @writes node _ _ _ _ deferred accepted own written buffer =>
      have wrote := Store.wrote_of_eq written
      simp only [← buffer, own, accepted] at pending
      rw [history.ledger.after_of_accepts accepted, own]
      refine kept.accept sound (by simp) (fun other apart => ?_) ?_
      · refine (Scene.untouched_wrote wrote apart).withDeferred ?_
        simp [pending, Option.filter_some, apart, Ne.symm apart]
      · have notPending : deferred.get? (history.scene.site.graph.node node).id = none := by
          simp [pending]
        simpa [Ledger.write] using Scene.keeps_of_wrote
          (there node (Scene.node?_of_accepts? accepted)) wrote notPending
  | flushes isFlush written buffer =>
      subst isFlush buffer
      exact kept_of_flush kept sound written

/-- Every step keeps what was accepted. -/
theorem kept_perform (kept : history.Kept) {operation : Operation}
    (permitted : history.scene.permits operation = true) :
    Kept ⟨(history.scene.perform operation).2,
      history.ledger.after history.scene operation (history.scene.perform operation).1⟩ := by
  have sound := (Scene.sound_perform kept.sound permitted).1
  cases result : (history.scene.perform operation).1 with
  | error failure =>
      refine kept.of_untouched sound
        (Scene.untouched_of_error kept.sound permitted result) ?_ ?_
      all_goals
        rw [Ledger.after]
        split <;> rfl
  | ok _ =>
      cases mutates : operation.mutates with
      | false =>
          obtain ⟨accepted, written⟩ :=
            Ledger.after_of_not_mutates history.ledger history.scene mutates (.ok ())
          exact kept.of_untouched sound
            (Scene.untouched_of_not_mutates kept.sound permitted mutates) accepted written
      | true =>
          have there (node : NodeRef) : operation.node? = some node → _ :=
            Scene.lt_of_permits kept.sound permitted
          have effect := history.scene.effect_perform mutates
          generalize history.scene.perform operation = outcome at effect result sound
          rcases outcome with ⟨_, after⟩
          obtain rfl := result
          exact kept_of_effect kept sound there effect

theorem kept_run (execution : ExecutionRef) (directory : String) (capacity : Nat) (direct : Bool)
    (files : FileTree) (working : Route) (operations : List Operation) :
    ((opened execution directory capacity direct files working).run operations).Kept :=
  run_induction (kept_opened execution directory capacity direct files working)
    (fun _ _ kept permitted => kept_perform kept permitted) operations

/-- Over every run, whichever writes fail, the node accepted last for an id is not lost.  While the
id is buffered, that node is the one in the buffer.  Otherwise the record of the id is there, and is
read as a node with that id and the parent ids of the accepted node, next to the actions with which
the record was written last. -/
theorem accepted_node_is_kept (execution : ExecutionRef) (directory : String) (capacity : Nat)
    (direct : Bool) (files : FileTree) (working : Route) (operations : List Operation)
    (id : String) (node : NodeRef)
    (accepted : ((opened execution directory capacity direct files working).run
      operations).ledger.accepted id = some node) :
    let history := (opened execution directory capacity direct files working).run operations
    let store := history.scene.store
    let site := history.scene.site
    (site.graph.node node).id = id ∧
      (store.deferred.contains id = true → store.deferred.get? id = some node) ∧
      (store.deferred.contains id = false → ∃ path bytes,
        store.repository.path id = .ok path ∧ site.files.read site.working path = .ok bytes ∧
          ∀ receiver : Graph, ∃ session,
            Record.decode ⟨receiver, {}, none⟩ bytes =
              (session, .ok ⟨some receiver.next, (history.ledger.written id).map Action.payload⟩) ∧
            session.graph.node? receiver.next =
              some ⟨id, .named (site.graph.parentIds (site.graph.node node).links), [], none⟩) := by
  intro history store site
  have keeps :=
    (kept_run execution directory capacity direct files working operations).keeps id node accepted
  refine ⟨keeps.named, ?_, ?_⟩
  · intro buffered
    rcases (Deferred.contains_eq_true_iff _ _).mp buffered with ⟨held, pending⟩
    rw [pending, keeps.buffered held pending]
  · intro notBuffered
    have notPending : store.deferred.get? id = none := by
      simpa [Deferred.contains] using notBuffered
    rcases keeps.recorded notPending with ⟨bytes, ⟨path, found, there⟩, encoded⟩
    refine ⟨path, bytes, found, there, ?_⟩
    intro receiver
    exact ⟨_, Record.decode_encode encoded ⟨receiver, {}, none⟩, Graph.node?_add_next receiver _⟩

/-- Two nodes share an id, the later one is buffered, a flush fails, and then the first is written
with given actions: its record is read with these. -/
theorem accepted_node_is_kept_after_failed_flush :
    let operations : List Operation :=
      [.create ⟨"a", .named ["p"], [], some 0⟩, .create ⟨"a", .held [], [.flag], some 0⟩,
        .put 0 false, .put 1 true, .refuse [("d/a.json", .other "full")], .flush, .refuse [],
        .autopersist 1, .saveActions 0 [.label "y"]]
    let history := (opened 0 "d" 2 false {} []).run operations
    history.ledger.failures = [.io (.other "full")] ∧ history.ledger.accepted "a" = some 0 ∧
      ∃ path bytes, history.scene.store.repository.path "a" = .ok path ∧
        history.scene.site.files.read history.scene.site.working path = .ok bytes ∧
          ∃ session, Record.decode ⟨{}, {}, none⟩ bytes = (session, .ok ⟨some 0, [.label "y"]⟩) ∧
            session.graph.node? 0 = some ⟨"a", .named ["p"], [], none⟩ := by
  intro operations history
  have accepted : history.ledger.accepted "a" = some 0 := by decide +kernel
  have written : history.ledger.written "a" = [.label "y"] := by decide +kernel
  have parents : history.scene.site.graph.parentIds (history.scene.site.graph.node 0).links =
      ["p"] := by decide +kernel
  -- a run is not evaluated to see that it is the same run
  obtain ⟨-, -, recorded⟩ := accepted_node_is_kept 0 "d" 2 false {} [] operations "a" 0
    (by with_reducible exact accepted)
  obtain ⟨path, bytes, found, there, reading⟩ := recorded (by decide +kernel)
  rcases reading {} with ⟨session, decoded, created⟩
  refine ⟨by decide +kernel, accepted, path, bytes, found, there, session, ?_, ?_⟩
  · rw [decoded, written]
    rfl
  · rw [← parents]
    exact created

end History

end TraceStore
