import TraceStore.Proofs.Cache.Reclamation
import TraceStore.Proofs.Repository.Records
import TraceStore.Proofs.Store.Run

/-!
# What the operations of a store do

One statement for each operation says all that it can do, so that nothing that follows looks into
the operations again.  Writes come to `Wrote`: the node is cached first, and then its record is
written or the write fails.  Lookups come to `Looked`: the node was buffered, or cached, or its
record was read and the node entered into the cache, or there was no node to be had.  All operations
that put nodes into the buffer or write them come to `Scene.Effect`, which ties what is written and
what the buffer is afterwards to what the operation accepts and records.
-/

namespace TraceStore.Store

variable {store : Store} {site : Site} {id : String} {node : NodeRef}

/-! ## Writing one node -/

/-- The store with a node cached. -/
def caching (store : Store) (site : Site) (node : NodeRef) : Store :=
  { store with cache := (store.cache.insert site.graph (store.outside site) node).1 }

/-- A record of a node with given actions was written, which left the given files. -/
def Recorded (store : Store) (site : Site) (node : NodeRef) (actions : List Action)
    (files : FileTree) : Prop :=
  ∃ path bytes, store.repository.path (site.graph.node node).id = .ok path ∧
    Record.encode (site.graph.node node).id
      (site.graph.parentIds (site.graph.node node).links) actions = .ok bytes ∧
    site.files.replace site.working path bytes store.repository.atomic = (.ok (), files)

/-- What writing a node can come to.  In either case the node is cached. -/
inductive Wrote (store : Store) (site : Site) (node : NodeRef) (actions : List Action) :
    Outcome Unit → Prop where
  | done {files : FileTree} {events : List Event}
      (recorded : store.Recorded site node actions files) :
      Wrote store site node actions (.ok (), store.caching site node, { site with files, events })
  | failed {failure : StoreError} {files : FileTree} {events : List Event}
      (grows : site.files.Grows (fun _ => True) files) :
      Wrote store site node actions
        (.error failure, store.caching site node, { site with files, events })

theorem writeNode_wrote (store : Store) (site : Site) (node : NodeRef) (actions : List Action) :
    Wrote store site node actions (store.writeNode site node actions) := by
  cases inserted : store.cache.insert site.graph (store.outside site) node with
  | mk cache reports =>
      have isCaching : store.caching site node = { store with cache } := by
        rw [caching, inserted]
      rw [writeNode, inserted]
      simp only
      cases written : store.repository.write (site.reportAll reports) node actions with
      | mk result after =>
          rw [← isCaching]
          cases result with
          | error failure =>
              rcases Repository.write_error written with ⟨files, rfl, grows⟩
              exact .failed grows
          | ok _ =>
              obtain ⟨path, bytes, files, event, found, encoded, replaced, rfl⟩ :=
                Repository.write_ok written
              exact .done ⟨path, bytes, found, encoded, replaced⟩

/-- A write leaves the graph and the buffer. -/
theorem Wrote.leaves {actions : List Action} {result : Except StoreError Unit} {store' : Store}
    {site' : Site} (wrote : Wrote store site node actions (result, store', site')) :
    site'.graph = site.graph ∧ store'.deferred = store.deferred := by
  cases wrote <;> exact ⟨rfl, rfl⟩

theorem wrote_of_eq {actions : List Action} {outcome : Outcome Unit}
    (written : store.writeNode site node actions = outcome) :
    Wrote store site node actions outcome :=
  written ▸ writeNode_wrote store site node actions

/-- What a write leaves in the cache. -/
theorem trimmed_caching (acyclic : site.graph.Acyclic) (store : Store) (node : NodeRef) :
    Cache.Trimmed site.graph (store.outside site) (some (site.graph.node node).id)
      (store.cache.setSlot (site.graph.node node).id (.filled node))
      (store.caching site node).cache :=
  Cache.trimmed_trim acyclic _ _ _

/-- A node that is being written is cached, whatever is dropped to make room. -/
theorem peek_caching (acyclic : site.graph.Acyclic) (distinct : store.cache.Distinct)
    (node : NodeRef) :
    (store.caching site node).cache.peek (site.graph.node node).id = some node :=
  (trimmed_caching acyclic store node).peek_filled distinct

/-! ## Writing out of the buffer -/

/-- Flushing a node writes it, and takes it from the buffer unless that fails. -/
theorem flushNode_cases (store : Store) (site : Site) (node : NodeRef) :
    (∃ failure store' site',
      store.writeNode site node (site.graph.node node).actions = (.error failure, store', site') ∧
        store.flushNode site node = (.error failure, store', site')) ∨
    ∃ store' site',
      store.writeNode site node (site.graph.node node).actions = (.ok (), store', site') ∧
        store.flushNode site node = (.ok (), { store' with
          deferred := store'.deferred.remove (site.graph.node node).id }, site') := by
  rw [flushNode]
  split
  · next written => exact .inl ⟨_, _, _, written, rfl⟩
  · next written => exact .inr ⟨_, _, written, rfl⟩

/-- What every write of a list of nodes keeps is kept by all of them, wherever they end. -/
theorem writeNodes_induction {motive : Store → Site → Prop} (nodes : List NodeRef)
    (initial : motive store site)
    (steps : ∀ store site, motive store site → ∀ node ∈ nodes, ∀ result store' site',
      Wrote store site node (site.graph.node node).actions (result, store', site') →
      motive store' site') :
    motive (store.writeNodes site nodes).2.1 (store.writeNodes site nodes).2.2 := by
  induction nodes generalizing store site with
  | nil => exact initial
  | cons node others ih =>
      have wrote := writeNode_wrote store site node (site.graph.node node).actions
      rw [writeNodes]
      cases outcome : store.writeNode site node (site.graph.node node).actions with
      | mk result after =>
          rcases after with ⟨store', site'⟩
          rw [outcome] at wrote
          have next := steps store site initial node (by simp) result store' site' wrote
          cases result with
          | error failure => exact next
          | ok _ =>
              exact ih next fun store site holds node member =>
                steps store site holds node (List.mem_cons_of_mem _ member)

theorem writeNodes_leaves (store : Store) (site : Site) (nodes : List NodeRef) :
    (store.writeNodes site nodes).2.2.graph = site.graph ∧
      (store.writeNodes site nodes).2.1.deferred = store.deferred := by
  refine writeNodes_induction (motive := fun store' site' => site'.graph = site.graph ∧
    store'.deferred = store.deferred) nodes ⟨rfl, rfl⟩ ?_
  intro between surroundings ⟨graph, deferred⟩ node _ result store' site' wrote
  exact ⟨wrote.leaves.1.trans graph, wrote.leaves.2.trans deferred⟩

/-- What is said of the nodes still to be written holds of none in the end, if all could be
written. -/
theorem writeNodes_ok {motive : List NodeRef → Store → Site → Prop} {nodes : List NodeRef}
    {store' : Store} {site' : Site}
    (written : store.writeNodes site nodes = (.ok (), store', site'))
    (initial : motive nodes store site)
    (steps : ∀ node ∈ nodes, ∀ rest store site store' site', motive (node :: rest) store site →
      Wrote store site node (site.graph.node node).actions (.ok (), store', site') →
      motive rest store' site') :
    motive [] store' site' := by
  induction nodes generalizing store site with
  | nil =>
      obtain ⟨rfl, rfl⟩ : store = store' ∧ site = site' := by simpa [writeNodes] using written
      exact initial
  | cons node rest ih =>
      have wrote := writeNode_wrote store site node (site.graph.node node).actions
      rw [writeNodes] at written
      cases outcome : store.writeNode site node (site.graph.node node).actions with
      | mk result after =>
          rcases after with ⟨between, surroundings⟩
          rw [outcome] at wrote written
          cases result with
          | error failure => simp at written
          | ok _ =>
              exact ih written (steps node (by simp) _ _ _ _ _ initial wrote) fun node member =>
                steps node (List.mem_cons_of_mem _ member)

/-- Flushing writes the buffered nodes, and empties the buffer if all could be written. -/
theorem flush_cases (store : Store) (site : Site) :
    (∃ failure store' site',
      store.writeNodes site store.deferred.nodes = (.error failure, store', site') ∧
        store.flush site = (.error failure, store', site')) ∨
    ∃ store' site' events,
      store.writeNodes site store.deferred.nodes = (.ok (), store', site') ∧
        store.flush site = (.ok (), { store' with deferred := store'.deferred.clear },
          { site' with events }) := by
  rw [flush]
  split
  · next empty =>
      have none : store.deferred.pending = [] := by simpa [Deferred.isEmpty] using empty
      refine .inr ⟨store, site, site.events, by simp [Deferred.nodes, none, writeNodes], ?_⟩
      have same : store.deferred.clear = store.deferred := by
        rw [Deferred.clear, ← none]
      rw [same]
  · split
    · next written => exact .inl ⟨_, _, _, written, rfl⟩
    · next written => exact .inr ⟨_, _, _, written, rfl⟩

/-! ## Looking up -/

/-- What a lookup can come to. -/
inductive Looked (store : Store) (site : Site) (id : String) :
    Outcome (Option NodeRef) → Prop where
  | buffered {node : NodeRef} (pending : store.deferred.get? id = some node) :
      Looked store site id (.ok (some node), store, site)
  | cached {node : NodeRef} {cache : Cache} (notPending : store.deferred.get? id = none)
      (found : store.cache.peek id = some node) (same : cache.slots = store.cache.slots) :
      Looked store site id (.ok (some node), { store with cache }, site)
  | loaded {loaded : Loaded} {cache : Cache} {graph : Graph} {events reports : List Event}
      (notPending : store.deferred.get? id = none) (notCached : store.cache.peek id = none)
      (read : store.repository.read site id store.execution =
        (.ok loaded, { site with graph, events }))
      (trimmed : Cache.Trimmed graph (store.outside site) (some id)
        (store.cache.setSlot id (.filled loaded.node)) cache) :
      Looked store site id
        (.ok (some loaded.node), { store with cache }, { site with graph, events := reports })
  | refused {failure : StoreError} {cache : Cache} {graph : Graph} {events reports : List Event}
      (notPending : store.deferred.get? id = none) (notCached : store.cache.peek id = none)
      (read : store.repository.read site id store.execution =
        (.error failure, { site with graph, events }))
      (slots : cache.slots = Cache.without store.cache.slots id) :
      Looked store site id
        (if failure.isNotFound then .ok none else .error failure, { store with cache },
          { site with graph, events := reports })

/-- An id that was asked for and then found, or not found, leaves no loading slot. -/
theorem without_append_self (slots : List (String × Slot)) (id : String) (slot : Slot) :
    Cache.without (Cache.without slots id ++ [(id, slot)]) id = Cache.without slots id := by
  simp [Cache.without]

theorem slots_abandon_asked {cache asked : Cache} {id : String}
    (loading : asked.slots = (cache.setSlot id .loading).slots) :
    (asked.abandon id).slots = Cache.without cache.slots id := by
  have slot : asked.slot? id = some .loading := by
    rw [Cache.slot?, loading]
    exact Cache.slot?_setSlot_self cache id .loading
  rw [Cache.slots_abandon slot, loading, Cache.setSlot, without_append_self]

theorem slots_setSlot_setSlot (cache : Cache) (id : String) (first second : Slot) :
    ((cache.setSlot id first).setSlot id second).slots = (cache.setSlot id second).slots := by
  rw [Cache.setSlot, Cache.setSlot, Cache.setSlot, without_append_self]

theorem get_looked (acyclic : site.graph.Acyclic) (store : Store) (id : String) :
    Looked store site id (store.get site id) := by
  rw [get]
  cases pending : store.deferred.get? id with
  | some node => exact .buffered pending
  | none =>
      rw [Cache.request]
      cases found : store.cache.peek id with
      | some node => exact .cached pending found rfl
      | none =>
          obtain ⟨⟨⟨graph, events, frame⟩, appends⟩, -⟩ :=
            Repository.read_frame store.repository site id store.execution
          simp only [fetch]
          cases read : store.repository.read site id store.execution with
          | mk result after =>
              rw [read] at frame appends
              simp only at frame appends
              subst frame
              cases result with
              | ok loaded =>
                  refine .loaded pending found read ?_
                  obtain ⟨sublist, dropped⟩ := Cache.trimmed_trim (appends.acyclic acyclic)
                    (store.outside site) id
                    (Cache.setSlot
                      { store.cache.setSlot id .loading with loads := store.cache.loads + 1 } id
                      (.filled loaded.node))
                  have slots := slots_setSlot_setSlot store.cache id .loading (.filled loaded.node)
                  exact ⟨slots ▸ sublist, slots ▸ dropped⟩
              | error failure =>
                  have looked (cache : Cache) (reports : List Event)
                      (slots : cache.slots = Cache.without store.cache.slots id) :
                      Looked store site id
                        (if failure.isNotFound then .ok none else .error failure,
                          { store with cache }, { site with graph, events := reports }) :=
                    .refused pending found read slots
                  cases missing : failure.isNotFound with
                  | true =>
                      simp only [missing, if_true] at looked ⊢
                      exact looked _ _ (slots_abandon_asked rfl)
                  | false =>
                      simp only [missing, Bool.false_eq_true, if_false] at looked ⊢
                      exact looked _ _ (slots_abandon_asked rfl)

/-- Loading actions changes the surroundings only, and those as a reading does. -/
theorem loadActions_reads (store : Store) (site : Site) (node : NodeRef) :
    (store.loadActions site node).2.1 = store ∧
      Repository.Reads site (store.loadActions site node).2.2 := by
  have nothing : Repository.Reads site site := ⟨⟨_, _, rfl⟩, .refl _⟩
  have reads := (Repository.read_frame store.repository site (site.graph.node node).id
    store.execution).1
  rw [loadActions]
  split
  · exact ⟨rfl, nothing⟩
  · exact ⟨rfl, nothing⟩
  · split
    · next result =>
        rw [result] at reads
        exact ⟨rfl, reads⟩
    · next result =>
        rw [result] at reads
        split
        · exact ⟨rfl, reads⟩
        · exact ⟨rfl, reads⟩

end TraceStore.Store

/-! ## Putting into the buffer and writing -/

namespace TraceStore.Scene

variable {scene : Scene} {operation : Operation} {outcome : Except StoreError Unit × Scene}

/-- The buffer after an operation that ended in a given way. -/
def bufferAfter (scene : Scene) (operation : Operation) : Except StoreError Unit → Deferred
  | .error _ => scene.store.deferred
  | .ok () =>
      let deferred := scene.store.deferred
      let idOf (node : NodeRef) := (scene.site.graph.node node).id
      match operation with
      | .put node true => deferred.defer (idOf node) node
      | .put node false | .flushNode node => deferred.remove (idOf node)
      | .autopersist node => (deferred.remove (idOf node)).release (idOf node)
      | .flush => deferred.clear
      | .saveActions node _ =>
          if deferred.isExempt (idOf node) then deferred.replace (idOf node) node else deferred
      | _ => deferred

theorem bufferAfter_of_not_mutates (idle : operation.mutates = false)
    (result : Except StoreError Unit) :
    scene.bufferAfter operation result = scene.store.deferred := by
  cases result with
  | error failure => rfl
  | ok _ => cases operation <;> simp_all [Operation.mutates, bufferAfter]

/-- What an operation that puts nodes into the buffer or writes them can come to.  The buffer
afterwards follows from how the operation ended.  What else has changed comes of what was written:
nothing, or the node that the operation accepts, or the nodes in the buffer. -/
inductive Effect (scene : Scene) (operation : Operation) :
    Except StoreError Unit × Scene → Prop where
  | buffers {deferred : Deferred} {events : List Event} (nothing : scene.records operation = [])
      (buffer : deferred = scene.bufferAfter operation (.ok ())) :
      Effect scene operation
        (.ok (), ⟨{ scene.store with deferred }, { scene.site with events }⟩)
  | writes {node : NodeRef} {actions : List Action} {result : Except StoreError Unit}
      {store : Store} {site : Site} {deferred : Deferred}
      (accepted : scene.accepts? operation = some node)
      (own : scene.records operation = [((scene.site.graph.node node).id, actions)])
      (written : scene.store.writeNode scene.site node actions = (result, store, site))
      (buffer : deferred = scene.bufferAfter operation result) :
      Effect scene operation (result, ⟨{ store with deferred }, site⟩)
  | flushes {result : Except StoreError Unit} {store : Store} {site : Site} {deferred : Deferred}
      {events : List Event} (isFlush : operation = .flush)
      (written : scene.store.writeNodes scene.site scene.store.deferred.nodes =
        (result, store, site))
      (buffer : deferred = scene.bufferAfter operation result) :
      Effect scene operation (result, ⟨{ store with deferred }, { site with events }⟩)

section Effects

variable {store : Store} {site : Site} {node : NodeRef}

theorem effect_of_flushNode (accepted : accepts? ⟨store, site⟩ operation = some node)
    (own : records ⟨store, site⟩ operation = [ownRecord ⟨store, site⟩ node])
    (removes : bufferAfter ⟨store, site⟩ operation (.ok ()) =
      store.deferred.remove (site.graph.node node).id) :
    Effect ⟨store, site⟩ operation ((store.flushNode site node).1,
      ⟨(store.flushNode site node).2.1, (store.flushNode site node).2.2⟩) := by
  obtain ⟨failure, store', site', written, done⟩ | ⟨store', site', written, done⟩ :=
    Store.flushNode_cases store site node
  all_goals
    have same := (Store.wrote_of_eq written).leaves.2
    rw [done]
  · exact .writes accepted own written same
  · exact .writes accepted own written (by rw [removes, same])

theorem effect_autopersist (store : Store) (site : Site) (node : NodeRef) :
    Effect ⟨store, site⟩ (.autopersist node) ((store.autopersist site node).1,
      ⟨(store.autopersist site node).2.1, (store.autopersist site node).2.2⟩) := by
  rw [Store.autopersist]
  split
  · next buffered =>
      have accepted : accepts? ⟨store, site⟩ (.autopersist node) = some node := if_pos buffered
      have own : records ⟨store, site⟩ (.autopersist node) = [ownRecord ⟨store, site⟩ node] :=
        if_pos buffered
      obtain ⟨failure, store', site', written, done⟩ | ⟨store', site', written, done⟩ :=
        Store.flushNode_cases store site node
      all_goals
        have same := (Store.wrote_of_eq written).leaves.2
        simp only [done]
      · exact .writes accepted own written same
      · exact .writes accepted own written (by rw [same, bufferAfter])
  · next notBuffered =>
      rw [Bool.not_eq_true] at notBuffered
      refine .buffers (by simp [records, notBuffered]) ?_
      rw [bufferAfter, Deferred.remove_of_not_contains notBuffered]

theorem effect_flush (store : Store) (site : Site) :
    Effect ⟨store, site⟩ .flush
      ((store.flush site).1, ⟨(store.flush site).2.1, (store.flush site).2.2⟩) := by
  have same := (Store.writeNodes_leaves store site store.deferred.nodes).2
  obtain ⟨failure, store', site', written, done⟩ | ⟨store', site', events, written, done⟩ :=
    Store.flush_cases store site
  all_goals
    rw [written] at same
    rw [done]
  · exact .flushes rfl written same
  · exact .flushes rfl written (congrArg Deferred.clear same)

theorem effect_saveActions (store : Store) (site : Site) (node : NodeRef) (actions : List Action) :
    Effect ⟨store, site⟩ (.saveActions node actions) ((store.saveActions site node actions).1,
      ⟨(store.saveActions site node actions).2.1, (store.saveActions site node actions).2.2⟩) := by
  rw [Store.saveActions]
  split
  · next exempt => exact .buffers (by simp [records, exempt]) (by simp [bufferAfter, exempt])
  · next notExempt =>
      cases written : store.writeNode site node actions with
      | mk result after =>
          refine .writes rfl (by simp [records, notExempt]) written ?_
          rw [(Store.wrote_of_eq written).leaves.2]
          cases result <;> simp [bufferAfter, notExempt]

end Effects

theorem effect_perform (scene : Scene) (mutates : operation.mutates = true) :
    scene.Effect operation (scene.perform operation) := by
  rcases scene with ⟨store, site⟩
  cases operation with
  | put node later =>
      cases later with
      | true => exact .buffers rfl rfl
      | false => exact effect_of_flushNode rfl rfl rfl
  | autopersist node => exact effect_autopersist store site node
  | flushNode node => exact effect_of_flushNode rfl rfl rfl
  | flush => exact effect_flush store site
  | saveActions node actions => exact effect_saveActions store site node actions
  | get _ | loadActions _ | reclaim | create _ | attach _ _ | hold _ | drop _ | start _ | stop _
  | refuse _ => simp [Operation.mutates] at mutates

/-- The caller holds the node that an operation accepts. -/
theorem node?_of_accepts? {node : NodeRef} (accepted : scene.accepts? operation = some node) :
    operation.node? = some node := by
  cases operation with
  | autopersist other =>
      simp only [accepts?] at accepted
      split at accepted
      · exact accepted
      · simp at accepted
  | put _ _ | flushNode _ | saveActions _ _ => exact accepted
  | flush | get _ | loadActions _ | reclaim | create _ | attach _ _ | hold _ | drop _ | start _
  | stop _ | refuse _ => simp [accepts?] at accepted

namespace Effect

theorem graph (effect : scene.Effect operation outcome) :
    outcome.2.site.graph = scene.site.graph := by
  cases effect with
  | buffers _ _ => rfl
  | writes _ _ written _ => exact (Store.wrote_of_eq written).leaves.1
  | flushes _ written _ =>
      have leaves := (Store.writeNodes_leaves scene.store scene.site scene.store.deferred.nodes).1
      rwa [written] at leaves

theorem deferred (effect : scene.Effect operation outcome) :
    outcome.2.store.deferred = scene.bufferAfter operation outcome.1 := by
  cases effect with
  | buffers _ buffer => exact buffer
  | writes _ _ _ buffer => exact buffer
  | flushes _ _ buffer => exact buffer

end Effect

/-- Writing leaves the graph. -/
theorem graph_perform (scene : Scene) (operation : Operation)
    (mutates : operation.mutates = true) :
    (scene.perform operation).2.site.graph = scene.site.graph :=
  (scene.effect_perform mutates).graph

/-- An operation on one node that fails comes to a write of that node that fails. -/
theorem wrote_of_error {scene : Scene} {operation : Operation} (mutates : operation.mutates = true)
    {node : NodeRef} (isNode : operation.node? = some node) {failure : StoreError}
    (failed : (scene.perform operation).1 = .error failure) :
    ∃ actions, Store.Wrote scene.store scene.site node actions
      (.error failure, (scene.perform operation).2.store, (scene.perform operation).2.site) := by
  have effect := scene.effect_perform mutates
  generalize scene.perform operation = outcome at effect failed
  cases effect with
  | buffers _ _ => simp at failed
  | @writes own actions result store site _ accepted _ written buffer =>
      obtain rfl : result = .error failure := failed
      obtain rfl : own = node := by simpa [node?_of_accepts? accepted] using isNode
      have wrote := Store.wrote_of_eq written
      subst buffer
      refine ⟨actions, ?_⟩
      cases wrote with
      | failed grows => exact .failed grows
  | flushes isFlush _ _ => simp [isFlush, Operation.node?] at isNode

end TraceStore.Scene
