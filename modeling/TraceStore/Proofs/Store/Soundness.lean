import TraceStore.Proofs.Store.Effects

/-!
# What every scene of a run satisfies

`Scene.Sound` collects what holds of a scene whatever has happened: holding has no cycles, all parts
name nodes that are there, no id has two slots in the cache or two places in the buffer, nodes are
buffered under their own ids, and every buffered id is exempt.  The last means that a save that is
not put off never leaves an older node in the buffer.

Each part of this is said of the part of the store that it is about, `Cache.Fits` and
`Deferred.Fits`, and kept by what is done to that part.
-/

namespace TraceStore

/-! ## The parts -/

/-- The nodes in a cache are there, and no id has two slots. -/
structure Cache.Fits (graph : Graph) (cache : Cache) : Prop where
  distinct : cache.Distinct
  there : ∀ node ∈ cache.keeps, node < graph.next

/-- The buffered nodes are there, each under its own id, and their ids are exempt. -/
structure Deferred.Fits (graph : Graph) (deferred : Deferred) : Prop where
  ascending : deferred.Ascending
  there : ∀ id node, deferred.get? id = some node → node < graph.next
  named : ∀ id node, deferred.get? id = some node → (graph.node node).id = id
  exempt : ∀ id node, deferred.get? id = some node → deferred.isExempt id = true

namespace Cache.Fits

variable {graph after : Graph} {cache trimmed : Cache} {outside : List NodeRef}
  {used : Option String} {id : String} {node : NodeRef}

theorem mono (fits : cache.Fits graph) (kept : graph.Keeps after) : cache.Fits after :=
  ⟨fits.distinct, fun node member => kept.lt (fits.there node member)⟩

theorem of_trimmed (fits : cache.Fits graph)
    (pass : Trimmed after outside used cache trimmed) : trimmed.Fits graph :=
  ⟨pass.distinct fits.distinct, fun node member => fits.there node (pass.keeps_subset member)⟩

theorem filled (fits : cache.Fits graph) (id : String) (there : node < graph.next) :
    (cache.setSlot id (.filled node)).Fits graph := by
  refine ⟨distinct_setSlot fits.distinct id _, ?_⟩
  intro other member
  cases mem_keeps_setSlot member with
  | inl new =>
      obtain rfl : node = other := by simpa using new
      exact there
  | inr old => exact fits.there other old

theorem of_slots (fits : cache.Fits graph) {others : Cache} (same : others.slots = cache.slots) :
    others.Fits graph := by
  rcases fits with ⟨distinct, there⟩
  rw [Distinct, ← same] at distinct
  rw [keeps, ← same] at there
  exact ⟨distinct, there⟩

theorem without (fits : cache.Fits graph) {others : Cache}
    (slots : others.slots = Cache.without cache.slots id) : others.Fits graph := by
  have sublist : others.slots.Sublist cache.slots := slots ▸ List.filter_sublist
  exact ⟨fits.distinct.sublist (sublist.map _),
    fun node member => fits.there node (nodesOf_subset sublist.subset member)⟩

end Cache.Fits

namespace Deferred.Fits

variable {graph after : Graph} {deferred : Deferred} {id : String} {node : NodeRef}

theorem mono (fits : deferred.Fits graph) (kept : graph.Keeps after) : deferred.Fits after where
  ascending := fits.ascending
  there id node found := kept.lt (fits.there id node found)
  named id node found := by
    rw [kept.id_eq node (fits.there id node found)]
    exact fits.named id node found
  exempt := fits.exempt

theorem replace (fits : deferred.Fits graph) (there : node < graph.next)
    (exempt : deferred.isExempt (graph.node node).id = true) :
    (deferred.replace (graph.node node).id node).Fits graph := by
  refine ⟨ascending_replace fits.ascending _ _, fun id other found => ?_, fun id other found => ?_,
    fun id other found => ?_⟩
  all_goals
    rw [get?_replace] at found
    split at found
  · obtain rfl := Option.some.inj found
    exact there
  · exact fits.there id other found
  · next same =>
      obtain rfl := Option.some.inj found
      exact same
  · exact fits.named id other found
  · next same =>
      subst same
      exact exempt
  · exact fits.exempt id other found

theorem defer (fits : deferred.Fits graph) (there : node < graph.next) :
    (deferred.defer (graph.node node).id node).Fits graph := by
  refine ⟨ascending_defer fits.ascending _ _, fun id other found => ?_, fun id other found => ?_,
    fun id other found => ?_⟩
  all_goals
    rw [get?_defer] at found
    split at found
  · obtain rfl := Option.some.inj found
    exact there
  · exact fits.there id other found
  · next same =>
      obtain rfl := Option.some.inj found
      exact same
  · exact fits.named id other found
  · next same => simp [isExempt_defer, same]
  · simp [isExempt_defer, fits.exempt id other found]

/-- The buffered nodes have distinct ids. -/
theorem eq_of_id_eq (fits : deferred.Fits graph) {other : NodeRef} (member : node ∈ deferred.nodes)
    (isOther : other ∈ deferred.nodes) (same : (graph.node node).id = (graph.node other).id) :
    node = other := by
  rcases (mem_nodes_iff fits.ascending node).mp member with ⟨id, found⟩
  rcases (mem_nodes_iff fits.ascending other).mp isOther with ⟨otherId, foundOther⟩
  rw [fits.named id node found, fits.named otherId other foundOther] at same
  simpa [same, foundOther] using found.symm

theorem get?_of_remove {other : String} (found : (deferred.remove id).get? other = some node) :
    deferred.get? other = some node := by
  rw [get?_remove] at found
  split at found
  · simp at found
  · exact found

theorem remove (fits : deferred.Fits graph) (id : String) : (deferred.remove id).Fits graph where
  ascending := ascending_remove fits.ascending id
  there other node found := fits.there other node (get?_of_remove found)
  named other node found := fits.named other node (get?_of_remove found)
  exempt other node found := fits.exempt other node (get?_of_remove found)

/-- Only the exemption of an id that is not buffered may end. -/
theorem release (fits : deferred.Fits graph) (notPending : deferred.get? id = none) :
    (deferred.release id).Fits graph where
  ascending := fits.ascending
  there := fits.there
  named := fits.named
  exempt other node found := by
    have apart : id ≠ other := by
      rintro rfl
      exact absurd (show deferred.get? id = some node from found) (by simp [notPending])
    simp [isExempt_release, apart, fits.exempt other node found]

theorem clear (deferred : Deferred) (graph : Graph) : deferred.clear.Fits graph where
  ascending := ascending_clear deferred
  there _ _ found := by simp at found
  named _ _ found := by simp at found
  exempt _ _ found := by simp at found

end Deferred.Fits

/-! ## The whole -/

/-- What holds of every scene of a run. -/
structure Scene.Sound (scene : Scene) : Prop where
  acyclic : scene.site.graph.Acyclic
  held : ∀ node ∈ scene.site.held, node < scene.site.graph.next
  cache : scene.store.cache.Fits scene.site.graph
  deferred : scene.store.deferred.Fits scene.site.graph

namespace Scene

variable {store store' : Store} {site site' : Site} {node : NodeRef}

theorem sound_opened (execution : ExecutionRef) (directory : String) (capacity : Nat)
    (direct : Bool) (files : FileTree) (working : Route) :
    (opened execution directory capacity direct files working).Sound where
  acyclic := Graph.acyclic_empty
  held _ member := by simp [opened] at member
  cache := ⟨List.nodup_nil, by simp [opened, Store.opened, Cache.keeps, Cache.nodesOf]⟩
  deferred := Deferred.Fits.clear {} _

namespace Sound

theorem caching (sound : Sound ⟨store, site⟩) (there : node < site.graph.next)
    (files : FileTree) (events : List Event) :
    Sound ⟨store.caching site node, { site with files, events }⟩ where
  acyclic := sound.acyclic
  held := sound.held
  cache := (sound.cache.filled _ there).of_trimmed (Store.trimmed_caching sound.acyclic store node)
  deferred := sound.deferred

theorem wrote (sound : Sound ⟨store, site⟩) (there : node < site.graph.next)
    {actions : List Action} {result : Except StoreError Unit}
    (wrote : Store.Wrote store site node actions (result, store', site')) :
    Sound ⟨store', site'⟩ := by
  cases wrote with
  | done _ => exact sound.caching there _ _
  | failed _ => exact sound.caching there _ _

theorem nodes_there (sound : Sound ⟨store, site⟩) :
    ∀ node ∈ store.deferred.nodes, node < site.graph.next := by
  intro node member
  rcases (Deferred.mem_nodes_iff sound.deferred.ascending node).mp member with ⟨id, found⟩
  exact sound.deferred.there id node found

theorem wroteNodes (sound : Sound ⟨store, site⟩) (nodes : List NodeRef)
    (there : ∀ node ∈ nodes, node < site.graph.next) :
    Sound ⟨(store.writeNodes site nodes).2.1, (store.writeNodes site nodes).2.2⟩ := by
  suffices kept : Sound ⟨(store.writeNodes site nodes).2.1, (store.writeNodes site nodes).2.2⟩ ∧
      (store.writeNodes site nodes).2.2.graph = site.graph from kept.1
  refine Store.writeNodes_induction (motive := fun store' site' => Sound ⟨store', site'⟩ ∧
    site'.graph = site.graph) nodes ⟨sound, rfl⟩ ?_
  rintro between surroundings ⟨sound, graph⟩ node member result store' site' wrote
  exact ⟨sound.wrote (graph ▸ there node member) wrote, wrote.leaves.1.trans graph⟩

/-- The buffer after an operation on a node that is there. -/
theorem fits_bufferAfter {scene : Scene} {operation : Operation} (sound : scene.Sound)
    (there : ∀ node, operation.node? = some node → node < scene.site.graph.next)
    (result : Except StoreError Unit) :
    (scene.bufferAfter operation result).Fits scene.site.graph := by
  have fits := sound.deferred
  cases result with
  | error failure => exact fits
  | ok _ =>
      cases operation with
      | put node later =>
          cases later with
          | true => exact fits.defer (there node rfl)
          | false => exact fits.remove _
      | autopersist node => exact (fits.remove _).release (by simp)
      | flushNode node => exact fits.remove _
      | flush => exact .clear _ _
      | saveActions node actions =>
          simp only [bufferAfter]
          split
          · next exempt => exact fits.replace (there node rfl) exempt
          · exact fits
      | get _ | loadActions _ | reclaim | create _ | attach _ _ | hold _ | drop _ | start _
      | stop _ | refuse _ => exact fits

/-- The scene after a reading. -/
theorem reads (sound : Sound ⟨store, site⟩) (reads : Repository.Reads site site') :
    Sound ⟨store, site'⟩ := by
  rcases reads with ⟨⟨graph, events, rfl⟩, appends⟩
  exact ⟨appends.acyclic sound.acyclic,
    fun node member => appends.keeps.lt (sound.held node member),
    sound.cache.mono appends.keeps, sound.deferred.mono appends.keeps⟩

/-- The scene after a lookup, where the node that was found is held. -/
theorem looked (sound : Sound ⟨store, site⟩) {id : String}
    {result : Except StoreError (Option NodeRef)}
    (looked : Store.Looked store site id (result, store', site')) :
    Sound ⟨store', { site' with held := site'.held ++ given result }⟩ ∧
      site.graph.Appends site'.graph := by
  rcases Repository.read_frame store.repository site id store.execution with ⟨reads, new⟩
  cases looked with
  | buffered pending =>
      refine ⟨⟨sound.acyclic, List.forall_mem_append.mpr ⟨sound.held, ?_⟩, sound.cache,
        sound.deferred⟩, .refl _⟩
      simpa [given] using sound.deferred.there id _ pending
  | cached notPending found same =>
      refine ⟨⟨sound.acyclic, List.forall_mem_append.mpr ⟨sound.held, ?_⟩,
        sound.cache.of_slots same, sound.deferred⟩, .refl _⟩
      simpa [given] using sound.cache.there _ (Cache.mem_keeps_of_peek found)
  | loaded notPending notCached read trimmed =>
      rw [read] at reads new
      rcases sound.reads reads with ⟨acyclic, held, cache, deferred⟩
      rcases new _ rfl with ⟨-, there⟩
      refine ⟨⟨acyclic, List.forall_mem_append.mpr ⟨held, ?_⟩,
        (cache.filled id there).of_trimmed trimmed, deferred⟩, reads.appends⟩
      simpa [given] using there
  | @refused failure _ _ _ _ notPending notCached read slots =>
      rw [read] at reads
      rcases sound.reads reads with ⟨acyclic, held, cache, deferred⟩
      refine ⟨⟨acyclic, List.forall_mem_append.mpr ⟨held, ?_⟩, cache.without slots, deferred⟩,
        reads.appends⟩
      split <;> simp [given]

/-- The scene after nodes were put into the buffer or written. -/
theorem effected {scene : Scene} {operation : Operation} {outcome : Except StoreError Unit × Scene}
    (sound : scene.Sound)
    (there : ∀ node, operation.node? = some node → node < scene.site.graph.next)
    (effect : scene.Effect operation outcome) : outcome.2.Sound := by
  have deferred := sound.fits_bufferAfter there outcome.1
  cases effect with
  | buffers _ buffer =>
      subst buffer
      exact ⟨sound.acyclic, sound.held, sound.cache, deferred⟩
  | writes accepted _ written buffer =>
      have wrote := Store.wrote_of_eq written
      rcases sound.wrote (there _ (node?_of_accepts? accepted)) wrote with ⟨acyclic, held, cache, -⟩
      subst buffer
      exact ⟨acyclic, held, cache, by rwa [wrote.leaves.1]⟩
  | flushes _ written buffer =>
      have graph := (Store.writeNodes_leaves scene.store scene.site scene.store.deferred.nodes).1
      have after := sound.wroteNodes scene.store.deferred.nodes sound.nodes_there
      rw [written] at graph after
      simp only at graph
      subst buffer
      exact ⟨after.acyclic, after.held, after.cache, by rwa [graph]⟩

/-- A flush is to write a record for every id with a buffered node. -/
theorem mem_records_flush {scene : Scene} (sound : scene.Sound) {id : String}
    (found : scene.store.deferred.get? id = some node) :
    id ∈ (scene.records .flush).map (·.1) := by
  have isNode := (Deferred.mem_nodes_iff sound.deferred.ascending node).mpr ⟨id, found⟩
  simp only [records, List.map_map]
  exact List.mem_map.mpr ⟨node, isNode, sound.deferred.named id node found⟩

/-- After an operation that succeeded the buffer has no node for an id whose record was written, and
otherwise the node that was accepted for the id or the one that it had. -/
theorem get?_bufferAfter {scene : Scene} (sound : scene.Sound) (operation : Operation)
    (id : String) :
    (scene.bufferAfter operation (.ok ())).get? id =
      if id ∈ (scene.records operation).map (·.1) then none
      else ((scene.accepts? operation).filter fun node =>
        (scene.site.graph.node node).id = id).or (scene.store.deferred.get? id) := by
  cases operation with
  | put node later =>
      cases later with
      | true =>
          by_cases own : (scene.site.graph.node node).id = id <;>
            simp [bufferAfter, records, accepts?, Option.filter_some, own]
      | false =>
          by_cases own : (scene.site.graph.node node).id = id <;>
            simp [bufferAfter, records, ownRecord, accepts?, Option.filter_some, @eq_comm _ id, own]
  | autopersist node =>
      by_cases own : (scene.site.graph.node node).id = id
      · cases buffered : scene.store.deferred.contains id with
        | true => simp [bufferAfter, records, ownRecord, own, buffered]
        | false =>
            simp [bufferAfter, records, accepts?, own, buffered,
              Deferred.remove_of_not_contains buffered]
      · cases buffered : scene.store.deferred.contains (scene.site.graph.node node).id <;>
          simp [bufferAfter, records, ownRecord, accepts?, Option.filter_some, own, Ne.symm own,
            buffered]
  | flushNode node =>
      by_cases own : (scene.site.graph.node node).id = id <;>
        simp [bufferAfter, records, ownRecord, accepts?, Option.filter_some, @eq_comm _ id, own]
  | flush =>
      cases found : scene.store.deferred.get? id with
      | none => simp [bufferAfter, accepts?]
      | some node => simp [bufferAfter, sound.mem_records_flush found]
  | saveActions node actions =>
      by_cases own : (scene.site.graph.node node).id = id
      · cases exempt : scene.store.deferred.isExempt id with
        | true => simp [bufferAfter, records, accepts?, Option.filter_some, own, exempt]
        | false =>
            -- whatever is buffered is exempt
            have notPending : scene.store.deferred.get? id = none := by
              rw [Option.eq_none_iff_forall_ne_some]
              intro other pending
              simp [sound.deferred.exempt id other pending] at exempt
            simp [bufferAfter, records, own, exempt, notPending]
      · cases exempt : scene.store.deferred.isExempt (scene.site.graph.node node).id <;>
          simp [bufferAfter, records, accepts?, Option.filter_some, own, Ne.symm own, exempt]
  | get _ | loadActions _ | reclaim | create _ | attach _ _ | hold _ | drop _ | start _ | stop _
  | refuse _ => simp [records, accepts?, bufferAfter]

/-- What an operation that succeeds puts into the buffer was kept alive before. -/
theorem outside_bufferAfter {scene : Scene} {operation : Operation} (sound : scene.Sound)
    (held : ∀ node, operation.node? = some node → node ∈ scene.site.held) :
    ∀ node ∈ scene.site.held ++ (scene.bufferAfter operation (.ok ())).nodes,
      node ∈ scene.store.outside scene.site := by
  intro node member
  refine (List.mem_append.mp member).elim (List.mem_append_left _) fun buffered => ?_
  have fits := sound.fits_bufferAfter (fun node isNode => sound.held node (held node isNode))
    (.ok ())
  obtain ⟨id, found⟩ := (Deferred.mem_nodes_iff fits.ascending node).mp buffered
  rw [sound.get?_bufferAfter] at found
  split at found
  · simp at found
  · cases Option.or_eq_some_iff.mp found with
    | inl accepted =>
        have isNode := node?_of_accepts? (Option.filter_eq_some_iff.mp accepted).1
        exact List.mem_append_left _ (held node isNode)
    | inr old =>
        have wasBuffered := (Deferred.mem_nodes_iff sound.deferred.ascending node).mpr ⟨id, old.2⟩
        exact List.mem_append_right _ wasBuffered

/-- The graph changes, but keeps its nodes. -/
theorem changed (sound : Sound ⟨store, site⟩) {graph : Graph} (kept : site.graph.Keeps graph)
    (acyclic : graph.Acyclic) : Sound ⟨store, { site with graph }⟩ :=
  ⟨acyclic, fun node member => kept.lt (sound.held node member), sound.cache.mono kept,
    sound.deferred.mono kept⟩

end Sound

/-! ## Roots -/

theorem mem_roots (scene : Scene) (node : NodeRef) :
    node ∈ scene.roots ↔ node ∈ scene.site.held ∨ node ∈ scene.store.deferred.nodes ∨
      node ∈ scene.store.cache.keeps := by
  simp [roots, Store.outside]

theorem roots_there {scene : Scene} (sound : scene.Sound) :
    ∀ root ∈ scene.roots, root < scene.site.graph.next := by
  intro root member
  rcases (mem_roots _ _).mp member with held | buffered | cached
  · exact sound.held root held
  · exact sound.nodes_there root buffered
  · exact sound.cache.there root cached

/-! ## Steps -/

theorem held_of_permits {scene : Scene} {operation : Operation}
    (permitted : scene.permits operation = true) {node : NodeRef}
    (isNode : operation.node? = some node) : node ∈ scene.site.held := by
  cases operation <;> simp_all [Operation.node?, permits]

theorem lt_of_permits {scene : Scene} (sound : scene.Sound) {operation : Operation}
    (permitted : scene.permits operation = true) {node : NodeRef}
    (isNode : operation.node? = some node) : node < scene.site.graph.next :=
  sound.held node (held_of_permits permitted isNode)

theorem sound_perform {scene : Scene} (sound : scene.Sound) {operation : Operation}
    (permitted : scene.permits operation = true) :
    (scene.perform operation).2.Sound ∧
      scene.site.graph.Keeps (scene.perform operation).2.site.graph := by
  have there (node : NodeRef) : operation.node? = some node → node < scene.site.graph.next :=
    lt_of_permits sound permitted
  have effected (mutates : operation.mutates = true) : (scene.perform operation).2.Sound ∧
      scene.site.graph.Keeps (scene.perform operation).2.site.graph := by
    have effect := scene.effect_perform mutates
    exact ⟨sound.effected there effect, effect.graph ▸ .refl _⟩
  rcases scene with ⟨store, site⟩
  have same {after : Scene} (sound' : after.Sound) (graph : after.site.graph = site.graph) :
      after.Sound ∧ site.graph.Keeps after.site.graph := ⟨sound', graph ▸ .refl _⟩
  cases operation with
  | put _ _ | autopersist _ | flushNode _ | flush | saveActions _ _ =>
      exact effected rfl
  | get id =>
      rcases sound.looked (Store.get_looked sound.acyclic store id) with ⟨sound', appends⟩
      exact ⟨sound', appends.keeps⟩
  | loadActions node =>
      rcases Store.loadActions_reads store site node with ⟨store_eq, reads⟩
      have sound' :
          Sound ⟨(store.loadActions site node).2.1, (store.loadActions site node).2.2⟩ := by
        rw [store_eq]
        exact sound.reads reads
      exact ⟨sound', reads.appends.keeps⟩
  | reclaim =>
      have trimmed := Cache.trimmed_reclaim sound.acyclic (store.outside site) none store.cache
      exact same ⟨sound.acyclic, sound.held, sound.cache.of_trimmed trimmed, sound.deferred⟩ rfl
  | create node =>
      have parents : ∀ parent ∈ node.links.keeps, parent < site.graph.next := by
        intro parent member
        have held : parent ∈ site.held := by
          simp only [permits, List.all_eq_true, List.contains_iff_mem] at permitted
          exact permitted parent member
        exact sound.held parent held
      have kept := Graph.Keeps.add site.graph node
      rcases sound.changed kept (sound.acyclic.add parents) with ⟨acyclic, held, cache, deferred⟩
      refine ⟨⟨acyclic, List.forall_mem_append.mpr ⟨held, ?_⟩, cache, deferred⟩, kept⟩
      simp [perform]
  | attach node action =>
      have kept : site.graph.Keeps (site.graph.update node (·.attach action)) :=
        .update _ (fun _ => rfl) (fun _ => rfl) (there node rfl)
      have acyclic : (site.graph.update node (·.attach action)).Acyclic := by
        apply sound.acyclic.of_links_eq
        intro ref
        rw [Graph.node_update _ _ _ _ (there node rfl)]
        split <;> rfl
      exact ⟨sound.changed kept acyclic, kept⟩
  | hold node =>
      have alive : node < site.graph.next :=
        Graph.Reaches.lt sound.acyclic (roots_there sound)
          ((Graph.reachable_iff sound.acyclic _ _).mp permitted)
      refine same ⟨sound.acyclic, List.forall_mem_append.mpr ⟨sound.held, ?_⟩, sound.cache,
        sound.deferred⟩ rfl
      rintro other member
      obtain rfl := List.mem_singleton.mp member
      exact alive
  | drop node =>
      exact same ⟨sound.acyclic,
        fun other member => sound.held other (List.mem_of_mem_erase member),
        sound.cache, sound.deferred⟩ rfl
  | start name =>
      have kept : site.graph.Keeps (site.graph.start name) :=
        ⟨Nat.le_refl _, fun _ _ => rfl, fun _ _ => rfl⟩
      exact ⟨sound.changed kept sound.acyclic, kept⟩
  | stop execution =>
      have kept : site.graph.Keeps (site.graph.stop execution) :=
        ⟨Nat.le_refl _, fun _ _ => rfl, fun _ _ => rfl⟩
      exact ⟨sound.changed kept sound.acyclic, kept⟩
  | refuse refusals =>
      exact same ⟨sound.acyclic, sound.held, sound.cache, sound.deferred⟩ rfl

end Scene

end TraceStore
