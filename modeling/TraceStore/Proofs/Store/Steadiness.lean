import TraceStore.Proofs.Repository.Home
import TraceStore.Proofs.Store.Promises

/-!
# Steps and the cache

A step may change what the cache and the directory have for some ids; the others it leaves alone.
`Scene.Steady` says so of one id, together with two facts that hold of every step: no node comes
back to life, and a cached node that is alive stays cached.

What is said of an id afterwards is `Scene.Coheres`, if a node was accepted for it: the cache has
that node, or a copy of it once the node is out of reach.  If none was accepted it is `Scene.Lacks`.
Both are kept by steady steps, so what remains to be seen of an operation is which ids it writes or
loads: `Scene.Saved` for one write, `Scene.Emptying` for those of the whole buffer, and
`steady_or_loaded` for a lookup.
-/

namespace TraceStore

open TraceStore.Graph (Reaches)
open Repository (extension)

namespace Scene

variable {before between after : Scene} {store store' : Store} {site site' : Site} {place : Route}
  {id : String} {node : NodeRef} {actions : List Action}

/-! ## What stays alive -/

/-- What is kept alive is what was alive, and new nodes over what was alive: then no node comes back
to life. -/
theorem reaches_of_roots (sound : before.Sound)
    (graph : before.site.graph.Keeps after.site.graph)
    (roots : ∀ root ∈ after.roots, Reaches before.site.graph before.roots root ∨
      (before.site.graph.next ≤ root ∧ ∀ parent ∈ (after.site.graph.node root).links.keeps,
        Reaches before.site.graph before.roots parent))
    (old : node < before.site.graph.next) (reached : Reaches after.site.graph after.roots node) :
    Reaches before.site.graph before.roots node := by
  suffices Reaches before.site.graph before.roots node ∨
      (before.site.graph.next ≤ node ∧ ∀ parent ∈ (after.site.graph.node node).links.keeps,
        Reaches before.site.graph before.roots parent) from
    this.resolve_right fun new => absurd old (Nat.not_lt_of_le new.1)
  clear old
  induction reached with
  | root member => exact roots _ member
  | @parent child parent _ held ih =>
      cases ih with
      | inl wasAlive =>
          rw [graph.links_eq child (wasAlive.lt sound.acyclic (roots_there sound))] at held
          exact .inl (.parent wasAlive held)
      | inr new => exact .inl (new.2 parent held)

/-! ## Steps that leave an id alone -/

/-- A step leaves the cache and the record of an id alone, except that the cache may drop a node
that is out of reach. -/
structure Steady (place : Route) (id : String) (before after : Scene) : Prop where
  graph : before.site.graph.Keeps after.site.graph
  reaches : ∀ node < before.site.graph.next,
    Reaches after.site.graph after.roots node → Reaches before.site.graph before.roots node
  peek_of_peek : ∀ node, after.store.cache.peek id = some node →
    before.store.cache.peek id = some node
  peek_of_reaches : ∀ node, before.store.cache.peek id = some node →
    Reaches after.site.graph after.roots node → after.store.cache.peek id = some node
  free : before.site.files.get? (place ++ [id ++ extension]) = none →
    after.site.files.get? (place ++ [id ++ extension]) = none

theorem Steady.trans (sound : before.Sound) (first : Steady place id before between)
    (second : Steady place id between after) : Steady place id before after where
  graph := first.graph.trans second.graph
  reaches node old reached :=
    first.reaches node old (second.reaches node (first.graph.lt old) reached)
  peek_of_peek node found := first.peek_of_peek node (second.peek_of_peek node found)
  peek_of_reaches node found reached := by
    have old := sound.cache.there node (Cache.mem_keeps_of_peek found)
    have alive := second.reaches node (first.graph.lt old) reached
    exact second.peek_of_reaches node (first.peek_of_reaches node found alive) reached
  free isFree := second.free (first.free isFree)

/-- A step that caches for an id what was cached before. -/
theorem steady_of_peek (sound : before.Sound) (graph : before.site.graph.Keeps after.site.graph)
    (same : after.store.cache.peek id = before.store.cache.peek id)
    (roots : ∀ root ∈ after.roots, Reaches before.site.graph before.roots root ∨
      (before.site.graph.next ≤ root ∧ ∀ parent ∈ (after.site.graph.node root).links.keeps,
        Reaches before.site.graph before.roots parent))
    (files : after.site.files = before.site.files) : Steady place id before after where
  graph := graph
  reaches _ := reaches_of_roots sound graph roots
  peek_of_peek _ found := same ▸ found
  peek_of_reaches _ found _ := same ▸ found
  free isFree := by rwa [files]

/-- A step that sets other slots of the cache, and passes over it. -/
theorem steady_of_trimmed {outside : List NodeRef} {used : Option String} {set : Cache}
    (sound : before.Sound) (graph : before.site.graph.Keeps after.site.graph)
    (trimmed : Cache.Trimmed after.site.graph outside used set after.store.cache)
    (distinct : set.Distinct) (same : set.peek id = before.store.cache.peek id)
    (within : ∀ root ∈ after.roots, root ∈ outside ++ after.store.cache.keeps)
    (roots : ∀ root ∈ after.roots, Reaches before.site.graph before.roots root ∨
      (before.site.graph.next ≤ root ∧ ∀ parent ∈ (after.site.graph.node root).links.keeps,
        Reaches before.site.graph before.roots parent))
    (free : before.site.files.get? (place ++ [id ++ extension]) = none →
      after.site.files.get? (place ++ [id ++ extension]) = none) :
    Steady place id before after where
  graph := graph
  reaches _ := reaches_of_roots sound graph roots
  peek_of_peek node found := same ▸ trimmed.peek_of_peek distinct found
  peek_of_reaches node found reached := by
    rw [← same] at found
    apply (trimmed.peek_or_unreached distinct found).resolve_right
    intro gone
    exact gone.2.2 (reached.mono within)
  free := free

/-! ## What is said of an id -/

/-- The cache has nothing but the last node of an id, or a copy of it once it is out of reach. -/
structure Coheres (scene : Scene) (id : String) (node : NodeRef) : Prop where
  like : ∀ other, scene.store.cache.peek id = some other →
    (scene.site.graph.node other).id = id ∧
      scene.site.graph.parentIds (scene.site.graph.node other).links =
        scene.site.graph.parentIds (scene.site.graph.node node).links
  alive : Reaches scene.site.graph scene.roots node → scene.store.cache.peek id = some node

/-- Neither the cache nor the directory has anything under an id. -/
structure Lacks (scene : Scene) (place : Route) (id : String) : Prop where
  notCached : scene.store.cache.peek id = none
  free : scene.site.files.get? (place ++ [id ++ extension]) = none

theorem Coheres.of_steady (sound : before.Sound) (there : node < before.site.graph.next)
    (coheres : before.Coheres id node) (steady : Steady place id before after) :
    after.Coheres id node where
  like other found := by
    have wasCached := steady.peek_of_peek other found
    have old := sound.cache.there other (Cache.mem_keeps_of_peek wasCached)
    rw [steady.graph.id_eq other old, steady.graph.parentIds_eq sound.acyclic old,
      steady.graph.parentIds_eq sound.acyclic there]
    exact coheres.like other wasCached
  alive reached :=
    steady.peek_of_reaches node (coheres.alive (steady.reaches node there reached)) reached

theorem Lacks.of_steady (lacks : before.Lacks place id) (steady : Steady place id before after) :
    after.Lacks place id where
  notCached := by
    rw [Option.eq_none_iff_forall_ne_some]
    intro node found
    simpa [lacks.notCached] using steady.peek_of_peek node found
  free := steady.free lacks.free

theorem coheres_of_peek (found : before.store.cache.peek id = some node)
    (named : (before.site.graph.node node).id = id) : before.Coheres id node where
  like other isOther := by
    obtain rfl : node = other := by simpa [found] using isOther
    exact ⟨named, rfl⟩
  alive _ := found

/-! ## Writes -/

/-- A step has written a node: the cache has it under its id, and other ids are left alone. -/
structure Saved (place : Route) (node : NodeRef) (before after : Scene) : Prop where
  home : after.site.files.Home after.site.working after.store.repository.directory place
  graph : after.site.graph = before.site.graph
  outside : ∀ other ∈ after.store.outside after.site, other ∈ before.store.outside before.site
  own : after.store.cache.peek (before.site.graph.node node).id = some node
  others : ∀ id, (before.site.graph.node node).id ≠ id → Steady place id before after

theorem saved_of_wrote (sound : Sound ⟨store, site⟩)
    (home : site.files.Home site.working store.repository.directory place)
    (outside : node ∈ store.outside site)
    (wrote : Store.Wrote store site node actions (.ok (), store', site')) :
    Saved place node ⟨store, site⟩ ⟨store', site'⟩ := by
  have trimmed := Store.trimmed_caching sound.acyclic store node
  have distinct :=
    Cache.distinct_setSlot sound.cache.distinct (site.graph.node node).id (.filled node)
  cases wrote with
  | done recorded =>
      rcases recorded with ⟨path, bytes, found, -, replaced⟩
      rcases Repository.home_of_replace home found replaced with ⟨after_home, free⟩
      refine ⟨after_home, rfl, fun _ member => member,
        trimmed.peek_filled sound.cache.distinct, ?_⟩
      intro id apart
      refine steady_of_trimmed sound (.refl _) trimmed distinct
        (Cache.peek_setSlot_other _ _ apart) (fun _ member => member) ?_
        (free id (Ne.symm apart))
      intro root member
      refine .inl (.root ((trimmed.mem_of_filled member).elim ?_ fun old => old))
      rintro rfl
      exact List.mem_append_left _ outside

/-- A step that changes the buffer only, and keeps nothing alive by it that was not alive. -/
theorem steady_of_deferred (sound : Sound ⟨store, site⟩) {deferred : Deferred}
    {events : List Event}
    (fewer : ∀ other ∈ site.held ++ deferred.nodes, other ∈ store.outside site) (id : String) :
    Steady place id ⟨store, site⟩ ⟨{ store with deferred }, { site with events }⟩ := by
  refine steady_of_peek sound (.refl _) rfl (fun root member => .inl (.root ?_)) rfl
  exact List.mem_append.mpr ((List.mem_append.mp member).imp_left (fewer root))

theorem Saved.withDeferred (sound : before.Sound) (soundAfter : Sound ⟨store, site⟩)
    (saved : Saved place node before ⟨store, site⟩) {deferred : Deferred}
    (fewer : ∀ other ∈ site.held ++ deferred.nodes, other ∈ store.outside site) :
    Saved place node before ⟨{ store with deferred }, site⟩ where
  home := saved.home
  graph := saved.graph
  outside other member := saved.outside other (fewer other member)
  own := saved.own
  others id apart := (saved.others id apart).trans sound (steady_of_deferred soundAfter fewer id)

/-- The buffer is being written out: what is written is cached, and ids that are not buffered are
left alone. -/
structure Emptying (place : Route) (before : Scene) (rest : List NodeRef) (after : Scene) :
    Prop where
  sound : after.Sound
  home : after.site.files.Home after.site.working after.store.repository.directory place
  graph : after.site.graph = before.site.graph
  deferred : after.store.deferred = before.store.deferred
  written : ∀ node ∈ before.store.deferred.nodes, node ∈ rest ∨
    after.store.cache.peek (before.site.graph.node node).id = some node
  others : ∀ id, before.store.deferred.get? id = none → Steady place id before after

theorem Emptying.wrote {rest : List NodeRef} (sound : before.Sound)
    (emptying : Emptying place before (node :: rest) ⟨store, site⟩)
    (buffered : node ∈ before.store.deferred.nodes)
    (wrote : Store.Wrote store site node actions (.ok (), store', site')) :
    Emptying place before rest ⟨store', site'⟩ := by
  rcases emptying with ⟨between, home, graph, deferred, written, others⟩
  have isBuffered : node ∈ store.deferred.nodes := by rwa [deferred]
  have soundAfter := between.wrote (between.nodes_there node isBuffered) wrote
  obtain ⟨sameGraph, sameDeferred⟩ := wrote.leaves
  have saved := saved_of_wrote between home (List.mem_append_right _ isBuffered) wrote
  refine ⟨soundAfter, saved.home, sameGraph.trans graph, sameDeferred.trans deferred,
    ?_, ?_⟩
  · intro other member
    rw [← graph]
    by_cases same : other = node
    · exact .inr (same ▸ saved.own)
    · apply (written other member).imp (fun ahead => (List.mem_cons.mp ahead).resolve_left same)
      intro isCached
      rw [← graph] at isCached
      have otherBuffered : other ∈ store.deferred.nodes := by rwa [deferred]
      have apart : (site.graph.node node).id ≠ (site.graph.node other).id := fun equal =>
        same (between.deferred.eq_of_id_eq isBuffered otherBuffered equal).symm
      refine (saved.others _ apart).peek_of_reaches other isCached (.root ((mem_roots _ _).mpr ?_))
      exact .inr (.inl (by rwa [sameDeferred]))
  · intro id notPending
    have apart := id_ne_of_not_pending sound notPending node buffered
    exact (others id notPending).trans sound (saved.others id (graph ▸ apart))

theorem emptying_writeNodes (sound : Sound ⟨store, site⟩)
    (home : site.files.Home site.working store.repository.directory place)
    (written : store.writeNodes site store.deferred.nodes = (.ok (), store', site')) :
    Emptying place ⟨store, site⟩ [] ⟨store', site'⟩ := by
  refine Store.writeNodes_ok (motive := fun rest store' site' =>
    Emptying place ⟨store, site⟩ rest ⟨store', site'⟩) written ?_ ?_
  · refine ⟨sound, home, rfl, rfl, fun node member => .inl member, ?_⟩
    intro id _
    exact steady_of_peek sound (.refl _) rfl (fun root member => .inl (.root member)) rfl
  · intro node member rest between surroundings store' site' emptying wrote
    exact emptying.wrote sound member wrote

/-! ## Lookups -/

theorem mem_roots_of_held {more : List NodeRef} {root : NodeRef}
    (member : root ∈ roots ⟨store, { site with held := site.held ++ more }⟩) :
    root ∈ more ∨ root ∈ roots ⟨store, site⟩ := by
  simp only [mem_roots, List.mem_append] at member ⊢
  tauto

/-- A lookup that finds what is buffered or cached leaves all ids alone. -/
theorem steady_of_found (sound : Sound ⟨store, site⟩) {cache : Cache} {found : NodeRef}
    (same : cache.slots = store.cache.slots) (isRoot : found ∈ roots ⟨store, site⟩)
    (other : String) :
    Steady place other ⟨store, site⟩
      ⟨{ store with cache }, { site with held := site.held ++ [found] }⟩ := by
  have keeps : cache.keeps = store.cache.keeps := by rw [Cache.keeps, same, Cache.keeps]
  refine steady_of_peek sound (.refl _) (Cache.peek_of_slots same other)
    (fun root member => .inl (.root ?_)) rfl
  rw [mem_roots, keeps, ← mem_roots ⟨store, _⟩] at member
  refine (mem_roots_of_held member).elim ?_ fun old => old
  intro isFound
  rwa [List.mem_singleton.mp isFound]

/-- So does a lookup without a node to find. -/
theorem steady_of_refused (sound : Sound ⟨store, site⟩) {cache : Cache} {graph : Graph}
    {events : List Event} (kept : site.graph.Keeps graph)
    (notCached : store.cache.peek id = none)
    (slots : cache.slots = Cache.without store.cache.slots id) (other : String) :
    Steady place other ⟨store, site⟩ ⟨{ store with cache }, { site with graph, events }⟩ := by
  have same : cache.peek other = store.cache.peek other := by
    rw [Cache.peek_of_without slots]
    split
    · next own => rw [← own, notCached]
    · rfl
  refine steady_of_peek sound kept same (fun root member => .inl (.root ?_)) rfl
  rw [mem_roots] at member ⊢
  exact member.imp_right (Or.imp_right fun kept =>
    Cache.nodesOf_subset (slots ▸ List.filter_sublist.subset) kept)

/-- A lookup leaves all ids alone, except that it may load the record of its own. -/
theorem steady_or_loaded (place : Route) (sound : Sound ⟨store, site⟩)
    {result : Except StoreError (Option NodeRef)}
    (looked : Store.Looked store site id (result, store', site')) (other : String) :
    let after : Scene := ⟨store', { site' with held := site'.held ++ given result }⟩
    Steady place other ⟨store, site⟩ after ∨
      (other = id ∧ store.cache.peek id = none ∧ ∃ loaded events,
        store.repository.read site id store.execution =
          (.ok loaded, { site with graph := site'.graph, events }) ∧
        store'.cache.peek id = some loaded.node ∧
        ∀ node < site.graph.next, Reaches site'.graph after.roots node →
          Reaches site.graph (roots ⟨store, site⟩) node) := by
  intro after
  cases looked with
  | buffered pending =>
      have isBuffered := (Deferred.mem_nodes_iff sound.deferred.ascending _).mpr ⟨id, pending⟩
      exact .inl (steady_of_found sound rfl ((mem_roots _ _).mpr (.inr (.inl isBuffered))) other)
  | cached notPending isCached same =>
      have isRoot := (mem_roots ⟨store, site⟩ _).mpr
        (.inr (.inr (Cache.mem_keeps_of_peek isCached)))
      exact .inl (steady_of_found sound same isRoot other)
  | @loaded loaded cache graph events reports notPending notCached read trimmed =>
      rcases Repository.read_frame store.repository site id store.execution with ⟨reads, new⟩
      rw [read] at reads new
      have kept := reads.appends.keeps
      have distinct := Cache.distinct_setSlot sound.cache.distinct id (.filled loaded.node)
      have isCached := trimmed.peek_filled sound.cache.distinct
      have within : ∀ root ∈ after.roots, root ∈ store.outside site ++ cache.keeps := by
        intro root member
        refine (mem_roots_of_held member).elim ?_ fun old => old
        intro isLoaded
        rw [List.mem_singleton.mp isLoaded]
        exact List.mem_append_right _ (Cache.mem_keeps_of_peek isCached)
      have roots : ∀ root ∈ after.roots, Reaches site.graph (roots ⟨store, site⟩) root ∨
          (site.graph.next ≤ root ∧ ∀ parent ∈ (graph.node root).links.keeps,
            Reaches site.graph (roots ⟨store, site⟩) parent) := by
        intro root member
        refine (trimmed.mem_of_filled (within root member)).symm.imp .root ?_
        rintro rfl
        have notOld := (new loaded rfl).1
        exact ⟨notOld, by simp [reads.appends.keeps_eq_nil notOld]⟩
      by_cases same : id = other
      · exact .inr ⟨same.symm, notCached, loaded, events, read, isCached, fun node old =>
          reaches_of_roots sound kept roots old⟩
      · exact .inl (steady_of_trimmed sound kept trimmed distinct
          (Cache.peek_setSlot_other _ _ same) within roots fun free => free)
  | @refused failure cache graph events reports notPending notCached read slots =>
      have reads := (Repository.read_frame store.repository site id store.execution).1
      rw [read] at reads
      have nothing : given (if failure.isNotFound then .ok none else .error failure) = [] := by
        split <;> rfl
      simp only [after, nothing, List.append_nil]
      exact .inl (steady_of_refused sound reads.appends.keeps notCached slots other)

/-! ## Steps that neither look up nor write -/

theorem steady_of_idle {scene : Scene} (sound : scene.Sound) {operation : Operation}
    (permitted : scene.permits operation = true) (idle : operation.mutates = false)
    (noLookup : ∀ id, operation ≠ .get id) : Steady place id scene (scene.perform operation).2 := by
  have kept := (sound_perform sound permitted).2
  rcases scene with ⟨store, site⟩
  cases operation with
  | put _ _ | autopersist _ | flushNode _ | flush | saveActions _ _ =>
      simp [Operation.mutates] at idle
  | get id => exact absurd rfl (noLookup id)
  | loadActions node =>
      rcases Store.loadActions_reads store site node with ⟨store_eq, reads⟩
      simp only [perform] at kept ⊢
      generalize store.loadActions site node = outcome at store_eq reads kept ⊢
      rcases outcome with ⟨result, store', site'⟩
      rcases reads with ⟨⟨graph, events, rfl⟩, -⟩
      simp only at store_eq
      subst store_eq
      exact steady_of_peek sound kept rfl (fun root member => .inl (.root member)) rfl
  | reclaim =>
      have trimmed := Cache.trimmed_reclaim sound.acyclic (store.outside site) none store.cache
      refine steady_of_trimmed sound kept trimmed sound.cache.distinct rfl (fun _ member => member)
        (fun root member => .inl (.root ?_)) fun free => free
      exact List.mem_append.mpr
        ((List.mem_append.mp member).imp_right fun left => trimmed.keeps_subset left)
  | create node =>
      refine steady_of_peek sound kept rfl ?_ rfl
      intro root member
      cases mem_roots_of_held member with
      | inl new =>
          obtain rfl : root = site.graph.next := by simpa using new
          refine .inr ⟨Nat.le_refl _, fun parent held => .root ((mem_roots _ _).mpr (.inl ?_))⟩
          have added : ((site.graph.add node).node site.graph.next) = node := by
            simp [Graph.node, Graph.add, Graph.next]
          simp only [permits, List.all_eq_true, List.contains_iff_mem] at permitted
          exact permitted parent (by simpa [perform, added] using held)
      | inr old => exact .inl (.root old)
  | hold node =>
      refine steady_of_peek sound kept rfl ?_ rfl
      intro root member
      cases mem_roots_of_held member with
      | inl isNode =>
          obtain rfl : root = node := by simpa using isNode
          exact .inl ((Graph.reachable_iff sound.acyclic _ _).mp permitted)
      | inr old => exact .inl (.root old)
  | drop node =>
      refine steady_of_peek sound kept rfl (fun root member => .inl (.root ?_)) rfl
      rw [mem_roots] at member ⊢
      exact member.imp_left List.mem_of_mem_erase
  | attach _ _ | start _ | stop _ | refuse _ =>
      exact steady_of_peek sound kept rfl (fun root member => .inl (.root member)) rfl

end Scene

end TraceStore
