import TraceStore.Proofs.Repository.Entries
import TraceStore.Proofs.Repository.Loading
import TraceStore.Proofs.Store.FailedWrites
import TraceStore.Proofs.Store.Trace

/-!
# Lookups that go to the directory

A lookup of an id that is neither buffered nor cached answers what stands in the place of its record
at that moment: a node, nothing, or what is wrong with the record.  `Store.Reflects` says which, for
any bytes.

Nothing that was looked up before gets in the way.  A lookup makes a slot for its id, but when it
ends without a node it takes the slot away again, so between two operations no slot of the cache is
loading (`Cache.Settled`).  Hence a failure leaves the very slots that there were, and once the
record has been repaired the next lookup finds it.
-/

namespace TraceStore

/-! ## No slot is left loading -/

namespace Cache

variable {cache others : Cache} {id : String}

/-- No slot waits for its node. -/
def Settled (cache : Cache) : Prop := ∀ id, (id, Slot.loading) ∉ cache.slots

namespace Settled

variable (settled : cache.Settled)

include settled

theorem of_subset (fewer : others.slots ⊆ cache.slots) : others.Settled :=
  fun id member => settled id (fewer member)

theorem filled (id : String) (node : NodeRef) : (cache.setSlot id (.filled node)).Settled := by
  intro other member
  cases List.mem_append.mp member with
  | inl before => exact settled other (List.mem_filter.mp before).1
  | inr new => simp at new

/-- An id without a node has no slot at all. -/
theorem slot?_eq_none (notCached : cache.peek id = none) : cache.slot? id = none := by
  cases found : cache.slot? id with
  | none => rfl
  | some slot =>
      cases slot with
      | loading => exact absurd (mem_of_slot? found) (settled id)
      | filled node => simp [peek, found, Slot.node?] at notCached

end Settled

end Cache

namespace Store

variable {store store' : Store} {site site' : Site} {id path : String} {node : NodeRef}

theorem settled_caching (acyclic : site.graph.Acyclic) (settled : store.cache.Settled)
    (node : NodeRef) : (store.caching site node).cache.Settled :=
  (settled.filled _ node).of_subset (trimmed_caching acyclic store node).sublist.subset

theorem Wrote.settled {actions : List Action} {result : Except StoreError Unit}
    (wrote : Wrote store site node actions (result, store', site'))
    (acyclic : site.graph.Acyclic) (settled : store.cache.Settled) :
    store'.cache.Settled ∧ site'.graph = site.graph := by
  cases wrote with
  | done _ => exact ⟨settled_caching acyclic settled node, rfl⟩
  | failed _ => exact ⟨settled_caching acyclic settled node, rfl⟩

theorem settled_writeNodes (acyclic : site.graph.Acyclic) (settled : store.cache.Settled)
    (nodes : List NodeRef) : (store.writeNodes site nodes).2.1.cache.Settled := by
  suffices kept : (store.writeNodes site nodes).2.1.cache.Settled ∧
      (store.writeNodes site nodes).2.2.graph = site.graph from kept.1
  apply writeNodes_induction (motive := fun store' site' =>
    store'.cache.Settled ∧ site'.graph = site.graph) nodes ⟨settled, rfl⟩
  rintro between surroundings ⟨settled, graph⟩ node - result store' site' wrote
  obtain ⟨settledAfter, graphAfter⟩ := wrote.settled (graph ▸ acyclic) settled
  exact ⟨settledAfter, graphAfter.trans graph⟩

theorem Looked.settled {result : Except StoreError (Option NodeRef)}
    (looked : Looked store site id (result, store', site')) (settled : store.cache.Settled) :
    store'.cache.Settled := by
  cases looked with
  | buffered _ => exact settled
  | cached _ _ same => exact settled.of_subset (same ▸ List.Subset.refl _)
  | loaded _ _ _ trimmed => exact (settled.filled id _).of_subset trimmed.sublist.subset
  | refused _ _ _ slots => exact settled.of_subset (slots ▸ List.filter_subset_self _)

end Store

/-- Between two operations no slot of the cache is loading. -/
theorem Scene.settled_perform {scene : Scene} (acyclic : scene.site.graph.Acyclic)
    (settled : scene.store.cache.Settled) (operation : Operation) :
    (scene.perform operation).2.store.cache.Settled := by
  have effected (mutates : operation.mutates = true) :
      (scene.perform operation).2.store.cache.Settled := by
    have effect := scene.effect_perform mutates
    generalize scene.perform operation = outcome at effect
    cases effect with
    | buffers _ _ => exact settled
    | writes _ _ written _ => exact ((Store.wrote_of_eq written).settled acyclic settled).1
    | flushes _ written _ =>
        have settledAfter := Store.settled_writeNodes acyclic settled scene.store.deferred.nodes
        rwa [written] at settledAfter
  rcases scene with ⟨store, site⟩
  cases operation with
  | put _ _ | autopersist _ | flushNode _ | flush | saveActions _ _ => exact effected rfl
  | get id => exact (Store.get_looked acyclic store id).settled settled
  | loadActions node =>
      change (store.loadActions site node).2.1.cache.Settled
      rw [(Store.loadActions_reads store site node).1]
      exact settled
  | reclaim =>
      have trimmed := Cache.trimmed_reclaim acyclic (store.outside site) none store.cache
      exact settled.of_subset trimmed.sublist.subset
  | create _ | attach _ _ | hold _ | drop _ | start _ | stop _ | refuse _ => exact settled

theorem Trace.settled_run (execution : ExecutionRef) (directory : String) (capacity : Nat)
    (direct : Bool) (files : FileTree) (working : Route) (turns : List Turn) :
    let scene := ((opened execution directory capacity direct files working).run turns).scene
    scene.Sound ∧ scene.store.cache.Settled := by
  apply run_induction (motive := fun trace =>
    trace.scene.Sound ∧ trace.scene.store.cache.Settled)
  case initial =>
    refine ⟨Scene.sound_opened execution directory capacity direct files working, ?_⟩
    intro id member
    simp [opened, Scene.opened, Store.opened] at member
  case own =>
    rintro trace operation ⟨sound, settled⟩ permitted
    exact ⟨(Scene.sound_perform sound permitted).1,
      Scene.settled_perform sound.acyclic settled operation⟩
  case others =>
    rintro trace files ⟨sound, settled⟩
    exact ⟨sound_changing sound files, settled⟩

namespace Store

variable {store : Store} {site : Site} {id path : String}

/-! ## What a lookup reflects -/

/-- A lookup answers what stands in the place of the record of an id. -/
structure Reflects (store : Store) (site : Site) (id path : String) : Prop where
  /-- There is no node exactly if nothing stands there. -/
  absent : (store.get site id).1 = .ok none ↔ site.files.entry? site.working path = none
  directory : site.files.entry? site.working path = some .directory →
    (store.get site id).1 = .error (.io .isDirectory)
  malformed : ∀ bytes session fault,
    site.files.entry? site.working path = some (.file bytes) →
    Record.decode ⟨site.graph, {}, none⟩ bytes = (session, .error fault) →
    (store.get site id).1 = .error (.codec path (.ofFault fault bytes))
  noNode : ∀ bytes session actions,
    site.files.entry? site.working path = some (.file bytes) →
    Record.decode ⟨site.graph, {}, none⟩ bytes = (session, .ok ⟨none, actions⟩) →
    (store.get site id).1 = .error (.corruptRecord path (Text.lossy bytes))
  /-- The node of the record is given, with the execution and the actions that loading gives it. -/
  node : ∀ bytes session ref actions,
    site.files.entry? site.working path = some (.file bytes) →
    Record.decode ⟨site.graph, {}, none⟩ bytes = (session, .ok ⟨some ref, actions⟩) →
    (store.get site id).1 = .ok (some ref) ∧
      ∃ stored parentIds woken,
        session.graph.node? ref = some (.detached stored (.named parentIds)) ∧
        woken.map Action.payload = actions.map Action.payload ∧
        (store.get site id).2.2.graph = session.graph.update ref fun _ =>
          ⟨stored, .named parentIds, woken ++ Action.sprouts actions, some store.execution⟩

section

variable (notPending : store.deferred.get? id = none) (notCached : store.cache.peek id = none)

include notPending notCached

theorem get_eq_answer : (store.get site id).1 =
    answer (store.repository.read site id store.execution).1 := by
  rw [get_fst, notPending, notCached]
  rfl

/-- A lookup that reads leaves the graph that reading leaves. -/
theorem graph_get : (store.get site id).2.2.graph =
    (store.repository.read site id store.execution).2.graph := by
  simp only [get, notPending, Cache.request, notCached, fetch]
  cases store.repository.read site id store.execution with
  | mk result after =>
      cases result with
      | ok loaded => rfl
      | error failure =>
          dsimp only
          split <;> rfl

variable (found : store.repository.path id = .ok path)

include found

/-- A lookup that meets a fault gives it back, unless it is that nothing is there. -/
theorem get_of_fault {fault : FileFault}
    (unread : site.files.read site.working path = .error fault) :
    (store.get site id).1 = if fault = .missing then .ok none else .error (.io fault) := by
  rw [get_eq_answer notPending notCached, Repository.read_of_fault found unread]
  split <;> rfl

section

variable {bytes : List UInt8} {session : Record.Session} {actions : List Action}
  (there : site.files.read site.working path = .ok bytes)

include there

theorem get_of_malformed {fault : Json.Fault}
    (malformed : Record.decode ⟨site.graph, {}, none⟩ bytes = (session, .error fault)) :
    (store.get site id).1 = .error (.codec path (.ofFault fault bytes)) := by
  rw [get_eq_answer notPending notCached, Repository.read_of_malformed found there malformed]
  rfl

theorem get_of_noNode
    (decoded : Record.decode ⟨site.graph, {}, none⟩ bytes = (session, .ok ⟨none, actions⟩)) :
    (store.get site id).1 = .error (.corruptRecord path (Text.lossy bytes)) := by
  rw [get_eq_answer notPending notCached, Repository.read_of_noNode found there decoded]
  rfl

theorem get_of_node {ref : NodeRef}
    (decoded : Record.decode ⟨site.graph, {}, none⟩ bytes = (session, .ok ⟨some ref, actions⟩)) :
    (store.get site id).1 = .ok (some ref) ∧
      ∃ stored parentIds woken,
        session.graph.node? ref = some (.detached stored (.named parentIds)) ∧
        woken.map Action.payload = actions.map Action.payload ∧
        (store.get site id).2.2.graph = session.graph.update ref fun _ =>
          ⟨stored, .named parentIds, woken ++ Action.sprouts actions, some store.execution⟩ := by
  obtain ⟨stored, parentIds, woken, events, created, isWoken, read⟩ :=
    Repository.read_decoded found there decoded store.execution
  constructor
  · rw [get_eq_answer notPending notCached, read]
    rfl
  · refine ⟨stored, parentIds, woken, created, ?_, ?_⟩
    · rw [isWoken]
      exact Action.map_payload_remember actions _
    · rw [graph_get notPending notCached, read]

end

/-- A lookup that has to read reflects what stands at the path of the record. -/
theorem reflects (admits : store.repository.Admits id)
    (clear : site.files.AbsentOrDirectory site.working store.repository.directory) :
    store.Reflects site id path := by
  have content := Repository.content_of_clear found admits clear
  constructor
  case directory =>
    intro isDirectory
    rw [isDirectory] at content
    exact get_of_fault notPending notCached found content
  case malformed =>
    intro bytes session fault isFile
    rw [isFile] at content
    exact get_of_malformed notPending notCached found content
  case noNode =>
    intro bytes session actions isFile
    rw [isFile] at content
    exact get_of_noNode notPending notCached found content
  case node =>
    intro bytes session ref actions isFile
    rw [isFile] at content
    exact get_of_node notPending notCached found content
  case absent =>
    cases isEntry : site.files.entry? site.working path with
    | none =>
        rw [isEntry] at content
        have nothing := get_of_fault notPending notCached found content
        simpa using nothing
    | some entry =>
        -- whatever stands there, the lookup does not say that there is no node
        suffices answered : (store.get site id).1 ≠ .ok none by simpa using answered
        rw [isEntry] at content
        cases entry with
        | directory =>
            rw [get_of_fault notPending notCached found content]
            simp
        | file bytes =>
            cases decoded : Record.decode ⟨site.graph, {}, none⟩ bytes with
            | mk session result =>
                rcases result with fault | ⟨_ | ref, actions⟩
                · rw [get_of_malformed notPending notCached found content decoded]
                  simp
                · rw [get_of_noNode notPending notCached found content decoded]
                  simp
                · rw [(get_of_node notPending notCached found content decoded).1]
                  simp

end

/-- A lookup that has to read and gives no node leaves the slots of the cache, the buffer and the
files. -/
theorem get_of_refused (acyclic : site.graph.Acyclic) (settled : store.cache.Settled)
    (notPending : store.deferred.get? id = none) (notCached : store.cache.peek id = none)
    (refused : ∀ ref, (store.get site id).1 ≠ .ok (some ref)) :
    ∃ cache graph events, cache.slots = store.cache.slots ∧
      (store.get site id).2 = ({ store with cache }, { site with graph, events }) := by
  have looked := get_looked acyclic store id
  generalize store.get site id = outcome at looked refused
  cases looked with
  | buffered pending => simp [notPending] at pending
  | cached _ isCached _ => simp [notCached] at isCached
  | loaded _ _ _ _ => exact absurd rfl (refused _)
  | @refused _ cache graph _ reports _ _ _ slots =>
      have absent := settled.slot?_eq_none notCached
      exact ⟨cache, graph, reports, slots.trans (Cache.without_of_absent absent), rfl⟩

end Store

namespace Trace

/-- In every state of a run, whatever was looked up before and whatever others have done to the
files, a lookup of an id that is neither buffered nor cached reflects what stands at the path of its
record, as long as that path is within the limits of the system and the directory of the store is a
directory or missing.  If it gives no node, the cache has the slots that it had, and after any
change of the files the next lookup reflects what stands there then. -/
theorem lookup_reflects_directory (execution : ExecutionRef) (directory : String) (capacity : Nat)
    (direct : Bool) (files : FileTree) (working : Route) (turns : List Turn) (id : String) :
    let scene := ((opened execution directory capacity direct files working).run turns).scene
    let store := scene.store
    let site := scene.site
    let after := (store.get site id).2
    store.repository.Admits id →
    site.files.AbsentOrDirectory site.working store.repository.directory →
    store.deferred.get? id = none → store.cache.peek id = none →
    ∃ path, store.repository.path id = .ok path ∧ store.Reflects site id path ∧
      ((∀ ref, (store.get site id).1 ≠ .ok (some ref)) →
        after.1.cache.slots = store.cache.slots ∧ after.1.deferred = store.deferred ∧
        after.2.files = site.files ∧
        ∀ files, files.AbsentOrDirectory site.working store.repository.directory →
          after.1.Reflects { after.2 with files } id path) := by
  intro scene store site after admits clear notPending notCached
  have run := settled_run execution directory capacity direct files working turns
  obtain ⟨sound, settled⟩ : scene.Sound ∧ store.cache.Settled := run
  have ⟨path, found, _⟩ := admits
  refine ⟨path, found, Store.reflects notPending notCached found admits clear, ?_⟩
  intro refused
  obtain ⟨cache, graph, events, slots, left⟩ :=
    Store.get_of_refused sound.acyclic settled notPending notCached refused
  have isAfter : after = ({ store with cache }, { site with graph, events }) := left
  rw [isAfter]
  refine ⟨slots, rfl, rfl, ?_⟩
  intro files clearThen
  have stillNotCached : cache.peek id = none := (Cache.peek_of_slots slots id).trans notCached
  exact Store.reflects notPending stillNotCached found admits clearThen

/-- A record was looked up when it was missing, and again when it had no node; then it is
repaired. -/
theorem lookup_finds_repaired_record :
    let holding (bytes : List UInt8) : FileTree :=
      { entries := [(["d"], .directory), (["d", "a.json"], .file bytes)] }
    let scene := ((opened 0 "d" 0 false {} []).run
      [.own (.get "a"), .others (holding (Text.bytes "{}"))]).scene
    let after := (scene.store.get scene.site "a").2
    let repaired := holding ((Record.encode "a" ["p"] []).toOption.getD [])
    (scene.store.get scene.site "a").1 = .error (.corruptRecord "d/a.json" "{}") ∧
      after.1.cache.slots = [] ∧
      (after.1.get { after.2 with files := repaired } "a").1 = .ok (some 0) := by
  intro holding scene after repaired
  have lookup := lookup_reflects_directory 0 "d" 0 false {} []
    [.own (.get "a"), .others (holding (Text.bytes "{}"))] "a" (by decide +kernel)
    (.inl (by decide +kernel)) (by decide +kernel) (by decide +kernel)
  obtain ⟨path, found, reflects, refused⟩ := lookup
  obtain rfl : path = "d/a.json" := by
    have isPath : scene.store.repository.path "a" = .ok "d/a.json" := by decide +kernel
    exact Except.ok.inj (found.symm.trans isPath)
  have corrupt := reflects.noNode (Text.bytes "{}") ⟨scene.site.graph, {}, none⟩ []
    (by decide +kernel) (by decide +kernel)
  have isText : Text.lossy (Text.bytes "{}") = "{}" := by decide +kernel
  rw [isText] at corrupt
  obtain ⟨slots, -, -, later⟩ := refused fun ref same => by simp [corrupt] at same
  have noSlots : scene.store.cache.slots = [] := by decide +kernel
  have encoded : Record.encode "a" ["p"] [] =
      .ok ((Record.encode "a" ["p"] []).toOption.getD []) := rfl
  have next : after.2.graph.next = 0 := by decide +kernel
  have read := (later repaired (.inl (by decide +kernel))).node _ _ after.2.graph.next []
    (by decide +kernel) (Record.decode_encode encoded ⟨after.2.graph, {}, none⟩)
  rw [next] at read
  -- the run is not evaluated again to see that it is the same run
  with_reducible exact ⟨corrupt, slots.trans noSlots, read.1⟩

end Trace

end TraceStore
