import TraceStore.Proofs.Repository.Confinement
import TraceStore.Proofs.Store.Promises
import TraceStore.Proofs.Store.Trace

/-!
# Which files an operation touches

An operation on one node touches the record of that node and no other file, and flushing touches the
records of the buffered ids.  Most operations touch no file: lookups, writes that are put off, saves
of an exempt id, and whatever is done to an id that can have no record.  A write that fails may have
made the directory of the store, but leaves every file as it was.
-/

namespace TraceStore

namespace Scene

variable {store store' : Store} {site site' : Site} {node : NodeRef} {ids : List String}
  {before between after : Scene}

/-- Nothing was changed in the surroundings but the records of some ids, and the store still keeps
its records where it did. -/
structure Confines (ids : List String) (before after : Scene) : Prop where
  repository : after.store.repository = before.store.repository
  working : after.site.working = before.site.working
  files : before.store.repository.Confined before.site.working ids before.site.files
    after.site.files

namespace Confines

theorem of_files_eq (ids : List String)
    (repository : after.store.repository = before.store.repository)
    (working : after.site.working = before.site.working)
    (files : after.site.files = before.site.files) : Confines ids before after := by
  refine ⟨repository, working, ?_⟩
  rw [files]
  exact .refl _ _ _ _

theorem mono {more : List String} (confines : Confines ids before after) (subset : ids ⊆ more) :
    Confines more before after :=
  ⟨confines.repository, confines.working, confines.files.mono subset⟩

theorem trans (first : Confines ids before between) (second : Confines ids between after) :
    Confines ids before after := by
  refine ⟨second.repository.trans first.repository, second.working.trans first.working, ?_⟩
  have files := second.files
  rw [first.repository, first.working] at files
  exact first.files.trans files

end Confines

/-! ## Writing -/

theorem confines_writeNode {actions : List Action} {result : Except StoreError Unit}
    (outcome : store.writeNode site node actions = (result, store', site')) :
    Confines (Repository.touchedBy (site.graph.node node).id result) ⟨store, site⟩
        ⟨store', site'⟩ ∧
      site'.graph = site.graph := by
  have wrote := Store.wrote_of_eq outcome
  have frame : store'.repository = store.repository ∧ site'.working = site.working ∧
      site'.graph = site.graph := by
    cases wrote with
    | done recorded => exact ⟨rfl, rfl, rfl⟩
    | failed grows => exact ⟨rfl, rfl, rfl⟩
  refine ⟨⟨frame.1, frame.2.1, ?_⟩, frame.2.2⟩
  simp only [Store.writeNode] at outcome
  generalize store.cache.insert site.graph (store.outside site) node = inserted at outcome
  cases written : store.repository.write (site.reportAll inserted.2) node actions with
  | mk result' site'' =>
      have confined := Repository.confined_write store.repository (site.reportAll inserted.2) node
        actions written
      rw [written] at outcome
      obtain ⟨rfl, -, rfl⟩ : result' = result ∧ _ ∧ site'' = site' := by
        simpa only [Prod.mk.injEq] using outcome
      exact confined

theorem confines_writeNodes (nodes : List NodeRef) :
    Confines (nodes.map fun node => (site.graph.node node).id) ⟨store, site⟩
      ⟨(store.writeNodes site nodes).2.1, (store.writeNodes site nodes).2.2⟩ := by
  induction nodes generalizing store site with
  | nil => exact .of_files_eq _ rfl rfl rfl
  | cons node others ih =>
      rw [Store.writeNodes]
      cases tried : store.writeNode site node (site.graph.node node).actions with
      | mk result after =>
          rcases after with ⟨between, surroundings⟩
          rcases confines_writeNode tried with ⟨confines, graph⟩
          have first : Confines ((node :: others).map fun node => (site.graph.node node).id)
              ⟨store, site⟩ ⟨between, surroundings⟩ := by
            apply confines.mono
            cases result with
            | ok _ => simp [Repository.touchedBy]
            | error failure => exact List.nil_subset _
          cases result with
          | error failure => exact first
          | ok _ =>
              refine first.trans (Confines.mono ?_ (List.subset_cons_self _ _))
              rw [← graph]
              exact ih

/-! ## Operations -/

variable {scene : Scene} {operation : Operation}

/-- The ids whose records an operation touches when it ends in a given way. -/
def touches (scene : Scene) (operation : Operation) (result : Except StoreError Unit) :
    List String :=
  match operation, result with
  | .flush, _ => scene.store.deferred.ids
  | _, .ok () => (scene.records operation).map (·.1)
  | _, .error _ => []

/-- An operation that writes one record touches it if it succeeds. -/
theorem touchedBy_subset_touches {actions : List Action}
    (own : scene.records operation = [((scene.site.graph.node node).id, actions)])
    (single : operation ≠ .flush) (result : Except StoreError Unit) :
    Repository.touchedBy (scene.site.graph.node node).id result ⊆
      scene.touches operation result := by
  cases result with
  | ok _ => cases operation <;> simp_all [Repository.touchedBy, touches]
  | error failure => exact List.nil_subset _

/-- The id of a node can have no record. -/
def Rejects (scene : Scene) (node : NodeRef) : Prop :=
  ∃ failure, scene.store.repository.path (scene.site.graph.node node).id = .error failure

/-- Whether an operation touches no file, however it ends. -/
def IsIdle (scene : Scene) : Operation → Prop
  | .put node later => later = true ∨ scene.Rejects node
  | .autopersist node =>
      scene.store.deferred.contains (scene.site.graph.node node).id = false ∨ scene.Rejects node
  | .flushNode node => scene.Rejects node
  | .flush => False
  | .saveActions node _ =>
      scene.store.deferred.isExempt (scene.site.graph.node node).id = true ∨ scene.Rejects node
  | _ => True

/-- A node whose id can have no record is not written. -/
theorem files_writeNode_of_rejects (rejects : Rejects ⟨store, site⟩ node) (actions : List Action) :
    (store.writeNode site node actions).2.2.files = site.files := by
  rcases rejects with ⟨failure, refused⟩
  simp only [Store.writeNode]
  generalize store.cache.insert site.graph (store.outside site) node = inserted
  have graph : (site.reportAll inserted.2).graph = site.graph := rfl
  rw [← graph] at refused
  rw [Repository.write_of_path_error refused actions]
  rfl

/-- An idle operation that writes a record does so for a node whose id can have none. -/
theorem rejects_of_isIdle (idle : scene.IsIdle operation)
    (accepted : scene.accepts? operation = some node) (writes : scene.records operation ≠ []) :
    scene.Rejects node := by
  have isNode := node?_of_accepts? accepted
  cases operation with
  | put other later =>
      obtain rfl : other = node := by simpa [Operation.node?] using isNode
      exact idle.resolve_left fun isLater => writes (by simp [records, isLater])
  | autopersist other =>
      obtain rfl : other = node := by simpa [Operation.node?] using isNode
      exact idle.resolve_left fun notBuffered => writes (by simp [records, notBuffered])
  | flushNode other =>
      obtain rfl : other = node := by simpa [Operation.node?] using isNode
      exact idle
  | saveActions other actions =>
      obtain rfl : other = node := by simpa [Operation.node?] using isNode
      exact idle.resolve_left fun exempt => writes (by simp [records, exempt])
  | flush | get _ | loadActions _ | reclaim | create _ | attach _ _ | hold _ | drop _ | start _
  | stop _ | refuse _ => simp [accepts?] at accepted

/-- The buffered nodes are written under the buffered ids. -/
theorem ids_nodes_subset (sound : scene.Sound) :
    (scene.store.deferred.nodes.map fun node => (scene.site.graph.node node).id) ⊆
      scene.store.deferred.ids := by
  intro id member
  rcases List.mem_map.mp member with ⟨node, isPending, rfl⟩
  rcases (Deferred.mem_nodes_iff sound.deferred.ascending node).mp isPending with ⟨id, found⟩
  rw [sound.deferred.named id node found]
  have isItem := (Deferred.get?_eq_some_iff sound.deferred.ascending id node).mp found
  exact List.mem_map.mpr ⟨_, isItem, rfl⟩

/-- An operation touches the records that it writes. -/
theorem confines_perform (sound : scene.Sound) (operation : Operation) :
    Confines (scene.touches operation (scene.perform operation).1) scene
      (scene.perform operation).2 := by
  cases mutates : operation.mutates with
  | false =>
      rcases frame_of_not_mutates sound.acyclic mutates with ⟨-, repository, working, files⟩
      exact .of_files_eq _ repository working files
  | true =>
      have effect := scene.effect_perform mutates
      generalize scene.perform operation = outcome at effect
      cases effect with
      | buffers _ _ => exact .of_files_eq _ rfl rfl rfl
      | writes accepted own written _ =>
          have single : operation ≠ .flush := by
            rintro rfl
            simp [accepts?] at accepted
          rcases confines_writeNode written with ⟨confines, -⟩
          have within := confines.mono (touchedBy_subset_touches own single _)
          exact ⟨within.repository, within.working, within.files⟩
      | flushes isFlush written _ =>
          subst isFlush
          have writing := @confines_writeNodes scene.store scene.site scene.store.deferred.nodes
          rw [written] at writing
          have within := writing.mono (ids_nodes_subset sound)
          exact ⟨within.repository, within.working, within.files⟩

/-- Operations leave no gaps in the tree. -/
theorem rootedAt_perform (sound : scene.Sound)
    (rootedAt : scene.site.files.RootedAt scene.site.working) (operation : Operation) :
    (scene.perform operation).2.site.files.RootedAt (scene.perform operation).2.site.working := by
  have confines := confines_perform sound operation
  rw [confines.working]
  exact confines.files.rootedAt rootedAt

theorem files_of_isIdle (sound : scene.Sound) (idle : scene.IsIdle operation) :
    (scene.perform operation).2.site.files = scene.site.files := by
  cases mutates : operation.mutates with
  | false => exact (frame_of_not_mutates sound.acyclic mutates).2.2.2
  | true =>
      have effect := scene.effect_perform mutates
      generalize scene.perform operation = outcome at effect
      cases effect with
      | buffers _ _ => rfl
      | @writes node actions _ _ _ _ accepted own written _ =>
          have rejects := rejects_of_isIdle idle accepted (by simp [own])
          have same := files_writeNode_of_rejects rejects actions
          rwa [written] at same
      | flushes isFlush _ _ =>
          subst isFlush
          exact idle.elim

/-- An operation on one node that fails touches no record. -/
theorem touches_of_error (scene : Scene) (single : operation ≠ .flush) (failure : StoreError) :
    scene.touches operation (.error failure) = [] := by
  cases operation with
  | flush => exact absurd rfl single
  | put _ _ | autopersist _ | flushNode _ | saveActions _ _ | get _ | loadActions _ | reclaim
  | create _ | attach _ _ | hold _ | drop _ | start _ | stop _ | refuse _ => rfl

end Scene

namespace Trace

theorem placed_run (execution : ExecutionRef) (directory : String) (capacity : Nat) (direct : Bool)
    (files : FileTree) (working : Route) (turns : List Turn) :
    let scene := ((opened execution directory capacity direct files working).run turns).scene
    scene.Sound ∧ scene.store.repository = ⟨directory, !direct⟩ ∧ scene.site.working = working := by
  apply run_induction (motive := fun trace => trace.scene.Sound ∧
    trace.scene.store.repository = ⟨directory, !direct⟩ ∧ trace.scene.site.working = working)
  case initial =>
    exact ⟨Scene.sound_opened execution directory capacity direct files working, rfl, rfl⟩
  case own =>
    rintro trace operation ⟨sound, repository, isWorking⟩ permitted
    have confines := Scene.confines_perform sound operation
    exact ⟨(Scene.sound_perform sound permitted).1, confines.repository.trans repository,
      confines.working.trans isWorking⟩
  case others =>
    rintro trace files ⟨sound, repository, isWorking⟩
    exact ⟨sound_changing sound files, repository, isWorking⟩

/-- A tree without gaps has none in any state of a run in which others leave none. -/
theorem rootedAt_run (execution : ExecutionRef) (directory : String) (capacity : Nat)
    (direct : Bool) {files : FileTree} {working : Route} (rootedAt : files.RootedAt working)
    {turns : List Turn} (others : ∀ changed, .others changed ∈ turns → changed.RootedAt working) :
    ((opened execution directory capacity direct files working).run turns).scene.site.files.RootedAt
      working := by
  suffices all : let scene :=
      ((opened execution directory capacity direct files working).run turns).scene
    scene.Sound ∧ scene.site.working = working ∧ scene.site.files.RootedAt working from all.2.2
  apply run_induction_of_turns (motive := fun trace => trace.scene.Sound ∧
    trace.scene.site.working = working ∧ trace.scene.site.files.RootedAt working)
  case initial =>
    exact ⟨Scene.sound_opened execution directory capacity direct files working, rfl, rootedAt⟩
  case own =>
    rintro trace operation ⟨sound, isWorking, rooted⟩ permitted
    have working := (Scene.confines_perform sound operation).working.trans isWorking
    have rooted := Scene.rootedAt_perform sound (isWorking ▸ rooted) operation
    exact ⟨(Scene.sound_perform sound permitted).1, working, working ▸ rooted⟩
  case others =>
    rintro trace changed member ⟨sound, isWorking, -⟩
    exact ⟨sound_changing sound changed, isWorking, others changed member⟩

/-- In every state of a run, whatever others did to the files meanwhile, an operation changes no
file but the records that it touches, and makes nothing else than the directory of the store and
missing ones above it.  An operation on one node touches the record of its id if it succeeds and no
file if it fails; flushing touches records of buffered ids; an idle operation leaves the tree as it
was.  Distinct ids have distinct paths, each one name below the directory. -/
theorem operation_keeps_to_records (execution : ExecutionRef) (directory : String) (capacity : Nat)
    (direct : Bool) (files : FileTree) (working : Route) (turns : List Turn)
    (operation : Operation) :
    let scene := ((opened execution directory capacity direct files working).run turns).scene
    let result := (scene.perform operation).1
    let after := (scene.perform operation).2
    let repository : Repository := ⟨directory, !direct⟩
    scene.store.repository = repository ∧
    repository.Confined working (scene.touches operation result) scene.site.files
      after.site.files ∧
    (∀ failure, result = .error failure → operation ≠ .flush → ∀ route content,
      after.site.files.get? route = some (.file content) ↔
        scene.site.files.get? route = some (.file content)) ∧
    (scene.IsIdle operation → after.site.files = scene.site.files) ∧
    ∀ id path, repository.path id = .ok path →
      Path.names path = Path.names directory ++ [id ++ Repository.extension] ∧
      Path.isAbsolute path = Path.isAbsolute directory ∧
      ∀ other, repository.path other = .ok path → id = other := by
  intro scene result after repository
  rcases placed_run execution directory capacity direct files working turns with
    ⟨sound, isRepository, isWorking⟩
  have confined := (Scene.confines_perform sound operation).files
  rw [isRepository, isWorking] at confined
  refine ⟨isRepository, confined, ?failed, Scene.files_of_isIdle sound, ?paths⟩
  case failed =>
    intro failure failed single route content
    rw [show (scene.perform operation).1 = .error failure from failed,
      Scene.touches_of_error scene single] at confined
    exact confined.file_iff route content
  case paths =>
    intro id path found
    refine ⟨Repository.names_path found, ?_, fun other => Repository.path_injective found⟩
    rcases (Repository.path_eq_ok_iff repository id path).mp found with ⟨safe, rfl⟩
    exact Path.isAbsolute_join directory (Repository.isName_file safe)

end Trace

end TraceStore
