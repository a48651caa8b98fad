import TraceStore.Proofs.Repository.Writes
import TraceStore.Proofs.Store.Buffering

/-!
# Operations on one node

An operation on one node comes to two things: a draft of the record of that node is entered into
the file tree (`Scene.draft`, which is nothing if the write is put off), and the buffer is changed
for the id of the node (`Scene.bufferAfter`).  Both are settled by the graph and by what the buffer
knows of that id, so operations on nodes of different ids can be swapped.

What the cache holds has no influence on any of this.
-/

namespace TraceStore

/-! ## Buffers -/

/-- Two buffers know the same of an id. -/
structure Deferred.AgreeAt (id : String) (deferred other : Deferred) : Prop where
  pending : deferred.get? id = other.get? id
  exempt : deferred.isExempt id = other.isExempt id

namespace Deferred

variable {id own : String} {deferred other third : Deferred}

namespace AgreeAt

theorem refl (id : String) (deferred : Deferred) : AgreeAt id deferred deferred := ⟨rfl, rfl⟩

theorem symm (agree : AgreeAt id deferred other) : AgreeAt id other deferred :=
  ⟨agree.pending.symm, agree.exempt.symm⟩

theorem trans (agree : AgreeAt id deferred other) (later : AgreeAt id other third) :
    AgreeAt id deferred third :=
  ⟨agree.pending.trans later.pending, agree.exempt.trans later.exempt⟩

end AgreeAt

/-- A change for one id that leaves what the buffer knows of all others. -/
structure Local (own : String) (change : Deferred → Deferred) : Prop where
  other : ∀ id deferred, own ≠ id → AgreeAt id (change deferred) deferred
  congr : ∀ id deferred other, AgreeAt id deferred other →
    AgreeAt id (change deferred) (change other)

theorem Local.comp {change later : Deferred → Deferred} (first : Local own change)
    (second : Local own later) : Local own fun deferred => later (change deferred) where
  other id deferred apart := (second.other id _ apart).trans (first.other id deferred apart)
  congr id deferred other agree := second.congr id _ _ (first.congr id deferred other agree)

/-- Changes for different ids can be made in either order. -/
theorem Local.comm {change later : Deferred → Deferred} (first : Local id change)
    (second : Local own later) (apart : id ≠ own) (place : String) (deferred : Deferred) :
    AgreeAt place (later (change deferred)) (change (later deferred)) := by
  by_cases isOwn : own = place
  · have notFirst : id ≠ place := isOwn ▸ apart
    exact (second.congr place _ _ (first.other place deferred notFirst)).trans
      (first.other place _ notFirst).symm
  · exact (second.other place _ isOwn).trans
      (first.congr place _ _ (second.other place deferred isOwn).symm)

theorem local_id (own : String) : Local own fun deferred => deferred :=
  ⟨fun _ _ _ => .refl _ _, fun _ _ _ agree => agree⟩

theorem local_replace (own : String) (node : NodeRef) : Local own (·.replace own node) where
  other id deferred apart := ⟨by simp [apart], rfl⟩
  congr id deferred other agree := ⟨by simp [agree.pending], agree.exempt⟩

theorem local_defer (own : String) (node : NodeRef) : Local own (·.defer own node) where
  other id deferred apart := ⟨by simp [apart], by simp [apart, isExempt_defer]⟩
  congr id deferred other agree :=
    ⟨by simp [agree.pending], by simp [agree.exempt, isExempt_defer]⟩

theorem local_remove (own : String) : Local own (·.remove own) where
  other id deferred apart := ⟨by simp [apart], rfl⟩
  congr id deferred other agree := ⟨by simp [agree.pending], agree.exempt⟩

theorem local_release (own : String) : Local own (·.release own) where
  other id deferred apart := ⟨rfl, by simp [apart, isExempt_release]⟩
  congr id deferred other agree := ⟨agree.pending, by simp [agree.exempt, isExempt_release]⟩

end Deferred

/-! ## Drafts -/

namespace Repository

/-- What is to be written for a node with given actions. -/
def draft (repository : Repository) (graph : Graph) (node : NodeRef) (actions : List Action) :
    Except StoreError (String × List UInt8) :=
  let written := graph.node node
  match repository.path written.id with
  | .error failure => .error failure
  | .ok path =>
      match Record.encode written.id (graph.parentIds written.links) actions with
      | .error fault => .error (.codec path fault)
      | .ok bytes => .ok (path, bytes)

theorem draft_eq_ok_iff (repository : Repository) (graph : Graph) (node : NodeRef)
    (actions : List Action) (path : String) (bytes : List UInt8) :
    repository.draft graph node actions = .ok (path, bytes) ↔
      repository.path (graph.node node).id = .ok path ∧
        Record.encode (graph.node node).id (graph.parentIds (graph.node node).links) actions =
          .ok bytes := by
  simp only [draft]
  split
  · next refused => simp [refused]
  · next other found =>
      split
      · next refused => simp [refused]
      · next encoded =>
          rw [found, encoded]
          simp

theorem isDraft_draft (repository : Repository) (graph : Graph) (node : NodeRef)
    (actions : List Action) :
    repository.IsDraft (graph.node node).id (some (repository.draft graph node actions)) := by
  intro path bytes same
  exact ((draft_eq_ok_iff _ _ _ _ _ _).mp (Option.some.inj same)).1

/-- Writing a node is to enter its draft and to report. -/
theorem write_eq_enter (repository : Repository) (site : Site) (node : NodeRef)
    (actions : List Action) : ∃ events,
    let entering := site.enter repository.atomic (some (repository.draft site.graph node actions))
    repository.write site node actions =
      (entering.1, { site with files := entering.2, events }) := by
  rw [write, draft]
  cases repository.path (site.graph.node node).id with
  | error failure => exact ⟨site.events, rfl⟩
  | ok path =>
      simp only
      cases Record.encode (site.graph.node node).id
        (site.graph.parentIds (site.graph.node node).links) actions with
      | error fault => exact ⟨site.events, rfl⟩
      | ok bytes =>
          simp only [Site.enter]
          cases site.replaceFile path bytes repository.atomic with
          | mk answer files =>
              cases answer with
              | error fault => exact ⟨site.events, rfl⟩
              | ok _ => exact ⟨_, rfl⟩

end Repository

namespace Scene

variable {scene other before : Scene} {store : Store} {site : Site} {operation : Operation}
  {node : NodeRef} {result result' : Except StoreError Unit}

/-- The id of the node that an operation on one node buffers or writes. -/
def target? (scene : Scene) (operation : Operation) : Option String :=
  if operation.mutates then operation.node?.map fun node => (scene.site.graph.node node).id
  else none

theorem target?_eq_some_iff (scene : Scene) (operation : Operation) (id : String) :
    scene.target? operation = some id ↔ operation.mutates = true ∧
      ∃ node, operation.node? = some node ∧ (scene.site.graph.node node).id = id := by
  simp [target?]

theorem single_of_target? {id : String} (isTarget : scene.target? operation = some id) :
    operation.mutates = true ∧ operation ≠ .flush := by
  obtain ⟨mutates, node, isNode, -⟩ := (target?_eq_some_iff _ _ _).mp isTarget
  refine ⟨mutates, ?_⟩
  rintro rfl
  simp [Operation.node?] at isNode

/-- What an operation on one node is to write. -/
def draft (scene : Scene) (operation : Operation) : Draft :=
  let own (node : NodeRef) (actions : List Action) : Draft :=
    some (scene.store.repository.draft scene.site.graph node actions)
  let found := scene.site.graph.node
  match operation with
  | .put node false | .flushNode node => own node (found node).actions
  | .autopersist node =>
      if scene.store.deferred.contains (found node).id then own node (found node).actions else none
  | .saveActions node actions =>
      if scene.store.deferred.isExempt (found node).id then none else own node actions
  | _ => none

theorem isDraft_draft {id : String} (isTarget : scene.target? operation = some id) :
    scene.store.repository.IsDraft id (scene.draft operation) := by
  obtain ⟨-, node, isNode, rfl⟩ := (target?_eq_some_iff _ _ _).mp isTarget
  have own (actions : List Action) := Repository.isDraft_draft scene.store.repository
    scene.site.graph node actions
  have nothing : scene.store.repository.IsDraft (scene.site.graph.node node).id none :=
    fun _ _ none => by simp at none
  cases operation with
  | put other later =>
      obtain rfl := Option.some.inj isNode
      cases later with
      | true => exact nothing
      | false => exact own _
  | flushNode other =>
      obtain rfl := Option.some.inj isNode
      exact own _
  | autopersist other =>
      obtain rfl := Option.some.inj isNode
      simp only [draft]
      split
      · exact own _
      · exact nothing
  | saveActions other actions =>
      obtain rfl := Option.some.inj isNode
      simp only [draft]
      split
      · exact nothing
      · exact own _
  | flush | get _ | loadActions _ | reclaim | create _ | attach _ _ | hold _ | drop _ | start _
  | stop _ | refuse _ => exact nothing

theorem draft_of_nothing (nothing : scene.records operation = []) :
    scene.draft operation = none := by
  cases operation with
  | put node later => cases later <;> simp_all [records, draft]
  | autopersist node | saveActions node actions => simp_all [records, draft]
  | flushNode node => simp [records] at nothing
  | flush | get _ | loadActions _ | reclaim | create _ | attach _ _ | hold _ | drop _ | start _
  | stop _ | refuse _ => rfl

/-- The draft of an operation is for the record that it writes. -/
theorem draft_of_record {actions : List Action} (accepted : scene.accepts? operation = some node)
    (own : scene.records operation = [((scene.site.graph.node node).id, actions)]) :
    scene.draft operation =
      some (scene.store.repository.draft scene.site.graph node actions) := by
  cases operation with
  | put other later =>
      obtain rfl : other = node := by simpa [accepts?] using accepted
      cases later with
      | true => simp [records] at own
      | false =>
          obtain rfl : _ = actions := by simpa [records, ownRecord] using own
          rfl
  | flushNode other =>
      obtain rfl : other = node := by simpa [accepts?] using accepted
      obtain rfl : _ = actions := by simpa [records, ownRecord] using own
      rfl
  | autopersist other =>
      obtain ⟨buffered, rfl⟩ : scene.store.deferred.contains (scene.site.graph.node other).id =
          true ∧ other = node := by simpa [accepts?] using accepted
      obtain rfl : _ = actions := by simpa [records, ownRecord, buffered] using own
      simp [draft, buffered]
  | saveActions other saved =>
      obtain rfl : other = node := by simpa [accepts?] using accepted
      simp only [records] at own
      split at own
      · simp at own
      · next notExempt =>
          obtain rfl : saved = actions := by simpa using own
          simp [draft, notExempt]
  | flush | get _ | loadActions _ | reclaim | create _ | attach _ _ | hold _ | drop _ | start _
  | stop _ | refuse _ => simp [accepts?] at accepted

/-! ## Operations as drafts -/

/-- Two scenes with the same repository, the same nodes and the same refusals. -/
structure SameSetting (scene other : Scene) : Prop where
  repository : scene.store.repository = other.store.repository
  graph : scene.site.graph = other.site.graph
  working : scene.site.working = other.site.working
  refusals : scene.site.refusals = other.site.refusals

namespace SameSetting

variable {third : Scene}

theorem symm (same : scene.SameSetting other) : other.SameSetting scene :=
  ⟨same.repository.symm, same.graph.symm, same.working.symm, same.refusals.symm⟩

theorem trans (same : scene.SameSetting other) (later : other.SameSetting third) :
    scene.SameSetting third :=
  ⟨same.repository.trans later.repository, same.graph.trans later.graph,
    same.working.trans later.working, same.refusals.trans later.refusals⟩

theorem target?_eq (same : scene.SameSetting other) (operation : Operation) :
    scene.target? operation = other.target? operation := by
  rw [target?, target?, same.graph]

end SameSetting

/-- A draft was entered, and besides only the cache, the buffer and the reports were changed. -/
structure Enters (before : Scene) (draft : Draft) (outcome : Except StoreError Unit × Scene) :
    Prop where
  answer : outcome.1 = (before.site.enter before.store.repository.atomic draft).1
  frame : ∃ cache deferred events, outcome.2 =
    ⟨{ before.store with cache, deferred },
      { before.site.entered before.store.repository.atomic draft with events }⟩

section Enters

variable {draft : Draft} {outcome : Except StoreError Unit × Scene}
  (enters : before.Enters draft outcome)

include enters

theorem Enters.setting : outcome.2.SameSetting before := by
  obtain ⟨-, cache, deferred, events, after⟩ := enters
  rw [after]
  exact ⟨rfl, rfl, rfl, rfl⟩

theorem Enters.files :
    outcome.2.site.files = (before.site.enter before.store.repository.atomic draft).2 := by
  obtain ⟨-, cache, deferred, events, after⟩ := enters
  rw [after]
  rfl

end Enters

theorem Enters.withDeferred {draft : Draft} {after : Scene}
    (enters : before.Enters draft (result, after)) (deferred : Deferred) :
    before.Enters draft (result, ⟨{ after.store with deferred }, after.site⟩) := by
  obtain ⟨answer, cache, deferred', events, rfl⟩ := enters
  exact ⟨answer, cache, deferred, events, rfl⟩

theorem enters_nothing (scene : Scene) (deferred : Deferred) (events : List Event) :
    scene.Enters none
      (.ok (), ⟨{ scene.store with deferred }, { scene.site with events }⟩) :=
  ⟨rfl, scene.store.cache, deferred, events, rfl⟩

theorem enters_writeNode (store : Store) (site : Site) (node : NodeRef) (actions : List Action) :
    Enters ⟨store, site⟩ (some (store.repository.draft site.graph node actions))
      ((store.writeNode site node actions).1, ⟨(store.writeNode site node actions).2.1,
        (store.writeNode site node actions).2.2⟩) := by
  simp only [Store.writeNode]
  generalize store.cache.insert site.graph (store.outside site) node = inserted
  obtain ⟨events, written⟩ :=
    Repository.write_eq_enter store.repository (site.reportAll inserted.2) node actions
  rw [written]
  exact ⟨rfl, inserted.1, store.deferred, events, rfl⟩

/-- An operation on one node enters its draft. -/
theorem enters_perform {id : String} (isTarget : scene.target? operation = some id) :
    scene.Enters (scene.draft operation) (scene.perform operation) := by
  obtain ⟨mutates, single⟩ := single_of_target? isTarget
  have effect := scene.effect_perform mutates
  generalize scene.perform operation = outcome at effect
  cases effect with
  | buffers nothing _ =>
      rw [draft_of_nothing nothing]
      exact enters_nothing scene _ _
  | @writes node actions _ _ _ _ accepted own written _ =>
      have enters := enters_writeNode scene.store scene.site node actions
      rw [written] at enters
      rw [draft_of_record accepted own]
      exact enters.withDeferred _
  | flushes isFlush _ _ => exact absurd isFlush single

/-! ## What an operation on one node depends on -/

variable {id own : String}

theorem draft_congr (same : scene.SameSetting other)
    (isTarget : scene.target? operation = some own)
    (agree : Deferred.AgreeAt own scene.store.deferred other.store.deferred) :
    scene.draft operation = other.draft operation := by
  obtain ⟨-, node, isNode, rfl⟩ := (target?_eq_some_iff _ _ _).mp isTarget
  have contained := congrArg Option.isSome agree.pending
  have exempt := agree.exempt
  rw [← Deferred.contains, ← Deferred.contains] at contained
  simp only [draft, same.repository, same.graph] at contained exempt ⊢
  cases operation with
  | autopersist node' =>
      obtain rfl := Option.some.inj isNode
      simp only [contained]
  | saveActions node' actions =>
      obtain rfl := Option.some.inj isNode
      simp only [exempt]
  | put _ later => cases later <;> rfl
  | flushNode _ | flush | get _ | loadActions _ | reclaim | create _ | attach _ _ | hold _ | drop _
  | start _ | stop _ | refuse _ => rfl

/-- What an operation on one node does to the buffer is a change for the id of that node, which
depends on what the buffer knows of that id. -/
theorem local_bufferAfter (isTarget : scene.target? operation = some own)
    (result : Except StoreError Unit) : ∃ change, Deferred.Local own change ∧
      ∀ other : Scene, other.site.graph = scene.site.graph →
        Deferred.AgreeAt own other.store.deferred scene.store.deferred →
        other.bufferAfter operation result = change other.store.deferred := by
  obtain ⟨mutates, node, isNode, rfl⟩ := (target?_eq_some_iff _ _ _).mp isTarget
  cases result with
  | error failure => exact ⟨_, Deferred.local_id _, fun _ _ _ => rfl⟩
  | ok _ =>
      cases operation with
      | put other later =>
          obtain rfl := Option.some.inj isNode
          cases later with
          | true =>
              refine ⟨_, Deferred.local_defer _ other, fun scene' graph _ => ?_⟩
              rw [← graph]
              rfl
          | false =>
              refine ⟨_, Deferred.local_remove _, fun scene' graph _ => ?_⟩
              rw [← graph]
              rfl
      | flushNode other =>
          obtain rfl := Option.some.inj isNode
          refine ⟨_, Deferred.local_remove _, fun scene' graph _ => ?_⟩
          rw [← graph]
          rfl
      | autopersist other =>
          obtain rfl := Option.some.inj isNode
          refine ⟨_, (Deferred.local_remove _).comp (Deferred.local_release _),
            fun scene' graph _ => ?_⟩
          rw [← graph]
          rfl
      | saveActions other actions =>
          obtain rfl := Option.some.inj isNode
          cases exempt : scene.store.deferred.isExempt (scene.site.graph.node other).id with
          | true =>
              refine ⟨_, Deferred.local_replace _ other, fun scene' graph agree => ?_⟩
              simp only [bufferAfter, graph, agree.exempt, exempt, if_true]
          | false =>
              refine ⟨_, Deferred.local_id _, fun scene' graph agree => ?_⟩
              simp [bufferAfter, graph, agree.exempt, exempt]
      | flush | get _ | loadActions _ | reclaim | create _ | attach _ _ | hold _ | drop _ | start _
      | stop _ | refuse _ => simp [Operation.mutates, Operation.node?] at mutates isNode

/-! ## Alike scenes -/

/-- Two scenes in which the same is found in all files, whatever the order in which these were
made. -/
structure AlikeFiles (scene other : Scene) : Prop extends SameSetting scene other where
  files : scene.site.files.get? = other.site.files.get?

/-- Two scenes that differ at most in what is cached, held and reported. -/
structure Alike (scene other : Scene) : Prop extends AlikeFiles scene other where
  deferred : ∀ id, Deferred.AgreeAt id scene.store.deferred other.store.deferred

theorem Alike.refl (scene : Scene) : scene.Alike scene :=
  ⟨⟨⟨rfl, rfl, rfl, rfl⟩, rfl⟩, fun id => .refl id _⟩

theorem Alike.trans {third : Scene} (alike : scene.Alike other) (later : other.Alike third) :
    scene.Alike third :=
  ⟨⟨alike.toSameSetting.trans later.toSameSetting, alike.files.trans later.files⟩,
    fun id => (alike.deferred id).trans (later.deferred id)⟩

/-- Where alike files are found, the same draft is entered alike. -/
theorem Enters.congr {draft : Draft} {outcome outcome' : Except StoreError Unit × Scene}
    (enters : scene.Enters draft outcome) (entersOther : other.Enters draft outcome')
    (isDraft : scene.store.repository.IsDraft id draft) (alike : scene.AlikeFiles other) :
    outcome.1 = outcome'.1 ∧ outcome.2.AlikeFiles outcome'.2 := by
  have entered := Repository.enter_congr isDraft scene.store.repository.atomic alike.working
    alike.refusals alike.files
  refine ⟨?_, enters.setting.trans (alike.toSameSetting.trans entersOther.setting.symm), ?_⟩
  · rw [enters.answer, entersOther.answer, ← alike.repository]
    exact entered.answer
  · rw [enters.files, entersOther.files, ← alike.repository]
    exact entered.tree

/-- In alike scenes an operation on one node does alike. -/
theorem Alike.perform (alike : scene.Alike other) (isTarget : scene.target? operation = some own) :
    (scene.perform operation).1 = (other.perform operation).1 ∧
      (scene.perform operation).2.Alike (other.perform operation).2 := by
  have setting := alike.toSameSetting
  have agree := alike.deferred own
  have entersOther := enters_perform ((setting.target?_eq operation).symm.trans isTarget)
  rw [← draft_congr setting isTarget agree] at entersOther
  obtain ⟨answer, after⟩ :=
    (enters_perform isTarget).congr entersOther (isDraft_draft isTarget) alike.toAlikeFiles
  refine ⟨answer, after, fun id => ?_⟩
  have mutates := (single_of_target? isTarget).1
  obtain ⟨change, isLocal, changed⟩ := local_bufferAfter isTarget (scene.perform operation).1
  rw [(scene.effect_perform mutates).deferred, (other.effect_perform mutates).deferred, ← answer,
    changed scene rfl (.refl _ _), changed other setting.graph.symm agree.symm]
  exact isLocal.congr id _ _ (alike.deferred id)

end Scene

end TraceStore
