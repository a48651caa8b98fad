import TraceStore.Proofs.Store.FailedWrites
import TraceStore.Proofs.Store.Trace

/-!
# What the buffer and the exemptions remember

The buffer and the set of exempt ids change independently, and an operation that fails half way has
changed neither.  Here both are told from the trace alone: an id is exempt if a write of it was put
off since its last autopersist, and its node is buffered if it was buffered since it was last
written out.  An id that is buffered is always exempt, so an operation that saves actions to disk
finds nothing in the buffer that could hide what it writes.
-/

namespace TraceStore

namespace Deed

variable {deed : Deed} {id : String} {node : NodeRef}

/-! ## What was done to an id -/

/-- The id of a node when the operation was begun. -/
def idOf (deed : Deed) (node : NodeRef) : String := (deed.before.site.graph.node node).id

/-- The write of a node was put off. -/
def Defers (id : String) (deed : Deed) : Prop :=
  ∃ node, deed.operation = .put node true ∧ deed.idOf node = id

/-- The exemption of an id was ended. -/
def Releases (id : String) (deed : Deed) : Prop :=
  ∃ node, deed.operation = .autopersist node ∧ deed.idOf node = id ∧ deed.Succeeds

/-- A node was buffered: its write was put off, or its actions were saved while it was exempt. -/
def Buffers (id : String) (node : NodeRef) (deed : Deed) : Prop :=
  deed.idOf node = id ∧ (deed.operation = .put node true ∨
    ∃ actions, deed.operation = .saveActions node actions ∧
      deed.before.store.deferred.isExempt id = true)

/-- The record of an id was written. -/
def Writes (id : String) (deed : Deed) : Prop :=
  deed.Succeeds ∧ id ∈ (deed.before.records deed.operation).map (·.1)

/-- The record of an id was written by an operation other than saving actions. -/
def WritesOut (id : String) (deed : Deed) : Prop :=
  deed.Writes id ∧ ∀ node actions, deed.operation ≠ .saveActions node actions

end Deed

/-! ## The buffer after an operation -/

namespace Scene

variable {scene : Scene}

/-- The buffer after an operation depends on how that ended, and on nothing else that came of it. -/
theorem deferred_perform (sound : scene.Sound) (operation : Operation) :
    (scene.perform operation).2.store.deferred =
      scene.bufferAfter operation (scene.perform operation).1 := by
  cases mutates : operation.mutates with
  | true => exact (scene.effect_perform mutates).deferred
  | false =>
      rw [(frame_of_not_mutates sound.acyclic mutates).1, bufferAfter_of_not_mutates mutates]

end Scene

/-! ## One step of the past -/

namespace Deed

variable {deed : Deed} {id : String} {node : NodeRef}

theorem deferred_after (sound : deed.before.Sound) :
    deed.after.store.deferred = deed.before.bufferAfter deed.operation deed.result :=
  Scene.deferred_perform sound deed.operation

/-- An operation that puts a write off does not fail. -/
theorem result_of_put (isPut : deed.operation = .put node true) : deed.result = .ok () := by
  rw [result, isPut]
  rfl

theorem result_of_exempt {actions : List Action}
    (isSave : deed.operation = .saveActions node actions)
    (exempt : deed.before.store.deferred.isExempt (deed.idOf node) = true) :
    deed.result = .ok () := by
  rw [idOf] at exempt
  rw [result, isSave]
  simp [Scene.perform, Store.saveActions, exempt]

theorem get?_of_buffers (sound : deed.before.Sound) (buffers : deed.Buffers id node) :
    deed.after.store.deferred.get? id = some node := by
  rcases buffers with ⟨rfl, isPut | ⟨actions, isSave, exempt⟩⟩
  · rw [deferred_after sound, result_of_put isPut, isPut]
    simp [Scene.bufferAfter, idOf]
  · rw [deferred_after sound, result_of_exempt isSave exempt, isSave]
    rw [idOf] at exempt ⊢
    simp [Scene.bufferAfter, exempt]

/-- Nothing is buffered for an id whose record was just written. -/
theorem get?_of_writes (sound : deed.before.Sound) (writes : deed.Writes id) :
    deed.after.store.deferred.get? id = none := by
  rcases writes with ⟨succeeds, isRecord⟩
  rw [deferred_after sound, succeeds, sound.get?_bufferAfter, if_pos isRecord]

/-- Saving actions writes to disk only while nothing is buffered for the id. -/
theorem not_buffered_of_saves (sound : deed.before.Sound) (writes : deed.Writes id)
    (notWritesOut : ¬ deed.WritesOut id) : deed.before.store.deferred.get? id = none := by
  rcases deed with ⟨scene, operation⟩
  obtain ⟨node, actions, rfl⟩ : ∃ node actions, operation = .saveActions node actions := by
    by_contra notSave
    push Not at notSave
    exact notWritesOut ⟨writes, notSave⟩
  have isRecord := writes.2
  simp only [Scene.records] at isRecord
  split at isRecord
  · simp at isRecord
  · next notExempt =>
      obtain rfl : id = (scene.site.graph.node node).id := by simpa using isRecord
      rw [Option.eq_none_iff_forall_ne_some]
      intro buffered found
      exact notExempt (sound.deferred.exempt _ buffered found)

/-- A node that is accepted without a record is buffered. -/
theorem buffers_of_accepts? (accepted : deed.before.accepts? deed.operation = some node)
    (notRecord : deed.idOf node ∉ (deed.before.records deed.operation).map (·.1)) :
    deed.Buffers (deed.idOf node) node := by
  rcases deed with ⟨scene, operation⟩
  have isNode := Scene.node?_of_accepts? accepted
  cases operation with
  | put other later =>
      obtain rfl : other = node := by simpa [Operation.node?] using isNode
      cases later with
      | true => exact ⟨rfl, .inl rfl⟩
      | false => simp [Scene.records, Scene.ownRecord, idOf] at notRecord
  | autopersist other =>
      obtain rfl : other = node := by simpa [Operation.node?] using isNode
      simp only [Scene.accepts?] at accepted
      split at accepted
      · next buffered => simp [Scene.records, Scene.ownRecord, idOf, buffered] at notRecord
      · simp at accepted
  | flushNode other =>
      obtain rfl : other = node := by simpa [Operation.node?] using isNode
      simp [Scene.records, Scene.ownRecord, idOf] at notRecord
  | saveActions other actions =>
      obtain rfl : other = node := by simpa [Operation.node?] using isNode
      refine ⟨rfl, .inr ⟨actions, rfl, ?_⟩⟩
      by_contra notExempt
      rw [idOf] at notExempt
      simp [Scene.records, idOf, notExempt] at notRecord
  | flush | get _ | loadActions _ | reclaim | create _ | attach _ _ | hold _ | drop _ | start _
  | stop _ | refuse _ => simp [Scene.accepts?] at accepted

/-- An operation that neither buffers nor writes out a node of an id leaves its buffered node. -/
theorem get?_of_neither (sound : deed.before.Sound) (notBuffers : ∀ node, ¬ deed.Buffers id node)
    (notWritesOut : ¬ deed.WritesOut id) :
    deed.after.store.deferred.get? id = deed.before.store.deferred.get? id := by
  by_cases writes : deed.Writes id
  · rw [get?_of_writes sound writes, not_buffered_of_saves sound writes notWritesOut]
  rw [deferred_after sound]
  cases ended : deed.result with
  | error failure => rfl
  | ok _ =>
      have notRecord : id ∉ (deed.before.records deed.operation).map (·.1) :=
        fun isRecord => writes ⟨ended, isRecord⟩
      have notAccepted : (deed.before.accepts? deed.operation).filter (fun node =>
          (deed.before.site.graph.node node).id = id) = none := by
        rw [Option.filter_eq_none_iff]
        intro node accepted own
        obtain rfl : deed.idOf node = id := of_decide_eq_true own
        exact notBuffers node (buffers_of_accepts? accepted notRecord)
      rw [sound.get?_bufferAfter, if_neg notRecord, notAccepted, Option.none_or]

/-! ### Exemptions -/

theorem isExempt_of_defers (sound : deed.before.Sound) (defers : deed.Defers id) :
    deed.after.store.deferred.isExempt id = true := by
  rcases defers with ⟨node, isPut, rfl⟩
  rw [deferred_after sound, result_of_put isPut, isPut]
  simp [Scene.bufferAfter, idOf, Deferred.isExempt_defer]

theorem isExempt_of_releases (sound : deed.before.Sound) (releases : deed.Releases id) :
    deed.after.store.deferred.isExempt id = false := by
  rcases releases with ⟨node, isAutopersist, rfl, succeeds⟩
  rw [deferred_after sound, succeeds, isAutopersist]
  simp [Scene.bufferAfter, idOf, Deferred.isExempt_release]

/-- An operation that neither puts off a write of an id nor ends its exemption leaves it exempt or
not. -/
theorem isExempt_of_neither (sound : deed.before.Sound) (notDefers : ¬ deed.Defers id)
    (notReleases : ¬ deed.Releases id) :
    deed.after.store.deferred.isExempt id = deed.before.store.deferred.isExempt id := by
  rw [deferred_after sound]
  cases ended : deed.result with
  | error failure => rfl
  | ok _ =>
      rcases deed with ⟨scene, operation⟩
      cases operation with
      | put node later =>
          cases later with
          | true =>
              have apart : (scene.site.graph.node node).id ≠ id := by
                intro same
                exact notDefers ⟨node, rfl, same⟩
              simp [Scene.bufferAfter, Deferred.isExempt_defer, apart]
          | false => simp [Scene.bufferAfter]
      | autopersist node =>
          have apart : (scene.site.graph.node node).id ≠ id := by
            intro same
            exact notReleases ⟨node, rfl, same, ended⟩
          simp [Scene.bufferAfter, Deferred.isExempt_release, apart]
      | flushNode node => simp [Scene.bufferAfter]
      | flush => rfl
      | saveActions node actions =>
          simp only [Scene.bufferAfter]
          split
          · simp
          · rfl
      | get _ | loadActions _ | reclaim | create _ | attach _ _ | hold _ | drop _ | start _ | stop _
      | refuse _ => rfl

end Deed

/-! ## The whole past -/

namespace Deed

variable {deed : Deed} {id : String} {node : NodeRef}

/-- What an operation does to the exemption of an id. -/
theorem isExempt_iff (sound : deed.before.Sound) (id : String) :
    deed.after.store.deferred.isExempt id = true ↔
      deed.Defers id ∨ (deed.before.store.deferred.isExempt id = true ∧ ¬ deed.Releases id) := by
  by_cases defers : deed.Defers id
  · simp [defers, isExempt_of_defers sound defers]
  · by_cases releases : deed.Releases id
    · simp [defers, releases, isExempt_of_releases sound releases]
    · simp [defers, releases, isExempt_of_neither sound defers releases]

/-- What an operation does to there being a buffered node of an id. -/
theorem contains_iff (sound : deed.before.Sound) (id : String) :
    deed.after.store.deferred.contains id = true ↔ (∃ node, deed.Buffers id node) ∨
      (deed.before.store.deferred.contains id = true ∧ ¬ deed.WritesOut id) := by
  by_cases buffers : ∃ node, deed.Buffers id node
  · rcases buffers with ⟨node, isBuffered⟩
    have found := get?_of_buffers sound isBuffered
    simp only [Deferred.contains, found, Option.isSome_some, true_iff]
    exact .inl ⟨node, isBuffered⟩
  · by_cases writesOut : deed.WritesOut id
    · simp [buffers, writesOut, Deferred.contains, get?_of_writes sound writesOut.1]
    · have same := get?_of_neither sound (not_exists.mp buffers) writesOut
      simp [buffers, writesOut, Deferred.contains, same]

/-- What an operation does to the buffered node of an id.  Saving actions to disk counts as a write
here. -/
theorem get?_iff (sound : deed.before.Sound) (id : String) (node : NodeRef) :
    deed.after.store.deferred.get? id = some node ↔ deed.Buffers id node ∨
      (deed.before.store.deferred.get? id = some node ∧
        ¬ (deed.Writes id ∨ ∃ other, other ≠ node ∧ deed.Buffers id other)) := by
  by_cases buffers : ∃ other, deed.Buffers id other
  case pos =>
    rcases buffers with ⟨other, isBuffered⟩
    rw [get?_of_buffers sound isBuffered, Option.some_inj]
    constructor
    · rintro rfl
      exact .inl isBuffered
    · rintro (again | ⟨-, notOther⟩)
      · have found := get?_of_buffers sound again
        rwa [get?_of_buffers sound isBuffered, Option.some_inj] at found
      · by_contra apart
        exact notOther (.inr ⟨other, apart, isBuffered⟩)
  case neg =>
    have notBuffers := not_exists.mp buffers
    by_cases writes : deed.Writes id
    · simp [get?_of_writes sound writes, notBuffers, writes]
    · have notWritesOut : ¬ deed.WritesOut id := fun writesOut => writes writesOut.1
      simp [get?_of_neither sound notBuffers notWritesOut, notBuffers, writes]

/-- Saving actions that reaches the disk leaves nothing buffered for the id, so the node that was
saved is what the next lookup gives. -/
theorem get_after_save (sound : deed.before.Sound) {actions : List Action}
    (isSave : deed.operation = .saveActions node actions) (writes : deed.Writes (deed.idOf node)) :
    deed.after.store.deferred.get? (deed.idOf node) = none ∧
      (deed.after.store.get deed.after.site (deed.idOf node)).1 = .ok (some node) := by
  have notWritesOut : ¬ deed.WritesOut (deed.idOf node) :=
    fun writesOut => writesOut.2 node actions isSave
  have notBuffered := not_buffered_of_saves sound writes notWritesOut
  rcases deed with ⟨⟨store, site⟩, operation⟩
  subst isSave
  rcases writes with ⟨succeeds, isRecord⟩
  simp only [idOf, Scene.records] at isRecord notBuffered ⊢
  split at isRecord
  · simp at isRecord
  · next notExempt =>
      simp only [Succeeds, result, after, Scene.perform, Store.saveActions, if_neg notExempt]
        at succeeds ⊢
      have wrote := Store.writeNode_wrote store site node actions
      generalize store.writeNode site node actions = outcome at wrote succeeds
      cases wrote with
      | done _ =>
          refine ⟨notBuffered, ?_⟩
          have cached := Store.peek_caching sound.acyclic sound.cache.distinct node
          rw [Store.get_fst, cached]
          simp [Store.caching, notBuffered]
      | failed _ => simp at succeeds

end Deed

namespace Trace

/-- What a trace remembers of the buffer and the exemptions of its scene. -/
structure Remembers (trace : Trace) : Prop where
  sound : trace.scene.Sound
  exempt : ∀ id, trace.scene.store.deferred.isExempt id = true ↔
    Since (Deed.Defers id) (Deed.Releases id) trace.deeds
  pending : ∀ id, trace.scene.store.deferred.contains id = true ↔
    Since (fun deed => ∃ node, deed.Buffers id node) (Deed.WritesOut id) trace.deeds
  buffered : ∀ id node, trace.scene.store.deferred.get? id = some node ↔
    Since (Deed.Buffers id node)
      (fun deed => deed.Writes id ∨ ∃ other, other ≠ node ∧ deed.Buffers id other) trace.deeds

theorem remembers_run (execution : ExecutionRef) (directory : String) (capacity : Nat)
    (direct : Bool) (files : FileTree) (working : Route) (turns : List Turn) :
    ((opened execution directory capacity direct files working).run turns).Remembers := by
  apply run_induction
  case initial =>
    constructor
    case sound => exact Scene.sound_opened execution directory capacity direct files working
    case exempt =>
      intro id
      simp [opened, Scene.opened, Store.opened, Deferred.isExempt, not_since_nil]
    case pending =>
      intro id
      simp [opened, Scene.opened, Store.opened, Deferred.contains, Deferred.get?, not_since_nil]
    case buffered =>
      intro id node
      simp [opened, Scene.opened, Store.opened, Deferred.get?, not_since_nil]
  case own =>
    intro trace operation remembers permitted
    have sound : (Deed.mk trace.scene operation).before.Sound := remembers.sound
    constructor
    case sound => exact (Scene.sound_perform remembers.sound permitted).1
    case exempt =>
      intro id
      rw [since_concat, ← remembers.exempt]
      exact Deed.isExempt_iff sound id
    case pending =>
      intro id
      rw [since_concat, ← remembers.pending]
      exact Deed.contains_iff sound id
    case buffered =>
      intro id node
      rw [since_concat, ← remembers.buffered]
      exact Deed.get?_iff sound id node
  case others =>
    intro trace files remembers
    exact ⟨sound_changing remembers.sound files, remembers.exempt, remembers.pending,
      remembers.buffered⟩

/-- After any run, whichever operations failed and whatever others did to the files: a buffered id
is exempt; an id is exempt exactly if a write of it was put off since its last autopersist that
succeeded; an id is buffered exactly if it was buffered since its record was last written out, and
its node is the one that was buffered last.  So what is buffered for an id is never older than its
record, and actions that are saved to disk are found by the next lookup. -/
theorem buffer_remembers_trace (execution : ExecutionRef) (directory : String) (capacity : Nat)
    (direct : Bool) (files : FileTree) (working : Route) (turns : List Turn) (id : String) :
    let trace := (opened execution directory capacity direct files working).run turns
    let deferred := trace.scene.store.deferred
    (deferred.contains id = true → deferred.isExempt id = true) ∧
    (deferred.isExempt id = true ↔ Since (Deed.Defers id) (Deed.Releases id) trace.deeds) ∧
    (deferred.contains id = true ↔
      Since (fun deed => ∃ node, deed.Buffers id node) (Deed.WritesOut id) trace.deeds) ∧
    (∀ node, deferred.get? id = some node ↔ Since (Deed.Buffers id node)
      (fun deed => deed.Writes id ∨ ∃ other, other ≠ node ∧ deed.Buffers id other) trace.deeds) ∧
    ∀ node actions, (trace.scene.site.graph.node node).id = id →
      (Deed.mk trace.scene (.saveActions node actions)).Writes id →
      let after := (trace.scene.perform (.saveActions node actions)).2
      after.store.deferred.contains id = false ∧
        (after.store.get after.site id).1 = .ok (some node) := by
  intro trace deferred
  have remembers : trace.Remembers :=
    remembers_run execution directory capacity direct files working turns
  refine ⟨?covered, remembers.exempt id, remembers.pending id, remembers.buffered id, ?saved⟩
  case covered =>
    intro pending
    rcases (Deferred.contains_eq_true_iff deferred id).mp pending with ⟨node, found⟩
    exact remembers.sound.deferred.exempt id node found
  case saved =>
    intro node actions named writes
    subst named
    have sound : (Deed.mk trace.scene (.saveActions node actions)).before.Sound := remembers.sound
    rcases Deed.get_after_save sound rfl writes with ⟨notBuffered, found⟩
    refine ⟨?_, found⟩
    rw [Deferred.contains, Option.isSome_eq_false_iff, Option.isNone_iff_eq_none]
    exact notBuffered

end Trace

end TraceStore
