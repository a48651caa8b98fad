import TraceStore.Proofs.Repository.Failures
import TraceStore.Proofs.Store.Promises

/-!
# What a failed write leaves behind

An operation that fails to write a node changes neither the buffer nor any file.  But the node was
cached before its record was written, and it stays cached: later lookups of its id find a node that
no record has.  `lookup_after_failed_write` says for which ids lookups answer as before: for those
that are buffered, and for those whose place in the cache has not changed, as long as the
directories that were made on the way do not change what is read.

`Store.get_fst` is the answer of a lookup in terms of the three places that it asks.
-/

namespace TraceStore

/-! ## What reading answers -/

namespace Repository

variable {repository : Repository} {site other : Site} {id path : String}

theorem wire_fst (graph : other.graph = site.graph) (node : NodeRef) (actions : List Action)
    (execution : ExecutionRef) :
    (wire other node actions execution).1 = (wire site node actions execution).1 := by
  rw [wire, wire, graph]
  split <;> rfl

theorem accept_fst (graph : other.graph = site.graph) (id path : String) (bytes : List UInt8)
    (record : Record.Decoded) (execution : ExecutionRef) :
    (accept other id path bytes record execution).1 =
      (accept site id path bytes record execution).1 := by
  rw [accept, accept]
  cases record.node with
  | none => rfl
  | some node =>
      refine wire_fst ?_ node _ execution
      rw [graph]
      split
      · exact graph
      · exact graph

/-- What reading answers depends on the graph and on the bytes in the record alone. -/
theorem read_fst (graph : other.graph = site.graph)
    (same : ∀ path, repository.path id = .ok path →
      other.files.read other.working path = site.files.read site.working path)
    (execution : ExecutionRef) :
    (repository.read other id execution).1 = (repository.read site id execution).1 := by
  rw [read, read]
  cases found : repository.path id with
  | error failure => rfl
  | ok path =>
      simp only [content, same path found, graph]
      split
      · rfl
      · split
        · rfl
        · apply accept_fst
          rfl

end Repository

/-! ## What a lookup answers -/

namespace Store

variable {store : Store} {site : Site} {node : NodeRef} {within : Route → Prop} {files : FileTree}

/-- The answer of a lookup that has read. -/
def answer : Except StoreError Loaded → Except StoreError (Option NodeRef)
  | .ok loaded => .ok (some loaded.node)
  | .error failure => if failure.isNotFound then .ok none else .error failure

/-- A lookup answers from the buffer, from the cache, or from the record. -/
theorem get_fst (store : Store) (site : Site) (id : String) :
    (store.get site id).1 =
      ((store.deferred.get? id).or (store.cache.peek id)).elim
        (answer (store.repository.read site id store.execution).1) fun node => .ok (some node) := by
  rw [get]
  cases store.deferred.get? id with
  | some node => rfl
  | none =>
      rw [Cache.request]
      cases store.cache.peek id with
      | some node => rfl
      | none =>
          simp only [fetch, Option.or_none, Option.elim_none]
          cases store.repository.read site id store.execution with
          | mk result after =>
              cases result with
              | ok loaded => rfl
              | error failure => cases missing : failure.isNotFound <;> simp [answer, missing]

/-- A node that was read is a new one. -/
theorem next_le_of_answer {id : String} {found : NodeRef}
    (answered : answer (store.repository.read site id store.execution).1 = .ok (some found)) :
    site.graph.next ≤ found := by
  have new := (Repository.read_frame store.repository site id store.execution).2
  cases result : (store.repository.read site id store.execution).1 with
  | ok loaded =>
      obtain rfl : loaded.node = found := by simpa [answer, result] using answered
      exact (new loaded result).1
  | error failure =>
      cases missing : failure.isNotFound <;> simp [answer, result, missing] at answered

/-- Where directories were made, reading answers as before only if it meets the same at the path of
the record. -/
theorem answer_eq_iff (grows : site.files.Grows within files) {events : List Event} (id : String) :
    answer (store.repository.read { site with files, events } id store.execution).1 =
        answer (store.repository.read site id store.execution).1 ↔
      ∀ path, store.repository.path id = .ok path →
        files.read site.working path = site.files.read site.working path := by
  constructor
  · intro equal path found
    by_cases missing : site.files.read site.working path = .error .missing
    · have before : answer (store.repository.read site id store.execution).1 = .ok none := by
        rw [Repository.read_of_missing found missing]
        rfl
      rw [before] at equal
      cases result : (store.repository.read { site with files, events } id store.execution).1 with
      | ok loaded => simp [result, answer] at equal
      | error failure =>
          have notFound : failure.isNotFound = true := by
            by_contra other
            simp [result, answer, other] at equal
          rcases Repository.missing_of_isNotFound result notFound with ⟨other, isOther, still⟩
          obtain rfl : path = other := Except.ok.inj (found.symm.trans isOther)
          exact still.trans missing.symm
    · exact FileTree.read_of_grows grows missing
  · intro same
    apply congrArg answer
    apply Repository.read_fst
    · rfl
    · exact same

/-! ## What is left -/

section Failed

variable {store' : Store} {site' : Site} {actions : List Action} {failure : StoreError}
  (sound : Scene.Sound ⟨store, site⟩)
  (wrote : Wrote store site node actions (.error failure, store', site'))

include wrote

/-- Neither the buffer nor a file is touched. -/
theorem Wrote.frame_of_error : store'.deferred = store.deferred ∧
    ∀ route content, site'.files.get? route = some (.file content) ↔
      site.files.get? route = some (.file content) := by
  cases wrote with
  | failed grows => exact ⟨rfl, grows.file_iff⟩

include sound

/-- The node is cached. -/
theorem Wrote.peek_own_of_error : store'.cache.peek (site.graph.node node).id = some node := by
  cases wrote with
  | failed grows => exact peek_caching sound.acyclic sound.cache.distinct node

/-- Of the other nodes in the cache, some may be gone that nothing reaches. -/
theorem Wrote.peek_other_of_error {id : String} (apart : (site.graph.node node).id ≠ id) :
    store'.cache.peek id = store.cache.peek id ∨ (store'.cache.peek id = none ∧
      ∀ kept, store.cache.peek id = some kept →
        site'.graph.reachable (Scene.roots ⟨store', site'⟩) kept = false) := by
  have distinct :=
    Cache.distinct_setSlot sound.cache.distinct (site.graph.node node).id (.filled node)
  cases wrote with
  | failed grows =>
      have trimmed := trimmed_caching sound.acyclic store node
      have same := Cache.peek_setSlot_other store.cache (.filled node) apart
      rw [← same]
      cases before : (store.cache.setSlot (site.graph.node node).id (.filled node)).peek id with
      | none =>
          refine .inl (Option.eq_none_iff_forall_ne_some.mpr ?_)
          intro kept still
          simp [trimmed.peek_of_peek distinct still] at before
      | some kept =>
          refine (trimmed.peek_or_unreached distinct before).imp_right fun gone => ⟨gone.2.1, ?_⟩
          intro other isOther
          obtain rfl := Option.some.inj isOther
          rw [Bool.eq_false_iff]
          exact fun reachable => gone.2.2 ((Graph.reachable_iff sound.acyclic _ _).mp reachable)

/-- Lookups answer as before for the ids that are buffered, and for those that have in the cache
what they had, if that is nothing then at the path of their record too. -/
theorem Wrote.get_fst_of_error (there : node < site.graph.next) (id : String) :
    (store'.get site' id).1 = (store.get site id).1 ↔
      store.deferred.contains id = true ∨
        (store'.cache.peek id = store.cache.peek id ∧
          (store.cache.peek id = none → ∀ path, store.repository.path id = .ok path →
            site'.files.read site'.working path = site.files.read site.working path)) := by
  cases wrote with
  | @failed _ files events grows =>
      have cached := (sound.caching there files events).cache.there
      rw [get_fst, get_fst]
      simp only [caching] at cached ⊢
      cases pending : store.deferred.get? id with
      | some buffered => simp [Deferred.contains, pending]
      | none =>
          simp only [Deferred.contains, pending, Option.none_or, Option.isSome_none,
            Bool.false_eq_true, false_or]
          cases later : (store.cache.insert site.graph (store.outside site) node).1.peek id with
          | some found =>
              cases earlier : store.cache.peek id with
              | some before => simp
              | none =>
                  -- what the lookup read before would be newer than anything in the cache
                  have old := cached found (Cache.mem_keeps_of_peek later)
                  simp only [Option.elim_some, Option.elim_none, reduceCtorEq, false_and, iff_false]
                  intro same
                  exact absurd old (Nat.not_lt_of_le (next_le_of_answer same.symm))
          | none =>
              cases earlier : store.cache.peek id with
              | some before =>
                  have old := sound.cache.there before (Cache.mem_keeps_of_peek earlier)
                  simp only [Option.elim_some, Option.elim_none, reduceCtorEq, false_and, iff_false]
                  intro same
                  exact absurd old (Nat.not_lt_of_le
                    (@next_le_of_answer store { site with files, events } id before same))
              | none => simpa using answer_eq_iff grows id

end Failed

end Store

/-! ## Runs -/

namespace History

/-- In every scene of a run, an operation on one node that fails leaves the buffer, the exemptions
and all files as they were.  Yet the node is cached, and other nodes may be dropped from the cache
which nothing reaches.  A lookup answers as before exactly if its id is buffered or has in the cache
what it had; if that is nothing, its record has to read as before too.

The system's refusals are those of a `Site`, which leave the file alone in both modes; a direct
write that a full disk stops once the file was emptied is not among them. -/
theorem lookup_after_failed_write (execution : ExecutionRef) (directory : String) (capacity : Nat)
    (direct : Bool) (files : FileTree) (working : Route) (operations : List Operation)
    (operation : Operation) (node : NodeRef) (failure : StoreError)
    (permitted : ((opened execution directory capacity direct files working).run
      operations).scene.permits operation = true)
    (mutates : operation.mutates = true) (isNode : operation.node? = some node)
    (failed : (((opened execution directory capacity direct files working).run
      operations).scene.perform operation).1 = .error failure) :
    let before := ((opened execution directory capacity direct files working).run operations).scene
    let after := (before.perform operation).2
    let own := (before.site.graph.node node).id
    after.store.deferred = before.store.deferred ∧
      (∀ route content, after.site.files.get? route = some (.file content) ↔
        before.site.files.get? route = some (.file content)) ∧
      after.store.cache.peek own = some node ∧
      (∀ id, own ≠ id → after.store.cache.peek id = before.store.cache.peek id ∨
        (after.store.cache.peek id = none ∧ ∀ kept, before.store.cache.peek id = some kept →
          after.site.graph.reachable after.roots kept = false)) ∧
      ∀ id, (after.store.get after.site id).1 = (before.store.get before.site id).1 ↔
        before.store.deferred.contains id = true ∨
          (after.store.cache.peek id = before.store.cache.peek id ∧
            (before.store.cache.peek id = none →
              ∀ path, before.store.repository.path id = .ok path →
                after.site.files.read after.site.working path =
                  before.site.files.read before.site.working path)) := by
  intro before after own
  have sound : before.Sound :=
    (kept_run execution directory capacity direct files working operations).sound
  have there := Scene.lt_of_permits sound permitted isNode
  rcases Scene.wrote_of_error mutates isNode failed with ⟨actions, wrote⟩
  rcases wrote.frame_of_error with ⟨deferred, same⟩
  exact ⟨deferred, same, wrote.peek_own_of_error sound,
    fun id apart => wrote.peek_other_of_error sound apart,
    fun id => wrote.get_fst_of_error sound there id⟩

/-- The disk is full, and the failed write of one node drops another one from the cache, so that a
later lookup reads a copy of it; a buffered node is found as before. -/
theorem lookup_after_write_to_full_disk :
    let operations : List Operation :=
      [.create ⟨"a", .held [], [], some 0⟩, .put 0 false, .drop 0,
        .create ⟨"b", .held [], [], some 0⟩, .create ⟨"c", .held [], [], some 0⟩, .put 2 true,
        .refuse [("d/b.json", .other "full")]]
    let before := ((opened 0 "d" 1 false {} []).run operations).scene
    let after := (before.perform (.put 1 false)).2
    (before.perform (.put 1 false)).1 = .error (.io (.other "full")) ∧
      after.store.deferred = before.store.deferred ∧
      (after.store.get after.site "c").1 = (before.store.get before.site "c").1 ∧
      (after.store.get after.site "a").1 ≠ (before.store.get before.site "a").1 := by
  intro operations before after
  have failed : (before.perform (.put 1 false)).1 = .error (.io (.other "full")) := by
    decide +kernel
  have dropped : after.store.cache.peek "a" ≠ before.store.cache.peek "a" := by decide +kernel
  have notBuffered : before.store.deferred.contains "a" ≠ true := by decide +kernel
  obtain ⟨deferred, -, -, -, answers⟩ := lookup_after_failed_write 0 "d" 1 false {} [] operations
    (.put 1 false) 1 (.io (.other "full")) (by decide +kernel) rfl rfl
    (by with_reducible exact failed)
  refine ⟨failed, deferred, (answers "c").mpr (.inl (by decide +kernel)), ?_⟩
  intro same
  exact ((answers "a").mp same).elim notBuffered fun unchanged => dropped unchanged.1

/-- A node that cannot be encoded is found after its write has failed, where nothing was found
before. -/
theorem unwritable_node_is_found :
    let before := ((opened 0 "d" 0 false {} []).run
      [.create ⟨"a", .held [], [.broken "refused"], some 0⟩]).scene
    let after := (before.perform (.put 0 false)).2
    before.permits (.put 0 false) = true ∧
      (before.perform (.put 0 false)).1 = .error (.codec "d/a.json" (.unwritable "refused")) ∧
      (before.store.get before.site "a").1 = .ok none ∧
      after.store.cache.peek "a" = some 0 ∧
      (after.store.get after.site "a").1 = .ok (some 0) := by
  intro before after
  exact ⟨by decide +kernel, by decide +kernel, by decide +kernel, by decide +kernel,
    by decide +kernel⟩

end History

end TraceStore
