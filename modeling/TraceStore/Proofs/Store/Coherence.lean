import TraceStore.Proofs.Store.Steadiness

/-!
# Lookups see what was accepted last

As long as no write fails, a lookup finds a node for exactly the ids for which one was accepted, and
what it finds has the id and the parent ids of the one accepted last.  It is that very node as long
as anything still refers to it, whatever the cache has dropped in the meantime.

The cache may be behind the buffer, but never behind the records: `History.Coherent` says of every
id that is not buffered that cache and directory have what was accepted last for it, or nothing if
nothing was.
-/

namespace TraceStore

open TraceStore.Graph (Reaches)

namespace History

/-- Every id is answered with what was accepted last for it. -/
structure Coherent (place : Route) (history : History) : Prop where
  kept : history.Kept
  home : history.scene.site.files.Home history.scene.site.working
    history.scene.store.repository.directory place
  unknown : ∀ id, history.ledger.accepted id = none →
    history.scene.store.deferred.get? id = none ∧ history.scene.Lacks place id
  known : ∀ id node, history.ledger.accepted id = some node →
    history.scene.store.deferred.get? id = none → history.scene.Coheres id node

variable {history : History} {after : Scene} {ledger : Ledger} {place : Route} {id : String}
  {node : NodeRef}

/-- It is enough to see what a step does to each id: it leaves the id alone, or it is known
afterwards that the last node of the id is buffered or cached. -/
theorem Coherent.step (coherent : history.Coherent place) (kept : Kept ⟨after, ledger⟩)
    (home : after.site.files.Home after.site.working after.store.repository.directory place)
    (each : ∀ id,
      (ledger.accepted id = history.ledger.accepted id ∧
        after.store.deferred.get? id = history.scene.store.deferred.get? id ∧
        Scene.Steady place id history.scene after) ∨
      ∃ node, ledger.accepted id = some node ∧
        (after.store.deferred.get? id = none → after.Coheres id node)) :
    Coherent place ⟨after, ledger⟩ where
  kept := kept
  home := home
  unknown id notAccepted := by
    rcases each id with ⟨accepted, pending, steady⟩ | ⟨node, accepted, -⟩
    · rcases coherent.unknown id (accepted ▸ notAccepted) with ⟨notPending, lacks⟩
      exact ⟨pending.trans notPending, lacks.of_steady steady⟩
    · exact absurd (notAccepted.symm.trans accepted) (by simp)
  known id node isAccepted notPending := by
    rcases each id with ⟨accepted, pending, steady⟩ | ⟨other, accepted, coheres⟩
    · have wasAccepted : history.ledger.accepted id = some node := accepted ▸ isAccepted
      exact (coherent.known id node wasAccepted (pending ▸ notPending)).of_steady
        coherent.kept.sound (coherent.kept.keeps id node wasAccepted).there steady
    · obtain rfl : node = other := Option.some.inj (isAccepted.symm.trans accepted)
      exact coheres notPending

/-- A step that has written a node, and has accepted it. -/
theorem Coherent.saved (coherent : history.Coherent place) (kept : Kept ⟨after, ledger⟩)
    (saved : Scene.Saved place node history.scene after)
    (pending : ∀ other, (history.scene.site.graph.node node).id ≠ other →
      after.store.deferred.get? other = history.scene.store.deferred.get? other)
    (accepted : ∀ other, ledger.accepted other =
      if other = (history.scene.site.graph.node node).id then some node
      else history.ledger.accepted other) :
    Coherent place ⟨after, ledger⟩ := by
  apply coherent.step kept saved.home
  intro id
  by_cases own : id = (history.scene.site.graph.node node).id
  · subst own
    refine .inr ⟨node, by rw [accepted, if_pos rfl], ?_⟩
    intro _
    exact Scene.coheres_of_peek saved.own (by rw [saved.graph])
  · exact .inl ⟨by rw [accepted, if_neg own], pending id (Ne.symm own),
      saved.others id (Ne.symm own)⟩

section Steps

variable {store store' : Store} {site site' : Site}

theorem coherent_flush (coherent : Coherent place ⟨⟨store, site⟩, ledger⟩) {events : List Event}
    (written : store.writeNodes site store.deferred.nodes = (.ok (), store', site'))
    {ledger' : Ledger} (same : ledger'.accepted = ledger.accepted)
    (kept : Kept ⟨⟨{ store' with deferred := store.deferred.clear }, { site' with events }⟩,
      ledger'⟩) :
    Coherent place
      ⟨⟨{ store' with deferred := store.deferred.clear }, { site' with events }⟩, ledger'⟩ := by
  have sound := coherent.kept.sound
  obtain ⟨between, home, graph, deferred, cached, others⟩ :=
    Scene.emptying_writeNodes sound coherent.home written
  apply coherent.step kept home
  intro id
  cases pending : store.deferred.get? id with
  | some buffered =>
      have accepted : ledger.accepted id = some buffered := by
        cases isAccepted : ledger.accepted id with
        | none => simpa [pending] using (coherent.unknown id isAccepted).1
        | some node =>
            rw [(coherent.kept.keeps id node isAccepted).buffered buffered pending]
      have named := sound.deferred.named id buffered pending
      have member := (Deferred.mem_nodes_iff sound.deferred.ascending buffered).mpr ⟨id, pending⟩
      refine .inr ⟨buffered, by rw [same, accepted], ?_⟩
      intro _
      refine Scene.coheres_of_peek ?_ (by rw [← named, ← graph])
      rw [← named]
      exact (cached buffered member).resolve_left (by simp)
  | none =>
      refine .inl ⟨by rw [same], by simp, (others id pending).trans sound ?_⟩
      apply Scene.steady_of_deferred between
      intro root member
      exact List.mem_append_left _ (by simpa [Deferred.clear, Deferred.nodes] using member)

/-- Every effect of an operation that succeeds keeps the answers. -/
theorem coherent_of_effect (coherent : history.Coherent place) {operation : Operation}
    (held : ∀ node, operation.node? = some node → node ∈ history.scene.site.held)
    (effect : history.scene.Effect operation (.ok (), after))
    (kept : Kept ⟨after, history.ledger.after history.scene operation (.ok ())⟩) :
    Coherent place ⟨after, history.ledger.after history.scene operation (.ok ())⟩ := by
  have sound := coherent.kept.sound
  have pending := sound.get?_bufferAfter operation
  have outside := sound.outside_bufferAfter held
  cases effect with
  | buffers nothing buffer =>
      simp only [← buffer, nothing] at pending outside
      apply coherent.step kept coherent.home
      intro id
      cases accepted : history.scene.accepts? operation with
      | none =>
          refine .inl ⟨?_, ?_, ?_⟩
          · simp [Ledger.after, accepted, Ledger.write]
          · simp [pending, accepted]
          · exact Scene.steady_of_deferred sound outside id
      | some node =>
          rw [history.ledger.after_of_accepts accepted]
          by_cases own : id = (history.scene.site.graph.node node).id
          · subst own
            refine .inr ⟨node, by simp [Ledger.accept], ?_⟩
            simp [pending, accepted, Option.filter_some]
          · refine .inl ⟨?_, ?_, ?_⟩
            · simp [Ledger.accept, Ledger.write, own]
            · simp [pending, accepted, Option.filter_some, Ne.symm own]
            · exact Scene.steady_of_deferred sound outside id
  | @writes node _ _ store' site' deferred accepted own written buffer =>
      have wrote := Store.wrote_of_eq written
      have isHeld := held node (Scene.node?_of_accepts? accepted)
      have saved := Scene.saved_of_wrote sound coherent.home (List.mem_append_left _ isHeld) wrote
      simp only [← buffer, own, accepted] at pending outside
      refine coherent.saved kept (saved.withDeferred sound
        (sound.wrote (sound.held node isHeld) wrote) ?_) ?_ ?_
      · cases wrote with
        | done _ => exact outside
      · intro other apart
        simp [pending, Option.filter_some, apart, Ne.symm apart]
      · intro other
        rw [history.ledger.after_of_accepts accepted]
        rfl
  | flushes isFlush written buffer =>
      subst isFlush buffer
      exact coherent_flush coherent written rfl kept

/-- A node that a lookup loads is a copy of the node accepted last, which is out of reach. -/
theorem coheres_of_loaded (coherent : Coherent place ⟨⟨store, site⟩, ledger⟩)
    (isAccepted : ledger.accepted id = some node) (notPending : store.deferred.get? id = none)
    (notCached : store.cache.peek id = none) {loaded : Loaded} {events : List Event}
    (read : store.repository.read site id store.execution =
      (.ok loaded, { site with graph := after.site.graph, events }))
    (cached : after.store.cache.peek id = some loaded.node)
    (reaches : ∀ node < site.graph.next, Reaches after.site.graph after.roots node →
      Reaches site.graph (Scene.roots ⟨store, site⟩) node) : after.Coheres id node := by
  have keeps := coherent.kept.keeps id node isAccepted
  rcases keeps.recorded notPending with ⟨bytes, stored, encoded⟩
  obtain ⟨woken, created, reports, result, named, links⟩ :=
    Repository.read_stored stored encoded store.execution
  obtain ⟨rfl, surroundings⟩ : loaded = ⟨site.graph.next, woken⟩ ∧
      { site with graph := after.site.graph, events } =
        { site with graph := site.graph.add created, events := reports } := by
    simpa [read] using result
  have graph : after.site.graph = site.graph.add created := congrArg Site.graph surroundings
  have isNew : (site.graph.add created).node site.graph.next = created := by
    simp [Graph.node, Graph.add, Graph.next]
  constructor
  · intro other isOther
    obtain rfl : site.graph.next = other := by simpa [cached] using isOther
    rw [graph, isNew, links, (Graph.Keeps.add site.graph created).parentIds_eq
      coherent.kept.sound.acyclic keeps.there]
    exact ⟨named, rfl⟩
  · intro reached
    have alive := (coherent.known id node isAccepted notPending).alive
      (reaches node keeps.there reached)
    simp [notCached] at alive

theorem coherent_get (coherent : Coherent place ⟨⟨store, site⟩, ledger⟩)
    {result : Except StoreError (Option NodeRef)}
    (looked : Store.Looked store site id (result, store', site')) {ledger' : Ledger}
    (same : ledger'.accepted = ledger.accepted)
    (pending : store'.deferred = store.deferred)
    (kept : Kept ⟨⟨store', { site' with held := site'.held ++ Scene.given result }⟩, ledger'⟩)
    (home : site'.files.Home site'.working store'.repository.directory place) :
    Coherent place
      ⟨⟨store', { site' with held := site'.held ++ Scene.given result }⟩, ledger'⟩ := by
  apply coherent.step kept home
  intro other
  obtain steady | ⟨rfl, notCached, loaded, events, read, cached, reaches⟩ :=
    Scene.steady_or_loaded place coherent.kept.sound looked other
  · exact .inl ⟨by rw [same], by rw [pending], steady⟩
  · cases isAccepted : ledger.accepted other with
    | none =>
        rcases Repository.stored_of_read read with ⟨bytes, stored⟩
        have there := stored.get?_eq coherent.home
        simp [(coherent.unknown other isAccepted).2.free] at there
    | some node =>
        refine .inr ⟨node, by rw [same, isAccepted], ?_⟩
        intro notPending
        rw [pending] at notPending
        exact coheres_of_loaded coherent isAccepted notPending notCached read cached reaches

end Steps

/-- Every step that does not fail to write keeps the answers. -/
theorem coherent_perform (coherent : history.Coherent place) (operation : Operation)
    (permitted : history.scene.permits operation = true)
    (succeeded : operation.mutates = true → (history.scene.perform operation).1 = .ok ()) :
    Coherent place ⟨(history.scene.perform operation).2,
      history.ledger.after history.scene operation (history.scene.perform operation).1⟩ := by
  have kept := kept_perform coherent.kept permitted
  have held (node : NodeRef) : operation.node? = some node → node ∈ history.scene.site.held :=
    Scene.held_of_permits permitted
  rcases history with ⟨⟨store, site⟩, ledger⟩
  cases mutates : operation.mutates with
  | false =>
      obtain ⟨accepted, -⟩ := ledger.after_of_not_mutates ⟨store, site⟩ mutates
        (Scene.perform ⟨store, site⟩ operation).1
      obtain ⟨deferred, repository, working, files⟩ :=
        Scene.frame_of_not_mutates coherent.kept.sound.acyclic mutates
      have home : (Scene.perform ⟨store, site⟩ operation).2.site.files.Home
          (Scene.perform ⟨store, site⟩ operation).2.site.working
          (Scene.perform ⟨store, site⟩ operation).2.store.repository.directory place := by
        rw [files, working, repository]
        exact coherent.home
      cases operation with
      | get id =>
          exact coherent_get coherent (Store.get_looked coherent.kept.sound.acyclic store id)
            accepted deferred kept home
      | put _ _ | autopersist _ | flushNode _ | flush | saveActions _ _ =>
          simp [Operation.mutates] at mutates
      | loadActions _ | reclaim | create _ | attach _ _ | hold _ | drop _ | start _ | stop _
      | refuse _ =>
          refine coherent.step kept home fun other => .inl ⟨by rw [accepted], by rw [deferred], ?_⟩
          exact Scene.steady_of_idle coherent.kept.sound permitted mutates (by simp)
  | true =>
      have result := succeeded mutates
      have effect := Scene.effect_perform ⟨store, site⟩ mutates
      generalize Scene.perform ⟨store, site⟩ operation = outcome at effect result kept
      rcases outcome with ⟨_, after⟩
      obtain rfl := result
      exact coherent_of_effect coherent held effect kept

theorem failures_of_after {scene : Scene} {operation : Operation} {result : Except StoreError Unit}
    (none : (ledger.after scene operation result).failures = []) :
    ledger.failures = [] ∧ (operation.mutates = true → result = .ok ()) := by
  cases result with
  | ok _ =>
      refine ⟨?_, fun _ => rfl⟩
      cases accepted : scene.accepts? operation <;>
        simpa [Ledger.after, accepted, Ledger.accept, Ledger.write] using none
  | error failure => cases mutates : operation.mutates <;> simp_all [Ledger.after]

theorem coherent_opened {files : FileTree} {working : Route} {directory : String}
    (home : files.Home working directory place)
    (empty : ∀ name, files.get? (place ++ [name]) = none)
    (execution : ExecutionRef) (capacity : Nat) (direct : Bool) :
    Coherent place (opened execution directory capacity direct files working) where
  kept := kept_opened execution directory capacity direct files working
  home := home
  unknown id _ := ⟨rfl, rfl, empty _⟩
  known id node accepted := by simp [opened] at accepted

theorem coherent_run {files : FileTree} {working : Route} {directory : String}
    (home : files.Home working directory place)
    (empty : ∀ name, files.get? (place ++ [name]) = none)
    (execution : ExecutionRef) (capacity : Nat) (direct : Bool) (operations : List Operation)
    (succeeded : ((opened execution directory capacity direct files working).run
      operations).ledger.failures = []) :
    Coherent place ((opened execution directory capacity direct files working).run operations) := by
  refine run_induction (motive := fun history => history.ledger.failures = [] →
    Coherent place history) (fun _ => coherent_opened home empty execution capacity direct) ?_
    operations succeeded
  intro history operation coherent permitted none
  rcases failures_of_after none with ⟨earlier, succeeded⟩
  exact coherent_perform (coherent earlier) operation permitted succeeded

/-- What a lookup gives for an id for which no node was accepted. -/
theorem Coherent.get_unknown (coherent : history.Coherent place)
    (notAccepted : history.ledger.accepted id = none)
    (admits : history.scene.store.repository.Admits id) :
    (history.scene.store.get history.scene.site id).1 = .ok none := by
  rcases history with ⟨⟨store, site⟩, ledger⟩
  rcases coherent.unknown id notAccepted with ⟨notPending, notCached, free⟩
  obtain ⟨path, missing⟩ :=
    Repository.read_of_free coherent.home admits free store.execution
  have looked := Store.get_looked coherent.kept.sound.acyclic store id
  simp only at notPending notCached ⊢
  generalize store.get site id = outcome at looked ⊢
  cases looked with
  | buffered pending => simp [notPending] at pending
  | cached _ found _ => simp [notCached] at found
  | loaded _ _ read _ => simp [missing] at read
  | refused _ _ read _ =>
      rcases Prod.mk.inj (missing.symm.trans read) with ⟨failed, -⟩
      obtain rfl := Except.error.inj failed
      rfl

/-- What a lookup gives for an id for which a node was accepted. -/
theorem Coherent.get_known (coherent : history.Coherent place)
    (isAccepted : history.ledger.accepted id = some node) :
    ∃ found, (history.scene.store.get history.scene.site id).1 = .ok (some found) ∧
      let graph := (history.scene.store.get history.scene.site id).2.2.graph
      (graph.node found).id = id ∧
        graph.parentIds (graph.node found).links = graph.parentIds (graph.node node).links ∧
        (Reaches history.scene.site.graph history.scene.roots node → found = node) := by
  rcases history with ⟨⟨store, site⟩, ledger⟩
  have keeps := coherent.kept.keeps id node isAccepted
  have known := coherent.known id node isAccepted
  -- the lookup is a step itself, so what it loads is in a coherent cache
  have later := coherent_perform coherent (.get id) rfl (by simp [Operation.mutates])
  have looked := Store.get_looked coherent.kept.sound.acyclic store id
  simp only [Scene.perform] at known later ⊢
  generalize store.get site id = outcome at looked later ⊢
  cases looked with
  | @buffered found pending =>
      obtain rfl := keeps.buffered found pending
      exact ⟨found, rfl, keeps.named, rfl, fun _ => rfl⟩
  | @cached found cache notPending isCached same =>
      rcases known notPending with ⟨like, alive⟩
      rcases like found isCached with ⟨named, parents⟩
      refine ⟨found, rfl, named, parents, ?_⟩
      intro reached
      exact Option.some.inj (isCached.symm.trans (alive reached))
  | @loaded loaded cache graph events reports notPending notCached read trimmed =>
      have isCached := trimmed.peek_filled coherent.kept.sound.cache.distinct
      rcases (later.known id node isAccepted notPending).like _ isCached with ⟨named, parents⟩
      refine ⟨loaded.node, rfl, named, parents, ?_⟩
      intro reached
      have alive := (known notPending).alive reached
      simp [notCached] at alive
  | refused notPending notCached read slots =>
      rcases keeps.recorded notPending with ⟨bytes, stored, encoded⟩
      obtain ⟨woken, created, reports, result, -⟩ :=
        Repository.read_stored stored encoded store.execution
      simp [result] at read

/-- Over every run in which no write fails, started over a directory without entries, a lookup of an
id that can be addressed finds nothing exactly if no node was accepted for the id.  Otherwise it
finds a node with the id and the parent ids of the one accepted last, and that very node as long as
anything keeps it alive. -/
theorem lookup_finds_accepted_node (execution : ExecutionRef) (directory : String) (capacity : Nat)
    (direct : Bool) (files : FileTree) (working place : Route)
    (home : files.Home working directory place)
    (empty : ∀ name, files.get? (place ++ [name]) = none)
    (operations : List Operation)
    (succeeded : ((opened execution directory capacity direct files working).run
      operations).ledger.failures = [])
    (id : String)
    (admits : ((opened execution directory capacity direct files working).run
      operations).scene.store.repository.Admits id) :
    let history := (opened execution directory capacity direct files working).run operations
    let scene := history.scene
    let outcome := scene.store.get scene.site id
    let graph := outcome.2.2.graph
    (outcome.1 = .ok none ↔ history.ledger.accepted id = none) ∧
      ∀ node, history.ledger.accepted id = some node → ∃ found, outcome.1 = .ok (some found) ∧
        (graph.node found).id = id ∧
        graph.parentIds (graph.node found).links = graph.parentIds (graph.node node).links ∧
        (scene.site.graph.reachable scene.roots node = true → found = node) := by
  intro history scene outcome graph
  have coherent : Coherent place history :=
    coherent_run home empty execution capacity direct operations succeeded
  refine ⟨⟨?_, fun notAccepted => coherent.get_unknown notAccepted admits⟩,
    ?_⟩
  · intro nothing
    cases isAccepted : history.ledger.accepted id with
    | none => rfl
    | some node =>
        rcases coherent.get_known isAccepted with ⟨found, result, -⟩
        exact absurd (result.symm.trans nothing) (by simp)
  · intro node isAccepted
    rcases coherent.get_known isAccepted with ⟨found, result, named, parents, same⟩
    refine ⟨found, result, named, parents, fun reached => same ?_⟩
    exact (Graph.reachable_iff coherent.kept.sound.acyclic _ _).mp reached

/-- The handle of a node is dropped and the cache reclaimed, but a later node still holds it: the
lookup finds the node itself. -/
theorem lookup_finds_node_held_by_child :
    let files : FileTree := { entries := [(["d"], .directory)] }
    let operations : List Operation :=
      [.create ⟨"a", .named ["p"], [], some 0⟩, .put 0 true, .create ⟨"b", .held [0], [], some 0⟩,
        .create ⟨"c", .held [], [], some 0⟩, .put 2 false, .flush, .drop 0, .drop 2, .reclaim]
    let history := (opened 0 "d" 1 false files []).run operations
    let scene := history.scene
    history.ledger.failures = [] ∧ history.ledger.accepted "a" = some 0 ∧ 0 ∉ scene.site.held ∧
      scene.store.deferred.nodes = [] ∧ (scene.store.get scene.site "a").1 = .ok (some 0) := by
  intro files operations history scene
  have home : files.Home [] "d" ["d"] := ⟨by decide, .inl rfl⟩
  have empty (name : String) : files.get? (["d"] ++ [name]) = none := by
    simp [files, FileTree.get?]
  have accepted : history.ledger.accepted "a" = some 0 := by decide +kernel
  have reachable : scene.site.graph.reachable scene.roots 0 = true := by decide +kernel
  obtain ⟨-, known⟩ := lookup_finds_accepted_node 0 "d" 1 false files [] ["d"] home empty operations
    (by decide +kernel) "a" (by decide +kernel)
  -- a run is not evaluated to see that it is the same run
  obtain ⟨found, result, -, -, same⟩ := known 0 (by with_reducible exact accepted)
  obtain rfl : found = 0 := same (by with_reducible exact reachable)
  refine ⟨by decide +kernel, by with_reducible exact accepted, by decide +kernel,
    by decide +kernel, by with_reducible exact result⟩

end History

end TraceStore
