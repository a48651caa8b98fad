import TraceStore.Proofs.Repository.Loading
import TraceStore.Proofs.Store.Buffering

/-!
# A node is woken when it is loaded, and only then

A lookup that the cache serves gives the node that was loaded last, as long as no write of the id
was begun since; it reads nothing and wakes nothing.  `Deed.peek_of_not_caches` is the step: an
operation that neither loads nor writes an id can only take its node from the cache.

`Trace.load_wakes_once` puts the two halves together: what the load of a record has done to the
node, and that later lookups give this node.
-/

namespace TraceStore

/-! ## What is cached for an id -/

namespace Deed

variable {deed : Deed} {id : String} {node : NodeRef}

/-- A lookup went to the record of an id. -/
def Loads (id : String) (deed : Deed) : Prop :=
  deed.operation = .get id ∧ deed.before.store.deferred.get? id = none ∧
    deed.before.store.cache.peek id = none

/-- A node was to be cached for an id: its record was loaded, or a write of it was begun. -/
def Caches (id : String) (deed : Deed) : Prop :=
  deed.Loads id ∨ id ∈ (deed.before.records deed.operation).map (·.1)

section Writes

variable {store store' : Store} {site site' : Site} {other : NodeRef} {actions : List Action}
  {result : Except StoreError Unit}

/-- A write caches its own node, and otherwise only takes nodes from the cache. -/
theorem peek_of_wrote (sound : Scene.Sound ⟨store, site⟩)
    (wrote : Store.Wrote store site node actions (result, store', site'))
    (apart : (site.graph.node node).id ≠ id) (found : store'.cache.peek id = some other) :
    store.cache.peek id = some other := by
  have trimmed := Store.trimmed_caching sound.acyclic store node
  have distinct :=
    Cache.distinct_setSlot sound.cache.distinct (site.graph.node node).id (.filled node)
  have cached : (store.caching site node).cache.peek id = some other := by
    cases wrote with
    | done _ => exact found
    | failed _ => exact found
  rw [← Cache.peek_setSlot_other store.cache (.filled node) apart]
  exact trimmed.peek_of_peek distinct cached

theorem peek_of_writeNodes (sound : Scene.Sound ⟨store, site⟩)
    (apart : ∀ node ∈ store.deferred.nodes, (site.graph.node node).id ≠ id)
    (found : (store.writeNodes site store.deferred.nodes).2.1.cache.peek id = some other) :
    store.cache.peek id = some other := by
  suffices kept : Scene.Sound ⟨(store.writeNodes site store.deferred.nodes).2.1,
        (store.writeNodes site store.deferred.nodes).2.2⟩ ∧
      (store.writeNodes site store.deferred.nodes).2.2.graph = site.graph ∧
      ((store.writeNodes site store.deferred.nodes).2.1.cache.peek id = some other →
        store.cache.peek id = some other) from kept.2.2 found
  refine Store.writeNodes_induction (motive := fun store' site' => Scene.Sound ⟨store', site'⟩ ∧
    site'.graph = site.graph ∧ (store'.cache.peek id = some other →
      store.cache.peek id = some other)) _ ⟨sound, rfl, fun cached => cached⟩ ?_
  rintro between surroundings ⟨between_sound, graph, earlier⟩ node member result store' site' wrote
  have soundAfter := between_sound.wrote (graph ▸ sound.nodes_there node member) wrote
  refine ⟨soundAfter, wrote.leaves.1.trans graph, fun cached => earlier ?_⟩
  exact peek_of_wrote between_sound wrote (graph ▸ apart node member) cached

/-- Putting into the buffer caches nothing, and writing caches what is written. -/
theorem peek_of_effect {scene : Scene} {operation : Operation}
    {outcome : Except StoreError Unit × Scene} (sound : scene.Sound)
    (notWritten : id ∉ (scene.records operation).map (·.1))
    (effect : scene.Effect operation outcome)
    (found : outcome.2.store.cache.peek id = some other) :
    scene.store.cache.peek id = some other := by
  cases effect with
  | buffers _ _ => exact found
  | writes _ own written _ =>
      exact peek_of_wrote sound (Store.wrote_of_eq written)
        (by simpa [own, eq_comm] using notWritten) found
  | flushes isFlush written _ =>
      refine peek_of_writeNodes sound ?_ (by rwa [written])
      simpa [isFlush, Scene.records, Scene.ownRecord] using notWritten

end Writes

/-- An operation that caches nothing for an id leaves the node that is cached for it, or drops
it. -/
theorem peek_of_not_caches (sound : deed.before.Sound) (notCaches : ¬ deed.Caches id)
    (found : deed.after.store.cache.peek id = some node) :
    deed.before.store.cache.peek id = some node := by
  simp only [Caches, Loads, not_or] at notCaches
  rcases notCaches with ⟨notLoaded, notWritten⟩
  have effected (mutates : deed.operation.mutates = true) :
      deed.before.store.cache.peek id = some node :=
    peek_of_effect sound notWritten (deed.before.effect_perform mutates) found
  rcases deed with ⟨⟨store, site⟩, operation⟩
  cases operation with
  | put _ _ | autopersist _ | flushNode _ | flush | saveActions _ _ => exact effected rfl
  | get other =>
      simp only [after, Scene.perform] at found
      have looked := Store.get_looked sound.acyclic store other
      generalize store.get site other = outcome at looked found
      cases looked with
      | buffered _ => exact found
      | cached _ _ same => rwa [Cache.peek_of_slots same] at found
      | loaded notPending notCached _ trimmed =>
          have apart : other ≠ id := by
            rintro rfl
            exact notLoaded ⟨rfl, notPending, notCached⟩
          rw [← Cache.peek_setSlot_other _ _ apart]
          exact trimmed.peek_of_peek (Cache.distinct_setSlot sound.cache.distinct _ _) found
      | refused _ _ _ slots =>
          rw [Cache.peek_of_without slots] at found
          split at found
          · simp at found
          · exact found
  | loadActions other =>
      simp only [after, Scene.perform] at found
      rwa [(Store.loadActions_reads store site other).1] at found
  | reclaim =>
      have trimmed := Cache.trimmed_reclaim sound.acyclic (store.outside site) none store.cache
      exact trimmed.peek_of_peek sound.cache.distinct found
  | create _ | attach _ _ | hold _ | drop _ | start _ | stop _ | refuse _ => exact found

end Deed

namespace Trace

variable {trace : Trace} {id : String}

/-- What the cache has for an id is what was cached for it last. -/
structure CachedLast (trace : Trace) : Prop where
  sound : trace.scene.Sound
  begun : ∀ deed ∈ trace.deeds, deed.before.Sound
  cached : ∀ id deed, Since (· = deed) (Deed.Caches id) trace.deeds → ∀ node,
    trace.scene.store.cache.peek id = some node → deed.after.store.cache.peek id = some node

theorem cachedLast_run (execution : ExecutionRef) (directory : String) (capacity : Nat)
    (direct : Bool) (files : FileTree) (working : Route) (turns : List Turn) :
    ((opened execution directory capacity direct files working).run turns).CachedLast := by
  apply run_induction
  case initial =>
    constructor
    case sound => exact Scene.sound_opened execution directory capacity direct files working
    case begun => simp [opened]
    case cached =>
      intro id deed since
      exact absurd since not_since_nil
  case own =>
    intro trace operation cachedLast permitted
    have sound : (Deed.mk trace.scene operation).before.Sound := cachedLast.sound
    constructor
    case sound => exact (Scene.sound_perform cachedLast.sound permitted).1
    case begun =>
      intro deed member
      rcases List.mem_append.mp member with earlier | last
      · exact cachedLast.begun deed earlier
      · obtain rfl := List.mem_singleton.mp last
        exact cachedLast.sound
    case cached =>
      intro id deed since node found
      rcases since_concat.mp since with rfl | ⟨earlier, notCaches⟩
      · exact found
      · exact cachedLast.cached id deed earlier node (Deed.peek_of_not_caches sound notCaches found)
  case others =>
    intro trace files cachedLast
    exact ⟨sound_changing cachedLast.sound files, cachedLast.begun, cachedLast.cached⟩

section Loads

variable {scene : Scene} {path : String} {bytes : List UInt8} {session : Record.Session}
  {ref : NodeRef} {actions woken : List Action} {after : Site}

/-- The cache has the node that a lookup has loaded. -/
theorem peek_of_loads {deed : Deed} (sound : deed.before.Sound) (loads : deed.Loads id)
    (read : deed.before.store.repository.read deed.before.site id deed.before.store.execution =
      (.ok ⟨ref, woken⟩, after)) : deed.after.store.cache.peek id = some ref := by
  rcases deed with ⟨⟨store, site⟩, operation⟩
  rcases loads with ⟨rfl, notPending, notCached⟩
  simp only [Deed.after, Scene.perform]
  have looked := Store.get_looked sound.acyclic store id
  generalize store.get site id = outcome at looked
  cases looked with
  | buffered pending => simp [pending] at notPending
  | cached _ isCached _ => simp [isCached] at notCached
  | refused _ _ failed _ => simp [failed] at read
  | loaded _ _ given trimmed =>
      obtain rfl := Except.ok.inj (Prod.mk.inj (given.symm.trans read)).1
      exact trimmed.peek_filled sound.cache.distinct

/-- A run that ends in a lookup. -/
theorem run_lookup (start : Trace) (turns : List Turn) (id : String) :
    let lookup : Deed := ⟨(start.run turns).scene, .get id⟩
    (start.run (turns ++ [.own (.get id)])).scene = lookup.after ∧
      ∃ earlier, (start.run (turns ++ [.own (.get id)])).deeds = earlier ++ [lookup] := by
  have split : start.run (turns ++ [.own (.get id)]) =
      (start.run turns).turn (.own (.get id)) := by
    simp [run]
  have permitted : (start.run turns).scene.permits (.get id) = true := rfl
  rw [split, turn, if_pos permitted]
  exact ⟨rfl, _, rfl⟩

/-- Reading a record whose bytes decode to a node wakes each action of the record once and in order,
on the wired node: what is given back are the actions as they are then, in which every marked one
has seen the id of the record, the execution if that is running, and the actions of the record with
one more for each seed in front of it.  The node has these actions and behind them one label for
each seed.  A lookup that loads gives this node; and so does in every run each later lookup that the
cache serves, as long as the id was not loaded again and no write of it was begun: then nothing is
read and nothing is woken. -/
theorem load_wakes_once (found : scene.store.repository.path id = .ok path)
    (there : scene.site.files.read scene.site.working path = .ok bytes)
    (decoded : Record.decode ⟨scene.site.graph, {}, none⟩ bytes =
      (session, .ok ⟨some ref, actions⟩)) :
    ∃ (woken : List Action) (node : Node) (events : List Event),
      scene.store.repository.read scene.site id scene.store.execution =
        (.ok ⟨ref, woken⟩,
          { scene.site with graph := session.graph.update ref fun _ => node, events }) ∧
      woken.length = actions.length ∧
      woken.map Action.payload = actions.map Action.payload ∧
      (∀ (position : Nat) (mark : String) (seen : Option Sighting),
        woken[position]? = some (.marked mark seen) →
        seen = some ⟨node.id, scene.site.graph.running? scene.store.execution,
          actions.length + (actions.take position).countP Action.isSeed⟩) ∧
      session.graph.node? ref = some (.detached node.id node.links) ∧
      node.links.areHeld = false ∧
      node.owner = some scene.store.execution ∧
      node.actions = woken ++ Action.sprouts actions ∧
      (scene.store.deferred.get? id = none → scene.store.cache.peek id = none →
        (scene.store.get scene.site id).1 = .ok (some ref)) ∧
      ∀ execution directory capacity direct files working turns,
        let trace := (opened execution directory capacity direct files working).run turns
        Since (fun deed => deed.before = scene ∧ deed.Loads id) (Deed.Caches id) trace.deeds →
        trace.scene.store.deferred.get? id = none →
        ∀ cached, trace.scene.store.cache.peek id = some cached →
          cached = ref ∧ ∃ cache, trace.scene.store.get trace.scene.site id =
            (.ok (some ref), { trace.scene.store with cache }, trace.scene.site) := by
  obtain ⟨stored, parentIds, woken, events, created, isWoken, read⟩ :=
    Repository.read_decoded found there decoded scene.store.execution
  refine ⟨woken, _, events, read, ?length, ?payload, ?seen, created, rfl, rfl, rfl,
    ?loads, ?later⟩
  case length => simp [isWoken]
  case payload =>
    apply List.ext_getElem?
    intro position
    simp [isWoken, Function.comp_def]
  case seen =>
    intro position mark seen isMarked
    rw [isWoken, List.getElem?_mapIdx] at isMarked
    obtain ⟨action, isAction, remembered⟩ := Option.map_eq_some_iff.mp isMarked
    have forgetful := Record.payload_of_decode decoded action (List.mem_of_getElem? isAction)
    cases action with
    | marked _ earlier =>
        cases earlier with
        | none => simpa [Action.remember, eq_comm] using (Action.marked.inj remembered).2
        | some _ => simp [Action.payload] at forgetful
    | _ => simp [Action.remember] at remembered
  case loads =>
    intro notPending notCached
    simp [Store.get_fst, notPending, notCached, read, Store.answer]
  case later =>
    intro execution directory capacity direct files working turns trace since notPending cached
      isCached
    -- What is cached at the end is what the last load or write of the id has left there, and that
    -- was the load in this scene.
    have run := cachedLast_run execution directory capacity direct files working turns
    obtain ⟨earlier, deed, later, split, ⟨rfl, loads⟩, kept⟩ := since
    have sound := run.begun deed (by simp [trace, split])
    have last := run.cached id deed ⟨earlier, deed, later, split, rfl, kept⟩ cached isCached
    rw [peek_of_loads sound loads read] at last
    obtain rfl := Option.some.inj last
    refine ⟨rfl, { trace.scene.store.cache with hits := trace.scene.store.cache.hits + 1 }, ?_⟩
    simp only [Store.get, notPending, Cache.request, isCached]

/-- A mark behind a seed has seen the label that the seed added, and the lookup after the one that
loaded them is served by the cache. -/
theorem load_wakes_mark_behind_seed :
    let actions : List Action := [.seed "x", .marked "m" none]
    let turns : List Turn :=
      [.own (.start "e"), .own (.create ⟨"a", .named ["p"], actions, some 0⟩),
        .own (.put 0 false), .own (.drop 0), .own .reclaim]
    let start := opened 0 "d" 0 false { entries := [(["d"], .directory)] } []
    let scene := (start.run turns).scene
    let trace := start.run (turns ++ [.own (.get "a")])
    let woken : List Action := [.seed "x", .marked "m" (some ⟨"a", some "e", 3⟩)]
    (∃ node surroundings,
      scene.store.repository.read scene.site "a" scene.store.execution =
        (.ok ⟨1, woken⟩, surroundings) ∧
      node.actions = woken ++ [.label "leaf:x"] ∧ surroundings.graph.node? 1 = some node) ∧
    ∃ cache, trace.scene.store.get trace.scene.site "a" =
      (.ok (some 1), { trace.scene.store with cache }, trace.scene.site) := by
  intro actions turns start scene trace woken
  have notPending : scene.store.deferred.get? "a" = none := by decide +kernel
  have notCached : scene.store.cache.peek "a" = none := by decide +kernel
  have running : scene.site.graph.running? scene.store.execution = some "e" := by decide +kernel
  have next : scene.site.graph.next = 1 := by decide +kernel
  have sound : scene.Sound :=
    (cachedLast_run 0 "d" 0 false { entries := [(["d"], .directory)] } [] turns).sound
  have found : scene.store.repository.path "a" = .ok "d/a.json" := by decide +kernel
  have written : scene.site.files.read scene.site.working "d/a.json" =
      .ok ((Record.encode "a" ["p"] actions).toOption.getD []) := by decide +kernel
  have isRun : start.run (turns ++ [.own (.get "a")]) = trace := rfl
  obtain ⟨last, earlier, deeds⟩ : trace.scene = (Deed.mk scene (.get "a")).after ∧
      ∃ earlier, trace.deeds = earlier ++ [⟨scene, .get "a"⟩] := run_lookup start turns "a"
  -- from here on nothing is evaluated
  clear_value scene trace
  have encoded : Record.encode "a" ["p"] actions =
      .ok ((Record.encode "a" ["p"] actions).toOption.getD []) := rfl
  have decoded := Record.decode_encode encoded ⟨scene.site.graph, {}, none⟩
  rw [next] at decoded
  obtain ⟨woken', node, events, read, length, payload, seen, isNode, -, -, all, -, later⟩ :=
    load_wakes_once found written decoded
  have created : (Record.Session.withNode ⟨scene.site.graph, {}, none⟩ "a" ["p"]).graph.node? 1 =
      some (.detached "a" (.named ["p"])) := next ▸ Graph.node?_add_next scene.site.graph _
  have isWoken : woken' = woken := by
    obtain ⟨first, second, rfl⟩ := List.length_eq_two.mp length
    obtain ⟨isSeed, isMark⟩ : first.payload = .seed "x" ∧ second.payload = .marked "m" none := by
      simpa [actions, Action.payload] using payload
    cases first with
    | seed text =>
        obtain rfl : text = "x" := by simpa [Action.payload] using isSeed
        cases second with
        | marked mark sight =>
            obtain rfl : mark = "m" := by simpa [Action.payload] using isMark
            obtain ⟨named, -⟩ := Node.mk.inj (Option.some.inj (isNode.symm.trans created))
            rw [seen 1 "m" sight rfl, named, running]
            rfl
        | _ => simp [Action.payload] at isMark
    | _ => simp [Action.payload] at isSeed
  subst isWoken
  have loads : (Deed.mk scene (.get "a")).Loads "a" := ⟨rfl, notPending, notCached⟩
  have isCached : trace.scene.store.cache.peek "a" = some 1 := by
    rw [last]
    exact peek_of_loads sound loads read
  have stillNotPending : trace.scene.store.deferred.get? "a" = none := by
    have idle : (Operation.get "a").mutates = false := rfl
    rw [last, Deed.after, (Scene.frame_of_not_mutates sound.acyclic idle).1]
    exact notPending
  have served := later 0 "d" 0 false { entries := [(["d"], .directory)] } []
    (turns ++ [.own (.get "a")])
  simp only [start] at isRun
  simp only [isRun] at served
  refine ⟨⟨node, _, read, all, ?_⟩, (served ?_ stillNotPending 1 isCached).2⟩
  · rw [Graph.node?_update, if_pos rfl, created]
    rfl
  · exact ⟨earlier, _, [], deeds, ⟨rfl, loads⟩, by simp⟩

end Loads

end Trace

end TraceStore
