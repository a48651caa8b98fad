import TraceStore.Proofs.Cache.Orders
import TraceStore.Proofs.Store.Promises

/-!
# Passes of a store in any order

What a pass that is asked for does to a store when it goes over the slots in any order, a caller can
bring about with passes as they are: by holding the nodes that it leaves, asking for passes, and
letting the nodes go again.  So a run comes to everything that the order of the visits leaves open.
For the passes that the capacity brings about, this is said of the cache alone
(`Cache.Account.runs_reach_every_order`).
-/

namespace TraceStore

open Cache (Surroundings Pass nodesOf)

/-- What is around the cache of a scene. -/
def Scene.around (scene : Scene) : Surroundings :=
  ⟨scene.site.graph, scene.store.outside scene.site⟩

namespace History

variable {history : History} {nodes held : List NodeRef} {node : NodeRef}

/-- The same history with given nodes held and a given cache. -/
def having (history : History) (held : List NodeRef) (cache : Cache) : History :=
  { history with
    scene := ⟨{ history.scene.store with cache }, { history.scene.site with held }⟩ }

/-! ## Holding, passes and letting go -/

theorem step_hold (alive : node ∈ history.scene.roots)
    (acyclic : history.scene.site.graph.Acyclic) :
    history.step (.hold node) =
      history.having (history.scene.site.held ++ [node]) history.scene.store.cache := by
  have isPermitted : history.scene.permits (.hold node) = true :=
    (Graph.reachable_iff acyclic _ _).mpr (.root alive)
  rw [step, if_pos isPermitted]
  rfl

theorem step_drop (isHeld : node ∈ history.scene.site.held) :
    history.step (.drop node) =
      history.having (history.scene.site.held.erase node) history.scene.store.cache := by
  have isPermitted : history.scene.permits (.drop node) = true := by
    simpa [Scene.permits, Operation.node?] using isHeld
  rw [step, if_pos isPermitted]
  rfl

theorem run_holds (alive : ∀ node ∈ nodes, node ∈ history.scene.roots)
    (acyclic : history.scene.site.graph.Acyclic) :
    history.run (nodes.map .hold) =
      history.having (history.scene.site.held ++ nodes) history.scene.store.cache := by
  induction nodes generalizing history with
  | nil =>
      rw [List.append_nil]
      rfl
  | cons node others ih =>
      obtain ⟨isAlive, rest⟩ := List.forall_mem_cons.mp alive
      let between := history.having (history.scene.site.held ++ [node]) history.scene.store.cache
      have stillAlive : ∀ other ∈ others, other ∈ between.scene.roots := fun other member =>
        (Scene.mem_roots _ _).mpr
          (((Scene.mem_roots _ _).mp (rest other member)).imp_left (List.mem_append_left [node]))
      have begun : history.step (.hold node) = between := step_hold isAlive acyclic
      have later : between.run (others.map .hold) = _ := ih stillAlive acyclic
      rw [List.map_cons, run, List.foldl_cons, begun, ← run, later]
      simp [between, having]

theorem run_reclaims (history : History) (n : Nat) :
    history.run (.replicate n .reclaim) = history.having history.scene.site.held
      (history.scene.store.cache.reclaims history.scene.around n) := by
  induction n generalizing history with
  | zero => rfl
  | succ n ih => exact ih (history.step .reclaim)

/-- Letting go of the nodes that were taken into hold last. -/
theorem run_drops (isHeld : history.scene.site.held = held ++ nodes)
    (apart : ∀ node ∈ nodes, node ∉ held) :
    history.run (nodes.map .drop) = history.having held history.scene.store.cache := by
  induction nodes generalizing history with
  | nil =>
      rw [List.append_nil] at isHeld
      rw [← isHeld]
      rfl
  | cons node others ih =>
      obtain ⟨notEarlier, rest⟩ := List.forall_mem_cons.mp apart
      have left : history.scene.site.held.erase node = held ++ others := by
        rw [isHeld, List.erase_append_right _ notEarlier, List.erase_cons_head]
      have later := step_drop (isHeld ▸ List.mem_append_right held List.mem_cons_self)
      rw [left] at later
      rw [List.map_cons, run, List.foldl_cons, later, ← run, ih rfl rest]
      rfl

theorem run_append (history : History) (first later : List Operation) :
    history.run (first ++ later) = (history.run first).run later :=
  List.foldl_append ..

/-! ## Any order is reached -/

/-- The nodes that a pass leaves are taken into hold, passes are run until nothing more is dropped,
and the nodes are let go again. -/
theorem exists_run_of_pass (sound : history.scene.Sound) {dropped : Nat} {after : Cache}
    (pass : Pass history.scene.around history.scene.store.cache dropped after) :
    ∃ operations slots, slots.Perm after.slots ∧
      history.run operations = history.having history.scene.site.held { after with slots } := by
  have kept := (Cache.nodesOf_subperm pass.subperm).subset
  obtain ⟨order, permOrder, rfl, rfl⟩ := pass
  let cache := history.scene.store.cache
  let around := history.scene.around
  let left := ({ cache with slots := order }.reclaim around.graph around.outside none).2.slots
  -- what is held already need not be taken into hold again
  let more := (nodesOf left).filter (· ∉ history.scene.site.held)
  let guarded := history.having (history.scene.site.held ++ more) cache
  have apart : ∀ node ∈ more, node ∉ history.scene.site.held := fun node member => by
    simpa using (List.mem_filter.mp member).2
  have held : history.run (more.map .hold) = guarded := by
    apply run_holds _ sound.acyclic
    intro node member
    have isKept := kept (List.mem_of_mem_filter member)
    exact (Scene.mem_roots _ _).mpr (.inr (.inr isKept))
  have holds : guarded.scene.around.Holds around left := by
    refine ⟨rfl, fun node => ?_⟩
    simp [guarded, more, around, having, Scene.around, Store.outside]
    tauto
  have distinct : { cache with slots := order }.Distinct := sound.cache.distinct.of_perm permOrder
  obtain ⟨n, slots, perm, ran⟩ :=
    Cache.exists_reclaims_of_reclaim sound.acyclic distinct permOrder.symm none holds
  refine ⟨more.map .hold ++ (.replicate (n + 1) .reclaim ++ more.map .drop), slots, perm, ?_⟩
  rw [run_append, held, run_append, run_reclaims, run_drops rfl apart]
  exact congrArg (history.having history.scene.site.held) ran

/-- In every state of a run, what a pass does in any order of its visits further operations do too,
but for the order of the slots: the same is cached and counted, and nothing else is changed. -/
theorem runs_reach_every_pass (execution : ExecutionRef) (directory : String) (capacity : Nat)
    (direct : Bool) (files : FileTree) (working : Route) (operations : List Operation) :
    let start := opened execution directory capacity direct files working
    let history := start.run operations
    ∀ dropped after, Pass history.scene.around history.scene.store.cache dropped after →
      ∃ more slots, slots.Perm after.slots ∧
        start.run (operations ++ more) =
          history.having history.scene.site.held { after with slots } := by
  intro start history dropped after pass
  have sound : history.scene.Sound :=
    (kept_run execution directory capacity direct files working operations).sound
  obtain ⟨more, slots, perm, ran⟩ := exists_run_of_pass sound pass
  exact ⟨more, slots, perm, by rw [run_append, ran]⟩

end History

end TraceStore
