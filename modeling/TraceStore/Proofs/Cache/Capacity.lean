import TraceStore.Proofs.Cache.LoneLoad
import TraceStore.Proofs.Cache.Passes

/-!
# The capacity of a cache

Only two moves fill a slot: an insertion, and the end of a load that gave a node.  Right after them
a cache that has grown past its capacity runs a pass.  The pass need not bring the cache back within
its capacity, but it leaves nothing that it could have dropped: what is left besides the slot just
filled and those of running loads was referred to by more than its own slot when the pass began.

All other moves leave every node where it is, except for a pass that is asked for.  So without a
capacity nothing else than such a pass drops entries.
-/

namespace TraceStore.Cache

variable {graph : Graph} {outside : List NodeRef} {cache : Cache} {id other : String}
  {node held : NodeRef}

/-! ## The capacity is fixed -/

@[simp] theorem capacity_setSlot (cache : Cache) (id : String) (slot : Slot) :
    (cache.setSlot id slot).capacity = cache.capacity := rfl

@[simp] theorem capacity_trim (cache : Cache) (graph : Graph) (outside : List NodeRef)
    (id : String) : (cache.trim graph outside id).1.capacity = cache.capacity := by
  rw [trim]
  split <;> rfl

@[simp] theorem capacity_publish (cache : Cache) (graph : Graph) (outside : List NodeRef)
    (id : String) (node : NodeRef) :
    (cache.publish graph outside id node).1.capacity = cache.capacity := by
  rw [publish, capacity_trim, capacity_setSlot]

@[simp] theorem capacity_request (cache : Cache) (id : String) :
    (cache.request id).2.capacity = cache.capacity := by
  rw [request]
  split <;> rfl

@[simp] theorem capacity_abandon (cache : Cache) (id : String) :
    (cache.abandon id).capacity = cache.capacity := by
  rw [abandon]
  split <;> rfl

/-! ## Filling a slot -/

/-- Without a capacity no pass is run. -/
theorem trim_of_unbounded (unbounded : cache.capacity = 0) (graph : Graph)
    (outside : List NodeRef) (id : String) : cache.trim graph outside id = (cache, []) := by
  simp [trim, unbounded]

/-- The slot that is filled stays. -/
theorem peek_publish_self (cache : Cache) (graph : Graph) (outside : List NodeRef) (id : String)
    (node : NodeRef) : (cache.publish graph outside id node).1.peek id = some node := by
  rw [publish, trim]
  split
  · have stays := (reclaim_setSlot cache id graph outside (.filled node)).1
    simp [peek, stays, Slot.node?]
  · rw [peek_setSlot_self, Slot.node?]

/-- Without a capacity a slot is filled, and the others stay as they are. -/
theorem peek_publish_of_unbounded (unbounded : cache.capacity = 0) (graph : Graph)
    (outside : List NodeRef) (node : NodeRef) (apart : id ≠ other) :
    (cache.publish graph outside id node).1.peek other = cache.peek other := by
  have same : (cache.setSlot id (.filled node)).capacity = 0 := unbounded
  rw [publish, trim_of_unbounded same, peek_setSlot_other cache (.filled node) apart]

/-- After a slot was filled the cache is within its capacity, or the other nodes in it had further
references when the pass began. -/
theorem within_or_referred (acyclic : graph.Acyclic) (bounded : 0 < cache.capacity)
    (id : String) (node : NodeRef) :
    (cache.publish graph outside id node).1.size ≤ cache.capacity ∨
      ∀ other held, (other, .filled held) ∈ (cache.publish graph outside id node).1.slots →
        other ≠ id → 2 ≤ graph.referenceCount
          (outside ++ (cache.setSlot id (.filled node)).keeps) held := by
  rw [publish, trim, capacity_setSlot]
  split
  · right
    intro other held left apart
    obtain ⟨others, fewer, stays⟩ := (visited_of_mem_sweep left).resolve_left List.not_mem_nil
    apply two_le_referenceCount acyclic _ fewer stays
    rintro ⟨⟩
    exact apart rfl
  · next within =>
      left
      simpa [bounded] using within

/-! ## Moves that fill no slot -/

/-- Asking for a node leaves every node where it is, whether it is found or its load begins. -/
theorem peek_request (cache : Cache) (id other : String) :
    (cache.request id).2.peek other = cache.peek other := by
  rw [request]
  split
  · rfl
  · next unfound =>
      change (cache.setSlot id .loading).peek other = cache.peek other
      by_cases same : id = other
      · subst same
        rw [peek_setSlot_self, unfound, Slot.node?]
      · exact peek_setSlot_other cache .loading same

/-- A load that fails takes away only its own slot, which has no node. -/
theorem peek_abandon (cache : Cache) (id other : String) :
    (cache.abandon id).peek other = cache.peek other := by
  by_cases isLoading : cache.slot? id = some .loading
  · rw [peek_of_without (slots_abandon isLoading)]
    split
    · next same =>
        subst same
        simp [peek, isLoading, Slot.node?]
    · rfl
  · rw [abandon]
    split
    · contradiction
    · rfl

namespace Account

variable {account : Account} {move : Move} {around : Surroundings}

/-- A move that can be made fills the slot of an id with a node. -/
inductive Fills (account : Account) : Move → Surroundings → String → NodeRef → Prop where
  | insert (around : Surroundings) (node : NodeRef)
      (unlocked : (around.graph.node node).id ∉ account.running) :
      Fills account (.insert around node) around (around.graph.node node).id node
  | finish (around : Surroundings) {id : String} {outer : List String} (node : NodeRef)
      (innermost : account.running = id :: outer) :
      Fills account (.finish around (some node)) around id node

theorem Fills.cache_step (fills : account.Fills move around id node) :
    (account.step move).cache =
      (account.cache.publish around.graph around.outside id node).1 := by
  cases fills with
  | insert around node unlocked =>
      have isPermitted : account.permits (.insert around node) = true := by
        simpa [permits, Move.id?] using unlocked
      rw [step, if_pos isPermitted]
      rfl
  | finish around node innermost => simp [step, permits, innermost]

/-- All that a move can do to the cache. -/
inductive Does (account : Account) (move : Move) : Cache → Prop where
  | filled {around : Surroundings} {id : String} {node : NodeRef}
      (fills : account.Fills move around id node) :
      Does account move (account.cache.publish around.graph around.outside id node).1
  | reclaimed {around : Surroundings} (isPass : move = .reclaim around) :
      Does account move (account.cache.reclaim around.graph around.outside none).2
  | requested (id : String) : Does account move (account.cache.request id).2
  | abandoned (id : String) : Does account move (account.cache.abandon id)
  | nothing : Does account move account.cache

theorem does_step (account : Account) (move : Move) :
    account.Does move (account.step move).cache := by
  by_cases isPermitted : account.permits move = true
  case neg =>
    rw [step_of_not_permits isPermitted]
    exact .nothing
  case pos =>
    cases move with
    | insert around node =>
        have fills := Fills.insert around node (by simpa [permits, Move.id?] using isPermitted)
        rw [fills.cache_step]
        exact .filled fills
    | peek id =>
        rw [step, if_pos isPermitted]
        exact .nothing
    | reclaim around =>
        rw [step, if_pos isPermitted]
        exact .reclaimed rfl
    | ask id =>
        rw [step, if_pos isPermitted]
        exact .requested id
    | finish around found =>
        cases innermost : account.running with
        | nil => simp [permits, innermost] at isPermitted
        | cons id outer =>
            cases found with
            | some node =>
                have fills := Fills.finish around node innermost
                rw [fills.cache_step]
                exact .filled fills
            | none =>
                have abandoned : (account.step (.finish around none)).cache =
                    account.cache.abandon id := by
                  simp [step, permits, innermost]
                rw [abandoned]
                exact .abandoned id

theorem capacity_step (account : Account) (move : Move) :
    (account.step move).cache.capacity = account.cache.capacity := by
  have does := does_step account move
  generalize (account.step move).cache = after at does ⊢
  cases does with
  | filled fills => exact capacity_publish ..
  | reclaimed isPass => rfl
  | requested id => exact capacity_request ..
  | abandoned id => exact capacity_abandon ..
  | nothing => rfl

theorem capacity_run (account : Account) (moves : List Move) :
    (account.run moves).cache.capacity = account.cache.capacity := by
  induction moves generalizing account with
  | nil => rfl
  | cons move moves ih => exact (ih (account.step move)).trans (capacity_step account move)

/-- A move that fills no slot and is no pass leaves every node where it is. -/
theorem peek_step (fillsNone : ∀ around id node, ¬ account.Fills move around id node)
    (isNoPass : ∀ around, move ≠ .reclaim around) (other : String) :
    (account.step move).cache.peek other = account.cache.peek other := by
  have does := does_step account move
  generalize (account.step move).cache = after at does ⊢
  cases does with
  | filled fills => exact absurd fills (fillsNone _ _ _)
  | reclaimed isPass => exact absurd isPass (isNoPass _)
  | requested id => exact peek_request account.cache id other
  | abandoned id => exact peek_abandon account.cache id other
  | nothing => rfl

/-- After any moves, the calls of running loaders included, a move that fills a slot leaves its node
there.  A cache with a capacity then is within it, or all its other nodes had a reference besides
their own slot when the pass began.  In a cache without a capacity such a move leaves the other
nodes where they are.  A move that fills no slot and is not a pass leaves all nodes where they
are. -/
theorem capacity_bounds_unreferred (capacity : Nat) (moves : List Move) :
    let account := (opened capacity).run moves
    (∀ move around id node, account.Fills move around id node →
      let after := (account.step move).cache
      after.peek id = some node ∧
      (0 < capacity → around.graph.Acyclic → after.size ≤ capacity ∨
        ∀ other held, (other, .filled held) ∈ after.slots → other ≠ id →
          2 ≤ around.graph.referenceCount
            (around.outside ++ (account.cache.setSlot id (.filled node)).keeps) held) ∧
      (capacity = 0 → ∀ other, id ≠ other → after.peek other = account.cache.peek other)) ∧
    ∀ move, (∀ around id node, ¬ account.Fills move around id node) →
      (∀ around, move ≠ .reclaim around) →
      ∀ other, (account.step move).cache.peek other = account.cache.peek other := by
  intro account
  have fixed : account.cache.capacity = capacity := capacity_run (opened capacity) moves
  constructor
  · intro move around id node fills after
    have published : after = _ := fills.cache_step
    rw [published]
    refine ⟨peek_publish_self .., ?bounded, ?unbounded⟩
    case bounded =>
      intro isBounded acyclic
      rw [← fixed] at isBounded ⊢
      exact within_or_referred acyclic isBounded id node
    case unbounded =>
      intro isUnbounded other apart
      exact peek_publish_of_unbounded (fixed.trans isUnbounded) _ _ node apart
  · intro move fillsNone isNoPass other
    exact peek_step fillsNone isNoPass other

/-- A caller holds the first node, so the cache grows past its capacity when the second is
loaded. -/
theorem full_cache_keeps_node_in_use :
    let graph := (({} : Graph).add (.detached "a" (.named []))).add (.detached "b" (.named []))
    let account := (opened 1).run [.insert ⟨graph, [0]⟩ 0, .ask "b"]
    let after := (account.step (.finish ⟨graph, [0]⟩ (some 1))).cache
    graph.Acyclic ∧ 0 < 1 ∧ account.Fills (.finish ⟨graph, [0]⟩ (some 1)) ⟨graph, [0]⟩ "b" 1 ∧
      after.peek "b" = some 1 ∧ ¬ after.size ≤ 1 ∧ ("a", .filled 0) ∈ after.slots ∧
      2 ≤ graph.referenceCount ([0] ++ (account.cache.setSlot "b" (.filled 1)).keeps) 0 := by
  intro graph account after
  have acyclic : graph.Acyclic := (Graph.acyclic_empty.add (by decide)).add (by decide)
  have fills : account.Fills (.finish ⟨graph, [0]⟩ (some 1)) ⟨graph, [0]⟩ "b" 1 :=
    .finish ⟨graph, [0]⟩ 1 rfl
  have overfull : ¬ after.size ≤ 1 := by decide
  have stays : ("a", .filled 0) ∈ after.slots := by decide
  obtain ⟨isThere, bound, -⟩ := (capacity_bounds_unreferred 1 _).1 _ _ _ _ fills
  have referred := (bound Nat.one_pos acyclic).resolve_left overfull "a" 0 stays (by decide)
  exact ⟨acyclic, Nat.one_pos, fills, isThere, overfull, stays, referred⟩

end Account

end TraceStore.Cache
