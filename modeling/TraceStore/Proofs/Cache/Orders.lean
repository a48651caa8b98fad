import TraceStore.Proofs.Cache.Capacity
import TraceStore.Proofs.Cache.Convergence
import Mathlib.Data.List.Nodup

/-!
# Passes in any order

A pass goes over the slots in the order of the list, and another order may drop other nodes.  But
no order does what runs do not do anyway.  `Account.MovesTo` lets every pass, also one that the
capacity brings about, go over the slots in any order, and whatever moves come to in this way, other
moves come to with the passes as they are, but for the order of the slots
(`Account.runs_reach_every_order`).

The reason is that a pass in any order leaves just what is left in the end of passes that are
repeated while somebody else holds the nodes that it leaves.  A node that it drops is reached by
nothing that it leaves, so that holding this does not save the node.
-/

namespace TraceStore.Cache

variable {around guarded : Surroundings} {used : Option String} {before cache : Cache} {id : String}
  {node : NodeRef} {slot : String × Slot} {left : List (String × Slot)}

/-! ## What is left of any order -/

/-- What a pass leaves of some slots that goes over them in some order, while an operation may use
one of them. -/
def Leaves (around : Surroundings) (used : Option String) (slots left : List (String × Slot)) :
    Prop :=
  ∃ order, order.Perm slots ∧ sweep around.graph around.outside used [] order = left

/-- In the one surroundings the nodes in some slots are held besides what is held in the other. -/
structure Surroundings.Holds (guarded around : Surroundings) (left : List (String × Slot)) :
    Prop where
  graph : guarded.graph = around.graph
  outside : ∀ node, node ∈ guarded.outside ↔ node ∈ around.outside ∨ node ∈ nodesOf left

theorem Distinct.of_perm {slots : List (String × Slot)} (distinct : cache.Distinct)
    (perm : slots.Perm cache.slots) : { cache with slots }.Distinct :=
  distinct.of_subperm perm.subperm

theorem mem_nodesOf (member : (id, .filled node) ∈ left) : node ∈ nodesOf left :=
  List.mem_filterMap.mpr ⟨_, member, rfl⟩

namespace Leaves

variable (leaves : Leaves around used before.slots left)

include leaves

theorem subperm : left.Subperm before.slots := by
  obtain ⟨order, perm, rfl⟩ := leaves
  exact (sweep_sublist _ _ _ [] order).subperm.trans perm.subperm

theorem mem_loading (member : (id, .loading) ∈ before.slots) : (id, .loading) ∈ left := by
  obtain ⟨order, perm, rfl⟩ := leaves
  exact loading_mem_sweep _ _ _ [] order (perm.symm.subset member)

/-- Holding what is left makes nothing last that is not left. -/
theorem mem_of_lasts (acyclic : around.graph.Acyclic) (holds : guarded.Holds around left)
    (member : (id, .filled node) ∈ before.slots) (lasts : before.Lasts guarded node) :
    (id, .filled node) ∈ left := by
  obtain ⟨order, perm, rfl⟩ := leaves
  have all := perm.symm.subset
  rcases sweep_dropped acyclic around.outside used [] order (all member) with isLeft | dropped
  · exact isLeft
  obtain ⟨-, there, filled, unreached⟩ := dropped
  obtain rfl : node = there := by simpa using filled
  obtain ⟨root, isRoot, reached⟩ := lasts
  rw [holds.graph] at reached
  refine absurd (reached.mono fun only isOnly => ?_) unreached
  obtain rfl := List.mem_singleton.mp isOnly
  cases isRoot with
  | inl held => exact List.mem_append.mpr ((holds.outside only).mp held)
  | inr twice =>
      have rootLasts : before.Lasts around only := ⟨only, .inr twice, .root isOnly⟩
      obtain ⟨first, -, -, isFirst, -⟩ := twice
      have isLeft : (first, .filled only) ∈ sweep around.graph around.outside used [] order :=
        mem_sweep_of_lasts acyclic used (fun id node member _ => all member) isFirst rootLasts
      exact List.mem_append_right _ (mem_nodesOf isLeft)

end Leaves

/-- What is held is left by every pass. -/
theorem mem_sweep_of_held (acyclic : around.graph.Acyclic) (holds : guarded.Holds around left)
    (kept ahead : List (String × Slot)) (member : slot ∈ kept ++ ahead) (isLeft : slot ∈ left) :
    slot ∈ sweep guarded.graph guarded.outside used kept ahead := by
  rw [← holds.graph] at acyclic
  rcases sweep_dropped acyclic guarded.outside used kept ahead member with stays | dropped
  · exact stays
  · rcases slot with ⟨id, state⟩
    obtain ⟨-, node, rfl, unreached⟩ := dropped
    have held := (holds.outside node).mpr (.inr (mem_nodesOf isLeft))
    exact absurd (.root (List.mem_append_left _ held)) unreached

/-! ## Repeated passes -/

namespace Passes

variable {caches : Nat → Cache} {counts : Nat → Nat} (passes : Passes around cache caches counts)

include passes

theorem mem_loading (n : Nat) (member : (id, .loading) ∈ cache.slots) :
    (id, .loading) ∈ (caches n).slots := by
  induction n with
  | zero => rwa [passes.start]
  | succ n ih => exact (passes.pass n).mem_of_not_droppable ih fun _ => rfl

/-- Only the slots change, and what is dropped is counted. -/
theorem frame (n : Nat) :
    caches n = { cache with slots := (caches n).slots, reclaimed := (caches n).reclaimed } ∧
      (caches n).size + (caches n).reclaimed = cache.size + cache.reclaimed := by
  induction n with
  | zero =>
      rw [passes.start]
      exact ⟨rfl, rfl⟩
  | succ n ih =>
      have unchanged := (passes.pass n).others_unchanged
      have size := (passes.pass n).size
      have reclaimed : (caches (n + 1)).reclaimed = (caches n).reclaimed + counts n := by
        rw [unchanged]
      constructor
      · rw [reclaimed]
        conv_lhs => rw [unchanged, ih.1]
      · omega

end Passes

/-- Passes that are repeated while what some pass leaves is held come to what it leaves, if there
was no more to begin with. -/
theorem Passes.perm_left {caches : Nat → Cache} {counts : Nat → Nat}
    (passes : Passes guarded cache caches counts) (acyclic : around.graph.Acyclic)
    (distinct : before.Distinct) (leaves : Leaves around used before.slots left)
    (holds : guarded.Holds around left) (fewer : cache.slots.Subperm before.slots)
    (all : left ⊆ cache.slots) {n : Nat} (none : counts n = 0) :
    (caches (n + 1)).slots.Perm left := by
  have distinctCache : cache.Distinct := distinct.of_subperm fewer
  have nodup : (caches (n + 1)).slots.Nodup :=
    .of_map _ (distinctCache.of_subperm (passes.subperm (n + 1)))
  have nodupLeft : left.Nodup := .of_map _ (distinct.of_subperm leaves.subperm)
  rw [List.perm_ext_iff_of_nodup nodup nodupLeft]
  rintro ⟨id, state⟩
  cases state with
  | loading =>
      constructor
      · intro member
        exact leaves.mem_loading (fewer.subset ((passes.subperm (n + 1)).subset member))
      · intro isLeft
        exact passes.mem_loading (n + 1) (all isLeft)
  | filled node =>
      rw [passes.mem_iff_of_none_dropped (holds.graph ▸ acyclic) distinctCache none]
      constructor
      · rintro ⟨member, lasts⟩
        exact leaves.mem_of_lasts acyclic holds (fewer.subset member) (lasts.mono fewer.subset)
      · intro isLeft
        have held := (holds.outside node).mpr (.inr (mem_nodesOf isLeft))
        exact ⟨all isLeft, node, .inl held, .root (List.mem_singleton_self node)⟩

/-- The cache after a number of passes that nothing comes between. -/
def reclaims (around : Surroundings) (n : Nat) (cache : Cache) : Cache :=
  (fun cache => (cache.reclaim around.graph around.outside none).2)^[n] cache

theorem passes_reclaims (around : Surroundings) (cache : Cache) :
    Passes around cache (cache.reclaims around) fun n =>
      ((cache.reclaims around n).reclaim around.graph around.outside none).1 where
  start := rfl
  pass n := by
    refine ⟨_, .refl _, ?_⟩
    rw [reclaims, reclaims, Function.iterate_succ_apply']

/-- What a pass comes to, passes come to that go over the slots in another order while the nodes are
held that it leaves. -/
theorem exists_reclaims_of_reclaim {slots : List (String × Slot)} (acyclic : around.graph.Acyclic)
    (distinct : before.Distinct) (perm : slots.Perm before.slots) (used : Option String)
    (holds : guarded.Holds around
      (before.reclaim around.graph around.outside used).2.slots) :
    let base := { before with slots }
    let after := (before.reclaim around.graph around.outside used).2
    ∃ n others, others.Perm after.slots ∧
      (base.reclaim guarded.graph guarded.outside used).2.reclaims guarded n =
        { after with slots := others } := by
  intro base after
  let first := (base.reclaim guarded.graph guarded.outside used).2
  have leaves : Leaves around used base.slots after.slots := ⟨before.slots, perm.symm, rfl⟩
  have fewer : first.slots.Subperm base.slots :=
    (sweep_sublist guarded.graph guarded.outside used [] base.slots).subperm
  have all : after.slots ⊆ first.slots := fun slot isLeft =>
    mem_sweep_of_held acyclic holds [] base.slots (leaves.subperm.subset isLeft) isLeft
  have passes := passes_reclaims guarded first
  obtain ⟨n, -, none⟩ := passes.exists_none_dropped
  obtain ⟨unchanged, entries⟩ := passes.frame (n + 1)
  have isLeft := passes.perm_left acyclic (distinct.of_perm perm) leaves holds fewer all none
  refine ⟨n + 1, _, isLeft, ?_⟩
  have reclaimed : (first.reclaims guarded (n + 1)).reclaimed = after.reclaimed := by
    have firstEntries : first.size + first.reclaimed = base.size + base.reclaimed :=
      (counted_reclaim guarded.graph guarded.outside used base).entries
    have afterEntries : after.size + after.reclaimed = before.size + before.reclaimed :=
      (counted_reclaim around.graph around.outside used before).entries
    have size : (first.reclaims guarded (n + 1)).size = after.size := isLeft.length_eq
    have sizeBase : base.size = before.size := perm.length_eq
    have sameReclaimed : base.reclaimed = before.reclaimed := rfl
    omega
  rw [unchanged, reclaimed]
  rfl

/-! ## Lookups do not depend on the order -/

variable {slots : List (String × Slot)}

theorem slot?_of_perm (distinct : cache.Distinct) (perm : slots.Perm cache.slots) (id : String) :
    { cache with slots }.slot? id = cache.slot? id := by
  ext slot
  rw [slot?_eq_some_iff (distinct.of_perm perm), slot?_eq_some_iff distinct]
  exact perm.mem_iff

theorem setSlot_perm (perm : slots.Perm cache.slots) (id : String) (slot : Slot) :
    ({ cache with slots }.setSlot id slot).slots.Perm (cache.setSlot id slot).slots :=
  (perm.filter _).append_right _

/-- A request finds the same node, and leaves the same but for the order of the slots. -/
theorem request_of_perm (distinct : cache.Distinct) (perm : slots.Perm cache.slots) (id : String) :
    ∃ others, others.Perm (cache.request id).2.slots ∧ { cache with slots }.request id =
      ((cache.request id).1, { (cache.request id).2 with slots := others }) := by
  have same : { cache with slots }.peek id = cache.peek id := by
    rw [peek, slot?_of_perm distinct perm, peek]
  rw [request, request, same]
  split
  · exact ⟨slots, perm, rfl⟩
  · exact ⟨_, setSlot_perm perm id .loading, rfl⟩

theorem abandon_of_perm (distinct : cache.Distinct) (perm : slots.Perm cache.slots) (id : String) :
    ∃ others, others.Perm (cache.abandon id).slots ∧
      { cache with slots }.abandon id = { cache.abandon id with slots := others } := by
  rw [abandon, abandon, slot?_of_perm distinct perm]
  split
  · exact ⟨_, perm.filter _, rfl⟩
  · exact ⟨slots, perm, rfl⟩

theorem trim_of_within {graph : Graph} {outside : List NodeRef}
    (within : ¬ (0 < cache.capacity && cache.capacity < cache.size) = true) :
    cache.trim graph outside id = (cache, []) := by
  rw [trim, if_neg within]

theorem trim_of_full {graph : Graph} {outside : List NodeRef}
    (full : (0 < cache.capacity && cache.capacity < cache.size) = true) :
    (cache.trim graph outside id).1 = (cache.reclaim graph outside (some id)).2 := by
  rw [trim, if_pos full]

/-! ## Moves in any order -/

/-- The surroundings of a move, if it needs any. -/
def Move.around? : Move → Option Surroundings
  | .insert around _ | .reclaim around | .finish around _ => some around
  | .peek _ | .ask _ => none

/-- The surroundings while more nodes are held. -/
def Surroundings.holding (around : Surroundings) (more : List NodeRef) : Surroundings :=
  { around with outside := around.outside ++ more }

theorem Surroundings.holds_holding (around : Surroundings) (left : List (String × Slot)) :
    (around.holding (nodesOf left)).Holds around left :=
  ⟨rfl, fun _ => List.mem_append⟩

/-- A move while more nodes are held. -/
def Move.holding (more : List NodeRef) : Move → Move
  | .insert around node => .insert (around.holding more) node
  | .reclaim around => .reclaim (around.holding more)
  | .finish around found => .finish (around.holding more) found
  | .peek id => .peek id
  | .ask id => .ask id

namespace Account

variable {account other after : Account} {move : Move} {moves : List Move}

/-- An account with the slots of its cache in another order. -/
def withSlots (account : Account) (slots : List (String × Slot)) : Account :=
  { account with cache := { account.cache with slots } }

/-- Accounts that differ at most in the order of the slots. -/
def Alike (account other : Account) : Prop :=
  ∃ slots, slots.Perm other.cache.slots ∧ account = other.withSlots slots

theorem Alike.refl (account : Account) : account.Alike account := ⟨_, .refl _, rfl⟩

/-- What a move comes to if the pass that it runs, if it runs one, goes over the slots in any
order. -/
inductive MovesTo (account : Account) : Move → Account → Prop where
  | filled {move : Move} {around : Surroundings} {id : String} {node : NodeRef}
      {order : List (String × Slot)} (fills : account.Fills move around id node)
      (perm : order.Perm (account.cache.setSlot id (.filled node)).slots) :
      MovesTo account move
        { account.step move with
          cache := ({ account.cache.setSlot id (.filled node) with slots := order }.trim
            around.graph around.outside id).1 }
  | reclaimed {around : Surroundings} {dropped : Nat} {after : Cache}
      (pass : Pass around account.cache dropped after) :
      MovesTo account (.reclaim around) { account with cache := after }
  | other {move : Move} (fillsNone : ∀ around id node, ¬ account.Fills move around id node)
      (isNoPass : ∀ around, move ≠ .reclaim around) :
      MovesTo account move (account.step move)

/-- What moves come to one after the other. -/
inductive RunsTo : Account → List Move → Account → Prop where
  | nil (account : Account) : RunsTo account [] account
  | cons {account between after : Account} {move : Move} {moves : List Move}
      (first : account.MovesTo move between) (later : RunsTo between moves after) :
      RunsTo account (move :: moves) after

theorem movesTo_step (account : Account) (move : Move) :
    account.MovesTo move (account.step move) := by
  by_cases fillsNone : ∀ around id node, ¬ account.Fills move around id node
  case neg =>
    simp only [not_forall, not_not] at fillsNone
    obtain ⟨around, id, node, fills⟩ := fillsNone
    have whole : account.step move = { account.step move with
        cache := (account.cache.publish around.graph around.outside id node).1 } := by
      rw [← fills.cache_step]
    rw [whole]
    exact .filled fills (.refl _)
  case pos =>
    by_cases isPass : ∃ around, move = .reclaim around
    · obtain ⟨around, rfl⟩ := isPass
      exact .reclaimed ⟨_, .refl _, rfl⟩
    · exact .other fillsNone (not_exists.mp isPass)

/-- Runs are among these, with the passes as they are. -/
theorem runsTo_run (account : Account) (moves : List Move) :
    account.RunsTo moves (account.run moves) := by
  induction moves generalizing account with
  | nil => exact .nil account
  | cons move moves ih => exact .cons (movesTo_step account move) (ih _)

/-! ### Any order is reached -/

theorem run_reclaims (account : Account) (around : Surroundings) (n : Nat) :
    account.run (.replicate n (.reclaim around)) =
      { account with cache := account.cache.reclaims around n } := by
  induction n generalizing account with
  | zero => rfl
  | succ n ih => exact ih (account.step (.reclaim around))

/-- A move that fills a slot does so in any order of the slots, and while more is held. -/
theorem Fills.step_withSlots (fills : account.Fills move around id node)
    (distinct : account.cache.Distinct) (perm : slots.Perm account.cache.slots)
    (more : List NodeRef) :
    (account.withSlots slots).step (move.holding more) =
      { account.step move with
        cache := ({ account.cache with slots }.publish around.graph (around.outside ++ more) id
          node).1 } := by
  cases fills with
  | insert around node unlocked =>
      have same := slot?_of_perm distinct perm (around.graph.node node).id
      simp only [step, permits, Move.id?, Move.holding, withSlots, Surroundings.holding]
      simp [unlocked, same, Cache.insert]
  | finish around node innermost =>
      simp [step, permits, innermost, Move.holding, withSlots, Surroundings.holding]

theorem step_finish_none {outer : List String} (innermost : account.running = id :: outer) :
    account.step (.finish around none) =
      { account with cache := account.cache.abandon id, running := outer } := by
  simp [step, permits, innermost]

/-- A move that fills no slot and is no pass does the same in any order of the slots. -/
theorem alike_step (distinct : account.cache.Distinct) (perm : slots.Perm account.cache.slots)
    (fillsNone : ∀ around id node, ¬ account.Fills move around id node)
    (isNoPass : ∀ around, move ≠ .reclaim around) :
    ((account.withSlots slots).step move).Alike (account.step move) := by
  have stays : (account.withSlots slots).Alike account := ⟨slots, perm, rfl⟩
  by_cases isPermitted : account.permits move = true
  case neg =>
    have refused : ¬ (account.withSlots slots).permits move = true := isPermitted
    rwa [step_of_not_permits isPermitted, step_of_not_permits refused]
  case pos =>
    have permittedToo : (account.withSlots slots).permits move = true := isPermitted
    cases move with
    | insert around node =>
        exact absurd (.insert around node (by simpa [permits, Move.id?] using isPermitted))
          (fillsNone _ _ _)
    | reclaim around => exact absurd rfl (isNoPass around)
    | peek id =>
        rw [step, step, if_pos isPermitted, if_pos permittedToo]
        exact stays
    | ask id =>
        obtain ⟨others, permOthers, requested⟩ := request_of_perm distinct perm id
        rw [step, step, if_pos isPermitted, if_pos permittedToo]
        refine ⟨others, permOthers, ?_⟩
        simp only [withSlots, requested]
    | finish around found =>
        cases innermost : account.running with
        | nil => simp [permits, innermost] at isPermitted
        | cons id outer =>
            cases found with
            | some node => exact absurd (.finish around node innermost) (fillsNone _ _ _)
            | none =>
                obtain ⟨others, permOthers, abandoned⟩ := abandon_of_perm distinct perm id
                have innermostToo : (account.withSlots slots).running = id :: outer := innermost
                rw [step_finish_none innermost, step_finish_none innermostToo]
                refine ⟨others, permOthers, ?_⟩
                simp only [withSlots, abandoned]

/-- Filling a slot comes to what it comes to in any order, if what this leaves is held and passes
are run after it. -/
theorem exists_run_of_fills (fills : other.Fills move around id node)
    (acyclic : around.graph.Acyclic) (distinct : other.cache.Distinct)
    (perm : slots.Perm other.cache.slots) {order : List (String × Slot)}
    (permOrder : order.Perm (other.cache.setSlot id (.filled node)).slots) :
    ∃ moves, ((other.withSlots slots).run moves).Alike
      { other.step move with
        cache := ({ other.cache.setSlot id (.filled node) with slots := order }.trim
          around.graph around.outside id).1 } := by
  let base := { other.cache with slots }.setSlot id (.filled node)
  let target : Cache := { other.cache.setSlot id (.filled node) with slots := order }
  change ∃ moves, ((other.withSlots slots).run moves).Alike { other.step move with
    cache := (target.trim around.graph around.outside id).1 }
  have permBase : base.slots.Perm target.slots := (setSlot_perm perm id _).trans permOrder.symm
  have size : base.size = target.size := permBase.length_eq
  have distinctTarget : target.Distinct := (distinct_setSlot distinct id _).of_perm permOrder
  have filled (more : List NodeRef) : (other.withSlots slots).step (move.holding more) =
      { other.step move with
        cache := (base.trim around.graph (around.outside ++ more) id).1 } :=
    fills.step_withSlots distinct perm more
  by_cases full : (0 < target.capacity && target.capacity < target.size) = true
  case neg =>
    -- no pass is run in either order
    have fullBase : ¬ (0 < base.capacity && base.capacity < base.size) = true := by rwa [size]
    refine ⟨[move.holding []], base.slots, ?_⟩
    rw [run, List.foldl_cons, List.foldl_nil, filled, trim_of_within fullBase, trim_of_within full]
    exact ⟨permBase, rfl⟩
  case pos =>
    have fullBase : (0 < base.capacity && base.capacity < base.size) = true := by rwa [size]
    rw [trim_of_full full]
    let more := nodesOf (target.reclaim around.graph around.outside (some id)).2.slots
    obtain ⟨n, last, permLast, ran⟩ := exists_reclaims_of_reclaim acyclic distinctTarget permBase
      (some id) (around.holds_holding _)
    refine ⟨move.holding more :: .replicate n (.reclaim (around.holding more)), last, permLast, ?_⟩
    rw [run, List.foldl_cons, filled, trim_of_full fullBase, ← run, run_reclaims]
    exact congrArg (fun cache => { other.step move with cache }) ran

/-- A pass comes to what it comes to in any order, if it is repeated while what this leaves is
held. -/
theorem exists_run_of_pass (acyclic : around.graph.Acyclic) (distinct : other.cache.Distinct)
    (perm : slots.Perm other.cache.slots) {dropped : Nat} {left : Cache}
    (pass : Pass around other.cache dropped left) :
    ∃ moves, ((other.withSlots slots).run moves).Alike { other with cache := left } := by
  obtain ⟨order, permOrder, rfl, rfl⟩ := pass
  let target := { other.cache with slots := order }
  have distinctTarget : target.Distinct := distinct.of_perm permOrder
  let more := nodesOf (target.reclaim around.graph around.outside none).2.slots
  obtain ⟨n, last, permLast, ran⟩ := exists_reclaims_of_reclaim acyclic distinctTarget
    (perm.trans permOrder.symm) none (around.holds_holding _)
  refine ⟨.replicate (n + 1) (.reclaim (around.holding more)), last, permLast, ?_⟩
  rw [run_reclaims]
  exact congrArg (fun cache => { other with cache }) ran

/-- What a move comes to with its pass in any order, other moves come to. -/
theorem exists_run_of_movesTo (balanced : account.Balanced) (alike : account.Alike other)
    (acyclic : ∀ around, move.around? = some around → around.graph.Acyclic)
    (movesTo : other.MovesTo move after) : ∃ moves, (account.run moves).Alike after := by
  obtain ⟨slots, perm, rfl⟩ := alike
  have distinct : other.cache.Distinct := (perm.map _).nodup_iff.mp balanced.distinct
  cases movesTo with
  | filled fills permOrder =>
      have isAcyclic := acyclic _ (by cases fills <;> rfl)
      exact exists_run_of_fills fills isAcyclic distinct perm permOrder
  | reclaimed pass => exact exists_run_of_pass (acyclic _ rfl) distinct perm pass
  | other fillsNone isNoPass => exact ⟨[move], alike_step distinct perm fillsNone isNoPass⟩

theorem run_append (account : Account) (first later : List Move) :
    account.run (first ++ later) = (account.run first).run later :=
  List.foldl_append ..

theorem exists_run_of_runsTo (balanced : account.Balanced) (alike : account.Alike other)
    (acyclic : ∀ move ∈ moves, ∀ around, move.around? = some around → around.graph.Acyclic)
    (runsTo : other.RunsTo moves after) : ∃ others, (account.run others).Alike after := by
  induction runsTo generalizing account with
  | nil => exact ⟨[], alike⟩
  | cons first later ih =>
      obtain ⟨isFirst, isLater⟩ := List.forall_mem_cons.mp acyclic
      obtain ⟨begun, between⟩ := exists_run_of_movesTo balanced alike isFirst first
      obtain ⟨others, reached⟩ := ih (balanced.run begun) between isLater
      exact ⟨begun ++ others, by rwa [run_append]⟩

/-- Whatever a cache comes to while each pass goes over the slots in an order of its own, a run
comes to it too, but for the order of the slots; and what a run comes to is among it. -/
theorem runs_reach_every_order (capacity : Nat) (moves : List Move) :
    (opened capacity).RunsTo moves ((opened capacity).run moves) ∧
      ∀ after, (opened capacity).RunsTo moves after →
        (∀ move ∈ moves, ∀ around, move.around? = some around → around.graph.Acyclic) →
        ∃ others, ((opened capacity).run others).Alike after :=
  ⟨runsTo_run _ moves, fun _ runsTo acyclic =>
    exists_run_of_runsTo (balanced_opened capacity) (.refl _) acyclic runsTo⟩

/-- What agrees with the books of an account agrees with them in any order of the slots. -/
theorem Alike.balanced (alike : account.Alike other) (balanced : account.Balanced) :
    other.Balanced := by
  obtain ⟨slots, perm, rfl⟩ := alike
  have distinct : other.cache.Distinct := (perm.map _).nodup_iff.mp balanced.distinct
  constructor
  case distinct => exact distinct
  case nodup => exact balanced.nodup
  case loading =>
    intro id
    rw [← slot?_of_perm distinct perm]
    exact balanced.loading id
  case entries =>
    have entries := balanced.entries
    rwa [withSlots, Cache.size, perm.length_eq] at entries
  case requests => exact balanced.requests

/-- The books of a cache are in order also where each pass goes over the slots in an order of its
own. -/
theorem balanced_of_runsTo {capacity : Nat} (runsTo : (opened capacity).RunsTo moves after)
    (acyclic : ∀ move ∈ moves, ∀ around, move.around? = some around → around.graph.Acyclic) :
    after.Balanced := by
  obtain ⟨others, alike⟩ := (runs_reach_every_order capacity moves).2 after runsTo acyclic
  exact alike.balanced ((balanced_opened capacity).run others)

end Account

end TraceStore.Cache
