import TraceStore.Proofs.Cache.Reclamation

/-!
# The books of a cache

A cache is used move by move: nodes are inserted and looked at, passes are run, and nodes are asked
for.  A node that is asked for and not there is loaded, and while its load runs the loader may use
the cache itself, for other ids, so loads lie inside each other.  An `Account` keeps the ids of the
running loads, innermost first, and counts what the counters of the cache have to agree with.

`Account.Balanced` is the conservation law.  Every entry was inserted anew or loaded, and is still
there or was reclaimed; the only slots without a node are those of the running loads, one for each.
Passes go over the slots of outer loads without dropping them, whoever starts the pass.
-/

namespace TraceStore

namespace Cache

/-! ## Moves -/

/-- What is around a cache at a moment: the nodes that there are, and those that something else
than the cache holds. -/
structure Surroundings where
  graph : Graph
  outside : List NodeRef
  deriving Repr, DecidableEq, Inhabited

/-- One move in the use of a cache. -/
inductive Move where
  | insert (around : Surroundings) (node : NodeRef)
  | peek (id : String)
  | reclaim (around : Surroundings)
  /-- Asks for a node.  If it is not there its load begins. -/
  | ask (id : String)
  /-- Ends the load that was begun last, with a node or without one. -/
  | finish (around : Surroundings) (found : Option NodeRef)
  deriving Repr, DecidableEq

/-- The id whose slot a move takes hold of. -/
def Move.id? : Move → Option String
  | .insert around node => some (around.graph.node node).id
  | .peek id | .ask id => some id
  | .reclaim _ | .finish _ _ => none

/-- A cache with the loads that run, and what was done with it so far. -/
structure Account where
  cache : Cache
  /-- The ids of the running loads, the innermost first. -/
  running : List String := []
  /-- How many insertions found no entry. -/
  entered : Nat := 0
  /-- How many loads gave a node. -/
  loaded : Nat := 0
  /-- How often a node was asked for. -/
  asked : Nat := 0
  deriving Repr, DecidableEq, Inhabited

namespace Account

/-- The account of a new cache. -/
def opened (capacity : Nat) : Account where
  cache := { capacity }

/-- Whether a move can be made: the slot of a running load is locked, and only a running load
ends. -/
def permits (account : Account) (move : Move) : Bool :=
  match move with
  | .finish _ _ => !account.running.isEmpty
  | _ => move.id?.all fun id => !account.running.contains id

/-- Makes a move.  A move that cannot be made leaves the account as it is. -/
def step (account : Account) (move : Move) : Account :=
  if account.permits move then
    match move with
    | .insert around node =>
        let found := account.cache.slot? (around.graph.node node).id
        { account with
          cache := (account.cache.insert around.graph around.outside node).1
          entered := if found.isNone then account.entered + 1 else account.entered }
    | .peek _ => account
    | .reclaim around =>
        { account with cache := (account.cache.reclaim around.graph around.outside none).2 }
    | .ask id =>
        let (found, cache) := account.cache.request id
        { account with
          cache
          running := if found.isNone then id :: account.running else account.running
          asked := account.asked + 1 }
    | .finish around found =>
        match account.running, found with
        | [], _ => account
        | id :: outer, some node =>
            { account with
              cache := (account.cache.publish around.graph around.outside id node).1
              running := outer
              loaded := account.loaded + 1 }
        | id :: outer, none =>
            { account with cache := account.cache.abandon id, running := outer }
  else account

theorem step_of_not_permits {account : Account} {move : Move}
    (refused : ¬ account.permits move) : account.step move = account := by
  simp [step, refused]

/-- Makes moves one after the other. -/
def run (account : Account) (moves : List Move) : Account := moves.foldl step account

end Account

/-! ## Slots -/

variable {graph : Graph} {outside : List NodeRef} {used : Option String} {cache : Cache}
  {id other : String}

/-- Without the slot of an id there is one slot less, if the id had one. -/
theorem length_without {slots : List (String × Slot)} (distinct : (slots.map (·.1)).Nodup)
    (id : String) :
    (without slots id).length + (if slots.any (·.1 = id) then 1 else 0) = slots.length := by
  induction slots with
  | nil => rfl
  | cons slot others ih =>
      rw [List.map_cons, List.nodup_cons] at distinct
      have rest := ih distinct.2
      by_cases own : slot.1 = id
      · -- the id has no further slot
        have absent : others.any (·.1 = id) = false := by
          rw [List.any_eq_false]
          intro other member
          have apart : other.1 ≠ id := fun same =>
            distinct.1 (List.mem_map.mpr ⟨other, member, same.trans own.symm⟩)
          simpa using apart
        rw [absent] at rest
        simpa [without, own] using rest
      · rw [without, List.filter_cons_of_pos (by simpa using own), ← without, List.any_cons]
        simp only [own, decide_false, Bool.false_or, List.length_cons]
        omega

theorem isSome_slot? (cache : Cache) (id : String) :
    (cache.slot? id).isSome = cache.slots.any (·.1 = id) := by
  rw [slot?, Option.isSome_map, Bool.eq_iff_iff, List.find?_isSome, List.any_eq_true]

/-- Setting a slot makes one more, unless the id had one. -/
theorem size_setSlot (distinct : cache.Distinct) (id : String) (slot : Slot) :
    (cache.setSlot id slot).size = cache.size + if (cache.slot? id).isNone then 1 else 0 := by
  have length := length_without distinct id
  rw [← isSome_slot?] at length
  have size : (cache.setSlot id slot).size = (without cache.slots id).length + 1 := by
    simp [Cache.size, setSlot]
  rw [size]
  cases found : cache.slot? id with
  | none =>
      rw [found] at length
      simpa [Cache.size] using length
  | some there =>
      rw [found] at length
      simpa [Cache.size] using length

/-! ## Passes -/

/-- A pass drops none of some slots, if none of them can be dropped while the others are there. -/
theorem mem_sweep_of_together (Safe : String × Slot → Prop) {kept ahead : List (String × Slot)}
    (there : ∀ slot, Safe slot → slot ∈ kept ++ ahead)
    (together : ∀ slot others, Safe slot → (∀ other, Safe other → other ≠ slot → other ∈ others) →
      isDroppable graph outside used others slot = false)
    {slot : String × Slot} (safe : Safe slot) : slot ∈ sweep graph outside used kept ahead := by
  induction ahead generalizing kept with
  | nil => simpa [sweep] using there slot safe
  | cons first ahead ih =>
      have others : ∀ other, Safe other → other ≠ first → other ∈ kept ++ ahead := by
        intro other isSafe apart
        simpa [apart] using there other isSafe
      rw [sweep]
      split
      · next droppable =>
          apply ih
          intro other isSafe
          apply others other isSafe
          rintro rfl
          simp [together other _ isSafe others] at droppable
      · apply ih
        intro other isSafe
        simpa using there other isSafe

/-- No pass drops a slot that can never be dropped. -/
theorem mem_sweep_of_not_droppable (graph : Graph) (outside : List NodeRef)
    (used : Option String) {slot : String × Slot} (kept ahead : List (String × Slot))
    (member : slot ∈ kept ++ ahead)
    (never : ∀ others, isDroppable graph outside used others slot = false) :
    slot ∈ sweep graph outside used kept ahead := by
  apply mem_sweep_of_together (fun other => other = slot) _ _ rfl
  · rintro _ rfl
    exact member
  · rintro _ others rfl _
    exact never others

/-- No pass drops the slot of a running load. -/
theorem loading_mem_sweep (graph : Graph) (outside : List NodeRef) (used : Option String)
    (kept ahead : List (String × Slot)) (member : (id, Slot.loading) ∈ kept ++ ahead) :
    (id, Slot.loading) ∈ sweep graph outside used kept ahead :=
  mem_sweep_of_not_droppable graph outside used kept ahead member fun _ => rfl

/-- A pass that was run or not: the slots of running loads are those that there were, and what was
dropped is counted. -/
structure Counted (before after : Cache) : Prop where
  distinct : before.Distinct → after.Distinct
  loading : before.Distinct → ∀ id,
    after.slot? id = some .loading ↔ before.slot? id = some .loading
  entries : after.size + after.reclaimed = before.size + before.reclaimed
  hits : after.hits = before.hits
  loads : after.loads = before.loads

theorem Counted.refl (cache : Cache) : Counted cache cache :=
  ⟨fun distinct => distinct, fun _ _ => Iff.rfl, rfl, rfl, rfl⟩

theorem counted_reclaim (graph : Graph) (outside : List NodeRef) (used : Option String)
    (cache : Cache) : Counted cache (cache.reclaim graph outside used).2 := by
  have sublist : (cache.reclaim graph outside used).2.slots.Sublist cache.slots :=
    sweep_sublist graph outside used [] cache.slots
  have kept (distinct : cache.Distinct) : (cache.reclaim graph outside used).2.Distinct :=
    distinct.sublist (sublist.map _)
  constructor
  case distinct => exact kept
  case loading =>
    intro distinct id
    rw [slot?_eq_some_iff (kept distinct), slot?_eq_some_iff distinct]
    constructor
    · intro member
      exact sublist.subset member
    · intro member
      exact loading_mem_sweep graph outside used [] cache.slots member
  case entries =>
    have shorter := sublist.length_le
    simp only [reclaim, Cache.size] at shorter ⊢
    omega
  case hits => rfl
  case loads => rfl

theorem counted_trim (graph : Graph) (outside : List NodeRef) (id : String) (cache : Cache) :
    Counted cache (cache.trim graph outside id).1 := by
  rw [trim]
  split
  · exact counted_reclaim graph outside (some id) cache
  · exact .refl cache

/-! ## Filling and abandoning a slot -/

/-- The slot of an id was filled, and a pass may have been run after that. -/
structure Filled (id : String) (before after : Cache) : Prop where
  distinct : before.Distinct → after.Distinct
  loading : before.Distinct → ∀ other,
    after.slot? other = some .loading ↔ id ≠ other ∧ before.slot? other = some .loading
  entries : before.Distinct → after.size + after.reclaimed =
    before.size + before.reclaimed + if (before.slot? id).isNone then 1 else 0
  hits : after.hits = before.hits
  loads : after.loads = before.loads

theorem filled_publish (graph : Graph) (outside : List NodeRef) (id : String) (node : NodeRef)
    (cache : Cache) : Filled id cache (cache.publish graph outside id node).1 := by
  have counted := counted_trim graph outside id (cache.setSlot id (.filled node))
  constructor
  case distinct =>
    intro distinct
    exact counted.distinct (distinct_setSlot distinct id _)
  case loading =>
    intro distinct other
    apply (counted.loading (distinct_setSlot distinct id _) other).trans
    by_cases same : id = other
    · subst same
      simp [slot?_setSlot_self]
    · simp [slot?_setSlot_other _ _ same, same]
  case entries =>
    intro distinct
    rw [publish, counted.entries, size_setSlot distinct]
    exact Nat.add_right_comm ..
  case hits => exact counted.hits
  case loads => exact counted.loads

theorem size_abandon (distinct : cache.Distinct) (isLoading : cache.slot? id = some .loading) :
    (cache.abandon id).size + 1 = cache.size := by
  have length := length_without distinct id
  rw [← isSome_slot?, isLoading] at length
  rw [Cache.size, slots_abandon isLoading]
  exact length

@[simp] theorem reclaimed_abandon (cache : Cache) (id : String) :
    (cache.abandon id).reclaimed = cache.reclaimed := by
  rw [abandon]
  split <;> rfl

@[simp] theorem hits_abandon (cache : Cache) (id : String) :
    (cache.abandon id).hits = cache.hits := by
  rw [abandon]
  split <;> rfl

@[simp] theorem loads_abandon (cache : Cache) (id : String) :
    (cache.abandon id).loads = cache.loads := by
  rw [abandon]
  split <;> rfl

/-! ## The conservation law -/

namespace Account

variable {account : Account}

/-- The books of an account agree with its cache. -/
structure Balanced (account : Account) : Prop where
  distinct : account.cache.Distinct
  /-- No load runs inside another load of its id. -/
  nodup : account.running.Nodup
  loading : ∀ id, account.cache.slot? id = some .loading ↔ id ∈ account.running
  entries : account.cache.size + account.cache.reclaimed =
    account.entered + account.loaded + account.running.length
  requests : account.cache.hits + account.cache.loads = account.asked

theorem balanced_opened (capacity : Nat) : (opened capacity).Balanced where
  distinct := List.nodup_nil
  nodup := List.nodup_nil
  loading := by simp [opened, slot?]
  entries := rfl
  requests := rfl

namespace Balanced

variable (balanced : account.Balanced)

include balanced

/-- An id that no load runs for has a node or no slot at all. -/
theorem slot?_eq_none (apart : id ∉ account.running) (unfound : account.cache.peek id = none) :
    account.cache.slot? id = none := by
  rw [peek] at unfound
  cases found : account.cache.slot? id with
  | none => rfl
  | some slot =>
      cases slot with
      | loading => exact absurd ((balanced.loading id).mp found) apart
      | filled node => simp [found, Slot.node?] at unfound

theorem insert (around : Surroundings) (node : NodeRef)
    (apart : (around.graph.node node).id ∉ account.running) :
    (account.step (.insert around node)).Balanced := by
  have filled := filled_publish around.graph around.outside (around.graph.node node).id node
    account.cache
  have isPermitted : account.permits (.insert around node) = true := by
    simpa [permits, Move.id?] using apart
  rw [step, if_pos isPermitted]
  constructor
  case distinct => exact filled.distinct balanced.distinct
  case nodup => exact balanced.nodup
  case loading =>
    intro id
    apply (filled.loading balanced.distinct id).trans
    rw [balanced.loading]
    constructor
    · rintro ⟨-, isRunning⟩
      exact isRunning
    · intro isRunning
      refine ⟨?_, isRunning⟩
      rintro rfl
      exact apart isRunning
  case entries =>
    have entries := filled.entries balanced.distinct
    have before := balanced.entries
    simp only [Cache.insert]
    split at entries
    · next isNew =>
        rw [if_pos isNew]
        omega
    · next isOld =>
        rw [if_neg isOld]
        omega
  case requests => simpa [Cache.insert, filled.hits, filled.loads] using balanced.requests

theorem reclaim (around : Surroundings) : (account.step (.reclaim around)).Balanced := by
  have counted := counted_reclaim around.graph around.outside none account.cache
  constructor
  case distinct => exact counted.distinct balanced.distinct
  case nodup => exact balanced.nodup
  case loading =>
    intro id
    exact (counted.loading balanced.distinct id).trans (balanced.loading id)
  case entries => exact counted.entries.trans balanced.entries
  case requests => exact balanced.requests

theorem ask (apart : id ∉ account.running) : (account.step (.ask id)).Balanced := by
  have isPermitted : account.permits (.ask id) = true := by
    simpa [permits, Move.id?] using apart
  rw [step, if_pos isPermitted]
  cases found : account.cache.peek id with
  | some node =>
      simp only [request, found]
      constructor
      case distinct => exact balanced.distinct
      case nodup => exact balanced.nodup
      case loading => exact balanced.loading
      case entries => exact balanced.entries
      case requests =>
        have requests := balanced.requests
        simp only
        omega
  | none =>
      have isNew := balanced.slot?_eq_none apart found
      simp only [request, found]
      constructor
      case distinct => exact distinct_setSlot balanced.distinct id _
      case nodup => exact List.nodup_cons.mpr ⟨apart, balanced.nodup⟩
      case loading =>
        intro other
        show (account.cache.setSlot id .loading).slot? other = _ ↔ _
        by_cases same : id = other
        · subst same
          simp [slot?_setSlot_self]
        · simp [slot?_setSlot_other _ _ same, balanced.loading, Ne.symm same]
      case entries =>
        have size := size_setSlot balanced.distinct id .loading
        have before := balanced.entries
        rw [isNew] at size
        change (account.cache.setSlot id .loading).size + account.cache.reclaimed =
          account.entered + account.loaded + (account.running.length + 1)
        simp only [Option.isNone_none, if_true] at size
        omega
      case requests =>
        have requests := balanced.requests
        simp only [setSlot]
        omega

theorem finish_with {outer : List String} (innermost : account.running = id :: outer)
    (around : Surroundings) (node : NodeRef) :
    (account.step (.finish around (some node))).Balanced := by
  have filled := filled_publish around.graph around.outside id node account.cache
  have nodup := balanced.nodup
  rw [innermost, List.nodup_cons] at nodup
  simp only [step, permits, innermost, List.isEmpty_cons, Bool.not_false, if_true]
  constructor
  case distinct => exact filled.distinct balanced.distinct
  case nodup => exact nodup.2
  case loading =>
    intro other
    apply (filled.loading balanced.distinct other).trans
    rw [balanced.loading, innermost, List.mem_cons]
    constructor
    · rintro ⟨apart, rfl | isOuter⟩
      · exact absurd rfl apart
      · exact isOuter
    · intro isOuter
      refine ⟨?_, .inr isOuter⟩
      rintro rfl
      exact nodup.1 isOuter
  case entries =>
    -- the slot was there already, as that of a running load
    have isLoading := (balanced.loading id).mpr (by simp [innermost])
    have entries := filled.entries balanced.distinct
    have before := balanced.entries
    rw [isLoading] at entries
    rw [innermost, List.length_cons] at before
    simp only [Option.isNone_some, Bool.false_eq_true, if_false] at entries ⊢
    omega
  case requests => simpa [filled.hits, filled.loads] using balanced.requests

theorem finish_without {outer : List String} (innermost : account.running = id :: outer)
    (around : Surroundings) : (account.step (.finish around none)).Balanced := by
  have isLoading := (balanced.loading id).mpr (by simp [innermost])
  have nodup := balanced.nodup
  rw [innermost, List.nodup_cons] at nodup
  simp only [step, permits, innermost, List.isEmpty_cons, Bool.not_false, if_true]
  constructor
  case distinct =>
    rw [Distinct, slots_abandon isLoading]
    exact balanced.distinct.sublist (List.filter_sublist.map _)
  case nodup => exact nodup.2
  case loading =>
    intro other
    rw [slot?_of_without (slots_abandon isLoading)]
    split
    · next same =>
        subst same
        simp [nodup.1]
    · next apart => simp [balanced.loading, innermost, Ne.symm apart]
  case entries =>
    have size := size_abandon balanced.distinct isLoading
    have before := balanced.entries
    rw [innermost, List.length_cons] at before
    simp only [reclaimed_abandon]
    omega
  case requests => simpa using balanced.requests

/-- Every move keeps the books in order, and so does an attempt at one that cannot be made. -/
theorem step (move : Move) : (account.step move).Balanced := by
  by_cases isPermitted : account.permits move = true
  case neg =>
    rw [step_of_not_permits isPermitted]
    exact balanced
  case pos =>
    cases move with
    | insert around node =>
        apply balanced.insert around node
        simpa [permits, Move.id?] using isPermitted
    | peek id => simpa [Account.step] using balanced
    | reclaim around => exact balanced.reclaim around
    | ask id =>
        apply balanced.ask
        simpa [permits, Move.id?] using isPermitted
    | finish around found =>
        cases innermost : account.running with
        | nil => simp [permits, innermost] at isPermitted
        | cons id outer =>
            cases found with
            | some node => exact balanced.finish_with innermost around node
            | none => exact balanced.finish_without innermost around

theorem run (moves : List Move) : (account.run moves).Balanced := by
  induction moves generalizing account with
  | nil => exact balanced
  | cons move moves ih => exact ih (balanced.step move)

/-- While no load runs, every slot has a node. -/
theorem filled_of_idle (idle : account.running = []) {slot : String × Slot}
    (member : slot ∈ account.cache.slots) : ∃ node, slot.2 = .filled node := by
  rcases slot with ⟨id, state⟩
  cases state with
  | filled node => exact ⟨node, rfl⟩
  | loading =>
      have isLoading := (slot?_eq_some_iff balanced.distinct id .loading).mpr member
      rw [balanced.loading, idle] at isLoading
      exact absurd isLoading List.not_mem_nil

/-- The slots without a node are those of the running loads, one for each. -/
theorem perm_running :
    ((account.cache.slots.filter (·.2 = .loading)).map (·.1)).Perm account.running := by
  rw [List.perm_ext_iff_of_nodup
    (balanced.distinct.sublist (List.filter_sublist.map _)) balanced.nodup]
  intro id
  rw [← balanced.loading, slot?_eq_some_iff balanced.distinct]
  constructor
  · intro member
    rcases List.mem_map.mp member with ⟨⟨key, slot⟩, there, rfl⟩
    obtain ⟨there, rfl⟩ : _ ∧ slot = .loading := by simpa using there
    exact there
  · intro there
    exact List.mem_map.mpr ⟨(id, .loading), List.mem_filter.mpr ⟨there, by simp⟩, rfl⟩

end Balanced

end Account

end Cache

end TraceStore
