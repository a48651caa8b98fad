import TraceStore.Event
import TraceStore.Graph

/-!
# The node cache

A cache maps ids to nodes.  An id that is asked for and not there gets a *loading* slot, which is
filled when the load succeeds and removed when it fails; so whoever asks for the same id meanwhile
finds the slot and waits for it.  A load is therefore three steps, between which other operations
may run: `request`, and then `publish` or `abandon`.

Entries are kept softly.  A pass of `reclaim` visits the slots one after the other and drops a node
that nothing but its own slot keeps alive.  A node dropped early in the pass may release its
predecessors for the rest of it.  The pass runs by itself once a cache with a capacity has grown
past it; the slot that is being filled at that moment is in use and stays.
-/

namespace TraceStore

/-- The place of an id in a cache. -/
inductive Slot where
  | loading
  | filled (node : NodeRef)
  deriving Repr, DecidableEq, Inhabited

/-- The node in a slot. -/
def Slot.node? : Slot → Option NodeRef
  | .loading => none
  | .filled node => some node

/-- A cache of nodes by id with its counters.  A capacity of zero stands for no bound. -/
structure Cache where
  capacity : Nat := 0
  slots : List (String × Slot) := []
  /-- How often a requested node was there. -/
  hits : Nat := 0
  /-- How often a load was begun. -/
  loads : Nat := 0
  /-- How many entries were reclaimed. -/
  reclaimed : Nat := 0
  deriving Repr, DecidableEq, Inhabited

namespace Cache

/-- The slot of an id. -/
def slot? (cache : Cache) (id : String) : Option Slot :=
  (cache.slots.find? (·.1 = id)).map (·.2)

/-- How many slots there are, those of running loads included. -/
def size (cache : Cache) : Nat := cache.slots.length

/-- The node that is cached for an id. -/
def peek (cache : Cache) (id : String) : Option NodeRef := (cache.slot? id).bind Slot.node?

/-- The nodes in given slots. -/
def nodesOf (slots : List (String × Slot)) : List NodeRef := slots.filterMap (·.2.node?)

/-- The nodes that the cache keeps alive. -/
def keeps (cache : Cache) : List NodeRef := nodesOf cache.slots

/-- The slots without that of one id. -/
def without (slots : List (String × Slot)) (id : String) : List (String × Slot) :=
  slots.filter (·.1 ≠ id)

/-- Sets the slot of an id. -/
def setSlot (cache : Cache) (id : String) (slot : Slot) : Cache :=
  { cache with slots := without cache.slots id ++ [(id, slot)] }

theorem slot?_setSlot_self (cache : Cache) (id : String) (slot : Slot) :
    (cache.setSlot id slot).slot? id = some slot := by
  have gone : (without cache.slots id).find? (·.1 = id) = none := by simp [without]
  simp [slot?, setSlot, List.find?_append, gone]

theorem slot?_setSlot_other (cache : Cache) {id other : String} (slot : Slot)
    (distinct : id ≠ other) : (cache.setSlot id slot).slot? other = cache.slot? other := by
  have agree : (fun item : String × Slot => (!decide (item.1 = id)) && decide (item.1 = other)) =
      fun item => decide (item.1 = other) := by
    funext item
    by_cases same : item.1 = other
    · simp [same, Ne.symm distinct]
    · simp [same]
  simp [slot?, setSlot, without, List.find?_append, List.find?_filter, agree, distinct]

/-! ## Reclamation -/

/-- Whether a pass drops a slot: a node that neither the outside nor another slot keeps alive, in a
slot that no operation uses. -/
def isDroppable (graph : Graph) (outside : List NodeRef) (used : Option String)
    (others : List (String × Slot)) : String × Slot → Bool
  | (_, .loading) => false
  | (id, .filled node) => used ≠ some id && !graph.reachable (outside ++ nodesOf others) node

/-- Visits the slots ahead and drops those that can be dropped at that moment. -/
def sweep (graph : Graph) (outside : List NodeRef) (used : Option String) :
    (kept ahead : List (String × Slot)) → List (String × Slot)
  | kept, [] => kept
  | kept, slot :: ahead =>
      if isDroppable graph outside used (kept ++ ahead) slot then
        sweep graph outside used kept ahead
      else sweep graph outside used (kept ++ [slot]) ahead

/-- One pass over all slots, while an operation may use one of them.  Gives also how many entries
were dropped. -/
def reclaim (cache : Cache) (graph : Graph) (outside : List NodeRef) (used : Option String) :
    Nat × Cache :=
  let kept := sweep graph outside used [] cache.slots
  let dropped := cache.size - kept.length
  (dropped, { cache with slots := kept, reclaimed := cache.reclaimed + dropped })

/-- The report of a pass that the capacity brought about. -/
def trimmed (dropped capacity : Nat) : Event :=
  ⟨.debug, .cache, "Reclaimed flow node cache entries",
    [("dropped", .count dropped), ("capacity", .count capacity)]⟩

/-- Runs a pass if the cache has grown past its capacity. -/
def trim (cache : Cache) (graph : Graph) (outside : List NodeRef) (used : String) :
    Cache × List Event :=
  if 0 < cache.capacity && cache.capacity < cache.size then
    let (dropped, cache) := cache.reclaim graph outside (some used)
    (cache, [trimmed dropped cache.capacity])
  else (cache, [])

/-! ## Loading and inserting -/

/-- Asks for a node.  If it is not there its slot is loading afterwards. -/
def request (cache : Cache) (id : String) : Option NodeRef × Cache :=
  match cache.peek id with
  | some node => (some node, { cache with hits := cache.hits + 1 })
  | none => (none, { cache.setSlot id .loading with loads := cache.loads + 1 })

/-- Ends a load that gave a node. -/
def publish (cache : Cache) (graph : Graph) (outside : List NodeRef) (id : String)
    (node : NodeRef) : Cache × List Event :=
  (cache.setSlot id (.filled node)).trim graph outside id

/-- Ends a load that failed. -/
def abandon (cache : Cache) (id : String) : Cache :=
  match cache.slot? id with
  | some .loading => { cache with slots := without cache.slots id }
  | _ => cache

/-- Caches a node under its id, in place of what was cached there. -/
def insert (cache : Cache) (graph : Graph) (outside : List NodeRef) (node : NodeRef) :
    Cache × List Event :=
  cache.publish graph outside (graph.node node).id node

end Cache

end TraceStore
