import TraceStore.Cache
import TraceStore.Proofs.Deferred
import TraceStore.Proofs.Graph.Growth

/-!
# What a pass over the cache drops

A pass drops a node only if, once the pass is over, nothing reaches the node: neither the outside
nor what the cache still holds.  `Cache.Trimmed` states this of the cache before and after, together
with the fact that a pass adds nothing, and it holds of a pass that was asked for and of one that
the capacity brought about.

Lookups by id determine the slots as long as no id has two of them; `Cache.Distinct` is kept by all
operations.
-/

namespace TraceStore.Cache

variable {graph : Graph} {outside : List NodeRef} {used : Option String} {cache : Cache}
  {id other : String} {node : NodeRef}

/-! ## One slot for an id -/

/-- No id has two slots. -/
def Distinct (cache : Cache) : Prop := (cache.slots.map (·.1)).Nodup

theorem distinct_setSlot (distinct : cache.Distinct) (id : String) (slot : Slot) :
    (cache.setSlot id slot).Distinct := by
  rw [Distinct, setSlot, List.map_append, List.nodup_append]
  refine ⟨distinct.sublist (List.filter_sublist.map _), by simp, ?_⟩
  rintro first isOther second isId rfl
  rcases List.mem_map.mp isOther with ⟨item, member, rfl⟩
  have apart := (List.mem_filter.mp member).2
  simp_all

theorem slot?_eq_some_iff (distinct : cache.Distinct) (id : String) (slot : Slot) :
    cache.slot? id = some slot ↔ (id, slot) ∈ cache.slots :=
  find?_key_eq_some_iff distinct id slot

theorem peek_eq_some_iff (distinct : cache.Distinct) (id : String) (node : NodeRef) :
    cache.peek id = some node ↔ (id, .filled node) ∈ cache.slots := by
  rw [← slot?_eq_some_iff distinct, peek]
  cases cache.slot? id with
  | none => simp
  | some slot => cases slot <;> simp [Slot.node?]

theorem mem_keeps_iff (cache : Cache) (node : NodeRef) :
    node ∈ cache.keeps ↔ ∃ id, (id, .filled node) ∈ cache.slots := by
  simp only [keeps, nodesOf, List.mem_filterMap]
  constructor
  · rintro ⟨⟨id, slot⟩, member, filled⟩
    cases slot with
    | loading => simp [Slot.node?] at filled
    | filled there =>
        obtain rfl : there = node := by simpa [Slot.node?] using filled
        exact ⟨id, member⟩
  · rintro ⟨id, member⟩
    exact ⟨_, member, rfl⟩

theorem mem_of_slot? {slot : Slot} (found : cache.slot? id = some slot) :
    (id, slot) ∈ cache.slots := by
  rcases Option.map_eq_some_iff.mp found with ⟨⟨key, state⟩, there, rfl⟩
  obtain rfl : key = id := by simpa using List.find?_some there
  exact List.mem_of_find?_eq_some there

theorem mem_keeps_of_peek (found : cache.peek id = some node) : node ∈ cache.keeps := by
  rw [peek, slot?] at found
  rcases Option.bind_eq_some_iff.mp found with ⟨slot, isSlot, filled⟩
  rcases Option.map_eq_some_iff.mp isSlot with ⟨item, there, rfl⟩
  exact List.mem_filterMap.mpr ⟨item, List.mem_of_find?_eq_some there, filled⟩

@[simp] theorem peek_setSlot_self (cache : Cache) (id : String) (slot : Slot) :
    (cache.setSlot id slot).peek id = slot.node? := by
  simp [peek, slot?_setSlot_self]

theorem peek_setSlot_other (cache : Cache) (slot : Slot) (distinct : id ≠ other) :
    (cache.setSlot id slot).peek other = cache.peek other := by
  rw [peek, slot?_setSlot_other cache slot distinct, peek]

theorem peek_of_slots {others : Cache} (same : others.slots = cache.slots) (id : String) :
    others.peek id = cache.peek id := by
  rw [peek, slot?, same, peek, slot?]

theorem slot?_of_without {others : Cache} (slots : others.slots = without cache.slots id)
    (other : String) : others.slot? other = if id = other then none else cache.slot? other := by
  rw [slot?, slots]
  split
  · next same =>
      subst same
      have gone : (without cache.slots id).find? (·.1 = id) = none := by simp [without]
      rw [gone, Option.map_none]
  · next apart =>
      rw [slot?, without, List.find?_filter]
      congr 2
      funext item
      by_cases same : item.1 = other
      · simp [same, Ne.symm apart]
      · simp [same]

/-- An id without a slot has none to be taken away. -/
theorem without_of_absent (absent : cache.slot? id = none) :
    without cache.slots id = cache.slots := by
  rw [without, List.filter_eq_self]
  simpa [slot?] using absent

/-- A cache without the slot of one id has the other nodes. -/
theorem peek_of_without {others : Cache} (slots : others.slots = without cache.slots id)
    (other : String) : others.peek other = if id = other then none else cache.peek other := by
  rw [peek, slot?_of_without slots, peek]
  split <;> rfl

/-- The load of an id that is loading ends without a node: its slot goes, and nothing else. -/
theorem slots_abandon (isLoading : cache.slot? id = some .loading) :
    (cache.abandon id).slots = without cache.slots id := by
  simp [abandon, isLoading]

theorem mem_keeps_setSlot {slot : Slot} (kept : node ∈ (cache.setSlot id slot).keeps) :
    slot = .filled node ∨ node ∈ cache.keeps := by
  rcases (mem_keeps_iff _ _).mp kept with ⟨key, member⟩
  cases List.mem_append.mp member with
  | inl earlier => exact .inr ((mem_keeps_iff _ _).mpr ⟨key, (List.mem_filter.mp earlier).1⟩)
  | inr new =>
      rcases Prod.mk.inj (List.mem_singleton.mp new) with ⟨-, rfl⟩
      exact .inl rfl

/-! ## The sweep -/

theorem nodesOf_subset {slots others : List (String × Slot)} (subset : slots ⊆ others) :
    nodesOf slots ⊆ nodesOf others := by
  intro node member
  rcases List.mem_filterMap.mp member with ⟨item, there, filled⟩
  exact List.mem_filterMap.mpr ⟨item, subset there, filled⟩

theorem sweep_sublist (graph : Graph) (outside : List NodeRef) (used : Option String)
    (kept ahead : List (String × Slot)) :
    (sweep graph outside used kept ahead).Sublist (kept ++ ahead) := by
  induction ahead generalizing kept with
  | nil => simp [sweep]
  | cons slot ahead ih =>
      rw [sweep]
      split
      · exact (ih kept).trans (List.Sublist.append_left (List.sublist_cons_self slot ahead) kept)
      · simpa using ih (kept ++ [slot])

/-- A slot that a pass drops: a filled one, not in use, whose node is reached by nothing that is
left. -/
structure Unreached (graph : Graph) (outside : List NodeRef) (used : Option String)
    (left : List (String × Slot)) (slot : String × Slot) : Prop where
  notUsed : used ≠ some slot.1
  unreached : ∃ node, slot.2 = .filled node ∧ ¬ Graph.Reaches graph (outside ++ nodesOf left) node

theorem unreached_of_isDroppable (acyclic : graph.Acyclic) {others : List (String × Slot)}
    {slot : String × Slot} (droppable : isDroppable graph outside used others slot = true) :
    Unreached graph outside used others slot := by
  rcases slot with ⟨id, state⟩
  cases state with
  | loading => simp [isDroppable] at droppable
  | filled node =>
      simp only [isDroppable, Bool.and_eq_true, decide_eq_true_eq, Bool.not_eq_true'] at droppable
      refine ⟨droppable.1, node, rfl, ?_⟩
      intro reached
      rw [(Graph.reachable_iff acyclic _ _).mpr reached] at droppable
      simp at droppable

theorem sweep_dropped (acyclic : graph.Acyclic) (outside : List NodeRef) (used : Option String)
    (kept ahead : List (String × Slot)) {slot : String × Slot} (member : slot ∈ kept ++ ahead) :
    slot ∈ sweep graph outside used kept ahead ∨
      Unreached graph outside used (sweep graph outside used kept ahead) slot := by
  induction ahead generalizing kept with
  | nil => exact .inl (by simpa [sweep] using member)
  | cons first ahead ih =>
      rw [sweep]
      split
      · next droppable =>
          by_cases same : slot = first
          · -- what is left in the end is part of what was there when the slot was dropped
            subst same
            obtain ⟨notUsed, node, filled, unreached⟩ := unreached_of_isDroppable acyclic droppable
            refine .inr ⟨notUsed, node, filled, fun reached => unreached (reached.mono ?_)⟩
            intro root isRoot
            have subset := nodesOf_subset (sweep_sublist graph outside used kept ahead).subset
            exact List.mem_append.mpr
              ((List.mem_append.mp isRoot).imp_right fun left => subset left)
          · exact ih kept (by simpa [same] using member)
      · exact ih (kept ++ [first]) (by simpa using member)

/-! ## Passes -/

/-- A pass went over a cache: nothing was added, and only what nothing reaches was dropped. -/
structure Trimmed (graph : Graph) (outside : List NodeRef) (used : Option String)
    (before after : Cache) : Prop where
  sublist : after.slots.Sublist before.slots
  dropped : ∀ slot ∈ before.slots, slot ∈ after.slots ∨
    Unreached graph outside used after.slots slot

theorem trimmed_reclaim (acyclic : graph.Acyclic) (outside : List NodeRef) (used : Option String)
    (cache : Cache) : Trimmed graph outside used cache (cache.reclaim graph outside used).2 where
  sublist := sweep_sublist graph outside used [] cache.slots
  dropped _ member := sweep_dropped acyclic outside used [] cache.slots member

theorem trimmed_trim (acyclic : graph.Acyclic) (outside : List NodeRef) (id : String)
    (cache : Cache) : Trimmed graph outside (some id) cache (cache.trim graph outside id).1 := by
  rw [trim]
  split
  · exact trimmed_reclaim acyclic outside (some id) cache
  · exact ⟨List.Sublist.refl _, fun _ member => .inl member⟩

namespace Trimmed

variable {before after : Cache} (trimmed : Trimmed graph outside used before after)

include trimmed

theorem distinct (distinct : before.Distinct) : after.Distinct :=
  distinct.sublist (trimmed.sublist.map _)

theorem keeps_subset : after.keeps ⊆ before.keeps := nodesOf_subset trimmed.sublist.subset

theorem peek_of_peek (distinct : before.Distinct) (found : after.peek id = some node) :
    before.peek id = some node := by
  rw [peek_eq_some_iff (trimmed.distinct distinct)] at found
  exact (peek_eq_some_iff distinct _ _).mpr (trimmed.sublist.subset found)

/-- A node that was cached still is, unless nothing reaches it. -/
theorem peek_or_unreached (distinct : before.Distinct) (found : before.peek id = some node) :
    after.peek id = some node ∨
      (used ≠ some id ∧ after.peek id = none ∧
        ¬ Graph.Reaches graph (outside ++ after.keeps) node) := by
  have member := (peek_eq_some_iff distinct _ _).mp found
  rw [peek_eq_some_iff (trimmed.distinct distinct)]
  cases trimmed.dropped _ member with
  | inl left => exact .inl left
  | inr gone =>
      rcases gone with ⟨notUsed, there, filled, unreached⟩
      obtain rfl : node = there := by simpa using filled
      refine .inr ⟨notUsed, ?_, unreached⟩
      rw [Option.eq_none_iff_forall_ne_some]
      intro still isStill
      have again := trimmed.peek_of_peek distinct isStill
      obtain rfl : node = still := by simpa [found] using again
      exact unreached (.root (List.mem_append_right _ (mem_keeps_of_peek isStill)))

end Trimmed

/-- A cache in which a slot was filled keeps alive nothing new but the node in it. -/
theorem Trimmed.mem_of_filled {cache after : Cache} {root : NodeRef}
    (trimmed : Trimmed graph outside used (cache.setSlot id (.filled node)) after)
    (member : root ∈ outside ++ after.keeps) : root = node ∨ root ∈ outside ++ cache.keeps := by
  cases List.mem_append.mp member with
  | inl isOutside => exact .inr (List.mem_append_left _ isOutside)
  | inr kept =>
      cases mem_keeps_setSlot (trimmed.keeps_subset kept) with
      | inl new => exact .inl (by simpa [eq_comm] using new)
      | inr old => exact .inr (List.mem_append_right _ old)

/-- A slot that was just filled is not emptied to make room. -/
theorem Trimmed.peek_filled {cache after : Cache}
    (trimmed : Trimmed graph outside (some id) (cache.setSlot id (.filled node)) after)
    (distinct : cache.Distinct) : after.peek id = some node := by
  have filled := distinct_setSlot distinct id (.filled node)
  have found : (cache.setSlot id (.filled node)).peek id = some node := by
    rw [peek_setSlot_self, Slot.node?]
  exact (trimmed.peek_or_unreached filled found).resolve_right fun gone => gone.1 rfl

end TraceStore.Cache
