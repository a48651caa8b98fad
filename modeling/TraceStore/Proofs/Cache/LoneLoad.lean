import TraceStore.Proofs.Cache.Bookkeeping

/-!
# One load of a node

`Cache.alone` is what a caller makes of a cache that does not have the node it asks for: a load is
begun and its node is published, and a cache that was full runs a pass.  The slot of the node is
never dropped by this pass, and is the last one after it.
-/

namespace TraceStore.Cache

variable {cache : Cache} {id : String}

/-- What one caller alone makes of a cache that does not have a node. -/
def alone (cache : Cache) (id : String) (around : Surroundings) (node : NodeRef) : Cache :=
  ((cache.request id).2.publish around.graph around.outside id node).1

/-- Whether a cache grows past its capacity by one entry more. -/
def isFull (cache : Cache) : Bool := 0 < cache.capacity && cache.capacity ≤ cache.size

/-! ## Slots that a pass keeps -/

/-- No pass drops the slot that an operation uses. -/
theorem used_mem_sweep (graph : Graph) (outside : List NodeRef) (slot : Slot)
    (kept ahead : List (String × Slot)) (member : (id, slot) ∈ kept ++ ahead) :
    (id, slot) ∈ sweep graph outside (some id) kept ahead := by
  apply mem_sweep_of_not_droppable _ _ _ _ _ member
  intro others
  cases slot <;> simp [isDroppable]

/-- What is left of slots that end with that of an id ends with it, if it is left. -/
theorem eq_without_concat {kept : List (String × Slot)} (slots : List (String × Slot))
    {slot : Slot} (sublist : kept.Sublist (without slots id ++ [(id, slot)]))
    (member : (id, slot) ∈ kept) :
    kept = without kept id ++ [(id, slot)] := by
  obtain ⟨left, right, rfl, isLeft, isRight⟩ := List.sublist_append_iff.mp sublist
  have gone : ∀ item ∈ left, item.1 ≠ id := fun item inside => by
    simpa [without] using (List.mem_filter.mp (isLeft.subset inside)).2
  have own : right = [(id, slot)] := by
    rcases List.sublist_singleton.mp isRight with rfl | isOwn
    · exact absurd rfl (gone _ (by simpa using member))
    · exact isOwn
  have leftStays : without left id = left := by
    rw [without, List.filter_eq_self]
    simpa using gone
  rw [own, without, List.filter_append, ← without, leftStays]
  simp

/-- A pass leaves the slot that an operation uses as the last one. -/
theorem reclaim_setSlot (cache : Cache) (id : String) (graph : Graph) (outside : List NodeRef)
    (slot : Slot) :
    let after := ((cache.setSlot id slot).reclaim graph outside (some id)).2
    after.slot? id = some slot ∧
      { after with slots := without after.slots id }.setSlot id slot = after := by
  intro after
  have isLast : after.slots = without after.slots id ++ [(id, slot)] := by
    apply eq_without_concat cache.slots
    · exact sweep_sublist graph outside (some id) [] _
    · apply used_mem_sweep
      simp [setSlot]
  have same : { after with slots := without after.slots id }.setSlot id slot = after := by
    have twice : without (without after.slots id) id = without after.slots id := by simp [without]
    rw [setSlot]
    simp only [twice]
    rw [← isLast]
  refine ⟨?_, same⟩
  rw [← same, slot?_setSlot_self]

/-! ## What a load comes to -/

theorem setSlot_setSlot (cache : Cache) (id : String) (first second : Slot) :
    (cache.setSlot id first).setSlot id second = cache.setSlot id second := by
  simp [setSlot, without]

theorem size_setSlot_of_absent (absent : cache.slot? id = none) (slot : Slot) :
    (cache.setSlot id slot).size = cache.size + 1 := by
  simp [Cache.size, setSlot, without_of_absent absent]

theorem alone_eq (absent : cache.slot? id = none) (around : Surroundings) (node : NodeRef) :
    alone cache id around node =
      (({ cache with loads := cache.loads + 1 }.setSlot id (.filled node)).trim
        around.graph around.outside id).1 := by
  have missed : cache.peek id = none := by simp [peek, absent]
  rw [alone, request, missed, publish]
  exact congrArg (fun filled => (trim filled around.graph around.outside id).1)
    (setSlot_setSlot { cache with loads := cache.loads + 1 } id .loading (.filled node))

/-- The first entry past the capacity starts a pass. -/
theorem outgrows_eq_isFull (absent : cache.slot? id = none) (slot : Slot) :
    (0 < cache.capacity && cache.capacity < (cache.setSlot id slot).size : Bool) =
      cache.isFull := by
  rw [size_setSlot_of_absent absent, isFull]
  simp only [Nat.lt_succ_iff]

theorem alone_of_not_isFull (absent : cache.slot? id = none) (fits : cache.isFull = false)
    (around : Surroundings) (node : NodeRef) :
    alone cache id around node =
      { cache with loads := cache.loads + 1 }.setSlot id (.filled node) := by
  have stays := (outgrows_eq_isFull absent (.filled node)).trans fits
  rw [alone_eq absent, trim]
  exact congrArg Prod.fst (if_neg (Bool.eq_false_iff.mp stays))

theorem alone_of_isFull (absent : cache.slot? id = none) (isFull : cache.isFull = true)
    (around : Surroundings) (node : NodeRef) :
    alone cache id around node =
      (({ cache with loads := cache.loads + 1 }.setSlot id (.filled node)).reclaim
        around.graph around.outside (some id)).2 := by
  have outgrows := (outgrows_eq_isFull absent (.filled node)).trans isFull
  rw [alone_eq absent, trim]
  exact congrArg Prod.fst (if_pos outgrows)

/-- What one caller alone does to the counters of a cache: one load, and one entry more that is
there or was reclaimed. -/
theorem counters_alone (absent : cache.slot? id = none) (around : Surroundings) (node : NodeRef) :
    (alone cache id around node).loads = cache.loads + 1 ∧
      (alone cache id around node).size + (alone cache id around node).reclaimed =
        cache.size + cache.reclaimed + 1 := by
  have counted := counted_trim around.graph around.outside id
    ({ cache with loads := cache.loads + 1 }.setSlot id (.filled node))
  rw [alone_eq absent]
  refine ⟨counted.loads, counted.entries.trans ?_⟩
  have size := size_setSlot_of_absent absent (.filled node)
  change (cache.setSlot id _).size + cache.reclaimed = _
  omega

theorem peek_alone (absent : cache.slot? id = none) (around : Surroundings) (node : NodeRef) :
    (alone cache id around node).peek id = some node := by
  cases isFull : cache.isFull with
  | false => rw [alone_of_not_isFull absent isFull, peek_setSlot_self, Slot.node?]
  | true =>
      rw [alone_of_isFull absent isFull, peek, (reclaim_setSlot ..).1]
      rfl

/-- An entry that is gone was dropped by the pass of a full cache, since nothing reached its
node. -/
theorem mem_alone_or_unreached (absent : cache.slot? id = none) {around : Surroundings}
    (acyclic : around.graph.Acyclic) (node : NodeRef) {slot : String × Slot}
    (member : slot ∈ cache.slots) :
    slot ∈ (alone cache id around node).slots ∨
      Unreached around.graph around.outside (some id) (alone cache id around node).slots slot := by
  have trimmed := trimmed_trim acyclic around.outside id
    ({ cache with loads := cache.loads + 1 }.setSlot id (.filled node))
  rw [alone_eq absent]
  apply trimmed.dropped
  have other : slot.1 ≠ id := by
    rintro rfl
    simp only [slot?, Option.map_eq_none_iff, List.find?_eq_none] at absent
    exact absent slot member (by simp)
  exact List.mem_append_left _ (List.mem_filter.mpr ⟨member, by simpa using other⟩)

end TraceStore.Cache
