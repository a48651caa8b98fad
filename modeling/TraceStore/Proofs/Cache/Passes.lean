import Mathlib.Data.List.Perm.Subperm
import TraceStore.Proofs.Cache.Bookkeeping
import TraceStore.Proofs.Graph.References

/-!
# What a pass over the cache drops and keeps

A pass looks at the slots one after the other, and a node that it drops may release the nodes that
it holds.  So what it does depends on the order of its visits, which the cache leaves open: a `Pass`
goes over the slots in any order.  What it comes to in any order, runs come to with the passes as
they are (`Account.runs_reach_every_order`).

Whatever the order, two bounds hold.  References only go away while a pass runs, so a node whose
slot has the only reference to it when the pass begins is still such a node when its slot is
visited, and is dropped.  And a node that the outside reaches is reached at every moment of the
pass, so it stays; so does the slot of a running load.  What lies between these bounds is left to
the order.
-/

namespace TraceStore.Cache

open TraceStore.Graph (Reaches)

variable {graph : Graph} {outside : List NodeRef} {used : Option String} {id : String}
  {node : NodeRef} {slot : String × Slot} {slots others kept ahead : List (String × Slot)}

/-! ## The nodes in slots -/

theorem nodesOf_cons_filled (id : String) (node : NodeRef) (slots : List (String × Slot)) :
    nodesOf ((id, .filled node) :: slots) = node :: nodesOf slots := rfl

theorem nodesOf_perm (perm : slots.Perm others) : (nodesOf slots).Perm (nodesOf others) :=
  perm.filterMap _

theorem nodesOf_subperm (fewer : slots.Subperm others) :
    (nodesOf slots).Subperm (nodesOf others) := by
  obtain ⟨part, perm, sublist⟩ := fewer
  exact ⟨nodesOf part, nodesOf_perm perm, sublist.filterMap _⟩

theorem Distinct.of_subperm {cache : Cache} (distinct : cache.Distinct)
    (fewer : slots.Subperm cache.slots) : (slots.map (·.1)).Nodup := by
  obtain ⟨part, perm, sublist⟩ := fewer
  exact (perm.map _).nodup_iff.mp (distinct.sublist (sublist.map _))

/-! ## One visit -/

/-- What a pass asks of a node is how many references there are to it. -/
theorem isDroppable_filled_iff (acyclic : graph.Acyclic) :
    isDroppable graph outside used others (id, .filled node) = true ↔ used ≠ some id ∧
      graph.referenceCount (outside ++ nodesOf ((id, .filled node) :: others)) node = 1 := by
  have perm : (outside ++ nodesOf ((id, .filled node) :: others)).Perm
      (node :: (outside ++ nodesOf others)) := List.perm_middle
  have rest := perm.erase node
  rw [List.erase_cons_head] at rest
  have isRoot := perm.symm.subset List.mem_cons_self
  rw [Graph.referenceCount_eq_one_iff acyclic isRoot, ← Graph.reachable_iff acyclic]
  have same : graph.reachable (outside ++ nodesOf others) node =
      graph.reachable ((outside ++ nodesOf ((id, .filled node) :: others)).erase node) node := by
    rw [Bool.eq_iff_iff, Graph.reachable_iff acyclic, Graph.reachable_iff acyclic]
    constructor
    · intro reached
      exact reached.mono fun root member => rest.symm.subset member
    · intro reached
      exact reached.mono fun root member => rest.subset member
  simp [isDroppable, same]

/-- A slot that a pass leaves was visited, and was not dropped at that moment. -/
theorem visited_of_mem_sweep (left : slot ∈ sweep graph outside used kept ahead) :
    slot ∈ kept ∨ ∃ others, (slot :: others).Subperm (kept ++ ahead) ∧
      isDroppable graph outside used others slot = false := by
  induction ahead generalizing kept with
  | nil =>
      left
      simpa [sweep] using left
  | cons first ahead ih =>
      have fewer : (kept ++ ahead).Subperm (kept ++ first :: ahead) :=
        (List.Sublist.append_left (List.sublist_cons_self first ahead) kept).subperm
      rw [sweep] at left
      split at left
      · apply (ih left).imp_right
        rintro ⟨others, isPart, stays⟩
        exact ⟨others, isPart.trans fewer, stays⟩
      · next stays =>
          cases ih left with
          | inl before =>
              cases List.mem_append.mp before with
              | inl earlier => exact .inl earlier
              | inr isFirst =>
                  obtain rfl := List.mem_singleton.mp isFirst
                  exact .inr ⟨kept ++ ahead, List.perm_middle.symm.subperm, by simpa using stays⟩
          | inr seen =>
              right
              simpa using seen

/-- A node that is not dropped at a visit, while nothing uses its slot, was referred to by more than
that slot when there were more slots. -/
theorem two_le_referenceCount (acyclic : graph.Acyclic) (notUsed : used ≠ some id)
    (fewer : ((id, .filled node) :: others).Subperm slots)
    (stays : isDroppable graph outside used others (id, .filled node) = false) :
    2 ≤ graph.referenceCount (outside ++ nodesOf slots) node := by
  have isRoot : node ∈ outside ++ nodesOf ((id, .filled node) :: others) := by
    simp [nodesOf_cons_filled]
  have fewerRoots := (List.subperm_append_left outside).mpr (nodesOf_subperm fewer)
  have notOne : graph.referenceCount (outside ++ nodesOf slots) node ≠ 1 := by
    intro isOne
    have stillOne := Graph.referenceCount_eq_one_of_subperm acyclic fewerRoots isRoot isOne
    rw [(isDroppable_filled_iff acyclic).mpr ⟨notUsed, stillOne⟩] at stays
    exact Bool.noConfusion stays
  have notZero : graph.referenceCount (outside ++ nodesOf slots) node ≠ 0 := by
    rw [Ne, Graph.referenceCount_eq_zero_iff acyclic, not_not]
    exact .root (fewerRoots.subset isRoot)
  omega

/-! ## Whole passes -/

/-- A pass over a cache while no operation uses a slot.  It visits the slots in some order, and
gives the number of entries that it dropped and the cache that is left. -/
def Pass (around : Surroundings) (before : Cache) (dropped : Nat) (after : Cache) : Prop :=
  ∃ order, order.Perm before.slots ∧
    { before with slots := order }.reclaim around.graph around.outside none = (dropped, after)

namespace Pass

variable {around : Surroundings} {before after : Cache} {dropped : Nat}
  (pass : Pass around before dropped after)

include pass

theorem subperm : after.slots.Subperm before.slots := by
  obtain ⟨order, perm, rfl, rfl⟩ := pass
  exact (sweep_sublist around.graph around.outside none [] order).subperm.trans perm.subperm

theorem others_unchanged :
    after = { before with slots := after.slots, reclaimed := before.reclaimed + dropped } := by
  obtain ⟨order, perm, rfl, rfl⟩ := pass
  rfl

theorem size : dropped + after.size = before.size := by
  have shorter := pass.subperm.length_le
  obtain ⟨order, perm, rfl, rfl⟩ := pass
  have length := perm.length_eq
  simp only [Cache.size] at shorter ⊢
  omega

/-- A slot that is left was visited, and was not dropped at that moment. -/
theorem visited (left : slot ∈ after.slots) : ∃ others, (slot :: others).Subperm before.slots ∧
    isDroppable around.graph around.outside none others slot = false := by
  obtain ⟨order, perm, rfl, rfl⟩ := pass
  obtain ⟨others, fewer, stays⟩ :=
    (visited_of_mem_sweep left).resolve_left List.not_mem_nil
  exact ⟨others, fewer.trans perm.subperm, stays⟩

/-- A slot that can never be dropped stays. -/
theorem mem_of_not_droppable (member : slot ∈ before.slots)
    (never : ∀ others, isDroppable around.graph around.outside none others slot = false) :
    slot ∈ after.slots := by
  obtain ⟨order, perm, rfl, rfl⟩ := pass
  exact mem_sweep_of_not_droppable _ _ _ [] order (perm.symm.subset member) never

end Pass

/-- What a pass over any cache does in any order of its visits.  It drops every entry whose slot has
the only reference to its node when the pass begins.  It keeps the slots of running loads, and with
their nodes the entries that the outside reaches, directly or through nodes that hold others.  It
changes nothing else, and counts what it drops.  Holding has no cycles in any graph that nodes are
only added to (`Graph.Acyclic.add`). -/
theorem pass_drops_lone_keeps_held {around : Surroundings} {before after : Cache} {dropped : Nat}
    (acyclic : around.graph.Acyclic) (pass : Pass around before dropped after) :
    (∀ id node, (id, .filled node) ∈ before.slots →
      around.graph.referenceCount (around.outside ++ before.keeps) node = 1 →
      (id, .filled node) ∉ after.slots) ∧
    (∀ id, (id, .loading) ∈ before.slots → (id, .loading) ∈ after.slots) ∧
    (∀ id node, (id, .filled node) ∈ before.slots →
      Reaches around.graph around.outside node → (id, .filled node) ∈ after.slots) ∧
    after.slots.Subperm before.slots ∧
    after = { before with slots := after.slots, reclaimed := before.reclaimed + dropped } ∧
    dropped + after.size = before.size := by
  refine ⟨?lone, ?loading, ?held, pass.subperm, pass.others_unchanged, pass.size⟩
  case lone =>
    intro id node _ isOne left
    obtain ⟨others, fewer, stays⟩ := pass.visited left
    have many := two_le_referenceCount acyclic (Option.some_ne_none id).symm fewer stays
    change 2 ≤ around.graph.referenceCount (around.outside ++ before.keeps) node at many
    omega
  case loading =>
    intro id member
    exact pass.mem_of_not_droppable member fun others => rfl
  case held =>
    intro id node member reached
    apply pass.mem_of_not_droppable member
    intro others
    have stillReached := reached.mono fun root isRoot =>
      List.mem_append_left (nodesOf others) isRoot
    simp [isDroppable, (Graph.reachable_iff acyclic _ _).mpr stillReached]

/-- A child is visited before its parent and releases it, a node has two ids, a load runs, and a
caller holds a node through its child. -/
theorem pass_drops_child_then_parent :
    let graph := ((((({} : Graph).add (.detached "parent" (.held []))).add
      (.detached "child" (.held [0]))).add (.detached "twice" (.named []))).add
      (.detached "held" (.held []))).add (.detached "caller" (.held [3]))
    let before : Cache := { slots := [("parent", .filled 0), ("held", .filled 3), ("run", .loading),
      ("child", .filled 1), ("one", .filled 2), ("two", .filled 2)] }
    let after : Cache := { slots := [("held", .filled 3), ("run", .loading), ("two", .filled 2),
      ("one", .filled 2)], reclaimed := 2 }
    graph.Acyclic ∧ Pass ⟨graph, [4]⟩ before 2 after ∧
      ("child", .filled 1) ∉ after.slots ∧ ("held", .filled 3) ∈ after.slots ∧
      ("run", .loading) ∈ after.slots ∧ 2 + after.size = before.size := by
  intro graph before after
  have acyclic : graph.Acyclic :=
    ((((Graph.acyclic_empty.add (by decide)).add (by decide)).add (by decide)).add (by decide)).add
      (by decide)
  have pass : Pass ⟨graph, [4]⟩ before 2 after :=
    ⟨[("child", .filled 1), ("held", .filled 3), ("parent", .filled 0), ("run", .loading),
      ("two", .filled 2), ("one", .filled 2)], by decide, by decide⟩
  obtain ⟨lone, loading, held, -, -, size⟩ := pass_drops_lone_keeps_held acyclic pass
  refine ⟨acyclic, pass, ?_, ?_, ?_, size⟩
  · exact lone "child" 1 (by decide) (by decide)
  · exact held "held" 3 (by decide) ((Graph.reachable_iff acyclic _ _).mp (by decide))
  · exact loading "run" (by decide)

end TraceStore.Cache
