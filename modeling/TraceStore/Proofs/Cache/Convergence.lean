import TraceStore.Proofs.Cache.Passes

/-!
# Passes that are repeated

A pass that drops a node may release the nodes that it held, which the next pass drops.  Since every
pass that drops something makes the cache smaller, there is a pass that drops nothing, at the latest
once there were as many passes as entries.

What is left then does not depend on the order of the visits.  It is what lasts: the nodes that the
outside reaches, and also every node that is cached under two ids, with what it reaches.  For each
of its two slots is a reference that keeps the other one, and so neither is ever dropped, although
nobody holds the node.  A cache gets there by a loader that gives a node of another id.
-/

namespace TraceStore.Cache

open TraceStore.Graph (Reaches)

variable {around : Surroundings} {cache before after : Cache} {dropped : Nat} {id : String}
  {node : NodeRef} {slot : String × Slot}

/-- A node is cached under two ids. -/
def CachedTwice (cache : Cache) (node : NodeRef) : Prop :=
  ∃ first second, first ≠ second ∧ (first, .filled node) ∈ cache.slots ∧
    (second, .filled node) ∈ cache.slots

/-- The outside reaches a node, or a node does that is cached under two ids. -/
def Lasts (around : Surroundings) (cache : Cache) (node : NodeRef) : Prop :=
  ∃ root, (root ∈ around.outside ∨ cache.CachedTwice root) ∧ Reaches around.graph [root] node

theorem Lasts.mono (lasts : before.Lasts around node) (more : before.slots ⊆ cache.slots) :
    cache.Lasts around node := by
  obtain ⟨root, isRoot, reached⟩ := lasts
  refine ⟨root, isRoot.imp_right ?_, reached⟩
  rintro ⟨first, second, apart, isFirst, isSecond⟩
  exact ⟨first, second, apart, more isFirst, more isSecond⟩

/-- What a node reaches that lasts, lasts too. -/
theorem Lasts.of_reaches {root : NodeRef} (lasts : cache.Lasts around root)
    (reached : Reaches around.graph [root] node) : cache.Lasts around node := by
  obtain ⟨first, isRoot, fromFirst⟩ := lasts
  refine ⟨first, isRoot, reached.trans ?_⟩
  intro only isOnly
  rwa [List.mem_singleton.mp isOnly]

/-! ## What passes keep -/

/-- A slot with a node that lasts cannot be dropped while the others of a cache are there. -/
theorem isDroppable_of_lasts (acyclic : around.graph.Acyclic) (used : Option String)
    (lasts : cache.Lasts around node) {others : List (String × Slot)}
    (there : ∀ other root, (other, .filled root) ∈ cache.slots → cache.Lasts around root →
      other ≠ id → (other, .filled root) ∈ others) :
    isDroppable around.graph around.outside used others (id, .filled node) = false := by
  obtain ⟨root, isRoot, reached⟩ := lasts
  have isThere : root ∈ around.outside ++ nodesOf others := by
    cases isRoot with
    | inl fromOutside => exact List.mem_append_left _ fromOutside
    | inr twice =>
        have rootLasts : cache.Lasts around root :=
          ⟨root, .inr twice, .root (List.mem_singleton_self root)⟩
        obtain ⟨first, second, apart, isFirst, isSecond⟩ := twice
        -- at most one of the two slots is the one that is visited
        obtain ⟨other, isOther⟩ : ∃ other, (other, Slot.filled root) ∈ others := by
          by_cases visited : first = id
          · exact ⟨second, there second root isSecond rootLasts (visited ▸ apart.symm)⟩
          · exact ⟨first, there first root isFirst rootLasts visited⟩
        exact List.mem_append_right _ (List.mem_filterMap.mpr ⟨_, isOther, rfl⟩)
  have fromThere := reached.mono fun only isOnly => List.mem_singleton.mp isOnly ▸ isThere
  simp [isDroppable, (Graph.reachable_iff acyclic _ _).mpr fromThere]

/-- A pass keeps what lasts of a cache, if it was all there. -/
theorem mem_sweep_of_lasts (acyclic : around.graph.Acyclic) (used : Option String)
    {kept ahead : List (String × Slot)}
    (there : ∀ id node, (id, .filled node) ∈ cache.slots → cache.Lasts around node →
      (id, .filled node) ∈ kept ++ ahead)
    (member : (id, .filled node) ∈ cache.slots) (lasts : cache.Lasts around node) :
    (id, .filled node) ∈ sweep around.graph around.outside used kept ahead := by
  refine mem_sweep_of_together
    (fun slot => slot ∈ cache.slots ∧ ∃ node, slot.2 = .filled node ∧ cache.Lasts around node)
    ?_ ?_ ⟨member, node, rfl, lasts⟩
  · rintro ⟨id, _⟩ ⟨member, node, rfl, lasts⟩
    exact there id node member lasts
  · rintro ⟨id, _⟩ others ⟨member, node, rfl, lasts⟩ safe
    apply isDroppable_of_lasts acyclic used lasts
    intro other root member lasts apart
    exact safe _ ⟨member, root, rfl, lasts⟩ fun same => apart (congrArg Prod.fst same)

theorem Pass.keeps_lasting (pass : Pass around before dropped after)
    (acyclic : around.graph.Acyclic)
    (there : ∀ id node, (id, .filled node) ∈ cache.slots → cache.Lasts around node →
      (id, .filled node) ∈ before.slots)
    (member : (id, .filled node) ∈ cache.slots) (lasts : cache.Lasts around node) :
    (id, .filled node) ∈ after.slots := by
  obtain ⟨order, perm, rfl, rfl⟩ := pass
  apply mem_sweep_of_lasts acyclic none _ member lasts
  exact fun id node member lasts => perm.symm.subset (there id node member lasts)

/-! ## What a pass leaves that drops nothing -/

/-- A pass that drops nothing finds a reference to every node. -/
theorem Pass.reaches_of_none_dropped (pass : Pass around before 0 after)
    (acyclic : around.graph.Acyclic) (distinct : before.Distinct)
    (member : (id, .filled node) ∈ before.slots) :
    ∃ root, (root ∈ around.outside ∨ ∃ other, other ≠ id ∧ (other, .filled root) ∈ before.slots) ∧
      Reaches around.graph [root] node := by
  have size := pass.size
  have all := pass.subperm.perm_of_length_le (by simpa [Cache.size] using size.ge)
  obtain ⟨others, fewer, stays⟩ := pass.visited (all.symm.subset member)
  have reached : Reaches around.graph (around.outside ++ nodesOf others) node := by
    rw [← Graph.reachable_iff acyclic]
    simpa [isDroppable] using stays
  obtain ⟨root, isRoot, reached⟩ := reached.exists_root
  refine ⟨root, (List.mem_append.mp isRoot).imp_right ?_, reached⟩
  intro inOthers
  obtain ⟨other, isOther⟩ := (mem_keeps_iff { slots := others } root).mp inOthers
  refine ⟨other, ?_, fewer.subset (List.mem_cons_of_mem _ isOther)⟩
  rintro rfl
  have keys := distinct.of_subperm fewer
  rw [List.map_cons, List.nodup_cons] at keys
  exact keys.1 (List.mem_map.mpr ⟨_, isOther, rfl⟩)

/-- Where every node has a reference, from the outside or from the slot of another id, all of them
last: the newest node that does not would be cached twice. -/
theorem lasts_of_references (acyclic : around.graph.Acyclic)
    (references : ∀ id node, (id, .filled node) ∈ cache.slots → ∃ root,
      (root ∈ around.outside ∨ ∃ other, other ≠ id ∧ (other, .filled root) ∈ cache.slots) ∧
        Reaches around.graph [root] node)
    (member : (id, .filled node) ∈ cache.slots) : cache.Lasts around node := by
  induction behind : around.graph.next - node using Nat.strongRecOn generalizing id node with
  | ind behind ih =>
      subst behind
      obtain ⟨root, isRoot, reached⟩ := references id node member
      cases isRoot with
      | inl fromOutside => exact ⟨root, .inl fromOutside, reached⟩
      | inr cached =>
          obtain ⟨other, apart, isOther⟩ := cached
          by_cases same : node = root
          · subst same
            exact ⟨node, .inr ⟨other, id, apart, isOther, member⟩, reached⟩
          · -- what reaches the node is newer
            have newer : node < root := Nat.lt_of_le_of_ne (reached.le acyclic) same
            have inside : root < around.graph.next := reached.lt_next same
            have ahead : around.graph.next - root < around.graph.next - node :=
              Nat.sub_lt_sub_left (Nat.lt_trans newer inside) newer
            exact (ih _ ahead isOther rfl).of_reaches reached

/-! ## Any number of passes -/

/-- Passes over a cache one after the other, with the number of entries that each of them drops. -/
structure Passes (around : Surroundings) (cache : Cache) (caches : Nat → Cache)
    (counts : Nat → Nat) : Prop where
  start : caches 0 = cache
  pass : ∀ n, Pass around (caches n) (counts n) (caches (n + 1))

namespace Passes

variable {caches : Nat → Cache} {counts : Nat → Nat} (passes : Passes around cache caches counts)

include passes

theorem subperm (n : Nat) : (caches n).slots.Subperm cache.slots := by
  induction n with
  | zero => rw [passes.start]
  | succ n ih => exact (passes.pass n).subperm.trans ih

theorem keeps_lasting (acyclic : around.graph.Acyclic) (n : Nat)
    (member : (id, .filled node) ∈ cache.slots) (lasts : cache.Lasts around node) :
    (id, .filled node) ∈ (caches n).slots := by
  induction n generalizing id node with
  | zero => rwa [passes.start]
  | succ n ih =>
      exact (passes.pass n).keeps_lasting acyclic (fun _ _ isThere => ih isThere) member lasts

/-- Every pass that drops something makes the cache smaller. -/
theorem size_add_le (n : Nat) (busy : ∀ earlier < n, counts earlier ≠ 0) :
    (caches n).size + n ≤ cache.size := by
  induction n with
  | zero => rw [passes.start, Nat.add_zero]
  | succ n ih =>
      have before := ih fun earlier isEarlier => busy earlier (Nat.lt_succ_of_lt isEarlier)
      have size := (passes.pass n).size
      have dropped := busy n (Nat.lt_succ_self n)
      omega

theorem exists_none_dropped : ∃ n ≤ cache.size, counts n = 0 := by
  by_contra never
  have smaller := passes.size_add_le (cache.size + 1) fun n isEarlier none =>
    never ⟨n, Nat.le_of_lt_succ isEarlier, none⟩
  omega

/-- A pass that drops nothing leaves exactly what lasts. -/
theorem mem_iff_of_none_dropped (acyclic : around.graph.Acyclic) (distinct : cache.Distinct)
    {n : Nat} (none : counts n = 0) : (id, .filled node) ∈ (caches (n + 1)).slots ↔
      (id, .filled node) ∈ cache.slots ∧ cache.Lasts around node := by
  constructor
  · intro member
    have isThere := (passes.subperm (n + 1)).subset member
    have pass := passes.pass n
    rw [none] at pass
    have distinctThen : (caches n).Distinct := distinct.of_subperm (passes.subperm n)
    have lasts := lasts_of_references acyclic
      (fun _ _ => pass.reaches_of_none_dropped acyclic distinctThen)
      (pass.subperm.subset member)
    exact ⟨isThere, lasts.mono (passes.subperm n).subset⟩
  · rintro ⟨member, lasts⟩
    exact passes.keeps_lasting acyclic (n + 1) member lasts

end Passes

/-- Passes over a cache after any moves, one after the other and each in any order.  One of them
drops nothing, at the latest the one after as many passes as there were entries.  After such a pass
exactly those entries are left that last.  So everything is gone that the outside does not reach if
and only if the outside reaches each node that was cached under two ids. -/
theorem repeated_passes_leave_lasting (capacity : Nat) (moves : List Move)
    (around : Surroundings) (caches : Nat → Cache) (counts : Nat → Nat)
    (acyclic : around.graph.Acyclic)
    (passes : Passes around ((Account.opened capacity).run moves).cache caches counts) :
    let cache := ((Account.opened capacity).run moves).cache
    (∃ n ≤ cache.size, counts n = 0) ∧
    ∀ n, counts n = 0 →
      (∀ id node, (id, .filled node) ∈ (caches (n + 1)).slots ↔
        (id, .filled node) ∈ cache.slots ∧ cache.Lasts around node) ∧
      ((∀ id node, (id, .filled node) ∈ (caches (n + 1)).slots →
          Reaches around.graph around.outside node) ↔
        ∀ node, cache.CachedTwice node → Reaches around.graph around.outside node) := by
  intro cache
  have distinct := ((Account.balanced_opened capacity).run moves).distinct
  refine ⟨passes.exists_none_dropped, ?_⟩
  intro n none
  have left : ∀ id node, (id, .filled node) ∈ (caches (n + 1)).slots ↔
      (id, .filled node) ∈ cache.slots ∧ cache.Lasts around node :=
    fun id node => passes.mem_iff_of_none_dropped acyclic distinct none
  refine ⟨left, ?_, ?_⟩
  · intro allReached node twice
    have lasts : cache.Lasts around node :=
      ⟨node, .inr twice, .root (List.mem_singleton_self node)⟩
    obtain ⟨first, second, -, isFirst, -⟩ := twice
    exact allReached first node ((left first node).mpr ⟨isFirst, lasts⟩)
  · intro twiceReached id node member
    obtain ⟨-, root, isRoot, reached⟩ := (left id node).mp member
    apply reached.trans
    intro only isOnly
    rw [List.mem_singleton.mp isOnly]
    cases isRoot with
    | inl fromOutside => exact .root fromOutside
    | inr twice => exact twiceReached root twice

/-- A child is dropped, then the parent that it held; a caller holds the node with two ids. -/
theorem three_passes_leave_held_node :
    let graph := ((({} : Graph).add (.detached "parent" (.held []))).add
      (.detached "child" (.held [0]))).add (.detached "twice" (.named []))
    let moves : List Move := [.insert ⟨graph, [0]⟩ 0, .insert ⟨graph, [0, 1]⟩ 1,
      .insert ⟨graph, [2]⟩ 2, .ask "other", .finish ⟨graph, [2]⟩ (some 2)]
    let left : List (String × Slot) := [("twice", .filled 2), ("other", .filled 2)]
    let caches : Nat → Cache
      | 0 => ((Account.opened 0).run moves).cache
      | 1 => { slots := ("parent", .filled 0) :: left, loads := 1, reclaimed := 1 }
      | _ => { slots := left, loads := 1, reclaimed := 2 }
    let counts : Nat → Nat
      | 0 | 1 => 1
      | _ => 0
    graph.Acyclic ∧
      Passes ⟨graph, [2]⟩ ((Account.opened 0).run moves).cache caches counts ∧
      (∃ n ≤ 4, counts n = 0) ∧ counts 2 = 0 ∧ ("twice", .filled 2) ∈ (caches 3).slots := by
  intro graph moves left caches counts
  have acyclic : graph.Acyclic :=
    ((Graph.acyclic_empty.add (by decide)).add (by decide)).add (by decide)
  have passes : Passes ⟨graph, [2]⟩ ((Account.opened 0).run moves).cache caches counts := by
    constructor
    case start => rfl
    case pass =>
      intro n
      match n with
      | 0 => exact ⟨_, .refl _, by decide⟩
      | 1 => exact ⟨_, .refl _, by decide⟩
      | _ + 2 => exact ⟨_, .refl _, rfl⟩
  obtain ⟨stops, leaves⟩ :=
    repeated_passes_leave_lasting 0 moves ⟨graph, [2]⟩ caches counts acyclic passes
  have isLeft := ((leaves 2 rfl).1 "twice" 2).mpr
    ⟨by decide, 2, .inl (by decide), .root (by decide)⟩
  exact ⟨acyclic, passes, stops, rfl, isLeft⟩

/-- A node is loaded under an id that is not its own, and every caller lets it go.  No pass drops
its two entries. -/
theorem node_with_two_ids_is_never_dropped :
    let graph := ({} : Graph).add (.detached "b" (.named []))
    let account := (Account.opened 0).run
      [.insert ⟨graph, [0]⟩ 0, .ask "a", .finish ⟨graph, [0]⟩ (some 0)]
    account.running = [] ∧
      Passes ⟨graph, []⟩ account.cache (fun _ => account.cache) (fun _ => 0) ∧
      ("a", .filled 0) ∈ account.cache.slots ∧ ¬ Reaches graph [] 0 := by
  intro graph account
  have acyclic : graph.Acyclic := Graph.acyclic_empty.add (by decide)
  refine ⟨by decide, ⟨rfl, fun _ => ⟨_, .refl _, by decide⟩⟩, by decide, ?_⟩
  rw [← Graph.reachable_iff acyclic]
  decide

end TraceStore.Cache
