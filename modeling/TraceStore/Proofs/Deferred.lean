import TraceStore.Deferred
import TraceStore.Proofs.Text.Bytes

/-!
# The buffer as a map

The buffer is a list in ascending order of ids.  What each of its operations does to lookups and to
exemptions is said here, so that nothing else needs to know of the list.  The order matters only
where all nodes of the buffer are gone through: it says that no id comes twice.
-/

namespace TraceStore

/-- Where every key stands once, a lookup finds the item of its key. -/
theorem find?_key_eq_some_iff {α : Type} {items : List (String × α)}
    (distinct : (items.map (·.1)).Nodup) (key : String) (value : α) :
    (items.find? (·.1 = key)).map (·.2) = some value ↔ (key, value) ∈ items := by
  induction items with
  | nil => simp
  | cons item others ih =>
      rcases item with ⟨first, held⟩
      rw [List.map_cons, List.nodup_cons] at distinct
      by_cases same : first = key
      · have absent : (key, value) ∉ others := by
          rw [same] at distinct
          exact fun member => distinct.1 (List.mem_map.mpr ⟨_, member, rfl⟩)
        simp [same, absent, eq_comm]
      · simpa [List.find?_cons, same, Ne.symm same] using ih distinct.2

namespace Deferred

variable {deferred : Deferred} {id other : String} {node : NodeRef}

/-- The buffered ids stand in ascending order. -/
def Ascending (deferred : Deferred) : Prop := deferred.ids.Pairwise (· < ·)

theorem Ascending.nodup (ascending : deferred.Ascending) : deferred.ids.Nodup :=
  ascending.imp fun less => ne_of_lt less

/-- Ids that ascend do so by their bytes. -/
theorem Ascending.bytes (ascending : deferred.Ascending) :
    (deferred.ids.map Text.bytes).Pairwise (· < ·) :=
  List.pairwise_map.mpr (ascending.imp Text.bytes_lt)

theorem get?_eq_some_iff (ascending : deferred.Ascending) (id : String) (node : NodeRef) :
    deferred.get? id = some node ↔ (id, node) ∈ deferred.pending :=
  find?_key_eq_some_iff ascending.nodup id node

/-! ## Entering -/

theorem find?_enter (id other : String) (node : NodeRef) (pending : List (String × NodeRef)) :
    (enter id node pending).find? (·.1 = other) =
      if id = other then some (id, node) else pending.find? (·.1 = other) := by
  induction pending with
  | nil => by_cases same : id = other <;> simp [enter, same]
  | cons item rest ih =>
      rcases item with ⟨key, kept⟩
      rw [enter]
      by_cases same : id = other
      · subst same
        split
        · simp
        · split
          · simp
          · next apart => simp [Ne.symm apart, ih]
      · split
        · simp [same]
        · split
          · next equal =>
              subst equal
              simp [same]
          · rw [List.find?_cons, List.find?_cons, ih, if_neg same]

@[simp] theorem get?_replace (deferred : Deferred) (id other : String) (node : NodeRef) :
    (deferred.replace id node).get? other =
      if id = other then some node else deferred.get? other := by
  rw [get?, replace, find?_enter]
  split <;> simp [get?]

@[simp] theorem get?_defer (deferred : Deferred) (id other : String) (node : NodeRef) :
    (deferred.defer id node).get? other = if id = other then some node else deferred.get? other :=
  get?_replace deferred id other node

theorem mem_ids_enter {pending : List (String × NodeRef)}
    (member : other ∈ (enter id node pending).map (·.1)) :
    other = id ∨ other ∈ pending.map (·.1) := by
  induction pending with
  | nil => simpa [enter] using member
  | cons item rest ih =>
      rcases item with ⟨key, kept⟩
      rw [enter] at member
      split at member
      · simpa using member
      · split at member
        · next same => simp_all
        · simp only [List.map_cons, List.mem_cons] at member ⊢
          cases member with
          | inl first => exact .inr (.inl first)
          | inr later => exact (ih later).imp_right .inr

theorem ascending_enter {pending : List (String × NodeRef)}
    (ascending : (pending.map (·.1)).Pairwise (· < ·)) (id : String) (node : NodeRef) :
    ((enter id node pending).map (·.1)).Pairwise (· < ·) := by
  induction pending with
  | nil => simp [enter]
  | cons item rest ih =>
      rcases item with ⟨key, kept⟩
      have later := ascending
      rw [List.map_cons, List.pairwise_cons] at ascending
      rcases ascending with ⟨least, rest_ascending⟩
      rw [enter]
      split
      · next less =>
          refine List.pairwise_cons.mpr ⟨?_, later⟩
          intro other member
          cases List.mem_cons.mp member with
          | inl first => exact first ▸ less
          | inr behind => exact lt_trans less (least other behind)
      · next notLess =>
          split
          · next same =>
              subst same
              exact List.pairwise_cons.mpr ⟨least, rest_ascending⟩
          · next apart =>
              refine List.pairwise_cons.mpr ⟨?_, ih rest_ascending⟩
              intro other member
              cases mem_ids_enter member with
              | inl isNew =>
                  rw [isNew]
                  exact lt_of_le_of_ne (not_lt.mp notLess) (Ne.symm apart)
              | inr earlier => exact least other earlier

theorem ascending_replace (ascending : deferred.Ascending) (id : String) (node : NodeRef) :
    (deferred.replace id node).Ascending :=
  ascending_enter ascending id node

theorem ascending_defer (ascending : deferred.Ascending) (id : String) (node : NodeRef) :
    (deferred.defer id node).Ascending :=
  ascending_replace ascending id node

/-! ## Removing -/

@[simp] theorem get?_remove (deferred : Deferred) (id other : String) :
    (deferred.remove id).get? other = if id = other then none else deferred.get? other := by
  rw [get?, remove, get?, List.find?_filter]
  split
  · next same =>
      subst same
      rw [Option.map_eq_none_iff, List.find?_eq_none]
      simp
  · next apart =>
      congr 2
      funext item
      by_cases same : item.1 = other
      · simp [same, Ne.symm apart]
      · simp [same]

theorem ascending_remove (ascending : deferred.Ascending) (id : String) :
    (deferred.remove id).Ascending :=
  ascending.sublist (List.filter_sublist.map _)

theorem remove_of_not_contains (absent : deferred.contains id = false) :
    deferred.remove id = deferred := by
  have none : ∀ item ∈ deferred.pending, item.1 ≠ id := by
    simpa [contains, get?] using absent
  have same : deferred.pending.filter (·.1 ≠ id) = deferred.pending := by
    rw [List.filter_eq_self]
    intro item member
    simpa using none item member
  rw [remove, same]

@[simp] theorem get?_clear (deferred : Deferred) (id : String) :
    deferred.clear.get? id = none := rfl

theorem ascending_clear (deferred : Deferred) : deferred.clear.Ascending := List.Pairwise.nil

/-! ## Exemptions -/

@[simp] theorem get?_release (deferred : Deferred) (id other : String) :
    (deferred.release id).get? other = deferred.get? other := rfl

@[simp] theorem isExempt_replace (deferred : Deferred) (id other : String) (node : NodeRef) :
    (deferred.replace id node).isExempt other = deferred.isExempt other := rfl

@[simp] theorem isExempt_remove (deferred : Deferred) (id other : String) :
    (deferred.remove id).isExempt other = deferred.isExempt other := rfl

@[simp] theorem isExempt_clear (deferred : Deferred) (id : String) :
    deferred.clear.isExempt id = deferred.isExempt id := rfl

theorem isExempt_defer (deferred : Deferred) (id other : String) (node : NodeRef) :
    (deferred.defer id node).isExempt other = (decide (id = other) || deferred.isExempt other) := by
  rw [isExempt, defer, isExempt]
  split
  · next already =>
      by_cases same : id = other
      · subst same
        simpa using already
      · simp [same]
  · simp [Bool.or_comm, eq_comm]

theorem isExempt_release (deferred : Deferred) (id other : String) :
    (deferred.release id).isExempt other = (!decide (id = other) && deferred.isExempt other) := by
  rw [isExempt, release, isExempt, Bool.eq_iff_iff]
  by_cases same : id = other
  · simp [same]
  · simp [same, Ne.symm same]

theorem contains_eq_true_iff (deferred : Deferred) (id : String) :
    deferred.contains id = true ↔ ∃ node, deferred.get? id = some node := by
  rw [contains, Option.isSome_iff_exists]

theorem mem_nodes_iff (ascending : deferred.Ascending) (node : NodeRef) :
    node ∈ deferred.nodes ↔ ∃ id, deferred.get? id = some node := by
  simp [nodes, get?_eq_some_iff ascending]

end Deferred

end TraceStore
