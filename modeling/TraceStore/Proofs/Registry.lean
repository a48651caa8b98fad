import Mathlib.Data.List.Forall2
import TraceStore.Proofs.Record.Sessions

/-!
# What a registry resolves

A registry comes to be by recording nodes one after the other.  What it knows of a node is the last
of its records, whatever was recorded of other nodes before or after: `Registry.LastRecorded` says
this of the records themselves.  Links are resolved if each held node was recorded, and otherwise
the first one that was not is told.
-/

namespace TraceStore.Registry

variable {records : List (NodeRef × String)} {ref : NodeRef} {id : String}

/-- A registry in which nodes were recorded one after the other. -/
def ofRecords (records : List (NodeRef × String)) : Registry :=
  records.foldl (fun registry entry => registry.record entry.1 entry.2) {}

/-- A node was recorded under an id, and under no other id after that. -/
def LastRecorded (records : List (NodeRef × String)) (ref : NodeRef) (id : String) : Prop :=
  ∃ earlier later, records = earlier ++ (ref, id) :: later ∧ ∀ entry ∈ later, entry.1 ≠ ref

/-- The node at a position is the first one of a list that was never recorded. -/
structure FirstUnrecorded (records : List (NodeRef × String)) (refs : List NodeRef)
    (position : Nat) : Prop where
  unrecorded : ∃ ref, refs[position]? = some ref ∧ ∀ id, (ref, id) ∉ records
  first : ∀ earlier < position, ∀ ref, refs[earlier]? = some ref → ∃ id, (ref, id) ∈ records

/-- What links are resolved to: each held node to the id of its last record, in order.  Links that
are ids already stay as they are. -/
inductive Resolves (records : List (NodeRef × String)) : Links → Links → Prop where
  | named (ids : List String) : Resolves records (.named ids) (.named ids)
  | held {parents : List NodeRef} {ids : List String}
      (each : List.Forall₂ (LastRecorded records) parents ids) :
      Resolves records (.held parents) (.named ids)

theorem Resolves.eq_named {links resolved : Links} (resolves : Resolves records links resolved) :
    ∃ ids, resolved = .named ids := by
  cases resolves with
  | named ids => exact ⟨ids, rfl⟩
  | held _ => exact ⟨_, rfl⟩

/-! ## The last record of a node -/

theorem ofRecords_concat (records : List (NodeRef × String)) (ref : NodeRef) (id : String) :
    ofRecords (records ++ [(ref, id)]) = (ofRecords records).record ref id := by
  simp [ofRecords]

theorem LastRecorded.mem (isLast : LastRecorded records ref id) : (ref, id) ∈ records := by
  obtain ⟨earlier, later, rfl, -⟩ := isLast
  simp

/-- A further record counts for its own node only. -/
theorem lastRecorded_concat {other : NodeRef} {last : String} :
    LastRecorded (records ++ [(other, last)]) ref id ↔
      if other = ref then last = id else LastRecorded records ref id := by
  constructor
  · rintro ⟨earlier, later, split, isLast⟩
    rcases List.eq_nil_or_concat later with rfl | ⟨between, entry, rfl⟩
    · obtain ⟨-, same⟩ := List.append_inj' split rfl
      obtain ⟨rfl, rfl⟩ : other = ref ∧ last = id := by simpa using same
      rw [if_pos rfl]
    · rw [List.concat_eq_append, ← List.cons_append, ← List.append_assoc] at split
      obtain ⟨whole, same⟩ := List.append_inj' split rfl
      obtain rfl : (other, last) = entry := by simpa using same
      have apart : other ≠ ref := isLast (other, last) (by simp)
      rw [if_neg apart]
      refine ⟨earlier, between, whole, ?_⟩
      intro entry member
      exact isLast entry (by simp [member])
  · intro known
    split at known
    · next same =>
        subst same known
        exact ⟨records, [], rfl, by simp⟩
    · next apart =>
        obtain ⟨earlier, later, rfl, isLast⟩ := known
        refine ⟨earlier, later ++ [(other, last)], by simp, ?_⟩
        intro entry member
        rcases List.mem_append.mp member with isLater | isNew
        · exact isLast entry isLater
        · obtain rfl := List.mem_singleton.mp isNew
          exact apart

/-- A registry knows a node by its last record. -/
theorem idOf?_ofRecords :
    (ofRecords records).idOf? ref = some id ↔ LastRecorded records ref id := by
  induction records using List.reverseRecOn with
  | nil =>
      constructor
      · intro known
        simp [ofRecords, idOf?] at known
      · rintro ⟨earlier, later, split, -⟩
        simp at split
  | append_singleton records entry ih =>
      obtain ⟨other, last⟩ := entry
      rw [ofRecords_concat, idOf?_record, lastRecorded_concat, ← ih]
      split
      · exact Option.some_inj
      · rfl

/-- A registry knows the nodes that were recorded, and no others. -/
theorem isSome_idOf?_ofRecords :
    ((ofRecords records).idOf? ref).isSome ↔ ∃ id, (ref, id) ∈ records := by
  induction records using List.reverseRecOn with
  | nil => simp [ofRecords, idOf?]
  | append_singleton records entry ih =>
      obtain ⟨other, last⟩ := entry
      rw [ofRecords_concat, idOf?_record]
      by_cases same : other = ref
      · subst same
        rw [if_pos rfl]
        exact iff_of_true rfl ⟨last, by simp⟩
      · rw [if_neg same, ih]
        simp [Ne.symm same]

theorem idOf?_ofRecords_eq_none :
    (ofRecords records).idOf? ref = none ↔ ∀ id, (ref, id) ∉ records := by
  rw [← Option.not_isSome_iff_eq_none, isSome_idOf?_ofRecords, not_exists]

/-! ## Resolving -/

theorem idsOf_ofRecords_eq_ok {refs : List NodeRef} {ids : List String} {position : Nat} :
    (ofRecords records).idsOf position refs = .ok ids ↔
      List.Forall₂ (LastRecorded records) refs ids := by
  induction refs generalizing ids position with
  | nil => simp [idsOf, eq_comm]
  | cons ref others ih =>
      rw [idsOf]
      cases known : (ofRecords records).idOf? ref with
      | none =>
          have unknown (id : String) : ¬ LastRecorded records ref id := by
            rw [← idOf?_ofRecords, known]
            simp
          simp [List.forall₂_cons_left_iff, unknown]
      | some id =>
          have isLast := idOf?_ofRecords.mp known
          cases later : (ofRecords records).idsOf (position + 1) others with
          | error stopped =>
              constructor
              · intro resolved
                cases resolved
              · rintro (_ | ⟨-, rest⟩)
                rw [ih.mpr rest] at later
                cases later
          | ok found =>
              have rest := ih.mp later
              constructor
              · rintro ⟨⟩
                exact .cons isLast rest
              · rintro (_ | @⟨_, other, _, tail, also, restToo⟩)
                rw [← idOf?_ofRecords, known, Option.some_inj] at also
                rw [ih.mpr restToo] at later
                cases later
                rw [also]
                rfl

/-- Resolving stops at the first node that was not recorded. -/
theorem idsOf_ofRecords_eq_error {refs : List NodeRef} {start position : Nat}
    (stopped : (ofRecords records).idsOf start refs = .error position) :
    ∃ index, position = start + index ∧ FirstUnrecorded records refs index := by
  induction refs generalizing start with
  | nil => cases stopped
  | cons ref others ih =>
      rw [idsOf] at stopped
      cases known : (ofRecords records).idOf? ref with
      | none =>
          rw [known] at stopped
          cases stopped
          refine ⟨0, rfl, ⟨ref, rfl, idOf?_ofRecords_eq_none.mp known⟩, ?_⟩
          intro earlier before
          exact absurd before (Nat.not_lt_zero _)
      | some id =>
          cases later : (ofRecords records).idsOf (start + 1) others with
          | ok ids =>
              rw [known] at stopped
              simp only [later] at stopped
              cases stopped
          | error other =>
              rw [known] at stopped
              simp only [later] at stopped
              cases stopped
              obtain ⟨index, rfl, unrecorded, first⟩ := ih later
              refine ⟨index + 1, by omega, unrecorded, ?_⟩
              intro earlier before other there
              cases earlier with
              | zero =>
                  obtain rfl : ref = other := by simpa using there
                  exact isSome_idOf?_ofRecords.mp (by rw [known]; rfl)
              | succ earlier => exact first earlier (by omega) other (by simpa using there)

/-- Links are resolved to nothing else than their last records. -/
theorem resolve_ofRecords_eq_ok {links resolved : Links} :
    (ofRecords records).resolve links = .ok resolved ↔ Resolves records links resolved := by
  cases links with
  | named ids =>
      constructor
      · rintro ⟨⟩
        exact .named ids
      · rintro ⟨⟩
        rfl
  | held parents =>
      rw [resolve]
      constructor
      · intro known
        cases found : (ofRecords records).idsOf 0 parents with
        | error position =>
            rw [found] at known
            cases known
        | ok ids =>
            rw [found] at known
            cases known
            exact .held (idsOf_ofRecords_eq_ok.mp found)
      · rintro (_ | each)
        rw [idsOf_ofRecords_eq_ok.mpr each]
        rfl

/-- Links that cannot be resolved hold a node that was not recorded, and the first one is told. -/
theorem resolve_ofRecords_eq_error {links : Links} {position : Nat}
    (stopped : (ofRecords records).resolve links = .error position) :
    links.areHeld = true ∧ FirstUnrecorded records links.keeps position := by
  cases links with
  | named ids => cases stopped
  | held parents =>
      rw [resolve] at stopped
      cases found : (ofRecords records).idsOf 0 parents with
      | ok ids =>
          rw [found] at stopped
          cases stopped
      | error other =>
          rw [found] at stopped
          cases stopped
          obtain ⟨index, rfl, unrecorded⟩ := idsOf_ofRecords_eq_error found
          rw [Nat.zero_add]
          exact ⟨rfl, unrecorded⟩

/-- Links are resolved if they are ids already, or if all nodes that they hold were recorded. -/
theorem exists_resolves_iff {links : Links} :
    (∃ resolved, Resolves records links resolved) ↔
      links.areHeld = false ∨ ∀ parent ∈ links.keeps, ∃ id, (parent, id) ∈ records := by
  constructor
  · rintro ⟨resolved, ids | each⟩
    · exact .inl rfl
    · right
      induction each with
      | nil => simp [Links.keeps]
      | cons isLast _ ih => exact List.forall_mem_cons.mpr ⟨⟨_, isLast.mem⟩, ih⟩
  · intro known
    cases found : (ofRecords records).resolve links with
    | ok resolved => exact ⟨resolved, resolve_ofRecords_eq_ok.mp found⟩
    | error position =>
        obtain ⟨held, ⟨ref, there, unrecorded⟩, -⟩ := resolve_ofRecords_eq_error found
        rcases known with named | recorded
        · simp [held] at named
        · obtain ⟨id, listed⟩ := recorded ref (List.mem_of_getElem? there)
          exact absurd listed (unrecorded id)

end TraceStore.Registry
