import Mathlib.Data.List.Forall2
import TraceStore.Proofs.Json.Reading

/-!
# Objects with the same members in another order

Two objects are rearrangements of each other if the members that a reader knows are the same up to
their order; members that it does not know may be added and left out.  `Runs.rearranged` carries a
run over the members of one object over to the other, for steps that pass over unknown members and
of which two for different keys may be taken in either order.
-/

namespace TraceStore.Json

variable {σ : Type} {known : List String} {members others : List Member}

/-- The members of an object with a known key. -/
def knownAmong (known : List String) (members : List Member) : List Member :=
  members.filter fun member => member.key ∈ known

/-- No known key is repeated among the members, and those with a known key are, in some order, the
same as among the others, up to what `same` leaves open about the value under a key. -/
def Rearranged (known : List String) (same : String → Input → Input → Prop)
    (members others : List Member) : Prop :=
  ((knownAmong known members).map Member.key).Nodup ∧
    ∃ moved, (knownAmong known members).Perm moved ∧
      List.Forall₂ (fun member other => member.key = other.key ∧
        same member.key member.value other.value) moved (knownAmong known others)

section Rearranged

variable {same : String → Input → Input → Prop}

/-- Members may be put into another order. -/
theorem Rearranged.of_perm (reflexive : ∀ key value, same key value value)
    (distinct : ((knownAmong known members).map Member.key).Nodup) (perm : members.Perm others) :
    Rearranged known same members others := by
  refine ⟨distinct, knownAmong known others, perm.filter _, ?_⟩
  exact List.forall₂_same.mpr fun member _ => ⟨rfl, reflexive _ _⟩

/-- A member with an unknown key may be added anywhere. -/
theorem Rearranged.add (front back : List Member) {member : Member} (unknown : member.key ∉ known)
    (rearranged : Rearranged known same members (front ++ back)) :
    Rearranged known same members (front ++ member :: back) := by
  have passed : knownAmong known (front ++ member :: back) = knownAmong known (front ++ back) := by
    simp [knownAmong, unknown]
  rwa [Rearranged, passed]

/-- A member with an unknown key may be left out. -/
theorem Rearranged.remove (front back : List Member) {member : Member}
    (unknown : member.key ∉ known)
    (rearranged : Rearranged known same (front ++ back) others) :
    Rearranged known same (front ++ member :: back) others := by
  have passed : knownAmong known (front ++ member :: back) = knownAmong known (front ++ back) := by
    simp [knownAmong, unknown]
  rwa [Rearranged, passed]

end Rearranged

/-! ## Compact objects and lists -/

/-- Parts with nothing but commas between them. -/
def joined : (first : Bool) → List Input → Input
  | _, [] => []
  | true, part :: parts => part ++ joined false parts
  | false, part :: parts => comma :: (part ++ joined false parts)

theorem spread_joined (first : Bool) (parts : List Input) :
    Spread first parts (joined first parts) := by
  induction parts generalizing first with
  | nil => exact .done blank_nil
  | cons part parts ih =>
      cases first with
      | true =>
          have here : Spread true (part :: parts) ([] ++ (part ++ joined false parts)) :=
            .part (.first blank_nil) (ih false)
          exact here
      | false => exact .part (.next blank_nil blank_nil) (ih false)

/-- A member without blanks. -/
def Member.compact (key : String) (value : Input) : Member :=
  ⟨key, writeString key ++ [colon], value⟩

/-- An object without blanks between its members. -/
def compactObject (members : List Member) : Input :=
  openBrace :: (joined true (members.map Member.text) ++ [closeBrace])

/-- A list without blanks between its elements. -/
def compactList (elements : List Input) : Input :=
  openBracket :: (joined true elements ++ [closeBracket])

theorem isValue_writeString (text : String) : IsValue (writeString text) := by
  have read := readString_escaped text []
  obtain ⟨content, spelled, same, -⟩ := readString_eq_ok read
  rw [List.append_nil] at same
  subst same
  exact .text spelled

theorem Member.stands_compact (key : String) {value : Input} (isValue : IsValue value) :
    (Member.compact key value).Stands :=
  ⟨⟨_, [], [], readString_escaped key [], blank_nil, blank_nil, by simp [compact, writeString]⟩,
    isValue⟩

theorem objectText_compactObject {members : List Member}
    (stand : ∀ member ∈ members, member.Stands) : ObjectText members (compactObject members) :=
  ⟨stand, _, spread_joined true _, rfl⟩

theorem listText_compactList {elements : List Input}
    (values : ∀ element ∈ elements, IsValue element) : ListText elements (compactList elements) :=
  ⟨values, _, spread_joined true _, rfl⟩

/-! ## Runs -/

section Runs

variable {takes : σ → Member → σ → Prop} {state last : σ}

/-- Steps for different keys may be taken in either order. -/
def Swaps (takes : σ → Member → σ → Prop) : Prop :=
  ∀ state first between second last, first.key ≠ second.key → takes state first between →
    takes between second last → ∃ other, takes state second other ∧ takes other first last

theorem Runs.perm (swaps : Swaps takes) (perm : members.Perm others)
    (distinct : (members.map Member.key).Nodup) (runs : Runs takes state members last) :
    Runs takes state others last := by
  induction perm generalizing state with
  | nil => exact runs
  | cons member _ ih =>
      cases runs with
      | cons taken runs => exact .cons taken (ih (List.nodup_cons.mp distinct).2 runs)
  | swap second first rest =>
      cases runs with
      | cons takenFirst runs =>
          cases runs with
          | cons takenSecond runs =>
              have apart : first.key ≠ second.key := by
                intro same
                simp [same] at distinct
              obtain ⟨other, earlier, later⟩ := swaps _ _ _ _ _ apart takenFirst takenSecond
              exact .cons earlier (.cons later runs)
  | trans firstPerm _ ihFirst ihSecond =>
      exact ihSecond ((firstPerm.map Member.key).nodup_iff.mp distinct) (ihFirst distinct runs)

theorem Runs.filterKnown
    (ignores : ∀ state member next, member.key ∉ known → takes state member next → next = state)
    (runs : Runs takes state members last) :
    Runs takes state (knownAmong known members) last := by
  induction runs with
  | nil state => exact .nil state
  | @cons state next last member members taken _ ih =>
      by_cases isKnown : member.key ∈ known
      · have kept : knownAmong known (member :: members) = member :: knownAmong known members := by
          simp [knownAmong, isKnown]
        rw [kept]
        exact .cons taken ih
      · have dropped : knownAmong known (member :: members) = knownAmong known members := by
          simp [knownAmong, isKnown]
        rw [dropped, ← ignores _ _ _ isKnown taken]
        exact ih

theorem Runs.of_filterKnown (passes : ∀ member ∈ members, member.key ∉ known → ∀ state,
      takes state member state) (runs : Runs takes state (knownAmong known members) last) :
    Runs takes state members last := by
  induction members generalizing state with
  | nil => exact runs
  | cons member members ih =>
      obtain ⟨here, later⟩ := List.forall_mem_cons.mp passes
      by_cases isKnown : member.key ∈ known
      · have kept : knownAmong known (member :: members) = member :: knownAmong known members := by
          simp [knownAmong, isKnown]
        rw [kept] at runs
        cases runs with
        | cons taken runs => exact .cons taken (ih later runs)
      · have dropped : knownAmong known (member :: members) = knownAmong known members := by
          simp [knownAmong, isKnown]
        rw [dropped] at runs
        exact .cons (here isKnown state) (ih later runs)

theorem Runs.forall₂ {ι : Type} {takes : σ → ι → σ → Prop} {related : ι → ι → Prop}
    {parts others : List ι}
    (transfers : ∀ part other state next, related part other → takes state part next →
      takes state other next)
    (matched : List.Forall₂ related parts others) (runs : Runs takes state parts last) :
    Runs takes state others last := by
  induction matched generalizing state with
  | nil => exact runs
  | cons same _ ih =>
      cases runs with
      | cons taken runs => exact .cons (transfers _ _ _ _ same taken) (ih runs)

/-- A run over the members of an object is one over those of its rearrangements. -/
theorem Runs.rearranged {same : String → Input → Input → Prop} (swaps : Swaps takes)
    (ignores : ∀ state member next, member.key ∉ known → takes state member next → next = state)
    (passes : ∀ member ∈ others, member.key ∉ known → ∀ state, takes state member state)
    (transfers : ∀ member other state next, member.key = other.key →
      same member.key member.value other.value → takes state member next → takes state other next)
    (rearranged : Rearranged known same members others) (runs : Runs takes state members last) :
    Runs takes state others last := by
  obtain ⟨distinct, moved, perm, matched⟩ := rearranged
  have inOrder := (runs.filterKnown ignores).perm swaps perm distinct
  have replaced := inOrder.forall₂
    (fun member other state next related => transfers member other state next related.1 related.2)
    matched
  exact replaced.of_filterKnown passes

end Runs

end TraceStore.Json
