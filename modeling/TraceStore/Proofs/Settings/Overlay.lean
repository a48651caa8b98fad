import TraceStore.Proofs.Settings.Tree

/-!
# Layers on top of each other

A layer is put on top of a tree name by name, and a name may be a path.  Two kinds of layers occur.
In one the names are those of whole sections, and other names stay out of the sections (`Apart`);
such a layer is merged into the tree at every depth (`at?_overlay`).  In the other each name leads
to one value (`putAt`); such a name changes what stands at its place and nothing else, as long as no
place lies below another one (`at?_putAt_other`).
-/

namespace TraceStore.Setting

open KeyPath (IsWord LeadsInto)

variable {key name : String} {keys names : List String} {value below setting leaf : Setting}
  {members : List (String × Setting)} {layer : Option String}

/-! ## Layers of sections -/

/-- The names of the sections. -/
def sections : List String := ["storage", "logging"]

theorem isWord_of_mem_sections : ∀ top ∈ sections, IsWord top := by decide

/-- A name stays out of the sections: it does not begin with the name of one and a mark. -/
def Apart (name : String) : Prop := ∀ top ∈ sections, ¬ LeadsInto top name

instance (name : String) : Decidable (Apart name) :=
  inferInstanceAs (Decidable (∀ top ∈ sections, _))

theorem apart_lowered (apart : Apart name) : Apart (Text.lowered name) :=
  fun top isTop into => apart top isTop ((KeyPath.leadsInto_lowered top name).mp into)

theorem apart_of_isWord (isWord : IsWord name) : Apart name :=
  fun top _ => KeyPath.not_leadsInto_of_isWord top isWord

/-- A name that stays out of a section is put there only if it is the name of the section. -/
theorem get?_placeNamed (isWord : IsWord key) (out : ¬ LeadsInto key name)
    (value below : Setting) : (placeNamed name value below).get? key =
      if Text.lowered name = key then some (value.laidOn (below.get? key)) else below.get? key := by
  rw [placeNamed]
  cases read : KeyPath.ofText? name with
  | none => exact get?_place name key value below
  | some path =>
      simp only [placeAt]
      split
      · next single =>
          obtain ⟨-, ⟨-, rfl⟩ | ⟨deep, -⟩⟩ := KeyPath.of_ofText? read
          · exact get?_place path.first key value below
          · exact absurd single deep
      · next deep =>
          have apart : Text.lowered path.first ≠ key := fun same =>
            out (KeyPath.leadsInto_of_ofText? read deep same)
          rw [get?_changeMember, if_neg apart,
            if_neg (KeyPath.lowered_ne_of_ofText? isWord read deep)]

theorem get?_overlay (isWord : IsWord key) (distinct : DistinctNames members)
    (out : ∀ member ∈ members, ¬ LeadsInto key member.1) (below : Setting) :
    (overlay members below).get? key = onto (valueOf? key members) (below.get? key) := by
  rw [overlay]
  induction members generalizing below with
  | nil => rfl
  | cons member members ih =>
      obtain ⟨name, value⟩ := member
      obtain ⟨once, others⟩ := distinct.of_cons
      rw [List.foldl_cons, ih others (fun other listed => out other (by simp [listed])),
        get?_placeNamed isWord (out (name, value) (by simp)), valueOf?_cons]
      split
      · next same =>
          rw [same] at once
          rw [once]
          rfl
      · rfl

theorem isTable_placeNamed (name : String) (value below : Setting) :
    (placeNamed name value below).IsTable := by
  rw [placeNamed]
  split
  · rw [placeAt]
    split
    · rw [place_eq]
      exact isTable_put _ _ _
    · exact isTable_put _ _ _
  · rw [place_eq]
    exact isTable_put _ _ _

theorem isTable_overlay (isTable : below.IsTable) (members : List (String × Setting)) :
    (overlay members below).IsTable := by
  rw [overlay]
  induction members generalizing below with
  | nil => exact isTable
  | cons member members ih => exact ih (isTable_placeNamed member.1 member.2 below)

/-- A layer of sections is merged into a tree. -/
theorem at?_overlay (isWord : IsWord key) (clear : Clear (key :: keys) setting)
    (out : ∀ member ∈ setting.members, ¬ LeadsInto key member.1) (below : Setting) :
    at? (key :: keys) (overlay setting.members below) =
      onto (found? (key :: keys) setting) (at? (key :: keys) below) := by
  obtain ⟨-, distinct, onward⟩ := clear
  rw [at?_cons, get?_overlay isWord distinct out, at?_cons, found?]
  cases found : valueOf? key setting.members with
  | none => rfl
  | some value => exact at?_laidOn (onward value found) _

theorem openTo_overlay (isWord : IsWord key) (clear : Clear (key :: keys) setting)
    (out : ∀ member ∈ setting.members, ¬ LeadsInto key member.1)
    (isOpen : OpenTo (key :: keys) below) :
    OpenTo (key :: keys) (overlay setting.members below) := by
  obtain ⟨-, distinct, onward⟩ := clear
  refine ⟨isTable_overlay isOpen.1 _, fun value placed => ?_⟩
  rw [get?_overlay isWord distinct out] at placed
  cases found : valueOf? key setting.members with
  | none => exact isOpen.2 value (by simpa [found, onto] using placed)
  | some new =>
      obtain rfl : new.laidOn (below.get? key) = value := by simpa [found, onto] using placed
      exact openTo_laidOn (onward new found) isOpen.2

/-! ## Values at places -/

/-- Puts a value without parts at the place that keys lead to. -/
def putAt (leaf : Setting) : List String → Setting → Setting
  | [], _ => leaf
  | name :: names, below => changeMember name (putAt leaf names) below

theorem at?_putAt_self (lower : ∀ name ∈ names, Text.lowered name = name) (leaf below : Setting) :
    at? names (putAt leaf names below) = some leaf := by
  induction names generalizing below with
  | nil => rfl
  | cons name names ih =>
      rw [at?_cons, putAt, get?_changeMember, if_pos (lower name (by simp))]
      exact ih (fun other listed => lower other (by simp [listed])) _

/-- What stands neither above nor below the place is as before. -/
theorem at?_putAt_other (lower : ∀ name ∈ names, Text.lowered name = name)
    (notBelow : ¬ names <+: keys) (notAbove : ¬ keys <+: names) (leaf below : Setting) :
    at? keys (putAt leaf names below) = at? keys below := by
  induction names generalizing keys below with
  | nil => exact absurd (List.nil_prefix) notBelow
  | cons name names ih =>
      cases keys with
      | nil => exact absurd (List.nil_prefix) notAbove
      | cons key keys =>
          rw [at?_cons, putAt, get?_changeMember, lower name (by simp), at?_cons]
          split
          · next same =>
              subst same
              rw [List.prefix_cons_inj] at notBelow notAbove
              have deeper := ih (fun other listed => lower other (by simp [listed])) notBelow
                notAbove ((below.get? name).getD missing)
              rw [Option.bind_some, deeper]
              cases below.get? name with
              | none =>
                  cases keys with
                  | nil => exact absurd (List.nil_prefix) notAbove
                  | cons => rfl
              | some old => rfl
          · rfl

/-- Tables are made on the way to the place, and the way elsewhere stays open. -/
theorem openTo_putAt (lower : ∀ name ∈ names, Text.lowered name = name)
    (notBelow : names <+: keys → names = keys) (isOpen : OpenTo keys below.asTable)
    (leaf : Setting) : OpenTo keys (putAt leaf names below) := by
  induction names generalizing keys below with
  | nil =>
      obtain rfl := notBelow List.nil_prefix
      trivial
  | cons name names ih =>
      cases keys with
      | nil => trivial
      | cons key keys =>
          refine ⟨isTable_put _ _ _, fun value placed => ?_⟩
          rw [putAt, get?_changeMember, lower name (by simp)] at placed
          split at placed
          · next same =>
              subst same
              obtain rfl := Option.some.inj placed
              refine ih (fun other listed => lower other (by simp [listed]))
                (fun beginning => ?_) ?_
              · exact (List.cons.inj (notBelow ((List.prefix_cons_inj name).mpr beginning))).2
              · cases found : below.get? name with
                | none => exact openTo_empty keys
                | some old =>
                    have open_ := isOpen.2 old (by rwa [get?_asTable])
                    cases keys with
                    | nil => trivial
                    | cons => rwa [Option.getD_some, open_.1.asTable_eq]
          · exact isOpen.2 value (by rwa [get?_asTable])

/-- A name of words puts a value without parts at its place. -/
theorem placeNamed_pointedNames {first : String} {names : List String} (isWord : IsWord first)
    (words : ∀ name ∈ names, IsWord name) (value : Leaf) (layer : Option String)
    (below : Setting) :
    placeNamed (String.ofList (first.toList ++ KeyPath.pointedNames names)) (.leaf value layer)
      below = putAt (.leaf value layer) (first :: names) below := by
  have deeper (names : List String) (old : Setting) :
      placeBelow (.leaf value layer) (names.map .child) old =
        putAt (.leaf value layer) names old := by
    induction names generalizing old with
    | nil => rfl
    | cons name names ih =>
        cases names with
        | nil => cases old <;> rfl
        | cons next names => exact congrArg (changeMember name · old) (funext ih)
  rw [placeNamed, KeyPath.ofText?_pointedNames isWord words]
  simp only [placeAt]
  split
  · next none =>
      obtain rfl := List.map_eq_nil_iff.mp none
      rfl
  · rw [putAt]
    exact congrArg (changeMember first · below) (funext (deeper names))

/-! ## Names at the root -/

/-- The names at the root stay out of the sections. -/
def ApartRoot (setting : Setting) : Prop := ∀ member ∈ setting.members, Apart member.1

theorem apartRoot_put (apart : ApartRoot setting) (apartKey : Apart key) (value : Setting) :
    ApartRoot (setting.asTable.put key value) := by
  intro member listed
  cases setting with
  | table members layer =>
      rcases mem_assign listed with rfl | old
      · exact apartKey
      · exact apart member old
  | leaf =>
      obtain rfl := List.mem_singleton.mp (show member ∈ [(key, value)] from listed)
      exact apartKey
  | list =>
      obtain rfl := List.mem_singleton.mp (show member ∈ [(key, value)] from listed)
      exact apartKey

/-- A path adds the word that it starts with, any other name itself. -/
theorem apartRoot_placeNamed (apart : ApartRoot below)
    (out : KeyPath.ofText? name = none → Apart name) (value : Setting) :
    ApartRoot (placeNamed name value below) := by
  rw [placeNamed]
  cases read : KeyPath.ofText? name with
  | none =>
      simp only [place_eq]
      exact apartRoot_put apart (apart_lowered (out read)) _
  | some path =>
      have isWord := (KeyPath.of_ofText? read).1
      simp only [placeAt]
      split
      · rw [place_eq]
        exact apartRoot_put apart (apart_lowered (apart_of_isWord isWord)) _
      · exact apartRoot_put apart (apart_lowered (apart_of_isWord isWord)) _

theorem apartRoot_overlay (apart : ApartRoot below)
    (out : ∀ member ∈ members, KeyPath.ofText? member.1 = none → Apart member.1) :
    ApartRoot (overlay members below) := by
  rw [overlay]
  induction members generalizing below with
  | nil => exact apart
  | cons member members ih =>
      exact ih (apartRoot_placeNamed apart (out member (by simp)) member.2)
        fun other listed => out other (by simp [listed])

end TraceStore.Setting
