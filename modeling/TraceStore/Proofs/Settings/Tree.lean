import TraceStore.Proofs.Settings.Names

/-!
# Looking into a tree of settings

What stands under a key after a change is said here once for each way of changing a tree, so that
later proofs follow keys (`Setting.at?`) and never the lists of members.  Raw tables, as layers have
them, are looked into up to letter case (`valueOf?`, `Setting.found?`); what has been placed in a
tree is in lower case and under one key each (`Setting.Tidy`), where both ways of looking agree.

A table on top of another one is merged into it key by key, at every depth: `Setting.at?_laidOn`.
-/

namespace TraceStore

/-! ## Names up to letter case -/

/-- The value under a name, up to letter case. -/
def valueOf? {α : Type} (key : String) (members : List (String × α)) : Option α :=
  (members.find? (Text.lowered ·.1 = key)).map (·.2)

/-- No name occurs twice, up to letter case. -/
def DistinctNames {α : Type} (members : List (String × α)) : Prop :=
  (members.map fun member => Text.lowered member.1).Nodup

instance {α : Type} (members : List (String × α)) : Decidable (DistinctNames members) :=
  inferInstanceAs (Decidable (List.Nodup _))

section

variable {α β : Type} {key name : String} {value : α} {members : List (String × α)}

theorem valueOf?_cons (key name : String) (value : α) (members : List (String × α)) :
    valueOf? key ((name, value) :: members) =
      if Text.lowered name = key then some value else valueOf? key members := by
  by_cases same : Text.lowered name = key <;> simp [valueOf?, same]

theorem valueOf?_map (convert : α → β) (key : String) (members : List (String × α)) :
    valueOf? key (members.map fun member => (member.1, convert member.2)) =
      (valueOf? key members).map convert := by
  induction members with
  | nil => rfl
  | cons member members ih =>
      obtain ⟨name, value⟩ := member
      rw [List.map_cons, valueOf?_cons, valueOf?_cons, ih]
      split <;> rfl

theorem valueOf?_eq_none_of_notMem
    (absent : key ∉ members.map fun member => Text.lowered member.1) :
    valueOf? key members = none := by
  simp only [valueOf?, Option.map_eq_none_iff, List.find?_eq_none, decide_eq_true_eq]
  exact fun member listed same => absent (List.mem_map.mpr ⟨member, listed, same⟩)

/-- Where names are in lower case, looking for one of them is looking for equal ones. -/
theorem valueOf?_of_lower (lower : ∀ member ∈ members, Text.lowered member.1 = member.1)
    (key : String) : valueOf? key members = (members.find? (·.1 = key)).map (·.2) := by
  induction members with
  | nil => rfl
  | cons member members ih =>
      have later := ih fun other listed => lower other (by simp [listed])
      rw [valueOf?_cons, lower member (by simp), later]
      by_cases same : member.1 = key <;> simp [same]

theorem DistinctNames.of_cons (distinct : DistinctNames ((name, value) :: members)) :
    valueOf? (Text.lowered name) members = none ∧ DistinctNames members := by
  rw [DistinctNames, List.map_cons, List.nodup_cons] at distinct
  exact ⟨valueOf?_eq_none_of_notMem distinct.1, distinct.2⟩

end

/-! ## Assigning -/

section

variable {α : Type} {key other : String} {value : α} {members : List (String × α)}

theorem assign_nil (key : String) (value : α) : assign key value [] = [(key, value)] := rfl

theorem assign_cons (key name : String) (value kept : α) (members : List (String × α)) :
    assign key value ((name, kept) :: members) =
      if name = key then (key, value) :: members
      else (name, kept) :: assign key value members := rfl

theorem find?_assign (key other : String) (value : α) (members : List (String × α)) :
    ((assign key value members).find? (·.1 = other)).map (·.2) =
      if key = other then some value else (members.find? (·.1 = other)).map (·.2) := by
  induction members with
  | nil => by_cases same : key = other <;> simp [assign_nil, same]
  | cons member members ih =>
      obtain ⟨name, kept⟩ := member
      rw [assign_cons]
      by_cases taken : name = key
      · subst taken
        by_cases same : name = other <;> simp [same]
      · rw [if_neg taken]
        by_cases same : name = other
        · subst same
          simp [Ne.symm taken]
        · simpa [same] using ih

theorem mem_assign {member : String × α} (listed : member ∈ assign key value members) :
    member = (key, value) ∨ member ∈ members := by
  induction members with
  | nil => exact .inl (List.mem_singleton.mp listed)
  | cons first members ih =>
      rw [assign_cons] at listed
      split at listed
      · rcases List.mem_cons.mp listed with same | later
        · exact .inl same
        · exact .inr (by simp [later])
      · rcases List.mem_cons.mp listed with same | later
        · exact .inr (by simp [same])
        · exact (ih later).imp_right fun there => by simp [there]

theorem nodup_assign (distinct : (members.map (·.1)).Nodup) :
    ((assign key value members).map (·.1)).Nodup := by
  induction members with
  | nil => exact List.pairwise_singleton _ _
  | cons first members ih =>
      rw [List.map_cons, List.nodup_cons] at distinct
      rw [assign_cons]
      split
      · next same => simpa [← same] using distinct
      · next taken =>
          rw [List.map_cons, List.nodup_cons]
          refine ⟨fun listed => ?_, ih distinct.2⟩
          obtain ⟨member, there, same⟩ := List.mem_map.mp listed
          rcases mem_assign there with rfl | old
          · exact taken same.symm
          · exact distinct.1 (List.mem_map.mpr ⟨member, old, same⟩)

end

namespace Setting

variable {key name : String} {keys names : List String} {value below setting : Setting}
  {members : List (String × Setting)} {layer : Option String}

/-- A value with members. -/
def IsTable (setting : Setting) : Prop := ∃ members layer, setting = .table members layer

theorem isTable_table (members : List (String × Setting)) (layer : Option String) :
    (table members layer).IsTable := ⟨members, layer, rfl⟩

theorem IsTable.asTable_eq (isTable : setting.IsTable) : setting.asTable = setting := by
  obtain ⟨members, layer, rfl⟩ := isTable
  rfl

/-! ## One key -/

@[simp] theorem get?_empty (key : String) : get? key empty = none := rfl

@[simp] theorem get?_asTable (key : String) (setting : Setting) :
    get? key setting.asTable = get? key setting := by
  cases setting <;> rfl

theorem get?_put (setting value : Setting) (key other : String) :
    (setting.put key value).get? other =
      if key = other then some value else setting.get? other := by
  cases setting with
  | table members layer => exact find?_assign key other value members
  | leaf => by_cases same : key = other <;> simp [put, get?, same]
  | list => by_cases same : key = other <;> simp [put, get?, same]

theorem isTable_put (setting value : Setting) (key : String) : (setting.put key value).IsTable := by
  cases setting <;> exact isTable_table _ _

/-- A value laid on another one or on nothing: tables are merged. -/
def laidOn (value : Setting) (below : Option Setting) : Setting :=
  match value with
  | .table members _ => placeAll members (below.getD empty)
  | other => other

/-- What stands in a place after something was put on top, if anything was. -/
def onto (value below : Option Setting) : Option Setting :=
  match value with
  | some value => some (value.laidOn below)
  | none => below

theorem place_eq (name : String) (value below : Setting) :
    place name value below = below.asTable.put (Text.lowered name)
      (value.laidOn (below.get? (Text.lowered name))) := by
  cases value <;> simp [place, laidOn]

/-- The members of a table are put on top one after the other. -/
theorem placeAll_cons (name : String) (value : Setting) (members : List (String × Setting))
    (below : Setting) : placeAll ((name, value) :: members) below =
      placeAll members (place name value below) := rfl

theorem get?_place (name key : String) (value below : Setting) :
    (place name value below).get? key =
      if Text.lowered name = key then some (value.laidOn (below.get? key)) else below.get? key := by
  rw [place_eq, get?_put, get?_asTable]
  split
  · next same => rw [same]
  · rfl

/-- Where names are distinct, each member is put on top of what stands under its own name. -/
theorem get?_placeAll (distinct : DistinctNames members) (key : String) (below : Setting) :
    (placeAll members below).get? key = onto (valueOf? key members) (below.get? key) := by
  induction members generalizing below with
  | nil => rfl
  | cons member members ih =>
      obtain ⟨name, value⟩ := member
      obtain ⟨once, others⟩ := distinct.of_cons
      rw [placeAll_cons, ih others, get?_place, valueOf?_cons]
      split
      · next same =>
          rw [same] at once
          rw [once]
          rfl
      · rfl

theorem get?_changeMember (name key : String) (change : Setting → Setting) (below : Setting) :
    (changeMember name change below).get? key =
      if Text.lowered name = key then some (change ((below.get? key).getD missing))
      else below.get? key := by
  simp only [changeMember, get?_put, get?_asTable]
  split
  · next same => rw [same]
  · rfl

theorem isTable_placeAll (isTable : below.IsTable) (members : List (String × Setting)) :
    (placeAll members below).IsTable := by
  induction members generalizing below with
  | nil => exact isTable
  | cons member members ih =>
      obtain ⟨name, value⟩ := member
      rw [placeAll_cons, place_eq]
      exact ih (isTable_put _ _ _)

/-! ## Values with parts -/

/-- A list, or a table that is not empty. -/
def HasParts : Setting → Prop
  | .leaf _ _ => False
  | .list _ _ => True
  | .table members _ => members ≠ []

theorem hasParts_put (setting value : Setting) (key : String) :
    (setting.put key value).HasParts := by
  cases setting with
  | leaf => exact List.cons_ne_nil _ _
  | list => exact List.cons_ne_nil _ _
  | table members layer =>
      cases members with
      | nil => exact List.cons_ne_nil _ _
      | cons first members =>
          rw [put, assign_cons, HasParts]
          split <;> exact List.cons_ne_nil _ _

theorem hasParts_placeAll (hasParts : below.HasParts) (members : List (String × Setting)) :
    (placeAll members below).HasParts := by
  induction members generalizing below with
  | nil => exact hasParts
  | cons member members ih =>
      rw [placeAll_cons, place_eq]
      exact ih (hasParts_put _ _ _)

/-- What has parts has parts on top of anything. -/
theorem HasParts.laidOn (hasParts : setting.HasParts) (below : Option Setting) :
    (setting.laidOn below).HasParts := by
  cases setting with
  | leaf => exact hasParts.elim
  | list => exact hasParts
  | table members layer =>
      cases members with
      | nil => exact absurd rfl hasParts
      | cons member members =>
          rw [Setting.laidOn, placeAll_cons, place_eq]
          exact hasParts_placeAll (hasParts_put _ _ _) members

/-! ## Several keys -/

/-- The value that keys lead to. -/
def at? : List String → Setting → Option Setting
  | [], setting => some setting
  | key :: keys, setting => (setting.get? key).bind (at? keys)

/-- The value that names lead to in raw tables, up to letter case. -/
def found? : List String → Setting → Option Setting
  | [], setting => some setting
  | key :: keys, setting => (valueOf? key setting.members).bind (found? keys)

/-- On the way that keys lead there are tables only, with distinct names up to letter case. -/
def Clear : List String → Setting → Prop
  | [], _ => True
  | key :: keys, setting => setting.IsTable ∧ DistinctNames setting.members ∧
      ∀ value, valueOf? key setting.members = some value → Clear keys value

/-- On the way that keys lead there are tables only. -/
def OpenTo : List String → Setting → Prop
  | [], _ => True
  | key :: keys, setting => setting.IsTable ∧
      ∀ value, setting.get? key = some value → OpenTo keys value

@[simp] theorem at?_cons (key : String) (keys : List String) (setting : Setting) :
    at? (key :: keys) setting = (setting.get? key).bind (at? keys) := rfl

/-- Merging a value into another one merges what keys lead to in both. -/
theorem at?_laidOn (clear : Clear keys setting) (below : Option Setting) :
    at? keys (setting.laidOn below) = onto (found? keys setting) (below.bind (at? keys)) := by
  induction keys generalizing setting below with
  | nil =>
      have same : below.bind (at? []) = below := by cases below <;> rfl
      rw [same]
      rfl
  | cons key keys ih =>
      obtain ⟨⟨members, layer, rfl⟩, distinct, onward⟩ := clear
      change DistinctNames members at distinct
      have old : (below.getD empty).get? key = below.bind (get? key) := by cases below <;> rfl
      have older : (below.bind (get? key)).bind (at? keys) = below.bind (at? (key :: keys)) := by
        cases below <;> rfl
      simp only [laidOn, at?_cons, found?, Setting.members, get?_placeAll distinct, old]
      cases found : valueOf? key members with
      | none => exact older
      | some value =>
          have deeper := ih (onward value found) (below.bind (get? key))
          rw [older] at deeper
          exact deeper

theorem openTo_empty (keys : List String) : OpenTo keys empty := by
  cases keys with
  | nil => trivial
  | cons key keys => exact ⟨isTable_table _ _, fun value found => by simp at found⟩

/-- Merging tables into tables leaves tables. -/
theorem openTo_laidOn (clear : Clear keys setting) {below : Option Setting}
    (isOpen : ∀ old, below = some old → OpenTo keys old) : OpenTo keys (setting.laidOn below) := by
  induction keys generalizing setting below with
  | nil => trivial
  | cons key keys ih =>
      obtain ⟨⟨members, layer, rfl⟩, distinct, onward⟩ := clear
      change DistinctNames members at distinct
      have isOpen : OpenTo (key :: keys) (below.getD empty) := by
        cases below with
        | none => exact openTo_empty _
        | some old => exact isOpen old rfl
      refine ⟨isTable_placeAll isOpen.1 members, fun value placed => ?_⟩
      rw [laidOn, get?_placeAll distinct] at placed
      cases found : valueOf? key members with
      | none => exact isOpen.2 value (by simpa [found, onto] using placed)
      | some new =>
          obtain rfl : new.laidOn ((below.getD empty).get? key) = value := by
            simpa [found, onto] using placed
          exact ih (onward new found) isOpen.2

/-! ## Tidy trees -/

/-- All keys of tables are in lower case, and no key occurs twice. -/
inductive Tidy : Setting → Prop where
  | leaf {value : Leaf} {layer : Option String} : Tidy (.leaf value layer)
  | list {elements : List Setting} {layer : Option String} : Tidy (.list elements layer)
  | table {members : List (String × Setting)} {layer : Option String}
      (distinct : (members.map (·.1)).Nodup)
      (lower : ∀ member ∈ members, Text.lowered member.1 = member.1)
      (tidy : ∀ member ∈ members, Tidy member.2) : Tidy (.table members layer)

theorem tidy_empty : Tidy empty := .table (by simp) (by simp) (by simp)

namespace Tidy

theorem get? (tidy : Tidy setting) (found : setting.get? key = some value) : Tidy value := by
  cases tidy with
  | leaf => simp [Setting.get?] at found
  | list => simp [Setting.get?] at found
  | table distinct lower tidy =>
      obtain ⟨member, listed, rfl⟩ := Option.map_eq_some_iff.mp found
      exact tidy member (List.mem_of_find?_eq_some listed)

theorem asTable (tidy : Tidy setting) : Tidy setting.asTable := by
  cases tidy with
  | leaf => exact tidy_empty
  | list => exact tidy_empty
  | table distinct lower tidy => exact .table distinct lower tidy

theorem put (tidy : Tidy setting) (tidyValue : Tidy value) (name : String) :
    Tidy (setting.put (Text.lowered name) value) := by
  have single : Tidy (.table [(Text.lowered name, value)] none) :=
    .table (by simp) (by simp) (by simpa using tidyValue)
  cases tidy with
  | leaf => exact single
  | list => exact single
  | table distinct lower tidy =>
      refine .table (nodup_assign distinct) (fun member listed => ?_) (fun member listed => ?_)
      · rcases mem_assign listed with rfl | old
        · exact Text.lowered_lowered name
        · exact lower member old
      · rcases mem_assign listed with rfl | old
        · exact tidyValue
        · exact tidy member old

theorem changeMember (tidy : Tidy setting) (name : String) {change : Setting → Setting}
    (keeps : ∀ old, Tidy old → Tidy (change old)) : Tidy (changeMember name change setting) := by
  refine tidy.asTable.put (keeps _ ?_) name
  cases found : setting.get? (Text.lowered name) with
  | none =>
      rw [get?_asTable, found]
      exact .leaf
  | some old =>
      rw [get?_asTable, found]
      exact tidy.get? found

end Tidy

mutual

theorem tidy_place (name : String) (value : Setting) {below : Setting} (tidy : Tidy below) :
    Tidy (place name value below) := by
  cases value with
  | leaf value layer => exact tidy.asTable.put .leaf name
  | list elements layer => exact tidy.asTable.put .list name
  | table members layer =>
      refine tidy.asTable.put (tidy_placeAll members ?_) name
      cases found : below.get? (Text.lowered name) with
      | none => exact tidy_empty
      | some old => exact tidy.get? found

theorem tidy_placeAll (members : List (String × Setting)) {below : Setting} (tidy : Tidy below) :
    Tidy (placeAll members below) := by
  cases members with
  | nil => exact tidy
  | cons member others => exact tidy_placeAll others (tidy_place member.1 member.2 tidy)

end

theorem tidy_placeBelow {steps : List KeyStep} (deep : steps ≠ []) (tidy : Tidy below)
    (value : Setting) : Tidy (placeBelow value steps below) := by
  induction steps generalizing below with
  | nil => exact absurd rfl deep
  | cons step steps ih =>
      cases step with
      | element position => cases steps <;> exact .list
      | child name =>
          cases steps with
          | nil => exact tidy_place name value tidy.asTable
          | cons next steps => exact tidy.changeMember name fun old tidyOld => ih (by simp) tidyOld

theorem tidy_placeNamed (tidy : Tidy below) (name : String) (value : Setting) :
    Tidy (placeNamed name value below) := by
  rw [placeNamed]
  split
  · next path _ =>
      rw [placeAt]
      split
      · exact tidy_place _ value tidy
      · next deep => exact tidy.changeMember _ fun old tidyOld => tidy_placeBelow deep tidyOld value
  · exact tidy_place name value tidy

/-- What is put on top of a tidy tree leaves it tidy. -/
theorem tidy_overlay (tidy : Tidy below) (members : List (String × Setting)) :
    Tidy (overlay members below) := by
  rw [overlay]
  induction members generalizing below with
  | nil => exact tidy
  | cons member members ih => exact ih (tidy_placeNamed tidy member.1 member.2)

/-! ## Looking into tidy trees -/

namespace Tidy

theorem nodup (tidy : Tidy (.table members layer)) : (members.map (·.1)).Nodup := by
  cases tidy with
  | table distinct _ _ => exact distinct

theorem distinctNames (tidy : Tidy setting) : DistinctNames setting.members := by
  cases tidy with
  | leaf => exact List.nodup_nil
  | list => exact List.nodup_nil
  | table distinct lower _ =>
      rw [DistinctNames, Setting.members, List.map_congr_left lower]
      exact distinct

theorem valueOf?_members (tidy : Tidy setting) (key : String) :
    valueOf? key setting.members = setting.get? key := by
  cases tidy with
  | leaf => rfl
  | list => rfl
  | table distinct lower _ => exact valueOf?_of_lower lower key

theorem found? (tidy : Tidy setting) (keys : List String) :
    found? keys setting = at? keys setting := by
  induction keys generalizing setting with
  | nil => rfl
  | cons key keys ih =>
      rw [Setting.found?, tidy.valueOf?_members, at?_cons]
      cases found : setting.get? key with
      | none => rfl
      | some value => exact ih (tidy.get? found)

theorem clear (tidy : Tidy setting) (isOpen : OpenTo keys setting) : Clear keys setting := by
  induction keys generalizing setting with
  | nil => trivial
  | cons key keys ih =>
      refine ⟨isOpen.1, tidy.distinctNames, fun value found => ?_⟩
      rw [tidy.valueOf?_members] at found
      exact ih (tidy.get? found) (isOpen.2 value found)

end Tidy

/-- What stands on the way to more keys is a table. -/
theorem OpenTo.table_of_get? {next : String} (isOpen : OpenTo (key :: next :: keys) setting)
    (tidy : Tidy setting) (found : setting.get? key = some value) :
    ∃ members layer, value = .table members layer ∧ (members.map (·.1)).Nodup := by
  obtain ⟨members, layer, rfl⟩ := (isOpen.2 value found).1
  exact ⟨members, layer, rfl, (tidy.get? found).nodup⟩

end Setting

end TraceStore
