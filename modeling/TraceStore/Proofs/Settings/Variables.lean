import TraceStore.Proofs.Settings.Keys
import TraceStore.Proofs.Settings.Overlay

/-!
# Settings from variables

Every setting has a variable of its own, named by the path to the setting with two underscores for
each point.  Where the variables that belong to the settings name one setting each, each of them
sets its setting and leaves every other one as it was: `Setting.at?_environment`.

The name of a module is part of the name of its variable, and therefore has to be a word without two
underscores in a row.  Any other name is no path (and is passed over), or is a different path.
-/

namespace TraceStore

namespace SettingKey

/-- The variable of a setting, in lower case. -/
def variableName (key : SettingKey) : String :=
  key.path.foldl (fun text name => text ++ "__" ++ name) "flowstore"

/-- The beginning of all variables that belong to the settings. -/
def leading : List Char := "flowstore__".toList

/-- A variable can name the setting: the name of a module is read as one step of a path. -/
def Spelled : SettingKey → Prop
  | .module name => KeyPath.IsWord name ∧ ¬ ['_', '_'] <:+: name.toList
  | _ => True

instance : DecidablePred Spelled := fun key =>
  match key with
  | .module _ => inferInstanceAs (Decidable (_ ∧ ¬ _))
  | .avoidAtomicWrite | .cacheCapacity | .enabled | .level | .format | .output | .file | .color =>
      isTrue trivial

variable {key other : SettingKey} {text : String}

/-- Where the variables of modules begin. -/
def ofModules : List Char := "flowstore__logging__modules__".toList

theorem toList_variableName_module (name : String) :
    (module name).variableName.toList = ofModules ++ name.toList := by
  have closed : ("flowstore" ++ "__" ++ "logging" ++ "__" ++ "modules" ++ "__").toList =
      ofModules := by decide
  rw [← closed, ← String.toList_append]
  rfl

theorem variableName_injective (same : key.variableName = other.variableName) : key = other := by
  cases key with
  | module name =>
      have letters := congrArg String.toList same
      rw [toList_variableName_module] at letters
      cases other with
      | module next =>
          rw [toList_variableName_module, List.append_cancel_left_eq] at letters
          rw [String.toList_inj.mp letters]
      | avoidAtomicWrite | cacheCapacity | enabled | level | format | output | file | color =>
          exact absurd ⟨name.toList, letters⟩ (by decide : ¬ ofModules <+: _)
  | avoidAtomicWrite | cacheCapacity | enabled | level | format | output | file | color =>
      cases other with
      | module name =>
          have letters := congrArg String.toList same
          rw [toList_variableName_module] at letters
          exact absurd ⟨name.toList, letters.symm⟩ (by decide : ¬ ofModules <+: _)
      | avoidAtomicWrite | cacheCapacity | enabled | level | format | output | file | color =>
          first
            | rfl
            | exact absurd same (by decide)

/-- No setting stands above or below another one. -/
theorem eq_of_path_prefix (beginning : key.path <+: other.path) : key = other := by
  cases key <;> cases other <;> simp_all [path]

theorem leading_prefix (key : SettingKey) : leading <+: key.variableName.toList := by
  cases key with
  | module name =>
      rw [toList_variableName_module]
      exact (by decide : leading <+: ofModules).trans (List.prefix_append _ _)
  | avoidAtomicWrite | cacheCapacity | enabled | level | format | output | file | color => decide

theorem isWord_of_mem_path (spelled : key.Spelled) : ∀ name ∈ key.path, KeyPath.IsWord name := by
  cases key with
  | module name =>
      have words : KeyPath.IsWord "logging" ∧ KeyPath.IsWord "modules" := by decide
      simpa [path] using ⟨words.1, words.2, spelled.1⟩
  | avoidAtomicWrite | cacheCapacity | enabled | level | format | output | file | color => decide

/-- The names in a lower case variable are in lower case. -/
theorem lowered_of_mem_path (same : Text.lowered text = key.variableName) :
    ∀ name ∈ key.path, Text.lowered name = name := by
  cases key with
  | module name =>
      have lower : Text.lowered name = name := by
        refine Text.lowered_of_settled fun character within => ?_
        refine @Text.settled_of_mem_lowered text character ?_
        rw [same, toList_variableName_module]
        exact List.mem_append_right _ within
      have tables : Text.lowered "logging" = "logging" ∧ Text.lowered "modules" = "modules" := by
        decide
      simpa [path] using ⟨tables.1, tables.2, lower⟩
  | avoidAtomicWrite | cacheCapacity | enabled | level | format | output | file | color =>
      decide

end SettingKey

namespace Settings

open Setting (at? putAt OpenTo Tidy)

variable {key : SettingKey} {entry : String × String} {vars : Variables} {tree : Setting}

/-! ## One variable -/

theorem pointed_of_single {text : List Char} (single : ¬ ['_', '_'] <:+: text) :
    pointed text = text := by
  induction text using pointed.induct with
  | case1 rest ih => exact absurd (List.prefix_append ['_', '_'] rest).isInfix single
  | case2 character rest _ ih =>
      rw [pointed]
      · exact congrArg (character :: ·)
          (ih fun within => single (within.trans (List.suffix_cons character rest).isInfix))
      · assumption
  | case3 => rfl

/-- With a point for every two underscores a variable spells out the path of its setting. -/
theorem pointed_variableName (spelled : key.Spelled) :
    ∃ first names, key.path = first :: names ∧
      pointed (key.variableName.toList.drop SettingKey.leading.length) =
        first.toList ++ KeyPath.pointedNames names := by
  cases key with
  | module name =>
      refine ⟨"logging", ["modules", name], rfl, ?_⟩
      have reads (rest : List Char) :
          pointed ((SettingKey.ofModules ++ rest).drop SettingKey.leading.length) =
            "logging".toList ++ '.' :: ("modules".toList ++ '.' :: pointed rest) := rfl
      rw [SettingKey.toList_variableName_module, reads, pointed_of_single spelled.2]
      simp only [KeyPath.pointedNames, List.flatMap_cons, List.flatMap_nil, List.append_nil,
        List.cons_append]
  | avoidAtomicWrite | cacheCapacity | enabled | level | format | output | file | color =>
      exact ⟨_, _, rfl, by decide⟩

/-- The beginning of a name by which a variable belongs to the settings. -/
theorem leading_eq : (Text.lowered (usualPrefix ++ "__")).toList = SettingKey.leading := by
  decide

/-- A variable that names a setting is put at the place of the setting. -/
theorem placeNamed_of_variable (spelled : key.Spelled)
    (same : Text.lowered entry.1 = key.variableName) :
    ∃ name, ofVariable SettingKey.leading entry =
        some (name, .leaf (valueOfVariable entry.2) (some environmentLayer)) ∧
      KeyPath.ofText? name ≠ none ∧
      ∀ tree, Setting.placeNamed name (.leaf (valueOfVariable entry.2) (some environmentLayer))
        tree = putAt (.leaf (valueOfVariable entry.2) (some environmentLayer)) key.path tree := by
  obtain ⟨first, names, path, spells⟩ := pointed_variableName spelled
  have words := SettingKey.isWord_of_mem_path spelled
  rw [path] at words
  have begins := List.isPrefixOf_iff_prefix.mpr (same ▸ key.leading_prefix)
  refine ⟨String.ofList (first.toList ++ KeyPath.pointedNames names), ?_, ?_, fun tree => ?_⟩
  · rw [ofVariable, if_pos begins, same, spells]
  · rw [KeyPath.ofText?_pointedNames (words first (by simp))
      fun name member => words name (by simp [member])]
    simp
  · rw [Setting.placeNamed_pointedNames (words first (by simp))
      fun name member => words name (by simp [member]), path]

/-! ## All variables -/

/-- Each variable that belongs to the settings names one of them, and none is named twice, up to
letter case. -/
structure NameSettings (vars : Variables) : Prop where
  each : ∀ entry ∈ vars, SettingKey.leading <+: (Text.lowered entry.1).toList →
    ∃ key : SettingKey, key.Spelled ∧ Text.lowered entry.1 = key.variableName
  once : DistinctNames
    (vars.filter fun entry => SettingKey.leading.isPrefixOf (Text.lowered entry.1).toList)

theorem NameSettings.of_cons (named : NameSettings (entry :: vars)) : NameSettings vars where
  each other listed := named.each other (by simp [listed])
  once := by
    have once := named.once
    rw [List.filter_cons] at once
    split at once
    · exact once.of_cons.2
    · exact once

/-- A variable that was set before is not set again. -/
theorem NameSettings.valueOf?_tail (named : NameSettings (entry :: vars))
    (same : Text.lowered entry.1 = key.variableName) : valueOf? key.variableName vars = none := by
  have ours (name : String) (lower : Text.lowered name = key.variableName) :
      SettingKey.leading.isPrefixOf (Text.lowered name).toList = true :=
    List.isPrefixOf_iff_prefix.mpr (lower ▸ key.leading_prefix)
  have once := named.once
  rw [List.filter_cons, if_pos (ours entry.1 same)] at once
  have absent := once.of_cons.1
  simp only [valueOf?, Option.map_eq_none_iff, List.find?_eq_none, List.mem_filter, and_imp,
    decide_eq_true_eq] at absent ⊢
  intro other listed again
  exact absent other listed (ours other.1 again) (again.trans same.symm)

/-- The first variable sets the setting that it names, or it does not belong to the settings. -/
theorem overlay_environment_cons (named : NameSettings (entry :: vars)) (tree : Setting) :
    (∃ key : SettingKey, key.Spelled ∧ Text.lowered entry.1 = key.variableName ∧
      tree.overlay (environment usualPrefix (entry :: vars)) =
        (putAt (.leaf (valueOfVariable entry.2) (some environmentLayer)) key.path tree).overlay
          (environment usualPrefix vars)) ∨
    (¬ SettingKey.leading <+: (Text.lowered entry.1).toList ∧
      tree.overlay (environment usualPrefix (entry :: vars)) =
        tree.overlay (environment usualPrefix vars)) := by
  simp only [environment, leading_eq]
  by_cases begins : SettingKey.leading <+: (Text.lowered entry.1).toList
  · obtain ⟨key, spelled, same⟩ := named.each entry (by simp) begins
    obtain ⟨name, sets, -, placed⟩ := placeNamed_of_variable spelled same
    refine .inl ⟨key, spelled, same, ?_⟩
    rw [List.filterMap_cons_some sets, ← placed]
    rfl
  · have none_ : ofVariable SettingKey.leading entry = none := by
      rw [ofVariable, if_neg (by simpa using begins)]
    exact .inr ⟨begins, by rw [List.filterMap_cons_none none_]⟩

/-- The variables set the settings that they name, and leave the others as they were. -/
theorem at?_environment (named : NameSettings vars) (key : SettingKey) (tree : Setting) :
    at? key.path (tree.overlay (environment usualPrefix vars)) =
      match valueOf? key.variableName vars with
      | some text => some (.leaf (valueOfVariable text) (some environmentLayer))
      | none => at? key.path tree := by
  induction vars generalizing tree with
  | nil => rfl
  | cons entry vars ih =>
      have later := ih named.of_cons
      rw [show entry = (entry.1, entry.2) from rfl, valueOf?_cons]
      rcases overlay_environment_cons named tree with ⟨set, -, same, sets⟩ | ⟨foreign, passes⟩
      · have lower := SettingKey.lowered_of_mem_path same
        rw [sets, later, same]
        by_cases own : key = set
        · subst own
          rw [if_pos rfl, named.valueOf?_tail same]
          exact Setting.at?_putAt_self lower _ tree
        · rw [if_neg fun equal => own (SettingKey.variableName_injective equal).symm]
          rw [Setting.at?_putAt_other lower
            (fun below => own (SettingKey.eq_of_path_prefix below).symm)
            (fun above => own (SettingKey.eq_of_path_prefix above))]
      · have other : Text.lowered entry.1 ≠ key.variableName := fun equal =>
          foreign (equal ▸ key.leading_prefix)
        rw [passes, later, if_neg other]

/-- Variables leave tables on the way to all settings. -/
theorem openTo_environment (named : NameSettings vars)
    (isOpen : ∀ key : SettingKey, OpenTo key.path tree) (key : SettingKey) :
    OpenTo key.path (tree.overlay (environment usualPrefix vars)) := by
  induction vars generalizing tree with
  | nil => exact isOpen key
  | cons entry vars ih =>
      rcases overlay_environment_cons named tree with ⟨set, -, same, sets⟩ | ⟨-, passes⟩
      · rw [sets]
        refine ih named.of_cons fun key => ?_
        refine Setting.openTo_putAt (SettingKey.lowered_of_mem_path same)
          (fun below => congrArg SettingKey.path (SettingKey.eq_of_path_prefix below)) ?_ _
        rw [(isOpen .enabled).1.asTable_eq]
        exact isOpen key
      · rw [passes]
        exact ih named.of_cons isOpen

/-- Names of variables are paths. -/
theorem apart_of_mem_environment (named : NameSettings vars) {member : String × Setting}
    (listed : member ∈ environment usualPrefix vars) : KeyPath.ofText? member.1 ≠ none := by
  rw [environment, leading_eq] at listed
  obtain ⟨entry, there, sets⟩ := List.mem_filterMap.mp listed
  have begins : SettingKey.leading <+: (Text.lowered entry.1).toList := by
    rw [ofVariable] at sets
    split at sets
    · next begins => exact List.isPrefixOf_iff_prefix.mp begins
    · simp at sets
  obtain ⟨key, spelled, same⟩ := named.each entry there begins
  obtain ⟨name, found, isPath, -⟩ := placeNamed_of_variable spelled same
  obtain rfl := Option.some.inj (found.symm.trans sets)
  exact isPath

end Settings

end TraceStore
