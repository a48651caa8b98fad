import TraceStore.Proofs.Settings.Variables

/-!
# Which source a setting comes from

Settings are loaded from a document and from variables on top of it.  Each setting has a source of
its own: its variable if that is set, otherwise what the document says about it, otherwise nothing,
and then the usual value stands (`SettingKey.source?`).  No other variable and no other part of the
document matters: `Settings.loading_is_leaf_by_leaf`.

The layers are put on top of each other twice, first the variables on the document and then both on
the usual values, and a table is merged wherever it meets a table.  What is followed through this is
the place of one setting (`Setting.at?`), under the invariant that there are only tables on the way
to it.
-/

namespace TraceStore

/-! ## Documents -/

namespace Toml

/-- The members of a value; what is no table has none. -/
def Value.members : Value → Members
  | .table _ members => members
  | _ => []

/-- A table without repeated names, up to letter case. -/
def Value.IsSection : Value → Prop
  | .table _ members => DistinctNames members
  | _ => False

instance : DecidablePred Value.IsSection := fun value =>
  match value with
  | .table _ members => inferInstanceAs (Decidable (DistinctNames members))
  | .text _ | .integer _ | .real _ | .boolean _ | .moment _ | .list _ | .tables _ => isFalse id

/-- The value that names lead to, up to letter case. -/
def at? : List String → Members → Option Value
  | [], _ => none
  | [key], members => valueOf? key members
  | key :: keys, members => (valueOf? key members).bind fun value => at? keys value.members

end Toml

open Setting (at? found? laidOn onto putAt Clear OpenTo Tidy ApartRoot Apart sections Read)

/-- A document in which the settings can be found: no name is repeated, the sections are tables, and
other names do not lead into them. -/
structure WellLaid (document : Toml.Members) : Prop where
  once : DistinctNames document
  apart : ∀ member ∈ document, Apart member.1
  sections : ∀ top ∈ sections, ∀ value ∈ valueOf? top document, value.IsSection
  modules : ∀ logging ∈ valueOf? "logging" document, ∀ value ∈ valueOf? "modules" logging.members,
    value.IsSection

namespace Settings

variable {layer : Option String} {document : Toml.Members} {vars : Variables} {key : SettingKey}

theorem ofTomlMembers_eq_map (layer : Option String) (members : Toml.Members) :
    ofTomlMembers layer members = members.map fun member => (member.1, ofToml layer member.2) := by
  induction members with
  | nil => rfl
  | cons member members ih =>
      rw [ofTomlMembers, ih]
      rfl

theorem valueOf?_ofTomlMembers (layer : Option String) (key : String) (members : Toml.Members) :
    valueOf? key (ofTomlMembers layer members) = (valueOf? key members).map (ofToml layer) := by
  rw [ofTomlMembers_eq_map, valueOf?_map]

theorem members_ofToml (layer : Option String) (value : Toml.Value) :
    (ofToml layer value).members = ofTomlMembers layer value.members := by
  cases value <;> rfl

theorem distinctNames_ofTomlMembers {members : Toml.Members} (once : DistinctNames members)
    (layer : Option String) : DistinctNames (ofTomlMembers layer members) := by
  rw [ofTomlMembers_eq_map, DistinctNames, List.map_map]
  exact once

/-- What a document says is found in its layer. -/
theorem found?_ofToml {setting : Setting} {members : Toml.Members}
    (same : setting.members = ofTomlMembers layer members) {keys : List String}
    (some_ : keys ≠ []) : found? keys setting = (Toml.at? keys members).map (ofToml layer) := by
  induction keys generalizing setting members with
  | nil => exact absurd rfl some_
  | cons key keys ih =>
      rw [found?, same, valueOf?_ofTomlMembers]
      cases keys with
      | nil => cases found : valueOf? key members <;> simp [Toml.at?, found, found?]
      | cons next keys =>
          rw [Toml.at?]
          · cases valueOf? key members with
            | none => rfl
            | some value => exact ih (members_ofToml layer value) (by simp)
          · simp

theorem clear_ofToml {value : Toml.Value} (isSection : value.IsSection) {key : String}
    {keys : List String}
    (onward : ∀ next ∈ valueOf? key value.members, Clear keys (ofToml layer next)) :
    Clear (key :: keys) (ofToml layer value) := by
  cases value with
  | table origin members =>
      refine ⟨Setting.isTable_table _ _, distinctNames_ofTomlMembers isSection layer, ?_⟩
      intro next found
      rw [members_ofToml, valueOf?_ofTomlMembers] at found
      obtain ⟨below, there, rfl⟩ := Option.map_eq_some_iff.mp found
      exact onward below there
  | text | integer | real | boolean | moment | list | tables => exact isSection.elim

/-- In the layer of a well laid document there are tables on the way to all settings. -/
theorem clear_layer (laid : WellLaid document) (layer : Option String) (key : SettingKey) :
    Clear key.path (.table (ofTomlMembers layer document) none) := by
  have top {name : String} {names : List String}
      (onward : ∀ value ∈ valueOf? name document, Clear names (ofToml layer value)) :
      Clear (name :: names) (.table (ofTomlMembers layer document) none) := by
    refine ⟨Setting.isTable_table _ _, distinctNames_ofTomlMembers laid.once layer, ?_⟩
    intro value found
    rw [Setting.members, valueOf?_ofTomlMembers] at found
    obtain ⟨below, there, rfl⟩ := Option.map_eq_some_iff.mp found
    exact onward below there
  rcases key.path_cases with ⟨name, path⟩ | ⟨name, path⟩ | ⟨name, rfl⟩
  · rw [path]
    exact top fun value there =>
      clear_ofToml (laid.sections "storage" (by decide) value there) fun _ _ => trivial
  · rw [path]
    exact top fun value there =>
      clear_ofToml (laid.sections "logging" (by decide) value there) fun _ _ => trivial
  · exact top fun value there =>
      clear_ofToml (laid.sections "logging" (by decide) value there) fun levels found =>
        clear_ofToml (laid.modules value there levels found) fun _ _ => trivial

theorem apartRoot_layer (laid : WellLaid document) (layer : Option String) :
    ApartRoot (.table (ofTomlMembers layer document) none) := by
  intro member listed
  rw [Setting.members, ofTomlMembers_eq_map] at listed
  obtain ⟨original, there, rfl⟩ := List.mem_map.mp listed
  exact laid.apart original there

/-! ## The usual values -/

/-- The usual settings of a store, as they stand in the usual tree. -/
def usualStorage : List (String × Setting) := [
  ("avoid_atomic_write", .leaf (.boolean false) none), ("cache_capacity", .leaf (.integer 4096) none)]

theorem lowered_usual : Text.lowered "storage" = "storage" ∧
    Text.lowered "avoid_atomic_write" = "avoid_atomic_write" ∧
    Text.lowered "cache_capacity" = "cache_capacity" := by
  decide

theorem usualTree_eq : usualTree = .table [("storage", .table usualStorage none)] none := by
  simp [usualTree, Setting.placeAt, Setting.changeMember, Setting.placeBelow, Setting.place,
    Setting.asTable, Setting.empty, Setting.missing, Setting.put, Setting.get?, assign,
    lowered_usual, usualStorage]

theorem tidy_usualTree : Tidy usualTree := by
  have storage : Tidy (.table usualStorage none) := by
    refine .table (by decide) ?_ ?_
    · simp [usualStorage, lowered_usual]
    · simpa [usualStorage] using ⟨Tidy.leaf, Tidy.leaf⟩
  rw [usualTree_eq]
  refine .table (by simp) ?_ ?_
  · simp [lowered_usual]
  · simpa using storage

theorem openTo_usualTree (key : SettingKey) : OpenTo key.path usualTree := by
  rw [usualTree_eq]
  rcases key.path_cases with ⟨name, path⟩ | ⟨name, path⟩ | ⟨name, rfl⟩
  · rw [path]
    refine ⟨Setting.isTable_table _ _, fun value found => ?_⟩
    obtain rfl : Setting.table usualStorage none = value := by simpa [Setting.get?] using found
    exact ⟨Setting.isTable_table _ _, fun _ _ => trivial⟩
  · rw [path]
    exact ⟨Setting.isTable_table _ _, fun value found => by simp [Setting.get?] at found⟩
  · exact ⟨Setting.isTable_table _ _, fun value found => by simp [Setting.get?] at found⟩

/-- The usual tree says what holds where nothing is said. -/
theorem read_usualTree (key : SettingKey) :
    Read key.convert (key.get {}) (at? key.path usualTree) (key.get {}) := by
  rw [usualTree_eq]
  cases key with
  | avoidAtomicWrite | cacheCapacity => rfl
  | enabled | level | format | output | file | color | module => rfl

/-! ## Layers on top of each other -/

theorem path_eq (key : SettingKey) : ∃ top ∈ sections, ∃ names, key.path = top :: names := by
  rcases key.path_cases with ⟨name, path⟩ | ⟨name, path⟩ | ⟨name, rfl⟩
  · exact ⟨"storage", by decide, _, path⟩
  · exact ⟨"logging", by decide, _, path⟩
  · exact ⟨"logging", by decide, _, rfl⟩

section

variable {setting below : Setting}

theorem at?_overlay_path (clear : Clear key.path setting) (apart : ApartRoot setting)
    (below : Setting) : at? key.path (below.overlay setting.members) =
      onto (found? key.path setting) (at? key.path below) := by
  obtain ⟨top, isTop, names, path⟩ := path_eq key
  rw [path] at clear ⊢
  exact Setting.at?_overlay (Setting.isWord_of_mem_sections top isTop) clear
    (fun member listed => apart member listed top isTop) below

theorem openTo_overlay_path (clear : Clear key.path setting) (apart : ApartRoot setting)
    (isOpen : OpenTo key.path below) : OpenTo key.path (below.overlay setting.members) := by
  obtain ⟨top, isTop, names, path⟩ := path_eq key
  rw [path] at clear isOpen ⊢
  exact Setting.openTo_overlay (Setting.isWord_of_mem_sections top isTop) clear
    (fun member listed => apart member listed top isTop) isOpen

end

/-- A document on top of nothing, and variables on top of that. -/
def collected (layer : Option String) (document : Toml.Members) (vars : Variables) : Setting :=
  (Setting.empty.overlay (ofTomlMembers layer document)).overlay (environment usualPrefix vars)

/-- What is collected from well laid sources: names in lower case, names at the root out of the
sections, and tables on the way to all settings. -/
structure Collects (tree : Setting) : Prop where
  tidy : Tidy tree
  apart : ApartRoot tree
  isOpen : ∀ key : SettingKey, OpenTo key.path tree

theorem collects (laid : WellLaid document) (named : NameSettings vars) (layer : Option String) :
    Collects (collected layer document vars) := by
  have nothing : ApartRoot .empty := fun member listed => by
    simp [Setting.empty, Setting.members] at listed
  have layered := apartRoot_layer laid layer
  constructor
  case tidy => exact Setting.tidy_overlay (Setting.tidy_overlay Setting.tidy_empty _) _
  case apart =>
    refine Setting.apartRoot_overlay (Setting.apartRoot_overlay nothing ?_) ?_
    · exact fun member listed _ => layered member listed
    · exact fun member listed none_ => absurd none_ (apart_of_mem_environment named listed)
  case isOpen =>
    exact openTo_environment named fun key =>
      openTo_overlay_path (clear_layer laid layer key) layered (Setting.openTo_empty _)

theorem at?_empty (key : SettingKey) : at? key.path .empty = none := by
  obtain ⟨top, -, names, path⟩ := path_eq key
  rw [path]
  rfl

/-- What stands at the place of a setting after collecting: its variable, or what the document
says. -/
theorem at?_collected (laid : WellLaid document) (named : NameSettings vars)
    (layer : Option String) (key : SettingKey) :
    at? key.path (collected layer document vars) =
      match valueOf? key.variableName vars with
      | some text => some (.leaf (valueOfVariable text) (some environmentLayer))
      | none => (Toml.at? key.path document).map fun value => (ofToml layer value).laidOn none := by
  have said : found? key.path (.table (ofTomlMembers layer document) none) = _ :=
    found?_ofToml rfl (by cases key <;> simp [SettingKey.path])
  rw [collected, at?_environment named]
  cases valueOf? key.variableName vars with
  | some text => rfl
  | none =>
      have merged := at?_overlay_path (clear_layer laid layer key)
        (apartRoot_layer laid layer) .empty
      rw [said, at?_empty] at merged
      refine merged.trans ?_
      cases Toml.at? key.path document <;> rfl

/-- A value that is read from the usual tree is the usual one. -/
theorem eq_usual_of_read {value : key.Value}
    (read : Read key.convert (key.get {}) (at? key.path usualTree) value) : value = key.get {} :=
  read.unique (read_usualTree key)

end Settings

/-! ## Sources -/

namespace SettingKey

/-- What a document says about a setting.  An empty table says nothing. -/
def said? (key : SettingKey) (document : Toml.Members) : Option Toml.Value :=
  match Toml.at? key.path document with
  | some (.table _ []) => none
  | found => found

/-- Where the value of a setting comes from: its variable, or else what the document says. -/
def source? (key : SettingKey) (document : Toml.Members) (vars : Variables) : Option Setting :=
  match valueOf? key.variableName vars with
  | some text => some (.leaf (Settings.valueOfVariable text) none)
  | none => (key.said? document).map (Settings.ofToml none)

end SettingKey

namespace Settings

variable {layer : Option String} {document : Toml.Members} {vars : Variables} {settings : Settings}

/-- What a document says about a setting and the usual value together: the former, if it says
anything. -/
theorem read_said {key : SettingKey} {converted : key.Value}
    (read : Read key.convert (key.get {})
      (onto ((Toml.at? key.path document).map fun value => (ofToml layer value).laidOn none)
        (at? key.path usualTree)) converted) :
    Read key.convert (key.get {}) ((key.said? document).map (ofToml none)) converted := by
  rw [SettingKey.said?]
  cases found : Toml.at? key.path document with
  | none =>
      rw [found] at read
      exact eq_usual_of_read read
  | some value =>
      rw [found] at read
      cases value with
      | text | integer | real | boolean | moment => exact SettingKey.convert_leaf none read
      | list | tables => exact absurd read (SettingKey.convert_of_hasParts trivial)
      | table origin members =>
          cases members with
          | nil =>
              -- an empty table lets the usual value through, if there is one
              refine eq_usual_of_read ?_
              cases stands : at? key.path usualTree with
              | none =>
                  rw [stands] at read
                  exact absurd read SettingKey.convert_table
              | some usual =>
                  rw [stands] at read
                  exact read
          | cons member members =>
              have hasParts : (ofToml layer (.table origin (member :: members))).HasParts :=
                List.cons_ne_nil _ _
              exact absurd read (SettingKey.convert_of_hasParts ((hasParts.laidOn none).laidOn _))

/-- The settings that a document and variables make, on top of the usual values, come from their
sources one by one. -/
theorem read_source (laid : WellLaid document) (named : NameSettings vars)
    (typed : (usualTree.overlay (collected layer document vars).members).toSettings =
      .ok settings) (key : SettingKey) :
    Read key.convert (key.get {}) (key.source? document vars) (key.get settings) := by
  have tree := collects laid named layer
  have clear (key : SettingKey) := tree.tidy.clear (tree.isOpen key)
  have read := SettingKey.read_of_toSettings (Setting.tidy_overlay tidy_usualTree _)
    (fun key => openTo_overlay_path (clear key) tree.apart (openTo_usualTree key)) typed key
  rw [at?_overlay_path (clear key) tree.apart, tree.tidy.found?, at?_collected laid named] at read
  rw [SettingKey.source?]
  cases set : valueOf? key.variableName vars with
  | some text =>
      rw [set] at read
      exact SettingKey.convert_leaf none read
  | none =>
      rw [set] at read
      exact read_said read

/-! ## Loading -/

/-- A file at a path is a document. -/
structure IsDocument (files : FileTree) (working : Route) (path : String)
    (document : Toml.Members) : Prop where
  format : formatOf? path = some .toml
  written : ∃ content, files.stat working path = .ok (.file content) ∧
    Toml.readDocument (Text.lossy content) = some document

section

variable {files : FileTree} {working : Route} {path : String}

/-- A document and variables are loaded as what they make on top of the usual values. -/
theorem loadFile_eq (isDocument : IsDocument files working path document) (vars : Variables) :
    loadFile files working path vars = ofTree (usualTree.overlay
      (collected (some (Path.relativeTo working path)) document vars).members) := by
  obtain ⟨format, content, written, read⟩ := isDocument
  rw [loadFile, fileLayer, written]
  simp only [format, ofText, read]
  rfl

theorem toSettings_of_ofTree {tree : Setting} (loaded : ofTree tree = .ok settings) :
    tree.toSettings = .ok settings := by
  rw [ofTree] at loaded
  split at loaded
  · next typed => rw [typed, Except.ok.inj loaded]
  · cases loaded

/-- An empty file is a document without members. -/
theorem isDocument_empty (format : formatOf? path = some .toml)
    (empty : files.stat working path = .ok (.file [])) : IsDocument files working path [] where
  format := format
  written := by
    have nothing : Text.lossy [] = "" := by decide +kernel
    exact ⟨[], empty, by rw [nothing]; rfl⟩

/-- Nothing in a file leaves what the variables make by themselves. -/
theorem loadFile_nothing (isDocument : IsDocument files working path []) (vars : Variables) :
    loadFile files working path vars = load usualPrefix vars := by
  rw [loadFile_eq isDocument]
  rfl

/-- Settings are loaded leaf by leaf.  Each setting, a level of a module included, has the value of
its variable if that is set, otherwise what the document says, converted either way, and otherwise
its usual value; no module has two levels.  So two loads that agree about the source of a setting
agree about the setting, whatever else they differ in.  An empty file adds nothing to the
variables. -/
theorem loading_is_leaf_by_leaf (isDocument : IsDocument files working path document)
    (laid : WellLaid document) (named : NameSettings vars) :
    (∀ settings, loadFile files working path vars = .ok settings →
      (∀ key : SettingKey,
        Read key.convert (key.get {}) (key.source? document vars) (key.get settings)) ∧
      (settings.logging.modules.map (·.1)).Nodup ∧
      ∀ (otherFiles : FileTree) (otherWorking : Route) (otherPath : String)
        (otherDocument : Toml.Members) (otherVars : Variables) (others : Settings),
        IsDocument otherFiles otherWorking otherPath otherDocument → WellLaid otherDocument →
        NameSettings otherVars → loadFile otherFiles otherWorking otherPath otherVars = .ok others →
        ∀ key : SettingKey, key.source? document vars = key.source? otherDocument otherVars →
          key.get settings = key.get others) ∧
      (files.stat working path = .ok (.file []) →
        loadFile files working path vars = load usualPrefix vars) := by
  refine ⟨fun settings loaded => ?_, fun empty => ?_⟩
  · rw [loadFile_eq isDocument] at loaded
    have typed := toSettings_of_ofTree loaded
    refine ⟨read_source laid named typed, ?_, ?_⟩
    · have tree := collects laid named (some (Path.relativeTo working path))
      exact SettingKey.nodup_modules (Setting.tidy_overlay tidy_usualTree _)
        (fun key => openTo_overlay_path (tree.tidy.clear (tree.isOpen key)) tree.apart
          (openTo_usualTree key)) typed
    · intro otherFiles otherWorking otherPath otherDocument otherVars others otherIsDocument
        otherLaid otherNamed otherLoaded key same
      rw [loadFile_eq otherIsDocument] at otherLoaded
      have one := read_source laid named typed key
      have two := read_source otherLaid otherNamed (toSettings_of_ofTree otherLoaded) key
      exact one.unique (same ▸ two)
  · exact loadFile_nothing (isDocument_empty isDocument.format empty) vars

end

/-! ## Two layers, and names that are no paths -/

/-- A tree with one file. -/
def holding (text : String) : FileTree :=
  ({} : FileTree).put ["store.toml"] (.file (Text.bytes text))

def twoSections : String :=
  "[storage]\ncache_capacity=64\n[logging.modules]\n\"a::b\"=\"warn\""

theorem isSome_twoSections : (Toml.readDocument twoSections).isSome = true := by decide +kernel

def twoDocument : Toml.Members := (Toml.readDocument twoSections).get isSome_twoSections

def twoVariables : Variables := [
  ("FLOWSTORE__STORAGE__AVOID_ATOMIC_WRITE", "1"), ("FLOWSTORE__LOGGING__MODULES__NET", "off")]

def twoLayers : Settings where
  storage := { avoidAtomicWrite := true, cacheCapacity := 64 }
  logging := { modules := [("a::b", "warn"), ("net", "off")] }

theorem eq_ok_of_toOption {loaded : Except SettingsError Settings} {settings : Settings}
    (some_ : loaded.toOption = some settings) : loaded = .ok settings := by
  cases loaded with
  | error => cases some_
  | ok value => exact congrArg Except.ok (Option.some.inj some_)

/-- Variables of a section and of a module leave the rest of the section and the other module to the
file. -/
theorem loading_two_layers :
    loadFile (holding twoSections) [] "store.toml" twoVariables = .ok twoLayers ∧
      ∀ key : SettingKey,
        Read key.convert (key.get {}) (key.source? twoDocument twoVariables) (key.get twoLayers) := by
  have isDocument : IsDocument (holding twoSections) [] "store.toml" twoDocument := by
    refine ⟨by decide, Text.bytes twoSections, rfl, ?_⟩
    have back : Text.lossy (Text.bytes twoSections) = twoSections := by decide +kernel
    rw [back]
    exact (Option.some_get isSome_twoSections).symm
  have laid : WellLaid twoDocument := by
    constructor <;> decide +kernel
  have named : NameSettings twoVariables := by
    constructor
    · intro entry listed _
      simp only [twoVariables, List.mem_cons, List.not_mem_nil, or_false] at listed
      rcases listed with rfl | rfl
      · exact ⟨.avoidAtomicWrite, by decide, by decide +kernel⟩
      · exact ⟨.module "net", by decide, by decide +kernel⟩
    · decide +kernel
  have loaded : loadFile (holding twoSections) [] "store.toml" twoVariables = .ok twoLayers :=
    eq_ok_of_toOption (by decide +kernel)
  exact ⟨loaded, ((loading_is_leaf_by_leaf isDocument laid named).1 _ loaded).1⟩

/-- Where the rule ends.  A variable for a module whose name is no path sets nothing; a name at the
root that is a path into a section sets an element of it, and an empty table says nothing. -/
theorem loading_beyond_leaves :
    (loadFile (holding "") [] "store.toml"
        [("FLOWSTORE__LOGGING__MODULES__FLOWSTORE::STORE", "trace")]).toOption = some {} ∧
      valueOf? (SettingKey.module "flowstore::store").variableName
        [("FLOWSTORE__LOGGING__MODULES__FLOWSTORE::STORE", "trace")] = some "trace" ∧
      (loadFile (holding "\"logging[0]\" = false\n") [] "store.toml" []).toOption =
        some { logging := { enabled := false } } ∧
      (loadFile (holding "[storage]\ncache_capacity = \x7b\x7d\n") [] "store.toml" []).toOption =
        some {} := by
  refine ⟨?_, ?_, ?_, ?_⟩ <;> decide +kernel

end Settings

end TraceStore
