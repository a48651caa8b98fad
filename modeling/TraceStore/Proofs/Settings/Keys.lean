import TraceStore.Proofs.Results
import TraceStore.Proofs.Settings.Tree

/-!
# Settings one by one

A `SettingKey` names a setting that has a value of its own, a level of a module included.  Its place
in a tree, its type and its conversion are given for each, so that a rule can be stated once for all
of them.

Typed settings are read group by group.  For a single setting this comes to converting what stands
at its place, with the usual value where nothing stands there: `SettingKey.get_of_toSettings`.
-/

namespace TraceStore

/-- The settings that have a value of their own. -/
inductive SettingKey where
  | avoidAtomicWrite
  | cacheCapacity
  | enabled
  | level
  | format
  | output
  | file
  | color
  /-- The level of a part of the program. -/
  | module (name : String)
  deriving Repr, DecidableEq

namespace SettingKey

/-- Where the value of a setting stands in a tree. -/
def path : SettingKey → List String
  | .avoidAtomicWrite => ["storage", "avoid_atomic_write"]
  | .cacheCapacity => ["storage", "cache_capacity"]
  | .enabled => ["logging", "enabled"]
  | .level => ["logging", "level"]
  | .format => ["logging", "format"]
  | .output => ["logging", "output"]
  | .file => ["logging", "file"]
  | .color => ["logging", "color"]
  | .module name => ["logging", "modules", name]

/-- The values that a setting can have. -/
@[reducible] def Value : SettingKey → Type
  | .avoidAtomicWrite | .enabled | .color => Bool
  | .cacheCapacity => Nat
  | .level | .format | .output => String
  | .file | .module _ => Option String

/-- The value of a setting; a module without a level has none. -/
def get : (key : SettingKey) → Settings → key.Value
  | .avoidAtomicWrite, settings => settings.storage.avoidAtomicWrite
  | .cacheCapacity, settings => settings.storage.cacheCapacity
  | .enabled, settings => settings.logging.enabled
  | .level, settings => settings.logging.level
  | .format, settings => settings.logging.format
  | .output, settings => settings.logging.output
  | .file, settings => settings.logging.file
  | .color, settings => settings.logging.color
  | .module name, settings => (settings.logging.modules.find? (·.1 = name)).map (·.2)

/-- How a value of a tree is converted to a value of a setting. -/
def convert : (key : SettingKey) → Setting → Except SettingsFault key.Value
  | .avoidAtomicWrite => Setting.toBoolean
  | .cacheCapacity => Setting.toNatural
  | .enabled => Setting.toBoolean
  | .level => Setting.toText
  | .format => Setting.toText
  | .output => Setting.toText
  | .file => Setting.toTextOrNone
  | .color => Setting.toBoolean
  | .module _ => fun value => value.toText.map some

/-! ## Conversions -/

/-- Tables are not converted. -/
theorem convert_table {key : SettingKey} {members : List (String × Setting)}
    {layer : Option String} {converted : key.Value} :
    key.convert (.table members layer) ≠ .ok converted := by
  intro converts
  cases key <;> cases converts

/-- Only values without parts are converted. -/
theorem convert_of_hasParts {key : SettingKey} {value : Setting} {converted : key.Value}
    (hasParts : value.HasParts) : key.convert value ≠ .ok converted := by
  cases value with
  | leaf => exact hasParts.elim
  | list elements layer =>
      intro converts
      cases key <;> cases converts
  | table members layer => exact convert_table

end SettingKey

namespace Setting

variable {leaf : Leaf} {layer : Option String}

theorem toBoolean_leaf {converted : Bool} (other : Option String)
    (converts : (Setting.leaf leaf layer).toBoolean = .ok converted) :
    (Setting.leaf leaf other).toBoolean = .ok converted := by
  cases leaf with
  | nothing => cases converts
  | boolean | integer | real => exact converts
  | text text =>
      simp only [toBoolean] at converts ⊢
      split at converts
      · next yes => rwa [if_pos yes]
      · next noYes =>
          rw [if_neg noYes]
          split at converts
          · next no => rwa [if_pos no]
          · cases converts

theorem toNatural_leaf {converted : Nat} (other : Option String)
    (converts : (Setting.leaf leaf layer).toNatural = .ok converted) :
    (Setting.leaf leaf other).toNatural = .ok converted := by
  cases leaf with
  | nothing => cases converts
  | boolean | real => exact converts
  | integer value =>
      simp only [toNatural] at converts ⊢
      split at converts
      · next natural => rwa [if_pos natural]
      · cases converts
  | text text =>
      simp only [toNatural] at converts ⊢
      grind

theorem toText_leaf {converted : String} (other : Option String)
    (converts : (Setting.leaf leaf layer).toText = .ok converted) :
    (Setting.leaf leaf other).toText = .ok converted := by
  cases leaf with
  | nothing => cases converts
  | boolean | integer | real | text => exact converts

end Setting

/-- From which layer a value comes does not matter where it can be converted. -/
theorem SettingKey.convert_leaf {key : SettingKey} {leaf : Leaf} {layer : Option String}
    {converted : key.Value} (other : Option String)
    (converts : key.convert (.leaf leaf layer) = .ok converted) :
    key.convert (.leaf leaf other) = .ok converted := by
  cases key with
  | avoidAtomicWrite | enabled | color => exact Setting.toBoolean_leaf other converts
  | cacheCapacity => exact Setting.toNatural_leaf other converts
  | level | format | output => exact Setting.toText_leaf other converts
  | file => cases leaf <;> exact converts
  | module name =>
      obtain ⟨text, isText, rfl⟩ := map_eq_ok_iff.mp converts
      exact map_eq_ok_iff.mpr ⟨text, Setting.toText_leaf other isText, rfl⟩

/-! ## Groups -/

namespace Setting

variable {σ α : Type}

/-- One of the fields sets a part of the settings to what it converts, and the others leave that
part as it is. -/
structure Reads (fields : List (Field σ)) (name : String)
    (convert : Setting → Except SettingsFault α) (get : σ → α) : Prop where
  present : ∃ field ∈ fields, field.name = name
  sets : ∀ field ∈ fields, field.name = name → ∀ value before after,
    field.set value before = .ok after → convert value = .ok (get after)
  keeps : ∀ field ∈ fields, field.name ≠ name → ∀ value before after,
    field.set value before = .ok after → get after = get before

/-- What a part of the settings has become, given what stood under its name. -/
def Read (convert : Setting → Except SettingsFault α) (usual : α) (found : Option Setting)
    (value : α) : Prop :=
  match found with
  | none => value = usual
  | some setting => convert setting = .ok value

/-- Of the same setting only one value is read. -/
theorem Read.unique {convert : Setting → Except SettingsFault α} {usual one two : α}
    {found : Option Setting} (first : Read convert usual found one)
    (second : Read convert usual found two) : one = two := by
  cases found with
  | none => exact first.trans second.symm
  | some setting => exact Except.ok.inj (first.symm.trans second)

/-- From a table with distinct keys each part of the settings is read by itself. -/
theorem Reads.of_setByName {fields : List (Field σ)} {name : String}
    {convert : Setting → Except SettingsFault α} {get : σ → α}
    (reads : Reads fields name convert get) {members : List (String × Setting)}
    (distinct : (members.map (·.1)).Nodup) {before after : σ}
    (set : setByName fields members before = .ok after) :
    Read convert (get before) ((members.find? (·.1 = name)).map (·.2)) (get after) := by
  induction members generalizing before with
  | nil =>
      obtain rfl := Except.ok.inj set
      rfl
  | cons member members ih =>
      obtain ⟨key, value⟩ := member
      rw [List.map_cons, List.nodup_cons] at distinct
      rw [setByName] at set
      cases found : fields.find? (·.name = key) with
      | none =>
          have other : key ≠ name := by
            rintro rfl
            obtain ⟨field, listed, same⟩ := reads.present
            exact List.find?_eq_none.mp found field listed (by simpa using same)
          rw [found] at set
          simpa [List.find?_cons, other] using ih distinct.2 set
      | some field =>
          have listed := List.mem_of_find?_eq_some found
          have named : field.name = key := by simpa using List.find?_some found
          simp only [found] at set
          split at set
          · simp at set
          · next between one =>
              have later := ih distinct.2 set
              by_cases own : key = name
              · subst own
                have absent : members.find? (·.1 = key) = none := by
                  rw [List.find?_eq_none]
                  exact fun member there same =>
                    distinct.1 (List.mem_map.mpr ⟨member, there, by simpa using same⟩)
                rw [absent] at later
                have kept : get after = get between := later
                simp only [List.find?_cons, decide_true, Option.map_some, Read, kept]
                exact reads.sets field listed named value before between one
              · have kept := reads.keeps field listed (named ▸ own) value before between one
                rw [kept] at later
                simpa [List.find?_cons, own] using later

variable {members : List (String × Setting)} {layer : Option String}

theorem read_of_toStorage {storage : StorageSettings} (distinct : (members.map (·.1)).Nodup)
    (typed : toStorage (.table members layer) = .ok storage) {key : SettingKey} {name : String}
    (path : key.path = ["storage", name]) :
    Read key.convert (key.get {}) (get? name (.table members layer))
      (key.get { storage := storage }) := by
  refine @Reads.of_setByName _ _ _ name key.convert (fun storage => key.get { storage := storage })
    ?_ members distinct {} storage typed
  cases key <;> simp [SettingKey.path] at path <;> subst path <;> constructor <;>
    simp [Field.of, map_eq_ok_iff, SettingKey.get, SettingKey.convert] <;> grind

theorem read_of_toLogging {logging : LoggingSettings} (distinct : (members.map (·.1)).Nodup)
    (typed : toLogging (.table members layer) = .ok logging) {key : SettingKey} {name : String}
    (path : key.path = ["logging", name]) :
    Read key.convert (key.get {}) (get? name (.table members layer))
      (key.get { logging := logging }) := by
  refine @Reads.of_setByName _ _ _ name key.convert (fun logging => key.get { logging := logging })
    ?_ members distinct {} logging typed
  cases key <;> simp [SettingKey.path] at path <;> subst path <;> constructor <;>
    simp [Field.of, map_eq_ok_iff, SettingKey.get, SettingKey.convert] <;> grind

theorem readModules_of_toLogging {logging : LoggingSettings}
    (distinct : (members.map (·.1)).Nodup)
    (typed : toLogging (.table members layer) = .ok logging) :
    Read toTexts [] (get? "modules" (.table members layer)) logging.modules := by
  refine @Reads.of_setByName _ _ _ "modules" toTexts LoggingSettings.modules ?_ members distinct {}
    logging typed
  constructor <;> simp [Field.of, map_eq_ok_iff]
  grind

theorem read_of_toSettings {settings : Settings} (distinct : (members.map (·.1)).Nodup)
    (typed : toSettings (.table members layer) = .ok settings) :
    Read toStorage {} (get? "storage" (.table members layer)) settings.storage ∧
      Read toLogging {} (get? "logging" (.table members layer)) settings.logging := by
  constructor
  · refine @Reads.of_setByName _ _ _ "storage" toStorage Settings.storage ?_ members distinct {}
      settings typed
    constructor <;> simp [Field.of, map_eq_ok_iff]
  · refine @Reads.of_setByName _ _ _ "logging" toLogging Settings.logging ?_ members distinct {}
      settings typed
    constructor <;> simp [Field.of, map_eq_ok_iff]

/-- Levels of modules are read one by one, under the same names. -/
theorem of_toTexts {texts : List (String × String)}
    (typed : toTexts (.table members layer) = .ok texts) :
    texts.map (·.1) = members.map (·.1) ∧ ∀ name,
      Read (SettingKey.module name).convert none (get? name (.table members layer))
        ((texts.find? (·.1 = name)).map (·.2)) := by
  rw [toTexts] at typed
  induction members generalizing texts with
  | nil =>
      obtain rfl := Except.ok.inj typed
      exact ⟨rfl, fun name => rfl⟩
  | cons member members ih =>
      obtain ⟨key, value⟩ := member
      rw [List.mapM_cons, bind_eq_ok_iff] at typed
      obtain ⟨⟨text⟩, one, typed⟩ := typed
      rw [bind_eq_ok_iff] at typed
      obtain ⟨others, later, whole⟩ := typed
      obtain rfl := Except.ok.inj whole
      cases isText : value.toText with
      | error fault => simp [isText] at one
      | ok text =>
          simp only [isText, Except.ok.injEq, Prod.mk.injEq] at one
          obtain ⟨rfl, rfl⟩ := one
          obtain ⟨names, each⟩ := ih later
          refine ⟨by simp [names], fun name => ?_⟩
          by_cases same : key = name
          · subst same
            simp only [get?, List.find?_cons, decide_true, Option.map_some]
            exact map_eq_ok_iff.mpr ⟨_, isText, rfl⟩
          · simpa [get?, same] using each name

end Setting

/-! ## All settings -/

namespace SettingKey

/-- A setting stands right in its section, or it is the level of a module. -/
theorem path_cases (key : SettingKey) :
    (∃ name, key.path = ["storage", name]) ∨ (∃ name, key.path = ["logging", name]) ∨
      ∃ name, key = .module name := by
  cases key <;> simp [path]

theorem get_of_storage {key : SettingKey} {name : String} (isStorage : key.path = ["storage", name])
    (settings : Settings) : key.get settings = key.get { storage := settings.storage } := by
  cases key <;> simp [path] at isStorage <;> rfl

theorem get_of_logging {key : SettingKey} {name : String} (isLogging : key.path = ["logging", name])
    (settings : Settings) : key.get settings = key.get { logging := settings.logging } := by
  cases key <;> simp [path] at isLogging <;> rfl

open Setting

/-- The levels of modules are those of a table, or there are none. -/
theorem modules_of_toSettings {tree : Setting} {settings : Settings} (tidy : Tidy tree)
    (isOpen : ∀ key : SettingKey, OpenTo key.path tree) (typed : tree.toSettings = .ok settings) :
    (at? ["logging", "modules"] tree = none ∧ settings.logging.modules = []) ∨
      ∃ members layer, at? ["logging", "modules"] tree = some (.table members layer) ∧
        Tidy (.table members layer) ∧
        toTexts (.table members layer) = .ok settings.logging.modules := by
  obtain ⟨members, layer, rfl⟩ := (isOpen .enabled).1
  have logging := (Setting.read_of_toSettings tidy.nodup typed).2
  have way := isOpen (.module "")
  rw [at?_cons]
  cases found : get? "logging" (.table members layer) with
  | none =>
      rw [found] at logging
      exact .inl ⟨rfl, congrArg LoggingSettings.modules logging⟩
  | some top =>
      have onward := way.2 top found
      have tidyTop := tidy.get? found
      obtain ⟨parts, source, rfl, distinct⟩ := way.table_of_get? tidy found
      rw [found] at logging
      have modules := readModules_of_toLogging distinct logging
      rw [Option.bind_some, at?_cons]
      cases below : get? "modules" (.table parts source) with
      | none =>
          rw [below] at modules
          exact .inl ⟨rfl, modules⟩
      | some levels =>
          obtain ⟨names, origin, rfl, -⟩ := onward.table_of_get? tidyTop below
          rw [below] at modules
          exact .inr ⟨names, origin, rfl, tidyTop.get? below, modules⟩

/-- No module has two levels. -/
theorem nodup_modules {tree : Setting} {settings : Settings} (tidy : Tidy tree)
    (isOpen : ∀ key : SettingKey, OpenTo key.path tree) (typed : tree.toSettings = .ok settings) :
    (settings.logging.modules.map (·.1)).Nodup := by
  rcases modules_of_toSettings tidy isOpen typed with
    ⟨-, unnamed⟩ | ⟨names, origin, -, lower, texts⟩
  · simp [unnamed]
  · rw [(of_toTexts texts).1]
    exact lower.nodup

/-- Each setting has the value that stands at its place, converted, or its usual value. -/
theorem read_of_toSettings {tree : Setting} {settings : Settings} (tidy : Tidy tree)
    (isOpen : ∀ key : SettingKey, OpenTo key.path tree) (typed : tree.toSettings = .ok settings)
    (key : SettingKey) :
    Read key.convert (key.get {}) (at? key.path tree) (key.get settings) := by
  have way := isOpen key
  rcases key.path_cases with ⟨name, path⟩ | ⟨name, path⟩ | ⟨name, rfl⟩
  · rw [path] at way ⊢
    obtain ⟨members, layer, rfl⟩ := way.1
    have storage := (Setting.read_of_toSettings tidy.nodup typed).1
    rw [get_of_storage path settings, at?_cons]
    cases found : get? "storage" (.table members layer) with
    | none =>
        rw [found] at storage
        exact congrArg (fun storage => key.get { storage := storage }) storage
    | some top =>
        obtain ⟨parts, source, rfl, distinct⟩ := way.table_of_get? tidy found
        rw [found] at storage
        simpa [at?] using read_of_toStorage distinct storage path
  · rw [path] at way ⊢
    obtain ⟨members, layer, rfl⟩ := way.1
    have logging := (Setting.read_of_toSettings tidy.nodup typed).2
    rw [get_of_logging path settings, at?_cons]
    cases found : get? "logging" (.table members layer) with
    | none =>
        rw [found] at logging
        exact congrArg (fun logging => key.get { logging := logging }) logging
    | some top =>
        obtain ⟨parts, source, rfl, distinct⟩ := way.table_of_get? tidy found
        rw [found] at logging
        simpa [at?] using read_of_toLogging distinct logging path
  · have deeper : at? (SettingKey.module name).path tree =
        (at? ["logging", "modules"] tree).bind (get? name) := by
      simp only [path, at?_cons, at?, Option.bind_assoc, Option.bind_fun_some]
    rw [deeper]
    rcases modules_of_toSettings tidy isOpen typed with
      ⟨missing, unnamed⟩ | ⟨names, origin, there, lower, texts⟩
    · rw [missing]
      exact congrArg (fun levels => (levels.find? (·.1 = name)).map (·.2)) unnamed
    · rw [there]
      exact (of_toTexts texts).2 name

end SettingKey

end TraceStore
