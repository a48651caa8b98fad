import TraceStore.Settings.Basic

/-!
# Settings in documents

Settings are read from an object whose members may be missing, in any order and next to unknown
ones, but not repeated; or from a list of the values in their usual order, which may end early.
A value has to have the right type, since documents have types of their own.
-/

namespace TraceStore.Settings

open Json (Fault Input)

/-- Readers of one value into settings of some kind. -/
abbrev FieldReader (σ : Type) := σ → Input → σ × Except Fault Input

/-- A field of settings: its name in documents, and how its value is read. -/
structure Field (σ : Type) where
  name : String
  read : FieldReader σ

/-- A field whose value is read by itself and then set. -/
def Field.of {σ α : Type} (name : String) (read : Input → Except Fault (α × Input))
    (set : α → σ → σ) : Field σ :=
  ⟨name, fun settings input =>
    match read input with
    | .error fault => (settings, .error fault)
    | .ok (value, rest) => (set value settings, .ok rest)⟩

/-- What the members of an object have set so far. -/
structure Progress (σ : Type) where
  settings : σ
  seen : List String

/-- Reads a member of settings. -/
def readField {σ : Type} (fields : List (Field σ)) (progress : Progress σ) (key : String)
    (input : Input) : Progress σ × Except Fault Input :=
  match fields.find? (·.name = key) with
  | none => (progress, Json.skipMember input)
  | some field =>
      if progress.seen.contains key then
        (progress, .error (.unplaced (.duplicateField key) input))
      else
        match Json.skipColon input with
        | .error fault => (progress, .error fault)
        | .ok rest =>
            let (settings, result) := field.read progress.settings rest
            (⟨settings, progress.seen ++ [key]⟩, result)

/-- Reads values in the order of the fields, as long as there are any. -/
def readInOrder {σ : Type} : List (Field σ) → (first : Bool) → FieldReader σ
  | [], _, settings, input => (settings, .ok input)
  | field :: fields, first, settings, input =>
      match Json.nextElement first input with
      | .error fault => (settings, .error fault)
      | .ok (false, rest) => (settings, .ok rest)
      | .ok (true, rest) =>
          match field.read settings rest with
          | (settings, .error fault) => (settings, .error fault)
          | (settings, .ok rest) => readInOrder fields false settings rest

/-- Reads settings of some kind over given ones. -/
def readFields {σ : Type} (expected : String) (fields : List (Field σ)) (usual : σ)
    (input : Input) : Except Fault (σ × Input) :=
  match Json.skipBlank input with
  | [] => .error (.next .endInValue [])
  | byte :: rest =>
      if byte == Json.openBracket then
        Json.settled
          (Json.readList expected (some (readInOrder fields true)) usual (byte :: rest))
      else
        let content := fun progress input =>
          Json.foldMembers (readField fields) (input.length + 1) true progress input
        match Json.readObject expected (some content) ⟨usual, []⟩ (byte :: rest) with
        | (_, .error fault) => .error fault
        | (progress, .ok rest) => .ok (progress.settings, rest)

/-- The fields of the settings of a store. -/
def storageFields : List (Field StorageSettings) := [
  .of "avoid_atomic_write" Json.readBoolean
    fun value settings => { settings with avoidAtomicWrite := value },
  .of "cache_capacity" (Json.readNatural "usize" Word.size)
    fun value settings => { settings with cacheCapacity := value }]

/-- Reads the settings of a store. -/
def readStorage (input : Input) : Except Fault (StorageSettings × Input) :=
  readFields "struct StorageConfig" storageFields {} input

/-- Reads the level of a module. -/
def readModule (modules : List (String × String)) (key : String) (input : Input) :
    List (String × String) × Except Fault Input :=
  match Json.readMember (Json.readText "a string") input with
  | .error fault => (modules, .error fault)
  | .ok (level, rest) => (assign key level modules, .ok rest)

/-- Reads the levels of modules; of a repeated one the last counts. -/
def readModules (input : Input) : Except Fault (List (String × String) × Input) :=
  let content := fun modules input =>
    Json.foldMembers readModule (input.length + 1) true modules input
  Json.settled (Json.readObject "a map" (some content) [] input)

/-- The fields of the settings of the log. -/
def loggingFields : List (Field LoggingSettings) := [
  .of "enabled" Json.readBoolean fun value settings => { settings with enabled := value },
  .of "level" (Json.readText "a string") fun value settings => { settings with level := value },
  .of "format" (Json.readText "a string") fun value settings => { settings with format := value },
  .of "output" (Json.readText "a string") fun value settings => { settings with output := value },
  .of "file" (Json.readNullable (Json.readText "path string"))
    fun value settings => { settings with file := value },
  .of "color" Json.readBoolean fun value settings => { settings with color := value },
  .of "modules" readModules fun value settings => { settings with modules := value }]

/-- Reads the settings of the log. -/
def readLogging (input : Input) : Except Fault (LoggingSettings × Input) :=
  readFields "struct LoggingConfig" loggingFields {} input

/-- Reads all settings. -/
def readAll (input : Input) : Except Fault (Settings × Input) :=
  readFields "struct FlowStoreConfig"
    [.of "storage" readStorage fun value settings => { settings with storage := value },
      .of "logging" readLogging fun value settings => { settings with logging := value }]
    {} input

/-- Reads a document that holds nothing but what a reader reads. -/
def ofDocument {α : Type} (read : Input → Except Fault (α × Input)) (document : Input) :
    Except Fault α :=
  match read document with
  | .error fault => .error fault
  | .ok (value, rest) => (Json.readEnd rest).map fun _ => value

end TraceStore.Settings
