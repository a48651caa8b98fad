import TraceStore.Json.Value

/-!
# Settings

What can be set about a store and its log, with the values that hold where nothing is said.
-/

namespace TraceStore

/-- Settings of a store. -/
structure StorageSettings where
  /-- Whether records are written in place instead of being replaced in one move. -/
  avoidAtomicWrite : Bool := false
  /-- How many nodes the cache keeps before it drops unused ones; zero stands for no bound. -/
  cacheCapacity : Nat := 4096
  deriving Repr, DecidableEq, Inhabited

/-- Settings of the log. -/
structure LoggingSettings where
  enabled : Bool := true
  level : String := "info"
  /-- How a line is written. -/
  format : String := "text"
  /-- Where lines go. -/
  output : String := "stderr"
  /-- The file for output to a file. -/
  file : Option String := none
  /-- Whether terminals get colored text. -/
  color : Bool := true
  /-- Levels of parts of the program by name. -/
  modules : List (String × String) := []
  deriving Repr, DecidableEq, Inhabited

/-- All settings. -/
structure Settings where
  storage : StorageSettings := {}
  logging : LoggingSettings := {}
  deriving Repr, DecidableEq, Inhabited

/-- Sets the value under a key, in place of one that is there. -/
def assign {α : Type} (key : String) (value : α) : List (String × α) → List (String × α)
  | [] => [(key, value)]
  | (other, kept) :: rest =>
      if other = key then (key, value) :: rest else (other, kept) :: assign key value rest

open Json (Value)

/-- The settings of a store as an object. -/
def StorageSettings.toValue (settings : StorageSettings) : Value :=
  .object [("avoid_atomic_write", .boolean settings.avoidAtomicWrite),
    ("cache_capacity", .natural settings.cacheCapacity)]

/-- The settings of the log as an object. -/
def LoggingSettings.toValue (settings : LoggingSettings) : Value :=
  .object [("enabled", .boolean settings.enabled), ("level", .text settings.level),
    ("format", .text settings.format), ("output", .text settings.output),
    ("file", (settings.file.map Value.text).getD .null), ("color", .boolean settings.color),
    ("modules", .object (settings.modules.map fun (key, level) => (key, Value.text level)))]

/-- All settings as an object. -/
def Settings.toValue (settings : Settings) : Value :=
  .object [("storage", settings.storage.toValue), ("logging", settings.logging.toValue)]

end TraceStore
