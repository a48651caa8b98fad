import TraceStore.FileTree.System
import TraceStore.Settings.Typed
import TraceStore.Text.Utf8
import TraceStore.Toml.Document

/-!
# Where settings come from

Settings are collected from layers: a file if one is given, and on top of it the variables of the
environment.  What these make together is put on top of the usual values.

A file is read by the format that its extension names.  A variable belongs to the settings if its
name starts with a prefix and two underscores, in any case; two underscores more separate the names
of the path that it sets.
-/

namespace TraceStore

/-- The variables of an environment, by name. -/
abbrev Variables := List (String × String)

/-- Why settings cannot be loaded. -/
inductive SettingsError where
  /-- The file is missing. -/
  | noFile (path : String)
  /-- No format belongs to the extension of the file. -/
  | noFormat (path : String)
  /-- The file breaks the rules of its format. -/
  | malformed
  | unusable (fault : SettingsFault)
  deriving Repr, DecidableEq

/-- The text of a failure to load settings; about the form of a file it says nothing. -/
def SettingsError.message : SettingsError → String
  | .noFile path => "Configuration error: Config file not found: " ++ path
  | .noFormat path =>
      "configuration file \"" ++ path ++ "\" is not of a registered file format"
  | .malformed => ""
  | .unusable fault => fault.message

namespace Settings

/-- The prefix of variables unless another one is asked for. -/
def usualPrefix : String := "FLOWSTORE"

/-- The tree of the usual values. -/
def usualTree : Setting :=
  Setting.placeAt ⟨"storage", [.child "cache_capacity"]⟩
    (.leaf (.integer (StorageSettings.cacheCapacity {} : Nat)) none)
    (Setting.placeAt ⟨"storage", [.child "avoid_atomic_write"]⟩
      (.leaf (.boolean (StorageSettings.avoidAtomicWrite {})) none) .empty)

/-! ## The environment -/

/-- The name of the layer of variables. -/
def environmentLayer : String := "the environment"

/-- A text with a point for every two underscores, from left to right. -/
def pointed : List Char → List Char
  | '_' :: '_' :: rest => '.' :: pointed rest
  | character :: rest => character :: pointed rest
  | [] => []

/-- The value that the text of a variable stands for: a truth value, an integer, a double, or else
the text. -/
def valueOfVariable (text : String) : Leaf :=
  let word := Text.lowered text
  if word = "true" then .boolean true
  else if word = "false" then .boolean false
  else
    match Numeral.signed? text with
    | some value => .integer value
    | none =>
        match Numeral.double? text with
        | some value => .real value
        | none => .text text

/-- The setting that a variable makes, if its name starts with the prefix. -/
def ofVariable (start : List Char) (entry : String × String) : Option (String × Setting) :=
  let name := (Text.lowered entry.1).toList
  if start.isPrefixOf name then
    some (String.ofList (pointed (name.drop start.length)),
      .leaf (valueOfVariable entry.2) (some environmentLayer))
  else none

/-- The layer of the variables with a prefix. -/
def environment (leading : String) (vars : Variables) : List (String × Setting) :=
  vars.filterMap (ofVariable (Text.lowered (leading ++ "__")).toList)

/-! ## Files -/

mutual

/-- A value of a JSON document. -/
def ofJson (layer : Option String) : Json.Value → Setting
  | .null => .leaf .nothing layer
  | .boolean value => .leaf (.boolean value) layer
  | .number (.integer value) =>
      .leaf (if value ≤ Word.greatest then .integer value else .real (.ofNat value.toNat)) layer
  | .number (.double value) => .leaf (.real value) layer
  | .text value => .leaf (.text value) layer
  | .list elements => .list (ofJsonList layer elements) layer
  | .object members => .table (ofJsonMembers layer [] members) layer

/-- The elements of a JSON list. -/
def ofJsonList (layer : Option String) : List Json.Value → List Setting
  | [] => []
  | value :: others => ofJson layer value :: ofJsonList layer others

/-- The members of a JSON object; of a repeated one the last counts. -/
def ofJsonMembers (layer : Option String) (seen : List (String × Setting)) :
    List (String × Json.Value) → List (String × Setting)
  | [] => seen
  | (key, value) :: others => ofJsonMembers layer (assign key (ofJson layer value) seen) others

end

mutual

/-- A value of a TOML document.  Dates and times count as texts. -/
def ofToml (layer : Option String) : Toml.Value → Setting
  | .text value => .leaf (.text value) layer
  | .integer value => .leaf (.integer value) layer
  | .real value => .leaf (.real value) layer
  | .boolean value => .leaf (.boolean value) layer
  | .moment text => .leaf (.text text) layer
  | .list elements => .list (ofTomlList layer elements) layer
  | .table _ members => .table (ofTomlMembers layer members) layer
  | .tables all => .list (ofTomlTables layer all) layer

/-- The elements of a TOML list. -/
def ofTomlList (layer : Option String) : List Toml.Value → List Setting
  | [] => []
  | value :: others => ofToml layer value :: ofTomlList layer others

/-- The members of a TOML table. -/
def ofTomlMembers (layer : Option String) : List (String × Toml.Value) → List (String × Setting)
  | [] => []
  | (key, value) :: others => (key, ofToml layer value) :: ofTomlMembers layer others

/-- The TOML tables under one header. -/
def ofTomlTables (layer : Option String) : List (List (String × Toml.Value)) → List Setting
  | [] => []
  | members :: others =>
      .table (ofTomlMembers layer members) layer :: ofTomlTables layer others

end

/-- The formats of files. -/
inductive Format where
  | toml
  | json
  deriving Repr, DecidableEq

/-- The format that an extension names. -/
def formatOf? (path : String) : Option Format :=
  match (Path.names path).getLast? with
  | none => none
  | some name =>
      let letters := name.toList.reverse
      let extension := (letters.takeWhile (· ≠ '.')).reverse
      let stem := letters.drop (extension.length + 1)
      if stem.isEmpty then none
      else if extension = "toml".toList then some .toml
      else if extension = "json".toList then some .json
      else none

/-- The layer of a document in a format, if the document follows its rules and is a table. -/
def ofText (format : Format) (layer : String) (text : String) :
    Option (List (String × Setting)) :=
  match format with
  | .toml => (Toml.readDocument text).map (ofTomlMembers (some layer))
  | .json =>
      match Json.readDocument (Text.bytes text) with
      | .ok (.object members) => some (ofJsonMembers (some layer) [] members)
      | _ => none

/-- The layer of a file. -/
def fileLayer (files : FileTree) (working : Route) (path : String) :
    Except SettingsError (List (String × Setting)) :=
  match files.stat working path with
  | .ok (.file content) =>
      match formatOf? path with
      | none => .error (.noFormat path)
      | some format =>
          let layer := Path.relativeTo working path
          match ofText format layer (Text.lossy content) with
          | some members => .ok members
          | none => .error .malformed
  | _ => .error (.noFile path)

/-! ## Loading -/

/-- The typed settings of a tree. -/
def ofTree (tree : Setting) : Except SettingsError Settings :=
  match tree.toSettings with
  | .ok settings => .ok settings
  | .error fault => .error (.unusable fault)

/-- The settings from the variables with a prefix. -/
def load (leading : String) (vars : Variables) : Except SettingsError Settings :=
  ofTree (usualTree.overlay (Setting.merged [environment leading vars]))

/-- The settings from a file and the variables with the usual prefix. -/
def loadFile (files : FileTree) (working : Route) (path : String) (vars : Variables) :
    Except SettingsError Settings :=
  match fileLayer files working path with
  | .error failure => .error failure
  | .ok layer =>
      ofTree (usualTree.overlay (Setting.merged [layer, environment usualPrefix vars]))

end Settings

end TraceStore
