import TraceStore.Decimal.Shortest
import TraceStore.Settings.Value
import TraceStore.Text.Quoted

/-!
# Settings with types

The tree of settings is read into typed settings with generous conversions, since a layer such as
the environment has only texts: words and numbers stand for truth values, numbers are rounded, and
every value without parts has a text.  A value that cannot be converted is refused with its path
and its layer.
-/

namespace TraceStore

/-- Why a tree of settings has no typed form. -/
inductive SettingsFault where
  /-- A value cannot be converted. -/
  | notConvertible (found expected : String) (key : Option String) (layer : Option String)
  /-- A group of settings is no table. -/
  | wrongShape (found expected : String)
  deriving Repr, DecidableEq

namespace SettingsFault

/-- The text of a fault. -/
def message : SettingsFault → String
  | .notConvertible found expected key layer =>
      "invalid type: " ++ found ++ ", expected " ++ expected ++
        (match key with
          | some key => " for key `" ++ key ++ "`"
          | none => "") ++
        (match layer with
          | some layer => " in " ++ layer
          | none => "")
  | .wrongShape found expected => "invalid type: " ++ found ++ ", expected " ++ expected

/-- Puts a segment in front of the path of a fault. -/
def under (segment : String) (dotted : Bool) : SettingsFault → SettingsFault
  | .notConvertible found expected key layer =>
      let path := match key with
        | none => segment
        | some key =>
            let separated := dotted && key.toList.head?.any (· ≠ '[')
            segment ++ (if separated then "." else "") ++ key
      .notConvertible found expected (some path) layer
  | other => other

/-- A fault in the value under a key. -/
def underKey (key : String) (fault : SettingsFault) : SettingsFault := fault.under key true

/-- A fault in an element of a list. -/
def underElement (position : Nat) (fault : SettingsFault) : SettingsFault :=
  fault.under ("[" ++ toString position ++ "]") false

end SettingsFault

namespace Setting

/-! ## Texts of values -/

/-- Doubles are shown without exponent and with as few digits as read back. -/
def doubleLayout (integralMark : String) : Double.Layout where
  positionalFrom := none
  positionalTo := none
  integralMark := integralMark
  plusSign := ""
  infinity := "inf"
  notANumber := "NaN"

/-- A value as messages about its shape name it. -/
def shape : Setting → String
  | .leaf .nothing _ => "unit value"
  | .leaf (.boolean value) _ => "boolean `" ++ (if value then "true" else "false") ++ "`"
  | .leaf (.integer value) _ => "integer `" ++ toString value ++ "`"
  | .leaf (.real value) _ => "floating point `" ++ (doubleLayout ".0").text value ++ "`"
  | .leaf (.text value) _ => "string " ++ Text.quoted value
  | .list _ _ => "sequence"
  | .table _ _ => "map"

/-- The layer that a value comes from. -/
def layer : Setting → Option String
  | .leaf _ layer | .list _ layer | .table _ layer => layer

/-- The refusal of a conversion. -/
def refuse (setting : Setting) (found expected : String) : SettingsFault :=
  .notConvertible found expected none setting.layer

/-! ## Conversions -/

/-- A truth value.  Numbers other than zero are true. -/
def toBoolean (setting : Setting) : Except SettingsFault Bool :=
  match setting with
  | .leaf (.boolean value) _ => .ok value
  | .leaf (.integer value) _ => .ok (value ≠ 0)
  | .leaf (.real value) _ => .ok !value.isZero
  | .leaf (.text text) _ =>
      let word := Text.lowered text
      if ["1", "true", "on", "yes"].contains word then .ok true
      else if ["0", "false", "off", "no"].contains word then .ok false
      else .error (setting.refuse ("string " ++ Text.quoted word) "a boolean")
  | other => .error (other.refuse other.shape "a boolean")

/-- A natural number of 64 bits.  Doubles are rounded, a half away from zero, and kept in
bounds. -/
def toNatural (setting : Setting) : Except SettingsFault Nat :=
  match setting with
  | .leaf (.boolean value) _ => .ok (if value then 1 else 0)
  | .leaf (.integer value) _ =>
      if 0 ≤ value then .ok value.toNat
      else
        .error (setting.refuse ("64-bit integer `" ++ toString value ++ "`")
          "an unsigned 64 bit or less integer")
  | .leaf (.real value) _ => .ok (value.toIntClamped 0 (Word.size - 1)).toNat
  | .leaf (.text text) _ =>
      let word := Text.lowered text
      if ["true", "on", "yes"].contains word then .ok 1
      else if ["false", "off", "no"].contains word then .ok 0
      else
        match Numeral.natural? text with
        | some value => .ok value
        | none => .error (setting.refuse ("string " ++ Text.quoted text) "an integer")
  | other => .error (other.refuse other.shape "an integer")

/-- A text.  Every value without parts has one. -/
def toText (setting : Setting) : Except SettingsFault String :=
  match setting with
  | .leaf (.boolean value) _ => .ok (if value then "true" else "false")
  | .leaf (.integer value) _ => .ok (toString value)
  | .leaf (.real value) _ => .ok ((doubleLayout "").text value)
  | .leaf (.text text) _ => .ok text
  | other => .error (other.refuse other.shape "a string")

/-- A text that may be absent. -/
def toTextOrNone (setting : Setting) : Except SettingsFault (Option String) :=
  match setting with
  | .leaf .nothing _ => .ok none
  | other => other.toText.map some

/-- Texts by name. -/
def toTexts (setting : Setting) : Except SettingsFault (List (String × String)) :=
  match setting with
  | .table members _ =>
      members.mapM fun (key, value) =>
        match value.toText with
        | .ok text => .ok (key, text)
        | .error fault => .error (fault.underKey key)
  | other => .error (.wrongShape other.shape "a map")

/-! ## Groups -/

/-- A field of typed settings: its name, and how a value is set. -/
structure Field (σ : Type) where
  name : String
  set : Setting → σ → Except SettingsFault σ

/-- A field with a conversion of its own. -/
def Field.of {σ α : Type} (name : String) (convert : Setting → Except SettingsFault α)
    (set : α → σ → σ) : Field σ :=
  ⟨name, fun setting settings => (convert setting).map fun value => set value settings⟩

/-- Sets fields by name; unknown names are passed over. -/
def setByName {σ : Type} (fields : List (Field σ)) :
    List (String × Setting) → σ → Except SettingsFault σ
  | [], settings => .ok settings
  | (key, value) :: others, settings =>
      match fields.find? (·.name = key) with
      | none => setByName fields others settings
      | some field =>
          match field.set value settings with
          | .error fault => .error (fault.underKey key)
          | .ok settings => setByName fields others settings

/-- Sets fields in order; values beyond the last field are passed over. -/
def setInOrder {σ : Type} : (position : Nat) → List (Field σ) → List Setting → σ →
    Except SettingsFault σ
  | position, field :: fields, value :: values, settings =>
      match field.set value settings with
      | .error fault => .error (fault.underElement position)
      | .ok settings => setInOrder (position + 1) fields values settings
  | _, _, _, settings => .ok settings

/-- A group of settings, from a table or from a list of its values. -/
def toGroup {σ : Type} (expected : String) (fields : List (Field σ)) (usual : σ)
    (setting : Setting) : Except SettingsFault σ :=
  match setting with
  | .table members _ => setByName fields members usual
  | .list elements _ => setInOrder 0 fields elements usual
  | other => .error (.wrongShape other.shape expected)

/-- The settings of a store. -/
def toStorage : Setting → Except SettingsFault StorageSettings :=
  toGroup "struct StorageConfig" [
    .of "avoid_atomic_write" toBoolean
      fun value settings => { settings with avoidAtomicWrite := value },
    .of "cache_capacity" toNatural fun value settings => { settings with cacheCapacity := value }]
    {}

/-- The settings of the log. -/
def toLogging : Setting → Except SettingsFault LoggingSettings :=
  toGroup "struct LoggingConfig" [
    .of "enabled" toBoolean fun value settings => { settings with enabled := value },
    .of "level" toText fun value settings => { settings with level := value },
    .of "format" toText fun value settings => { settings with format := value },
    .of "output" toText fun value settings => { settings with output := value },
    .of "file" toTextOrNone fun value settings => { settings with file := value },
    .of "color" toBoolean fun value settings => { settings with color := value },
    .of "modules" toTexts fun value settings => { settings with modules := value }]
    {}

/-- All settings. -/
def toSettings : Setting → Except SettingsFault Settings :=
  toGroup "struct FlowStoreConfig" [
    .of "storage" toStorage fun value settings => { settings with storage := value },
    .of "logging" toLogging fun value settings => { settings with logging := value }]
    {}

end Setting

end TraceStore
