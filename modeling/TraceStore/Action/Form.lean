import TraceStore.Action.Basic
import TraceStore.Json.Printer

/-!
# Actions in documents

In a document an action is an object with a member `type` that names its kind, next to the fields
of that kind; unknown members are passed over.  An action may also stand as a list: the name of the
kind and then its fields in order.

Reading takes the whole action first and only then looks at its fields, so a wrong field is a fault
without a place of its own.  The name of the kind is looked at when it is met.
-/

namespace TraceStore

/-- The kinds of actions. -/
inductive Action.Kind where
  | label
  | argument
  | timing
  | marked
  | seed
  | flag
  | adjustment
  | broken
  deriving Repr, DecidableEq

namespace Action

namespace Kind

/-- All kinds, in the order in which messages list them. -/
def all : List Kind :=
  [.label, .argument, .timing, .marked, .seed, .flag, .adjustment, .broken]

/-- The name of a kind in documents. -/
def name : Kind → String
  | .label => "label"
  | .argument => "arg"
  | .timing => "timing"
  | .marked => "marked"
  | .seed => "seed"
  | .flag => "flag"
  | .adjustment => "opt"
  | .broken => "broken"

/-- The kind of a given name. -/
def ofName? (name : String) : Option Kind := all.find? (·.name = name)

/-- The word for a kind in messages and displays. -/
def title : Kind → String
  | .label => "Label"
  | .argument => "Argument"
  | .timing => "Timing"
  | .marked => "Marked"
  | .seed => "Seed"
  | .flag => "Flag"
  | .adjustment => "Opt"
  | .broken => "Broken"

/-- The fields of a kind, in order. -/
def fields : Kind → List String
  | .label => ["text"]
  | .argument => ["name", "value"]
  | .timing => ["millis"]
  | .marked => ["label"]
  | .seed => ["text"]
  | .flag => []
  | .adjustment => ["note", "delta"]
  | .broken => ["reason"]

theorem ofName?_name (kind : Kind) : ofName? kind.name = some kind := by
  cases kind <;> decide

end Kind

/-- The kind of an action. -/
def kind : Action → Kind
  | .label _ => .label
  | .argument _ _ => .argument
  | .timing _ => .timing
  | .marked _ _ => .marked
  | .seed _ => .seed
  | .flag => .flag
  | .adjustment _ _ => .adjustment
  | .broken _ => .broken

/-! ## Writing -/

/-- The members that an action is written with, behind its kind.  An absent note is left out. -/
def writtenFields : Action → List (String × Json.Value)
  | .label text => [("text", .text text)]
  | .argument name value => [("name", .text name), ("value", .text value)]
  | .timing millis => [("millis", .natural millis.toNat)]
  | .marked mark _ => [("label", .text mark)]
  | .seed text => [("text", .text text)]
  | .flag => []
  | .adjustment note delta =>
      (note.map fun text => ("note", Json.Value.text text)).toList ++
        [("delta", .number (.integer delta.toInt))]
  | .broken reason => [("reason", .text reason)]

/-- An action as an object. -/
def toValue (action : Action) : Json.Value :=
  .object (("type", .text action.kind.name) :: action.writtenFields)

/-- Why an action cannot be written. -/
def unwritable? : Action → Option String
  | .broken reason => some reason
  | _ => none

/-- The actions as objects, or the reason of the first that cannot be written. -/
def writeAll : List Action → Except String (List Json.Value)
  | [] => .ok []
  | action :: others =>
      match action.unwritable? with
      | some reason => .error reason
      | none => (writeAll others).map (action.toValue :: ·)

/-! ## Fields -/

open Json (Cause Fault Input Number Value)

/-- The content of a field that holds a text. -/
def textField : Value → Except Cause String
  | .text text => .ok text
  | other => .error (.wrongType other.found "a string")

/-- The content of a field that holds a natural number of 64 bits. -/
def naturalField : Value → Except Cause UInt64
  | .number number => (Json.natural? "u64" Word.size number).map UInt64.ofNat
  | other => .error (.wrongType other.found "u64")

/-- The content of a field that holds an integer of 64 bits. -/
def integerField : Value → Except Cause Int64
  | .number (.integer value) =>
      if value ≤ Word.greatest then .ok (Int64.ofInt value)
      else .error (.wrongValue (.number (.integer value)) "i64")
  | other => .error (.wrongType other.found "i64")

/-- The content of a field that holds a text or `null`. -/
def noteField : Value → Except Cause (Option String)
  | .null => .ok none
  | other => (textField other).map some

/-- Checks the value of a field of a kind. -/
def checkField (kind : Kind) (field : String) (value : Value) : Except Cause Unit :=
  match kind, field with
  | .timing, _ => (naturalField value).map fun _ => ()
  | .adjustment, "note" => (noteField value).map fun _ => ()
  | .adjustment, _ => (integerField value).map fun _ => ()
  | _, _ => (textField value).map fun _ => ()

/-- The fields of a kind among the members of an object.  Unknown members are passed over; the
first wrong or repeated field in document order is refused. -/
def gather (kind : Kind) : List (String × Value) → List (String × Value) →
    Except Cause (List (String × Value))
  | seen, [] => .ok seen
  | seen, (key, value) :: others =>
      if !kind.fields.contains key then gather kind seen others
      else if seen.any (·.1 = key) then .error (.duplicateField key)
      else
        match checkField kind key value with
        | .error cause => .error cause
        | .ok () => gather kind (seen ++ [(key, value)]) others

/-- The value of a field that must be there. -/
def required (fields : List (String × Value)) (field : String) : Except Cause Value :=
  match fields.find? (·.1 = field) with
  | some (_, value) => .ok value
  | none => .error (.missingField field)

/-- Builds an action of a kind from its gathered fields. -/
def ofFields (kind : Kind) (fields : List (String × Value)) : Except Cause Action :=
  match kind with
  | .label => do return .label (← textField (← required fields "text"))
  | .argument => do
      let name ← textField (← required fields "name")
      let value ← textField (← required fields "value")
      return .argument name value
  | .timing => do return .timing (← naturalField (← required fields "millis"))
  | .marked => do return .marked (← textField (← required fields "label")) none
  | .seed => do return .seed (← textField (← required fields "text"))
  | .flag => return .flag
  | .adjustment => do
      let note ← match fields.find? (·.1 = "note") with
        | some (_, value) => noteField value
        | none => .ok none
      let delta ← integerField (← required fields "delta")
      return .adjustment note delta
  | .broken => do return .broken (← textField (← required fields "reason"))

/-- A count of things, in words. -/
def countOf (count : Nat) : String :=
  toString count ++ if count = 1 then " element" else " elements"

/-- Pairs the fields of a kind with the elements of a list.  A list that ends too early is refused
at the first field without an element; only a note may be left out there. -/
def pairFields (kind : Kind) : (position : Nat) → List String → List Value →
    Except Cause (List (String × Value))
  | _, [], _ => .ok []
  | position, field :: fields, [] =>
      if field = "note" then pairFields kind (position + 1) fields []
      else
        .error (.wrongLength position
          ("struct variant Step::" ++ kind.title ++ " with " ++ countOf kind.fields.length))
  | position, field :: fields, value :: values =>
      match checkField kind field value with
      | .error cause => .error cause
      | .ok () => (pairFields kind (position + 1) fields values).map ((field, value) :: ·)

/-- What stands behind the kind of an action: members in any order, or the fields in order. -/
inductive Content where
  | members (members : List (String × Value))
  | elements (elements : List Value)
  deriving Repr

/-- Builds an action from its kind and its content. -/
def ofContent (kind : Kind) : Content → Except Cause Action
  | .members members => do ofFields kind (← gather kind [] members)
  | .elements elements => do
      let fields ← pairFields kind 0 kind.fields elements
      if kind.fields.length < elements.length then
        .error (.wrongLength elements.length (countOf kind.fields.length ++ " in sequence"))
      else ofFields kind fields

/-! ## Reading -/

/-- What an action is expected to be. -/
def expected : String := "internally tagged enum Step"

/-- The member that names the kind. -/
def kindKey : String := "type"

/-- The kind of a given name, or the refusal of the name. -/
def namedKind (name : String) : Except Cause Kind :=
  match Kind.ofName? name with
  | some kind => .ok kind
  | none => .error (.unknownVariant name (Kind.all.map Kind.name))

/-- Reads the name of a kind. -/
def readKind (input : Input) : Except Fault (Kind × Input) :=
  match Json.readText "variant identifier" input with
  | .error fault => .error fault
  | .ok (name, rest) =>
      match namedKind name with
      | .ok kind => .ok (kind, rest)
      | .error cause => .error (.here cause rest)

/-- What is known of an action while its members are read. -/
structure Partial where
  kind : Option Kind
  members : List (String × Value)

/-- Reads a member of an action. -/
def readMember (budget : Nat) (seen : Partial) (key : String) (input : Input) :
    Partial × Except Fault Input :=
  if key = kindKey then
    if seen.kind.isSome then (seen, .error (.unplaced (.duplicateField kindKey) input))
    else
      match Json.readMember readKind input with
      | .error fault => (seen, .error fault)
      | .ok (kind, rest) => ({ seen with kind := some kind }, .ok rest)
  else
    match Json.readMember (Json.readValue budget) input with
    | .error fault => (seen, .error fault)
    | .ok (value, rest) => ({ seen with members := seen.members ++ [(key, value)] }, .ok rest)

/-- What is known of an action while its elements are read. -/
structure PartialList where
  kind : Option Kind
  elements : List Value

/-- Reads an element of an action that stands as a list; the first names the kind. -/
def readElement (budget : Nat) (seen : PartialList) (input : Input) :
    PartialList × Except Fault Input :=
  if seen.kind.isNone then
    match readKind input with
    | .error fault => (seen, .error fault)
    | .ok (kind, rest) => ({ seen with kind := some kind }, .ok rest)
  else
    match Json.readValue budget input with
    | .error fault => (seen, .error fault)
    | .ok (value, rest) => ({ seen with elements := seen.elements ++ [value] }, .ok rest)

/-- Builds an action after it has been read.  A missing kind is refused behind the action; any
other refusal has no place of its own. -/
def complete (kind : Option Kind) (content : Content) (rest : Input) :
    Except Fault (Action × Input) :=
  match kind with
  | none => .error (.here (.missingField kindKey) rest)
  | some kind =>
      match ofContent kind content with
      | .ok action => .ok (action, rest)
      | .error cause => .error (.unplaced cause rest)

/-- Reads the members of an action behind its opening brace, if another level may be opened. -/
def members (budget : Nat) : Option (Partial → Input → Partial × Except Fault Input) :=
  match budget with
  | 0 => none
  | budget + 1 => some fun seen input =>
      Json.foldMembers (readMember budget) (input.length + 1) true seen input

/-- Reads the elements of an action behind its opening bracket, if another level may be opened. -/
def elements (budget : Nat) : Option (PartialList → Input → PartialList × Except Fault Input) :=
  match budget with
  | 0 => none
  | budget + 1 => some fun seen input =>
      Json.foldElements (readElement budget) (input.length + 1) true seen input

/-- Reads an action, with `budget` levels of nesting left. -/
def read (budget : Nat) (input : Input) : Except Fault (Action × Input) :=
  match Json.skipBlank input with
  | [] => .error (.next .endInValue [])
  | byte :: rest =>
      if byte == Json.openBrace then
        match Json.readObject expected (members budget) ⟨none, []⟩ (byte :: rest) with
        | (_, .error fault) => .error fault
        | (seen, .ok rest) => complete seen.kind (.members seen.members) rest
      else if byte == Json.openBracket then
        match Json.readList expected (elements budget) ⟨none, []⟩ (byte :: rest) with
        | (_, .error fault) => .error fault
        | (seen, .ok rest) => complete seen.kind (.elements seen.elements) rest
      else .error (Json.mistyped expected (byte :: rest))

/-- Reads a list of actions, or `null`. -/
def readMany (budget : Nat) (input : Input) : Except Fault (Option (List Action) × Input) :=
  Json.readNullable (Json.readListOf budget read) input

/-! ## From values -/

/-- The kind named by a value. -/
def kindOfValue : Value → Except Cause Kind
  | .text name => namedKind name
  | other => .error (.wrongType other.found "variant identifier")

/-- The action that a value describes. -/
def ofValue : Value → Except Cause Action
  | .object members =>
      match members.filter (·.1 = kindKey) with
      | [] => .error (.missingField kindKey)
      | (_, value) :: _ => do
          ofContent (← kindOfValue value) (.members (members.filter (·.1 ≠ kindKey)))
  | .list [] => .error (.missingField kindKey)
  | .list (value :: elements) => do ofContent (← kindOfValue value) (.elements elements)
  | other => .error (.wrongType other.found expected)

/-- The actions that a value describes. -/
def listOfValue : Value → Except Cause (List Action)
  | .list elements => elements.mapM ofValue
  | other => .error (.wrongType other.found "a sequence")

/-! ## Display -/

/-- A field of a display. -/
def shownField (name shown : String) : String := name ++ ": " ++ shown

/-- A display of a value with named fields. -/
def shownFields (title : String) (fields : List String) : String :=
  title ++ " \x7b " ++ ", ".intercalate fields ++ " \x7d"

/-- A display of a value that may be absent. -/
def shownOption (shown : Option String) : String :=
  match shown with
  | some text => "Some(" ++ text ++ ")"
  | none => "None"

/-- An action as the display of a node shows it. -/
def display : Action → String
  | .label text => shownFields "Label" [shownField "text" (Text.quoted text)]
  | .argument name value =>
      shownFields "Argument"
        [shownField "name" (Text.quoted name), shownField "value" (Text.quoted value)]
  | .timing millis => shownFields "Timing" [shownField "millis" (toString millis.toNat)]
  | .marked mark seen =>
      let shown := match seen with
        | none => "<uninit>"
        | some sighting =>
            "(" ++ Text.quoted sighting.id ++ ", " ++
              shownOption (sighting.execution.map Text.quoted) ++ ", " ++
              toString sighting.actions ++ ")"
      shownFields "Marked"
        [shownField "label" (Text.quoted mark), shownField "seen" ("OnceLock(" ++ shown ++ ")")]
  | .seed text => shownFields "Seed" [shownField "text" (Text.quoted text)]
  | .flag => "Flag"
  | .adjustment note delta =>
      shownFields "Opt"
        [shownField "note" (shownOption (note.map Text.quoted)),
          shownField "delta" (toString delta.toInt)]
  | .broken reason => shownFields "Broken" [shownField "reason" (Text.quoted reason)]

end Action

end TraceStore
