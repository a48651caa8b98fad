import TraceStore.Event
import TraceStore.Logging.Pattern

/-!
# Directives

A directive says from which severity on events of some origin are logged: a level, a target with a
level behind an equals sign, or a target alone, which logs everything below it.  A directive may
also be bound to a span or to fields, in brackets behind the target.

A comma ends a directive: nothing but blanks may follow it.  The places at which a directive is cut
into its parts are counted in bytes without the blanks around it, but the parts are taken from the
text with them.
-/

namespace TraceStore

/-- From which severity on something is logged; nothing is if there is none. -/
abbrev Level := Option Severity

/-- Whether an event of a severity passes a level. -/
def Level.passes (level : Level) (severity : Severity) : Bool :=
  level.any fun least => least.rank ≤ severity.rank

/-- Why a text is no directive. -/
inductive DirectiveFault where
  | malformed
  | badLevel
  /-- The value that a field has to have is no pattern that can be used. -/
  | badField (fault : PatternFault)
  deriving Repr, DecidableEq

/-- The text of a fault. -/
def DirectiveFault.message : DirectiveFault → String
  | .malformed => "invalid filter directive"
  | .badLevel =>
      "error parsing level filter: expected one of \"off\", \"error\", \"warn\", \"info\", " ++
        "\"debug\", \"trace\", or a number 0-5"
  | .badField fault => "invalid field filter: " ++ fault.message

/-- The levels from none to all. -/
def Level.all : List Level := [none, some .error, some .warn, some .info, some .debug, some .trace]

/-- The names of the levels. -/
def Level.named : List (String × Level) :=
  [("off", none), ("error", some .error), ("warn", some .warn), ("info", some .info),
    ("debug", some .debug), ("trace", some .trace)]

/-- The level that a text names, by name in any case or by number. -/
def Level.ofText? (text : String) : Option Level :=
  let digits := match text.toList with
    | '+' :: rest => rest
    | all => all
  if !digits.isEmpty && digits.all Char.isDigit then
    let value := digits.foldl (fun value digit => value * 10 + (digit.toNat - '0'.toNat)) 0
    Level.all[value]?
  else
    let name := String.ofList (text.toList.map Char.toLower)
    (Level.named.find? (·.1 = name)).map (·.2)

/-- A field that a directive is bound to. -/
structure FieldBinding where
  name : String
  /-- Whether the field has to have a certain value. -/
  valued : Bool
  deriving Repr, DecidableEq

/-- A directive. -/
structure Directive where
  level : Level := some .trace
  target : Option String := none
  span : Option String := none
  fields : List FieldBinding := []
  deriving Repr, DecidableEq

namespace Directive

/-- Which part of a directive is being read, and where the part began. -/
inductive Stage where
  | start
  | levelOrTarget (start : Nat)
  | span (start : Nat)
  | field (start : Nat)
  | fields
  | target
  | level (start : Nat)
  | complete
  deriving Repr, DecidableEq

/-- A field binding: a name, and perhaps a value behind an equals sign.  The value is a number or a
pattern and ends at a second equals sign. -/
def binding (text : List Char) : Except DirectiveFault FieldBinding :=
  let name := String.ofList (text.takeWhile (· ≠ '='))
  match text.dropWhile (· ≠ '=') with
  | [] => .ok ⟨name, false⟩
  | _ :: value =>
      let value := value.takeWhile (· ≠ '=')
      if (Numeral.double? (String.ofList value)).isSome then .ok ⟨name, true⟩
      else
        match Pattern.fault? value with
        | some fault => .error (.badField fault)
        | none => .ok ⟨name, true⟩

/-- Takes a text as a level, or else as a target of which everything is logged. -/
def withLevelOrTarget (directive : Directive) (text : List Char) : Directive :=
  if text.isEmpty then { directive with level := some .trace, target := none }
  else
    match Level.ofText? (String.ofList text) with
    | some level => { directive with level, target := none }
    | none => { directive with level := some .trace, target := some (String.ofList text) }

/-- Takes a text as a level; an empty one logs everything. -/
def withLevel (directive : Directive) (text : List Char) : Except DirectiveFault Directive :=
  if text.isEmpty then .ok { directive with level := some .trace }
  else
    match Level.ofText? (String.ofList text) with
    | some level => .ok { directive with level }
    | none => .error .badLevel

/-- Binds a directive to a field. -/
def withField (directive : Directive) (text : List Char) : Except DirectiveFault Directive :=
  if text.isEmpty then .error .malformed
  else (binding text).map fun field => { directive with fields := directive.fields ++ [field] }

/-- What is left behind the first bytes of a text. -/
def behind : (count : Nat) → List Char → List Char
  | 0, text => text
  | _, [] => []
  | count, character :: rest => behind (count - character.utf8Size) rest

/-- The first bytes of a text. -/
def upTo : (count : Nat) → List Char → List Char
  | 0, _ => []
  | _, [] => []
  | count, character :: rest => character :: upTo (count - character.utf8Size) rest

/-- Takes the next character, which stands at a place of a text. -/
def advance (text : List Char) (directive : Directive) (place : Nat)
    (character : Char) (stage : Stage) : Except DirectiveFault (Directive × Stage) :=
  let part (start : Nat) := upTo (place - start) (behind start text)
  match stage with
  | .start =>
      if character = '[' then .ok (directive, .span (place + 1))
      else if character = '-' || character = ':' || character = '_' ||
          Text.isAlphanumeric character then
        .ok (directive, .levelOrTarget place)
      else .error .malformed
  | .levelOrTarget start =>
      if character = '=' then
        .ok ({ directive with target := some (String.ofList (part start)) },
          .level (place + 1))
      else if character = '[' then
        .ok ({ directive with target := some (String.ofList (part start)) },
          .span (place + 1))
      else if character = ',' then
        .ok (directive.withLevelOrTarget (behind start text), .complete)
      else .ok (directive, .levelOrTarget start)
  | .target =>
      if character = '=' then .ok (directive, .level (place + 1)) else .error .malformed
  | .span start =>
      if character = ']' then
        .ok ({ directive with span := some (String.ofList (part start)) }, .target)
      else if character = '\x7b' then
        let name := part start
        .ok ({ directive with span := if name.isEmpty then none else some (String.ofList name) },
          .field (place + 1))
      else .ok (directive, .span start)
  | .field start =>
      if character = '\x7d' then (directive.withField (part start)).map (·, .fields)
      else if character = ',' then
        (directive.withField (part start)).map (·, .field (place + 1))
      else .ok (directive, .field start)
  | .fields => if character = ']' then .ok (directive, .target) else .error .malformed
  | .level start =>
      if character = ',' then (directive.withLevel (part start)).map (·, .complete)
      else .ok (directive, .level start)
  | .complete => .error .malformed

/-- Takes all characters from a place on. -/
def advanceAll (text : List Char) : (place : Nat) → Directive → Stage → List Char →
    Except DirectiveFault (Directive × Stage)
  | _, directive, stage, [] => .ok (directive, stage)
  | place, directive, stage, character :: rest =>
      match advance text directive place character stage with
      | .error fault => .error fault
      | .ok (directive, stage) =>
          advanceAll text (place + character.utf8Size) directive stage rest

/-- The directive that a text describes. -/
def ofText (text : String) : Except DirectiveFault Directive :=
  let all := text.toList
  match advanceAll all 0 {} .start (Text.trimmed all) with
  | .error fault => .error fault
  | .ok (directive, .levelOrTarget start) => .ok (directive.withLevelOrTarget (behind start all))
  | .ok (directive, .level start) => directive.withLevel (behind start all)
  | .ok (directive, .target) | .ok (directive, .complete) => .ok directive
  | .ok _ => .error .malformed

/-- Whether a directive can concern events outside spans: it names no span and no values. -/
def isStatic (directive : Directive) : Bool :=
  directive.span.isNone && directive.fields.all (!·.valued)

/-- Whether a directive concerns spans. -/
def isDynamic (directive : Directive) : Bool :=
  directive.span.isSome || !directive.fields.isEmpty

end Directive

end TraceStore
