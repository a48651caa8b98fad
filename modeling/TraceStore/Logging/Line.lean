import TraceStore.Event
import TraceStore.Json.Printer

/-!
# Log lines

How an event is written on a line: as text, as text with colors for terminals, or as an object.
-/

namespace TraceStore

/-- The forms of lines. -/
inductive LineForm where
  | plain
  | colored
  | object
  deriving Repr, DecidableEq, Inhabited

/-- A detail on a line of text. -/
def FieldValue.shown : FieldValue → String
  | .text value => Text.quoted value
  | .plain value => value
  | .count value => toString value

/-- A detail as a value. -/
def FieldValue.toValue : FieldValue → Json.Value
  | .text value | .plain value => .text value
  | .count value => .natural value

/-- A code that changes how a terminal writes. -/
def terminalCode (number : String) : String := "\x1b[" ++ number ++ "m"

/-- A text written in another way, up to its end. -/
def emphasized (number text : String) : String :=
  terminalCode number ++ text ++ terminalCode "0"

namespace Severity

/-- The name of a severity, to the right of five columns. -/
def column (severity : Severity) : String :=
  String.ofList (List.replicate (5 - severity.name.length) ' ') ++ severity.name

/-- The code of the color of a severity. -/
def color : Severity → String
  | .trace => "35"
  | .debug => "34"
  | .info => "32"
  | .warn => "33"
  | .error => "31"

end Severity

namespace Event

/-- An event as a line of text. -/
def plainLine (event : Event) (time : String) : String :=
  time ++ " " ++ event.severity.column ++ " " ++ event.origin.target ++ ": " ++ event.message ++
    String.join (event.fields.map fun (name, value) => " " ++ name ++ "=" ++ value.shown)

/-- An event as a line of text with colors. -/
def coloredLine (event : Event) (time : String) : String :=
  emphasized "2" time ++ " " ++ emphasized event.severity.color event.severity.column ++ " " ++
    emphasized "2" event.origin.target ++ emphasized "2" ":" ++ " " ++ event.message ++
    String.join (event.fields.map fun (name, value) =>
      " " ++ emphasized "3" name ++ emphasized "2" "=" ++ value.shown)

/-- An event as an object. -/
def toValue (event : Event) (time : String) : Json.Value :=
  .object [("timestamp", .text time), ("level", .text event.severity.name),
    ("fields", .object (("message", .text event.message) ::
      event.fields.map fun (name, value) => (name, value.toValue))),
    ("target", .text event.origin.target)]

/-- An event as the bytes of a line, with the line feed at its end. -/
def line (event : Event) (form : LineForm) (time : String) : List UInt8 :=
  (match form with
    | .plain => Text.bytes (event.plainLine time)
    | .colored => Text.bytes (event.coloredLine time)
    | .object => (event.toValue time).compact) ++ [0x0A]

end Event

end TraceStore
