/-!
# Events

Operations of the store report what they did as events.  An event names the part of the store it
comes from, how important it is, and its details as named fields in a fixed order.  Events have no
effect on what an operation answers.
-/

namespace TraceStore

/-- How important an event is, the least important first. -/
inductive Severity where
  | trace
  | debug
  | info
  | warn
  | error
  deriving Repr, DecidableEq, Inhabited

namespace Severity

/-- The name of a severity in upper case. -/
def name : Severity → String
  | .trace => "TRACE"
  | .debug => "DEBUG"
  | .info => "INFO"
  | .warn => "WARN"
  | .error => "ERROR"

/-- The rank of a severity: one for trace up to five for error. -/
def rank : Severity → Nat
  | .trace => 1
  | .debug => 2
  | .info => 3
  | .warn => 4
  | .error => 5

end Severity

/-- A detail of an event. -/
inductive FieldValue where
  /-- A text that lines of text show quoted. -/
  | text (value : String)
  /-- A text that lines of text show as it is. -/
  | plain (value : String)
  | count (value : Nat)
  deriving Repr, DecidableEq, Inhabited

/-- The parts of the store that report events. -/
inductive Origin where
  | store
  | repository
  | cache
  | resolver
  deriving Repr, DecidableEq, Inhabited

/-- The name under which a part of the store reports. -/
def Origin.target : Origin → String
  | .store => "flowstore::store::simple"
  | .repository => "flowstore::store::repository"
  | .cache => "flowstore::store::cache"
  | .resolver => "flowstore::store::resolver"

/-- A report of the store. -/
structure Event where
  severity : Severity
  origin : Origin
  message : String
  fields : List (String × FieldValue)
  deriving Repr, DecidableEq

end TraceStore
