import TraceStore.Logging.Directive

/-!
# Filters

A filter decides which events are logged.  Of its rules that apply to an event the most specific
one decides: one with a longer target before one with a shorter, then one that asks for more fields.
If no rule applies the event is not logged.
-/

namespace TraceStore

/-- From which severity on the events of a target, and with certain fields, are logged. -/
structure Rule where
  target : Option String
  fields : List String
  level : Level
  deriving Repr, DecidableEq

/-- Rules with different targets or fields. -/
structure Filter where
  rules : List Rule := []
  deriving Repr, DecidableEq, Inhabited

namespace Rule

/-- Whether a rule applies to an event: its target is a beginning of the event's, and the event has
its fields. -/
def appliesTo (rule : Rule) (event : Event) : Bool :=
  rule.target.all (fun target => target.toList.isPrefixOf event.origin.target.toList) &&
    rule.fields.all fun field => field = "message" || event.fields.any (·.1 = field)

/-- Whether lists of names are in ascending order. -/
def namesBefore : List String → List String → Bool
  | _, [] => false
  | [], _ :: _ => true
  | left :: lefts, right :: rights =>
      if left = right then namesBefore lefts rights else left < right

/-- How specific a target is. -/
def weight (rule : Rule) : Nat := (rule.target.map fun target => target.utf8ByteSize + 1).getD 0

/-- Whether a rule decides before another one that applies to the same event. -/
def precedes (rule other : Rule) : Bool :=
  if rule.weight ≠ other.weight then other.weight < rule.weight
  else if rule.fields.length ≠ other.fields.length then
    other.fields.length < rule.fields.length
  else namesBefore other.fields rule.fields

end Rule

namespace Filter

/-- Adds a rule, in place of one for the same target and fields. -/
def add (filter : Filter) (rule : Rule) : Filter :=
  ⟨filter.rules.filter (fun other => other.target ≠ rule.target || other.fields ≠ rule.fields) ++
    [rule]⟩

/-- Adds a directive.  One that only concerns spans adds no rule. -/
def addDirective (filter : Filter) (directive : Directive) : Filter :=
  if directive.isStatic then
    filter.add ⟨directive.target, directive.fields.map (·.name), directive.level⟩
  else filter

/-- The filter of given directives: those that do not concern spans first. -/
def ofDirectives (directives : List Directive) : Filter :=
  (directives.filter (!·.isDynamic) ++ directives.filter (·.isDynamic)).foldl addDirective {}

/-- The rule that decides about an event. -/
def ruleFor? (filter : Filter) (event : Event) : Option Rule :=
  (filter.rules.filter (·.appliesTo event)).foldl
    (fun best rule =>
      match best with
      | none => some rule
      | some other => if rule.precedes other then some rule else some other)
    none

/-- Whether an event is logged. -/
def passes (filter : Filter) (event : Event) : Bool :=
  (filter.ruleFor? event).any fun rule => rule.level.passes event.severity

/-- The pieces of a text between commas, without the empty ones. -/
def pieces (text : String) : List String :=
  (split text.toList).filter (· ≠ "")
where
  /-- All pieces of a text between commas. -/
  split : List Char → List String
    | [] => [""]
    | character :: rest =>
        if character = ',' then "" :: split rest
        else
          match split rest with
          | [] => [String.singleton character]
          | piece :: others => (String.singleton character ++ piece) :: others

/-- The filter that a list of directives describes, if all of them are well formed. -/
def ofText? (text : String) : Option Filter :=
  let directives := (pieces text).mapM fun piece => (Directive.ofText piece).toOption
  directives.map ofDirectives

/-- The filter of the well formed ones in a list of directives, and complaints about the others.
Without any directive only errors are logged. -/
def ofTextOr (text : String) : Filter × List String :=
  let read := (pieces text).map fun piece => (piece, Directive.ofText piece)
  let directives := read.filterMap fun (_, result) => result.toOption
  let complaints := read.filterMap fun (piece, result) =>
    match result with
    | .ok _ => none
    | .error fault => some ("ignoring `" ++ piece ++ "`: " ++ fault.message)
  let filter := ofDirectives directives
  if filter.rules.isEmpty && !directives.any (·.isDynamic) then
    (filter.add ⟨none, [], some .error⟩, complaints)
  else (filter, complaints)

end Filter

end TraceStore
