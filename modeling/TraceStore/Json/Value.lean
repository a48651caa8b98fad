import TraceStore.Json.Reader

/-!
# Whole values

Where the shape of a value is not known beforehand it is built as a `Json.Value`.  Objects keep
their members in document order, repeated keys included.
-/

namespace TraceStore.Json

/-- A value of a document. -/
inductive Value where
  | null
  | boolean (value : Bool)
  | number (value : Number)
  | text (value : String)
  | list (elements : List Value)
  | object (members : List (String × Value))
  deriving Repr, Inhabited

namespace Value

/-- A natural number as a value. -/
def natural (value : Nat) : Value := .number (.integer value)

/-- A list of texts as a value. -/
def texts (values : List String) : Value := .list (values.map .text)

/-- What a refusal names this value. -/
def found : Value → Found
  | .null => .null
  | .boolean value => .boolean value
  | .number value => .number value
  | .text value => .text value
  | .list _ => .list
  | .object _ => .object

/-- The member of an object under a key; of several the last. -/
def member? (key : String) : Value → Option Value
  | .object members => (members.reverse.find? (·.1 = key)).map (·.2)
  | _ => none

/-- The content of a text. -/
def text? : Value → Option String
  | .text value => some value
  | _ => none

end Value

/-- Appends a member that was read to those before it. -/
def collectMember (read : Input → Except Fault (Value × Input)) (seen : List (String × Value))
    (key : String) (input : Input) : List (String × Value) × Except Fault Input :=
  match readMember read input with
  | .error fault => (seen, .error fault)
  | .ok (value, rest) => (seen ++ [(key, value)], .ok rest)

/-- Reads the value that starts at a byte that is no blank.  `element` reads the values inside; it
is absent at the nesting limit. -/
def readShape (element : Option (Input → Except Fault (Value × Input))) :
    Input → Except Fault (Value × Input)
  | [] => .error (.next .endInValue [])
  | byte :: rest =>
      match word? byte with
      | some (value, letters) => (readWord letters rest).map (value.elim .null .boolean, ·)
      | none =>
          if byte == minus || isDigit byte then
            (readNumber (byte :: rest)).map fun (value, rest) => (.number value, rest)
          else if byte == quote then
            (readString rest).map fun (value, rest) => (.text value, rest)
          else if byte == openBracket then
            match element with
            | none => .error (.next .tooDeep (byte :: rest))
            | some element =>
                (settled (finish closeList pastList
                  (foldElements (collect element) (rest.length + 1) true [] rest))).map
                    fun (elements, rest) => (.list elements, rest)
          else if byte == openBrace then
            match element with
            | none => .error (.next .tooDeep (byte :: rest))
            | some element =>
                (settled (finish closeObject pastObject
                  (foldMembers (collectMember element) (rest.length + 1) true [] rest))).map
                    fun (members, rest) => (.object members, rest)
          else .error (.next .noValue (byte :: rest))

/-- Reads any value, with `budget` levels of nesting left. -/
def readValue : (budget : Nat) → Input → Except Fault (Value × Input)
  | 0, input => readShape none (skipBlank input)
  | budget + 1, input => readShape (some (readValue budget)) (skipBlank input)

/-- Reads a document that is one value. -/
def readDocument (document : Input) : Except Fault Value :=
  match readValue nestingLimit document with
  | .error fault => .error fault
  | .ok (value, rest) => (readEnd rest).map fun _ => value

end TraceStore.Json
