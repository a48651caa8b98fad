import TraceStore.Json.Skip

/-!
# Reading by shape

Readers of lists, objects and scalars, for callers who know which shape they want.  A value of
another shape is refused with a description of what was expected; scalars are read in full before
they are refused, brackets are not.

`foldMembers` and `foldElements` run a caller's step over the parts of an object or a list and
thread a state through it, which survives a refusal.  `readObject` and `readList` add the brackets:
they charge one level of nesting, and they give a fault of meaning found inside the place at which
the closing bracket is passed.
-/

namespace TraceStore.Json

/-- How many brackets may be open at once in a value that is built. -/
def nestingLimit : Nat := 127

/-! ## Members and elements -/

/-- Finds the next key of an object.  Without one the closing brace is next. -/
def nextKey (first : Bool) (input : Input) : Except Fault (Option String × Input) :=
  match skipBlank input with
  | [] => .error (.next .endInObject [])
  | byte :: rest =>
      if byte == closeBrace then .ok (none, byte :: rest)
      else if byte == comma && !first then
        match skipBlank rest with
        | [] => .error (.next .endInValue [])
        | byte :: rest =>
            if byte == quote then (readString rest).map fun (key, rest) => (some key, rest)
            else if byte == closeBrace then .error (.next .trailingComma (byte :: rest))
            else .error (.next .keyNotString (byte :: rest))
      else if first then
        if byte == quote then (readString rest).map fun (key, rest) => (some key, rest)
        else .error (.next .keyNotString (byte :: rest))
      else .error (.next .noObjectSeparator (byte :: rest))

/-- Passes over the colon behind a key. -/
def skipColon (input : Input) : Except Fault Input :=
  match skipBlank input with
  | [] => .error (.next .endInObject [])
  | byte :: rest => if byte == colon then .ok rest else .error (.next .noColon (byte :: rest))

/-- Reads the value behind a key. -/
def readMember {α : Type} (read : Input → Except Fault (α × Input)) (input : Input) :
    Except Fault (α × Input) :=
  match skipColon input with
  | .error fault => .error fault
  | .ok rest => read rest

/-- Passes over the value behind a key. -/
def skipMember (input : Input) : Except Fault Input :=
  match skipColon input with
  | .error fault => .error fault
  | .ok rest => skipValue rest

/-- Runs a step over the members of an object up to its closing brace.  The step stands behind the
key.  Every member consumes, so the bytes left bound the rounds. -/
def foldMembers {σ : Type} (step : σ → String → Input → σ × Except Fault Input) :
    (rounds : Nat) → (first : Bool) → σ → Input → σ × Except Fault Input
  | 0, _, state, input => (state, .error (.next .endInObject input))
  | rounds + 1, first, state, input =>
      match nextKey first input with
      | .error fault => (state, .error fault)
      | .ok (none, rest) => (state, .ok rest)
      | .ok (some key, rest) =>
          match step state key rest with
          | (state, .error fault) => (state, .error fault)
          | (state, .ok rest) => foldMembers step rounds false state rest

/-- Finds the next element of a list: whether there is one.  Without one the closing bracket is
next. -/
def nextElement (first : Bool) (input : Input) : Except Fault (Bool × Input) :=
  match skipBlank input with
  | [] => .error (.next .endInList [])
  | byte :: rest =>
      if byte == closeBracket then .ok (false, byte :: rest)
      else if byte == comma && !first then
        match skipBlank rest with
        | [] => .error (.next .endInValue [])
        | byte :: rest =>
            if byte == closeBracket then .error (.next .trailingComma (byte :: rest))
            else .ok (true, byte :: rest)
      else if first then .ok (true, byte :: rest)
      else .error (.next .noListSeparator (byte :: rest))

/-- Runs a step over the elements of a list up to its closing bracket. -/
def foldElements {σ : Type} (step : σ → Input → σ × Except Fault Input) :
    (rounds : Nat) → (first : Bool) → σ → Input → σ × Except Fault Input
  | 0, _, state, input => (state, .error (.next .endInList input))
  | rounds + 1, first, state, input =>
      match nextElement first input with
      | .error fault => (state, .error fault)
      | .ok (false, rest) => (state, .ok rest)
      | .ok (true, rest) =>
          match step state rest with
          | (state, .error fault) => (state, .error fault)
          | (state, .ok rest) => foldElements step rounds false state rest

/-! ## Closing brackets -/

/-- Passes the closing brace of an object. -/
def closeObject (input : Input) : Except Fault Input :=
  match skipBlank input with
  | [] => .error (.next .endInObject [])
  | byte :: rest =>
      if byte == closeBrace then .ok rest
      else if byte == comma then .error (.next .trailingComma (byte :: rest))
      else .error (.next .trailingCharacters (byte :: rest))

/-- The point reached by an attempt to pass the closing brace. -/
def pastObject (input : Input) : Input :=
  match skipBlank input with
  | [] => []
  | byte :: rest => if byte == closeBrace then rest else byte :: rest

/-- Passes the closing bracket of a list. -/
def closeList (input : Input) : Except Fault Input :=
  match skipBlank input with
  | [] => .error (.next .endInList [])
  | byte :: rest =>
      if byte == closeBracket then .ok rest
      else if byte == comma then
        match skipBlank rest with
        | [] => .error (.next .trailingCharacters [])
        | byte :: rest =>
            if byte == closeBracket then .error (.next .trailingComma (byte :: rest))
            else .error (.next .trailingCharacters (byte :: rest))
      else .error (.next .trailingCharacters (byte :: rest))

/-- The point reached by an attempt to pass the closing bracket. -/
def pastList (input : Input) : Input :=
  match skipBlank input with
  | [] => []
  | byte :: rest =>
      if byte == closeBracket then rest
      else if byte == comma then skipBlank rest
      else byte :: rest

/-- Ends a bracket: after its content the closing byte is passed, and an unplaced fault in the
content is placed at the point reached by that attempt. -/
def finish {σ : Type} (close : Input → Except Fault Input) (past : Input → Input)
    (content : σ × Except Fault Input) : σ × Except Fault Input :=
  match content with
  | (state, .ok rest) => (state, close rest)
  | (state, .error fault) =>
      (state, .error (if fault.placed then fault else ⟨fault.cause, past fault.left, true⟩))

/-! ## Refusing another shape -/

/-- The fault for a value of another shape than the expected one.  Scalars are read first, so their
own faults come before it. -/
def mistyped (expected : String) (input : Input) : Fault :=
  match input with
  | [] => .next .noValue []
  | byte :: rest =>
      match word? byte with
      | some (value, letters) =>
          match readWord letters rest with
          | .error fault => fault
          | .ok rest => .here (.wrongType (value.elim .null .boolean) expected) rest
      | none =>
          if byte == minus || isDigit byte then
            match readNumber (byte :: rest) with
            | .error fault => fault
            | .ok (number, rest) => .here (.wrongType (.number number) expected) rest
          else if byte == quote then
            match readString rest with
            | .error fault => fault
            | .ok (text, rest) => .here (.wrongType (.text text) expected) rest
          else if byte == openBracket then .here (.wrongType .list expected) (byte :: rest)
          else if byte == openBrace then .here (.wrongType .object expected) (byte :: rest)
          else .next .noValue (byte :: rest)

/-! ## Shapes -/

/-- Reads an object.  The content stands behind the opening brace and ends in front of the closing
one; without it the nesting limit is reached. -/
def readObject {σ : Type} (expected : String)
    (content : Option (σ → Input → σ × Except Fault Input)) (state : σ) (input : Input) :
    σ × Except Fault Input :=
  match skipBlank input with
  | [] => (state, .error (.next .endInValue []))
  | byte :: rest =>
      if byte == openBrace then
        match content with
        | none => (state, .error (.next .tooDeep (byte :: rest)))
        | some content => finish closeObject pastObject (content state rest)
      else (state, .error (mistyped expected (byte :: rest)))

/-- Reads a list.  The content stands behind the opening bracket and ends in front of the closing
one; without it the nesting limit is reached. -/
def readList {σ : Type} (expected : String) (content : Option (σ → Input → σ × Except Fault Input))
    (state : σ) (input : Input) : σ × Except Fault Input :=
  match skipBlank input with
  | [] => (state, .error (.next .endInValue []))
  | byte :: rest =>
      if byte == openBracket then
        match content with
        | none => (state, .error (.next .tooDeep (byte :: rest)))
        | some content => finish closeList pastList (content state rest)
      else (state, .error (mistyped expected (byte :: rest)))

/-- Reads a text. -/
def readText (expected : String) (input : Input) : Except Fault (String × Input) :=
  match skipBlank input with
  | [] => .error (.next .endInValue [])
  | byte :: rest =>
      if byte == quote then readString rest else .error (mistyped expected (byte :: rest))

/-- Reads a truth value. -/
def readBoolean (input : Input) : Except Fault (Bool × Input) :=
  match skipBlank input with
  | [] => .error (.next .endInValue [])
  | byte :: rest =>
      match word? byte with
      | some (some value, letters) => (readWord letters rest).map (value, ·)
      | _ => .error (mistyped "a boolean" (byte :: rest))

/-- Checks that a number is a natural one below a bound. -/
def natural? (expected : String) (bound : Nat) : Number → Except Cause Nat
  | .integer value =>
      if 0 ≤ value && value < bound then .ok value.toNat
      else .error (.wrongValue (.number (.integer value)) expected)
  | .double value => .error (.wrongType (.number (.double value)) expected)

/-- Reads a natural number below a bound. -/
def readNatural (expected : String) (bound : Nat) (input : Input) : Except Fault (Nat × Input) :=
  match skipBlank input with
  | [] => .error (.next .endInValue [])
  | byte :: rest =>
      if byte == minus || isDigit byte then
        match readNumber (byte :: rest) with
        | .error fault => .error fault
        | .ok (number, rest) =>
            match natural? expected bound number with
            | .ok value => .ok (value, rest)
            | .error cause => .error (.here cause rest)
      else .error (mistyped expected (byte :: rest))

/-- Reads a value or `null`. -/
def readNullable {α : Type} (read : Input → Except Fault (α × Input)) (input : Input) :
    Except Fault (Option α × Input) :=
  match skipBlank input with
  | byte :: rest =>
      match word? byte with
      | some (none, letters) => (readWord letters rest).map (none, ·)
      | _ => (read (byte :: rest)).map fun (value, rest) => (some value, rest)
  | [] => (read []).map fun (value, rest) => (some value, rest)

/-- Appends an element that was read to those before it. -/
def collect {α : Type} (read : Input → Except Fault (α × Input)) (seen : List α) (input : Input) :
    List α × Except Fault Input :=
  match read input with
  | .error fault => (seen, .error fault)
  | .ok (value, rest) => (seen ++ [value], .ok rest)

/-- Drops the state of a refusal, and pairs it with the bytes left otherwise. -/
def settled {σ : Type} (result : σ × Except Fault Input) : Except Fault (σ × Input) :=
  result.2.map (result.1, ·)

/-- Reads a list whose elements all have one reader. -/
def readListOf {α : Type} (budget : Nat) (read : (budget : Nat) → Input → Except Fault (α × Input))
    (input : Input) : Except Fault (List α × Input) :=
  let content := match budget with
    | 0 => none
    | budget + 1 => some fun seen input =>
        foldElements (collect (read budget)) (input.length + 1) true seen input
  settled (readList "a sequence" content [] input)

/-- Checks that nothing but blanks is left of a document. -/
def readEnd (input : Input) : Except Fault Unit :=
  match skipBlank input with
  | [] => .ok ()
  | byte :: rest => .error (.next .trailingCharacters (byte :: rest))

end TraceStore.Json
