import TraceStore.Json.Lexeme

/-!
# Passing over values that are not wanted

Members that a reader does not know are passed over without being built.  The open brackets are
kept on an explicit stack, so nesting has no limit here, and neither encoding, surrogates nor the
range of numbers are looked at.

Inside, a separator always promises another value: a comma in front of a closing bracket is refused
when that value, or its key, is looked for.
-/

namespace TraceStore.Json

/-- An open bracket. -/
inductive Bracket where
  | list
  | object
  deriving Repr, DecidableEq

/-- The byte that closes a bracket. -/
def Bracket.closing : Bracket → UInt8
  | .list => closeBracket
  | .object => closeBrace

/-- The refusal of a value that is not followed by a separator or by the end of its bracket. -/
def Bracket.noSeparator : Bracket → Cause
  | .list => .noListSeparator
  | .object => .noObjectSeparator

/-- The refusal of a document that ends inside a bracket. -/
def Bracket.ended : Bracket → Cause
  | .list => .endInList
  | .object => .endInObject

/-- Passes over a scalar, or over an opening bracket, which is then named. -/
def skipHead (input : Input) : Except Fault (Option Bracket × Input) :=
  match skipBlank input with
  | [] => .error (.next .endInValue [])
  | byte :: rest =>
      match word? byte with
      | some (_, letters) => (readWord letters rest).map (none, ·)
      | none =>
          if byte == minus then (skipMagnitude rest).map (none, ·)
          else if isDigit byte then (skipMagnitude (byte :: rest)).map (none, ·)
          else if byte == quote then (skipString rest).map (none, ·)
          else if byte == openBracket then .ok (some .list, rest)
          else if byte == openBrace then .ok (some .object, rest)
          else .error (.next .noValue (byte :: rest))

/-- Passes over the key and the colon of the next member; in a list there are none. -/
def skipKey (bracket : Bracket) (input : Input) : Except Fault Input :=
  match bracket with
  | .list => .ok input
  | .object =>
      match skipBlank input with
      | [] => .error (.next .endInObject [])
      | byte :: rest =>
          if byte != quote then .error (.next .keyNotString (byte :: rest))
          else
            match skipString rest with
            | .error fault => .error fault
            | .ok rest =>
                match skipBlank rest with
                | [] => .error (.next .endInObject [])
                | byte :: rest =>
                    if byte == colon then .ok rest else .error (.next .noColon (byte :: rest))

/-- Closes brackets as long as they end, and goes on to the next value of the innermost one left.
`afterValue` says whether a value has just ended, so that a separator is due. -/
def settle (afterValue : Bool) : List Bracket → Input → Except Fault (List Bracket × Input)
  | [], input => .ok ([], input)
  | bracket :: outer, input =>
      match skipBlank input with
      | [] => .error (.next bracket.ended [])
      | byte :: rest =>
          if byte == comma && afterValue then (skipKey bracket rest).map (bracket :: outer, ·)
          else if byte == bracket.closing then settle true outer rest
          else if afterValue then .error (.next bracket.noSeparator (byte :: rest))
          else (skipKey bracket (byte :: rest)).map (bracket :: outer, ·)

/-- Passes over values until no bracket is open.  Every round consumes, so the bytes left bound the
rounds. -/
def skipRounds : (rounds : Nat) → List Bracket → Input → Except Fault Input
  | 0, _, input => .error (.next .endInValue input)
  | rounds + 1, enclosing, input =>
      match skipHead input with
      | .error fault => .error fault
      | .ok (opened, rest) =>
          let settled := match opened with
            | some bracket => settle false (bracket :: enclosing) rest
            | none => settle true enclosing rest
          match settled with
          | .error fault => .error fault
          | .ok ([], rest) => .ok rest
          | .ok (enclosing, rest) => skipRounds rounds enclosing rest

/-- Passes over one value. -/
def skipValue (input : Input) : Except Fault Input := skipRounds (input.length + 1) [] input

end TraceStore.Json
