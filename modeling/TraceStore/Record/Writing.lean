import TraceStore.Action.Form
import TraceStore.Error
import TraceStore.Graph

/-!
# Writing records

A record is one object in pretty layout: a member `node` with the id of a node and the ids of its
predecessors, and a member `actions` unless there are none.  Predecessors are always written as
ids, also where the node holds them.

The only reason not to write a record is an action that refuses to be written.  If its reason ends
in a place of a document, the place is kept in its plain form.
-/

namespace TraceStore

namespace RecordFault

/-- Splits a text behind the last occurrence of a word, if the word occurs. -/
def splitLast? (word : List Char) : List Char → Option (List Char × List Char)
  | [] => none
  | character :: rest =>
      match splitLast? word rest with
      | some (before, after) => some (character :: before, after)
      | none =>
          if word.isPrefixOf (character :: rest) then
            some ([], (character :: rest).drop word.length)
          else none

/-- A number of 64 bits at the front of a text, and what follows it. -/
def leadingNumber? (text : List Char) : Option (Nat × List Char) :=
  let digits := text.takeWhile Char.isDigit
  let value := digits.foldl (fun value digit => value * 10 + (digit.toNat - '0'.toNat)) 0
  if digits.isEmpty || Word.size ≤ value then none else some (value, text.dropWhile Char.isDigit)

/-- Splits a text that ends in a place of a document. -/
def place? (reason : String) : Option (String × Json.Position) := do
  let (before, after) ← splitLast? " at line ".toList reason.toList
  let (line, after) ← leadingNumber? after
  let word := " column ".toList
  guard (word.isPrefixOf after)
  let (column, after) ← leadingNumber? (after.drop word.length)
  guard after.isEmpty
  return (String.ofList before, ⟨line, column⟩)

/-- The refusal of an action with a given reason.  A place at its end is written without leading
zeros, and left out if its line is zero. -/
def refusal (reason : String) : RecordFault :=
  match place? reason with
  | none => .unwritable reason
  | some (text, position) =>
      .unwritable (if position.line = 0 then text else text ++ position.suffix)

end RecordFault

namespace Record

open Json (Value)

/-- The value that a record is written as. -/
def toValue (id : String) (parentIds : List String) (actions : List Value) : Value :=
  let node : Value := .object [("id", .text id), ("parentIds", .texts parentIds)]
  .object
    (("node", node) :: if actions.isEmpty then [] else [("actions", .list actions)])

/-- The bytes of the record for a node with given actions. -/
def encode (id : String) (parentIds : List String) (actions : List Action) :
    Except RecordFault (List UInt8) :=
  match Action.writeAll actions with
  | .error reason => .error (RecordFault.refusal reason)
  | .ok written => .ok ((toValue id parentIds written).pretty 0)

end Record

end TraceStore
