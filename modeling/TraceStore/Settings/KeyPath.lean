import TraceStore.Decimal.Numeral

/-!
# Paths of keys

A setting is addressed by a path: a name, and then names behind points or numbers in brackets.
Names consist of ASCII letters and digits, blanks, underscores and hyphens; a text with anything
else is no path.
-/

namespace TraceStore

/-- A step of a path below its first name. -/
inductive KeyStep where
  | child (name : String)
  /-- An element by its position; negative positions count from the end. -/
  | element (position : Int)
  deriving Repr, DecidableEq

/-- The path of a setting. -/
structure KeyPath where
  first : String
  steps : List KeyStep := []
  deriving Repr, DecidableEq

namespace KeyPath

/-- Whether a character may stand in a name. -/
def isNamePart (character : Char) : Bool :=
  character.isAlphanum || character = ' ' || character = '_' || character = '-'

/-- A name at the front of a text. -/
def readName (text : List Char) : Option (String × List Char) :=
  let name := text.takeWhile isNamePart
  if name.isEmpty then none else some (String.ofList name, text.dropWhile isNamePart)

/-- Whether a character is passed over around a number. -/
def isGap (character : Char) : Bool := character = ' ' || character = '\t'

/-- A number in brackets, behind the opening one. -/
def readPosition (text : List Char) : Option (Int × List Char) :=
  let text := text.dropWhile isGap
  let negative := text.head? = some '-'
  let text := if negative then text.drop 1 else text
  let digits := text.takeWhile Char.isDigit
  let rest := (text.dropWhile Char.isDigit).dropWhile isGap
  match rest with
  | ']' :: rest =>
      (Numeral.signed? (String.ofList (if negative then '-' :: digits else digits))).map (·, rest)
  | _ => none

/-- The steps behind the first name, up to the end of the text.  Every step consumes. -/
def readSteps : (rounds : Nat) → List Char → Option (List KeyStep)
  | _, [] => some []
  | 0, _ => none
  | rounds + 1, '.' :: rest => do
      let (name, rest) ← readName rest
      return .child name :: (← readSteps rounds rest)
  | rounds + 1, '[' :: rest => do
      let (position, rest) ← readPosition rest
      return .element position :: (← readSteps rounds rest)
  | _, _ => none

/-- The path that a text describes. -/
def ofText? (text : String) : Option KeyPath := do
  let (first, rest) ← readName text.toList
  return ⟨first, ← readSteps rest.length rest⟩

end KeyPath

end TraceStore
