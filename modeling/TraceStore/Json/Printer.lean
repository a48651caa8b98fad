import TraceStore.Json.Value

/-!
# Writing values

Values are written as UTF-8 bytes in two layouts.  `Value.pretty` is the layout of records: every
element and member on a line of its own, two spaces deeper than its bracket; an empty list or
object stays on one line.  `Value.compact` has no blanks at all.

Strings escape the quotation mark, the backslash and the control characters, the latter by letter
where there is one; every other character is written as it is.
-/

namespace TraceStore.Json

/-- A lower case hexadecimal digit. -/
def hexDigit (value : Nat) : UInt8 :=
  if value < 10 then UInt8.ofNat (0x30 + value) else UInt8.ofNat (0x61 + (value - 10))

/-- How one character is written between quotation marks. -/
def escapeChar (character : Char) : List UInt8 :=
  if character = '"' then [backslash, quote]
  else if character = '\\' then [backslash, backslash]
  else if character.toNat = 0x08 then [backslash, 0x62]
  else if character.toNat = 0x0C then [backslash, 0x66]
  else if character.toNat = 0x0A then [backslash, 0x6E]
  else if character.toNat = 0x0D then [backslash, 0x72]
  else if character.toNat = 0x09 then [backslash, 0x74]
  else if character.toNat < 0x20 then
    [backslash, 0x75, digitZero, digitZero, hexDigit (character.toNat / 16),
      hexDigit (character.toNat % 16)]
  else String.utf8EncodeChar character

/-- A text between quotation marks. -/
def writeString (text : String) : List UInt8 :=
  quote :: text.toList.flatMap escapeChar ++ [quote]

/-- The decimal digits of a natural number. -/
def writeNatural (value : Nat) : List UInt8 :=
  (Nat.toDigits 10 value).map fun digit => UInt8.ofNat digit.toNat

/-- An integer in decimal. -/
def writeInteger : Int → List UInt8
  | .ofNat value => writeNatural value
  | .negSucc value => minus :: writeNatural (value + 1)

/-- A number: integers in decimal, doubles with the fewest digits that read back. -/
def writeNumber : Number → List UInt8
  | .integer value => writeInteger value
  | .double value => Text.bytes (doubleLayout.text value)

/-- A word without brackets or quotes. -/
def writeWord : Option Bool → List UInt8
  | none => [0x6E, 0x75, 0x6C, 0x6C]
  | some true => [0x74, 0x72, 0x75, 0x65]
  | some false => [0x66, 0x61, 0x6C, 0x73, 0x65]

namespace Value

mutual

/-- A value without blanks. -/
def compact : Value → List UInt8
  | .null => writeWord none
  | .boolean value => writeWord (some value)
  | .number value => writeNumber value
  | .text value => writeString value
  | .list elements => openBracket :: compactElements elements ++ [closeBracket]
  | .object members => openBrace :: compactMembers members ++ [closeBrace]

/-- The elements of a list without blanks. -/
def compactElements : List Value → List UInt8
  | [] => []
  | [element] => element.compact
  | element :: others => element.compact ++ comma :: compactElements others

/-- The members of an object without blanks. -/
def compactMembers : List (String × Value) → List UInt8
  | [] => []
  | [(key, value)] => writeString key ++ colon :: value.compact
  | (key, value) :: others =>
      writeString key ++ colon :: value.compact ++ comma :: compactMembers others

end

/-- A line feed and the blanks that lead to a level of nesting. -/
def newLine (level : Nat) : List UInt8 := 0x0A :: List.replicate (2 * level) 0x20

mutual

/-- A value with one part a line, for a bracket at the given level of nesting. -/
def pretty (level : Nat) : Value → List UInt8
  | .null => writeWord none
  | .boolean value => writeWord (some value)
  | .number value => writeNumber value
  | .text value => writeString value
  | .list [] => [openBracket, closeBracket]
  | .list (element :: others) =>
      openBracket :: prettyElements (level + 1) (element :: others) ++ newLine level ++
        [closeBracket]
  | .object [] => [openBrace, closeBrace]
  | .object (member :: others) =>
      openBrace :: prettyMembers (level + 1) (member :: others) ++ newLine level ++ [closeBrace]

/-- The elements of a list, each on its line. -/
def prettyElements (level : Nat) : List Value → List UInt8
  | [] => []
  | [element] => newLine level ++ element.pretty level
  | element :: others =>
      newLine level ++ element.pretty level ++ comma :: prettyElements level others

/-- The members of an object, each on its line. -/
def prettyMembers (level : Nat) : List (String × Value) → List UInt8
  | [] => []
  | [(key, value)] => newLine level ++ writeString key ++ colon :: 0x20 :: value.pretty level
  | (key, value) :: others =>
      newLine level ++ writeString key ++ colon :: 0x20 :: value.pretty level ++
        comma :: prettyMembers level others

end

end Value

end TraceStore.Json
