import TraceStore.Text.Utf8
import TraceStore.Text.Quoted
import TraceStore.Decimal.Shortest

/-!
# Why a document is refused, and where

A reader that refuses its input says why (`Json.Cause`) and at which point (`Json.Fault`).  The
point is given by the bytes that were still unread, so that readers need not count; lines and
columns are computed once, from the whole document, by `Json.Position.reached`.

Two kinds of fault exist.  One found in the syntax is *placed* where it was seen.  One found in the
meaning of a value already read, such as a missing member, is unplaced; it takes the place at which
the reading of the surrounding value ends.
-/

namespace TraceStore.Json

/-- The bytes of a document that are still unread. -/
abbrev Input := List UInt8

/-- A number as documents can hold it: an integer in the range of 64-bit signed or unsigned
integers, or else a double. -/
inductive Number where
  | integer (value : Int)
  | double (value : Double)
  deriving Repr, DecidableEq, Inhabited

/-- What stood where something else was expected. -/
inductive Found where
  | null
  | boolean (value : Bool)
  | number (value : Number)
  | text (value : String)
  | list
  | object
  deriving Repr, DecidableEq

/-- Doubles are shown with the fewest digits that read back, positionally from 10⁻⁵ up to 10¹⁶,
and always with a point or an exponent. -/
def doubleLayout : Double.Layout where
  positionalFrom := some (-5)
  positionalTo := some 15
  integralMark := ".0"
  plusSign := "+"
  infinity := "inf"
  notANumber := "NaN"

/-- A found value as messages name it. -/
def Found.describe : Found → String
  | .null => "null"
  | .boolean value => "boolean `" ++ (if value then "true" else "false") ++ "`"
  | .number (.integer value) => "integer `" ++ toString value ++ "`"
  | .number (.double value) => "floating point `" ++ doubleLayout.text value ++ "`"
  | .text value => "string " ++ Text.quoted value
  | .list => "sequence"
  | .object => "map"

/-- Why a document is refused. -/
inductive Cause where
  | endInValue
  | endInString
  | endInList
  | endInObject
  | noColon
  | noListSeparator
  | noObjectSeparator
  | noWord
  | noValue
  | badEscape
  | badNumber
  | numberOutOfRange
  | badUtf8
  | controlCharacter
  | keyNotString
  | loneSurrogate
  | trailingComma
  | trailingCharacters
  | endOfHexEscape
  | tooDeep
  | wrongType (found : Found) (expected : String)
  | wrongValue (found : Found) (expected : String)
  | wrongLength (length : Nat) (expected : String)
  | unknownVariant (tag : String) (known : List String)
  | missingField (field : String)
  | duplicateField (field : String)
  | refused (reason : String)
  deriving Repr, DecidableEq

/-- The text of a cause. -/
def Cause.message : Cause → String
  | .endInValue => "EOF while parsing a value"
  | .endInString => "EOF while parsing a string"
  | .endInList => "EOF while parsing a list"
  | .endInObject => "EOF while parsing an object"
  | .noColon => "expected `:`"
  | .noListSeparator => "expected `,` or `]`"
  | .noObjectSeparator => "expected `,` or `\x7d`"
  | .noWord => "expected ident"
  | .noValue => "expected value"
  | .badEscape => "invalid escape"
  | .badNumber => "invalid number"
  | .numberOutOfRange => "number out of range"
  | .badUtf8 => "invalid unicode code point"
  | .controlCharacter => "control character (\\u0000-\\u001F) found while parsing a string"
  | .keyNotString => "key must be a string"
  | .loneSurrogate => "lone leading surrogate in hex escape"
  | .trailingComma => "trailing comma"
  | .trailingCharacters => "trailing characters"
  | .endOfHexEscape => "unexpected end of hex escape"
  | .tooDeep => "recursion limit exceeded"
  | .wrongType found expected => "invalid type: " ++ found.describe ++ ", expected " ++ expected
  | .wrongValue found expected => "invalid value: " ++ found.describe ++ ", expected " ++ expected
  | .wrongLength length expected =>
      "invalid length " ++ toString length ++ ", expected " ++ expected
  | .unknownVariant tag known =>
      "unknown variant `" ++ tag ++ "`, expected one of " ++
        ", ".intercalate (known.map fun name => "`" ++ name ++ "`")
  | .missingField field => "missing field `" ++ field ++ "`"
  | .duplicateField field => "duplicate field `" ++ field ++ "`"
  | .refused reason => reason

/-- A refusal together with the bytes that were unread when it arose. -/
structure Fault where
  cause : Cause
  left : Input
  placed : Bool
  deriving Repr, DecidableEq

/-- A fault at the point reached. -/
def Fault.here (cause : Cause) (left : Input) : Fault := ⟨cause, left, true⟩

/-- A fault at the byte that was looked at but not consumed: it counts as consumed. -/
def Fault.next (cause : Cause) (left : Input) : Fault := ⟨cause, left.drop 1, true⟩

/-- A fault of meaning, which takes its place from the surrounding value. -/
def Fault.unplaced (cause : Cause) (left : Input) : Fault := ⟨cause, left, false⟩

/-- Gives an unplaced fault the point reached as its place. -/
def Fault.place (fault : Fault) : Fault := { fault with placed := true }

/-- A place in a document: lines count from one, columns count the bytes consumed on the line. -/
structure Position where
  line : Nat
  column : Nat
  deriving Repr, DecidableEq

/-- The place reached when `left` bytes of a document are unread. -/
def Position.reached (document : Input) (left : Nat) : Position :=
  let consumed := document.take (document.length - left)
  ⟨1 + consumed.count 0x0A, (consumed.reverse.takeWhile (· != 0x0A)).length⟩

/-- The text of a place, as messages end in it. -/
def Position.suffix (position : Position) : String :=
  " at line " ++ toString position.line ++ " column " ++ toString position.column

/-- The full text of a fault in a document. -/
def Fault.message (fault : Fault) (document : Input) : String :=
  fault.cause.message ++ (Position.reached document fault.left.length).suffix

end TraceStore.Json
