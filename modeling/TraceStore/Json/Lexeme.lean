import TraceStore.Decimal.Word
import TraceStore.Json.Fault

/-!
# Words, strings and numbers

The smallest parts of a document.  Every reader takes the unread bytes and gives back what it read
together with the bytes left, or the fault at which it stopped.

Strings are read as bytes first: escapes are replaced by the UTF-8 form of what they stand for, and
only the closed string has to be well formed.  `readString_shorter` and its companions say that
reading consumes, which is what the loops over members and elements rest on.
-/

namespace TraceStore.Json

/-! ## Bytes with a meaning -/

/-- The quotation mark. -/
abbrev quote : UInt8 := 0x22

/-- The backslash. -/
abbrev backslash : UInt8 := 0x5C

/-- The comma between elements or members. -/
abbrev comma : UInt8 := 0x2C

/-- The colon between a key and its value. -/
abbrev colon : UInt8 := 0x3A

/-- The bracket that opens a list. -/
abbrev openBracket : UInt8 := 0x5B

/-- The bracket that closes a list. -/
abbrev closeBracket : UInt8 := 0x5D

/-- The brace that opens an object. -/
abbrev openBrace : UInt8 := 0x7B

/-- The brace that closes an object. -/
abbrev closeBrace : UInt8 := 0x7D

/-- The minus sign. -/
abbrev minus : UInt8 := 0x2D

/-- The plus sign. -/
abbrev plus : UInt8 := 0x2B

/-- The point in front of a fraction. -/
abbrev point : UInt8 := 0x2E

/-- The digit zero. -/
abbrev digitZero : UInt8 := 0x30

/-- Space, tab, line feed and carriage return may stand between any two parts. -/
def isBlank (byte : UInt8) : Bool :=
  byte == 0x20 || byte == 0x0A || byte == 0x09 || byte == 0x0D

/-- Drops blanks. -/
def skipBlank (input : Input) : Input := input.dropWhile isBlank

theorem skipBlank_length_le (input : Input) : (skipBlank input).length ≤ input.length :=
  (List.dropWhile_suffix isBlank).length_le

/-- Reads a given word, byte by byte. -/
def readWord : (word : List UInt8) → Input → Except Fault Input
  | [], input => .ok input
  | _ :: _, [] => .error (.here .endInValue [])
  | expected :: word, byte :: rest =>
      if byte == expected then readWord word rest else .error (.here .noWord rest)

/-- The word that a byte opens: the truth value it stands for, none for `null`, and the bytes it
goes on with. -/
def word? (byte : UInt8) : Option (Option Bool × List UInt8) :=
  if byte == 0x6E then some (none, [0x75, 0x6C, 0x6C])
  else if byte == 0x74 then some (some true, [0x72, 0x75, 0x65])
  else if byte == 0x66 then some (some false, [0x61, 0x6C, 0x73, 0x65])
  else none

/-! ## Escapes -/

/-- The value of a hexadecimal digit. -/
def hexDigit? (byte : UInt8) : Option Nat :=
  if 0x30 ≤ byte && byte ≤ 0x39 then some (byte.toNat - 0x30)
  else if 0x41 ≤ byte && byte ≤ 0x46 then some (byte.toNat - 0x41 + 10)
  else if 0x61 ≤ byte && byte ≤ 0x66 then some (byte.toNat - 0x61 + 10)
  else none

/-- The value of four hexadecimal digits. -/
def hexUnit? (first second third fourth : UInt8) : Option Nat := do
  let a ← hexDigit? first
  let b ← hexDigit? second
  let c ← hexDigit? third
  let d ← hexDigit? fourth
  return ((a * 16 + b) * 16 + c) * 16 + d

/-- Reads the four digits of a hexadecimal escape.  All four are consumed before they are looked
at. -/
def readHexUnit : Input → Except Fault (Nat × Input)
  | first :: second :: third :: fourth :: rest =>
      match hexUnit? first second third fourth with
      | some unit => .ok (unit, rest)
      | none => .error (.here .badEscape rest)
  | _ => .error (.here .endInString [])

/-- Units that may only stand in front of a trailing one. -/
def isLeading (unit : Nat) : Bool := 0xD800 ≤ unit && unit ≤ 0xDBFF

/-- Units that may only follow a leading one. -/
def isTrailing (unit : Nat) : Bool := 0xDC00 ≤ unit && unit ≤ 0xDFFF

/-- The UTF-8 form of a code point that is no surrogate. -/
def utf8 (codePoint : Nat) : List UInt8 := String.utf8EncodeChar (Char.ofNat codePoint)

/-- Reads the second half of a pair of units; the escape must follow at once. -/
def readTrailing (leading : Nat) : Input → Except Fault (List UInt8 × Input)
  | [] => .error (.here .endInString [])
  | byte :: rest =>
      if byte != backslash then .error (.here .endOfHexEscape rest)
      else
        match rest with
        | [] => .error (.here .endInString [])
        | letter :: rest =>
            if letter != 0x75 then .error (.here .endOfHexEscape rest)
            else
              match readHexUnit rest with
              | .error fault => .error fault
              | .ok (trailing, rest) =>
                  if isTrailing trailing then
                    .ok (utf8 (0x10000 + (leading - 0xD800) * 0x400 + (trailing - 0xDC00)), rest)
                  else .error (.here .loneSurrogate rest)

/-- Reads what follows the `u` of an escape. -/
def readUnicode (input : Input) : Except Fault (List UInt8 × Input) :=
  match readHexUnit input with
  | .error fault => .error fault
  | .ok (unit, rest) =>
      if isTrailing unit then .error (.here .loneSurrogate rest)
      else if isLeading unit then readTrailing unit rest
      else .ok (utf8 unit, rest)

/-- What the letter of a short escape stands for. -/
def shortEscape? (letter : UInt8) : Option UInt8 :=
  if letter == 0x22 then some 0x22
  else if letter == 0x5C then some 0x5C
  else if letter == 0x2F then some 0x2F
  else if letter == 0x62 then some 0x08
  else if letter == 0x66 then some 0x0C
  else if letter == 0x6E then some 0x0A
  else if letter == 0x72 then some 0x0D
  else if letter == 0x74 then some 0x09
  else none

/-- Reads what follows a backslash. -/
def readEscape : Input → Except Fault (List UInt8 × Input)
  | [] => .error (.here .endInString [])
  | letter :: rest =>
      match shortEscape? letter with
      | some byte => .ok ([byte], rest)
      | none => if letter == 0x75 then readUnicode rest else .error (.here .badEscape rest)

theorem readHexUnit_shorter {input rest : Input} {unit : Nat}
    (read : readHexUnit input = .ok (unit, rest)) : rest.length < input.length := by
  unfold readHexUnit at read
  split at read
  · split at read <;> simp at read
    obtain ⟨-, rfl⟩ := read
    simp; omega
  · simp at read

theorem readTrailing_shorter {leading : Nat} {input rest : Input} {bytes : List UInt8}
    (read : readTrailing leading input = .ok (bytes, rest)) : rest.length < input.length := by
  unfold readTrailing at read
  split at read
  · simp at read
  · split at read
    · simp at read
    · split at read
      · simp at read
      · split at read
        · simp at read
        · split at read
          · simp at read
          · rename_i unit more readUnit
            split at read <;> simp at read
            obtain ⟨-, rfl⟩ := read
            have := readHexUnit_shorter readUnit
            simp; omega

theorem readUnicode_shorter {input rest : Input} {bytes : List UInt8}
    (read : readUnicode input = .ok (bytes, rest)) : rest.length < input.length := by
  unfold readUnicode at read
  split at read
  · simp at read
  · rename_i unit more readUnit
    have := readHexUnit_shorter readUnit
    split at read
    · simp at read
    · split at read
      · have := readTrailing_shorter read
        omega
      · simp at read
        obtain ⟨-, rfl⟩ := read
        omega

theorem readEscape_shorter {input rest : Input} {bytes : List UInt8}
    (read : readEscape input = .ok (bytes, rest)) : rest.length < input.length := by
  unfold readEscape at read
  split at read
  · simp at read
  · split at read
    · simp at read
      obtain ⟨-, rfl⟩ := read
      simp
    · split at read
      · have := readUnicode_shorter read
        simp; omega
      · simp at read

/-! ## Strings -/

/-- Reads the content of a string up to its closing quote, escapes replaced. -/
def readContent : Input → Except Fault (List UInt8 × Input)
  | [] => .error (.here .endInString [])
  | byte :: rest =>
      if byte == quote then .ok ([], rest)
      else if byte == backslash then
        match escape : readEscape rest with
        | .error fault => .error fault
        | .ok (bytes, more) =>
            have := readEscape_shorter escape
            match readContent more with
            | .error fault => .error fault
            | .ok (content, left) => .ok (bytes ++ content, left)
      else if byte < 0x20 then .error (.here .controlCharacter rest)
      else
        match readContent rest with
        | .error fault => .error fault
        | .ok (content, left) => .ok (byte :: content, left)
termination_by input => input.length

/-- Reads a string after its opening quote.  A closed string that is not well formed is refused as
many bytes in front of its end as there are in its content from the first broken character on,
which is that character itself unless escapes stand behind it. -/
def readString (input : Input) : Except Fault (String × Input) :=
  match readContent input with
  | .error fault => .error fault
  | .ok (content, rest) =>
      match Text.ofBytes? content with
      | some text => .ok (text, rest)
      | none =>
          let back := (Text.fromFirstBroken content).length + rest.length
          .error (.here .badUtf8 (input.drop (input.length - back)))

/-- Passes over what follows the backslash of an escape in a string that is not wanted. -/
def skipEscape : Input → Except Fault Input
  | [] => .error (.here .endInString [])
  | letter :: rest =>
      if (shortEscape? letter).isSome then .ok rest
      else if letter == 0x75 then (readHexUnit rest).map Prod.snd
      else .error (.here .badEscape rest)

theorem skipEscape_shorter {input rest : Input} (read : skipEscape input = .ok rest) :
    rest.length < input.length := by
  unfold skipEscape at read
  split at read
  · simp at read
  · split at read
    · simp at read
      simp [read]
    · split at read
      · rename_i more _ _
        cases unit : readHexUnit more with
        | error fault => simp [unit, Except.map] at read
        | ok pair =>
            obtain ⟨value, left⟩ := pair
            simp [unit, Except.map] at read
            subst read
            have := readHexUnit_shorter unit
            simp; omega
      · simp at read

/-- Passes over a string that is not wanted, up to and with its closing quote.  Neither its
encoding nor its surrogates are looked at. -/
def skipString : Input → Except Fault Input
  | [] => .error (.here .endInString [])
  | byte :: rest =>
      if byte == quote then .ok rest
      else if byte == backslash then
        match escape : skipEscape rest with
        | .error fault => .error fault
        | .ok more =>
            have := skipEscape_shorter escape
            skipString more
      else if byte < 0x20 then .error (.here .controlCharacter (byte :: rest))
      else skipString rest
termination_by input => input.length

/-! ## Numbers -/

/-- The digits 0 to 9. -/
def isDigit (byte : UInt8) : Bool := 0x30 ≤ byte && byte ≤ 0x39

/-- The value of a digit. -/
def digitValue (byte : UInt8) : Nat := byte.toNat - 0x30

/-- The digits at the front of the input, and what follows them. -/
def spanDigits (input : Input) : List UInt8 × Input :=
  (input.takeWhile isDigit, input.dropWhile isDigit)

/-- Significant digits are gathered as long as they fit into 64 bits; the others only count.  Gives
the gathered value and how many digits were left out. -/
def gather (start : Nat) (digits : List UInt8) : Nat × Nat :=
  match digits with
  | [] => (start, 0)
  | digit :: rest =>
      let next := start * 10 + digitValue digit
      if next < Word.size then gather next rest else (start, digits.length)

/-- Scales a significand by a power of ten in double precision, through the double nearest to the
power.  Powers below 10⁻³⁰⁸ are reached in steps.  No result if it exceeds the range. -/
def scale (significand : Double) (power : Int) : Option Double :=
  if 0 ≤ power then
    if power ≤ 308 then
      let product := significand.mul (.ofDecimal false 1 power)
      if product.isInfinite then none else some product
    else if significand.isZero then some significand else none
  else if -308 ≤ power then some (significand.div (.ofDecimal false 1 (-power)))
  else if significand.isZero then some significand
  else scale (significand.div (.ofDecimal false 1 308)) (power + 308)
termination_by (-power).toNat

/-- The double with the given sign, digits and power of ten; `rest` is the place for a refusal. -/
def makeDouble (negative : Bool) (digits : Nat) (power : Int) (rest : Input) :
    Except Fault (Number × Input) :=
  match scale (.ofNat digits) power with
  | some value => .ok (.double (if negative then value.neg else value), rest)
  | none => .error (.here .numberOutOfRange rest)

/-- The greatest exponent whose digits are read on; beyond it only the sign matters. -/
def exponentLimit : Nat := 2147483647

/-- Reads the digits of an exponent.  Gives the exponent and the bytes left; no exponent if it
passes the limit, in which case the digits after the one that did so are left. -/
def readExponentDigits (value : Nat) : Input → Option Nat × Input
  | [] => (some value, [])
  | byte :: rest =>
      if isDigit byte then
        let next := value * 10 + digitValue byte
        if exponentLimit < next then (none, rest) else readExponentDigits next rest
      else (some value, byte :: rest)

/-- Reads the sign of an exponent: whether it points down. -/
def readExponentSign : Input → Bool × Input
  | [] => (false, [])
  | byte :: rest =>
      if byte == plus then (false, rest)
      else if byte == minus then (true, rest)
      else (false, byte :: rest)

/-- Reads an exponent after its letter, for the digits and the power gathered so far. -/
def readExponent (negative : Bool) (digits : Nat) (power : Int) (input : Input) :
    Except Fault (Number × Input) :=
  match readExponentSign input with
  | (_, []) => .error (.here .endInValue [])
  | (down, byte :: rest) =>
      if !isDigit byte then .error (.here .badNumber rest)
      else
        match readExponentDigits (digitValue byte) rest with
        | (some exponent, left) =>
            makeDouble negative digits (if down then power - exponent else power + exponent) left
        | (none, left) =>
            if digits != 0 && !down then .error (.here .numberOutOfRange left)
            else .ok (.double (.zero negative), left.dropWhile isDigit)

/-- Whether a byte opens an exponent. -/
def isExponentMark (byte : UInt8) : Bool := byte == 0x65 || byte == 0x45

/-- Reads the fraction of a number after its point, for the digits gathered and the number of
digits left out so far. -/
def readFraction (negative : Bool) (digits leftOut : Nat) (input : Input) :
    Except Fault (Number × Input) :=
  match spanDigits input with
  | ([], []) => .error (.here .endInValue [])
  | ([], left) => .error (.next .badNumber left)
  | (fraction, left) =>
      let (significand, ignored) := gather digits fraction
      let power : Int := leftOut - ((fraction.length - ignored : Nat) : Int)
      match left with
      | byte :: rest =>
          if isExponentMark byte then readExponent negative significand power rest
          else makeDouble negative significand power left
      | [] => makeDouble negative significand power left

/-- A number without fraction and exponent.  Integers that do not fit, and a negative zero, are
doubles. -/
def wholeNumber (negative : Bool) (digits leftOut : Nat) (rest : Input) :
    Except Fault (Number × Input) :=
  if leftOut != 0 then makeDouble negative digits leftOut rest
  else if !negative then .ok (.integer digits, rest)
  else if digits != 0 && digits ≤ Word.half then .ok (.integer (-digits), rest)
  else .ok (.double (Double.ofNat digits).neg, rest)

/-- Reads what follows the whole digits of a number. -/
def readAfterWhole (negative : Bool) (digits leftOut : Nat) (input : Input) :
    Except Fault (Number × Input) :=
  match input with
  | byte :: rest =>
      if byte == point then readFraction negative digits leftOut rest
      else if isExponentMark byte then readExponent negative digits leftOut rest
      else wholeNumber negative digits leftOut input
  | [] => wholeNumber negative digits leftOut input

/-- Reads a number after its sign. -/
def readMagnitude (negative : Bool) : Input → Except Fault (Number × Input)
  | [] => .error (.here .endInValue [])
  | byte :: rest =>
      if byte == digitZero then
        match rest with
        | after :: _ =>
            if isDigit after then .error (.next .badNumber rest)
            else readAfterWhole negative 0 0 rest
        | [] => readAfterWhole negative 0 0 rest
      else if isDigit byte then
        let (more, left) := spanDigits rest
        let (digits, leftOut) := gather 0 (byte :: more)
        readAfterWhole negative digits leftOut left
      else .error (.here .badNumber rest)

/-- Reads a number that starts with a minus sign or a digit. -/
def readNumber : Input → Except Fault (Number × Input)
  | [] => .error (.here .endInValue [])
  | byte :: rest =>
      if byte == minus then readMagnitude true rest else readMagnitude false (byte :: rest)

/-- Passes over an exponent that is not wanted, after its letter. -/
def skipExponent (input : Input) : Except Fault Input :=
  match readExponentSign input with
  | (_, []) => .error (.here .badNumber [])
  | (_, byte :: rest) =>
      if isDigit byte then .ok (rest.dropWhile isDigit) else .error (.here .badNumber rest)

/-- Passes over what may follow the whole digits and the fraction of a number. -/
def skipAfterFraction (input : Input) : Except Fault Input :=
  match input with
  | byte :: rest => if isExponentMark byte then skipExponent rest else .ok input
  | [] => .ok []

/-- Passes over what may follow the whole digits of a number. -/
def skipAfterWhole (input : Input) : Except Fault Input :=
  match input with
  | byte :: rest =>
      if byte == point then
        match spanDigits rest with
        | ([], left) => .error (.next .badNumber left)
        | (_, left) => skipAfterFraction left
      else skipAfterFraction input
  | [] => .ok []

/-- Passes over a number that is not wanted, after its sign. -/
def skipMagnitude : Input → Except Fault Input
  | [] => .error (.here .badNumber [])
  | byte :: rest =>
      if byte == digitZero then
        match rest with
        | after :: _ =>
            if isDigit after then .error (.next .badNumber rest) else skipAfterWhole rest
        | [] => .ok []
      else if isDigit byte then skipAfterWhole (rest.dropWhile isDigit)
      else .error (.here .badNumber rest)

end TraceStore.Json
