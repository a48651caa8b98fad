import TraceStore.Decimal.Numeral
import TraceStore.Toml.Value

/-!
# TOML lexemes

Blanks, comments, keys, strings and numbers.  A reader takes the lexeme from the front of a text and
gives it with the rest, or refuses.
-/

namespace TraceStore.Toml

/-- Readers of something at the front of a text. -/
abbrev Reader (α : Type) := List Char → Option (α × List Char)

/-! ## Blanks and comments -/

/-- Whether a character is a blank within a line. -/
def isBlank (character : Char) : Bool := character = ' ' || character = '\t'

/-- What is left behind blanks. -/
def skipBlanks (text : List Char) : List Char := text.dropWhile isBlank

/-- What is left behind a line break. -/
def newline? : List Char → Option (List Char)
  | '\n' :: rest => some rest
  | '\r' :: '\n' :: rest => some rest
  | _ => none

/-- Whether a character may stand in a comment: any but the control characters, apart from the
tab. -/
def isPrintable (character : Char) : Bool :=
  character = '\t' || (0x20 ≤ character.toNat && character.toNat ≠ 0x7F)

/-- What is left behind a comment, if there is one. -/
def skipComment : List Char → List Char
  | '#' :: rest => rest.dropWhile isPrintable
  | text => text

/-- What is left behind the end of a line, where blanks and a comment may stand. -/
def endLine? (text : List Char) : Option (List Char) :=
  match skipComment (skipBlanks text) with
  | [] => some []
  | rest => newline? rest

/-- What is left behind blanks, line breaks and comments with their line breaks.  Every round
consumes, so the length bounds the rounds. -/
def skipGaps : (rounds : Nat) → List Char → List Char
  | 0, text => text
  | rounds + 1, text =>
      match skipBlanks text with
      | [] => []
      | rest =>
          match newline? (skipComment rest) with
          | some after => skipGaps rounds after
          | none => rest

/-! ## Strings -/

/-- A character given by its number in a fixed count of digits. -/
def codePoint (count : Nat) : Reader Char := fun text => do
  let digits ← (text.take count).mapM Numeral.hexDigit?
  guard (digits.length = count)
  let value := digits.foldl (fun value digit => value * 16 + digit) 0
  guard (value < 0xD800 || (0xE000 ≤ value && value < 0x110000))
  return (Char.ofNat value, text.drop count)

/-- The character that stands behind a backslash. -/
def escape : Reader Char
  | 'b' :: rest => some ('\x08', rest)
  | 'f' :: rest => some ('\x0c', rest)
  | 'n' :: rest => some ('\n', rest)
  | 'r' :: rest => some ('\r', rest)
  | 't' :: rest => some ('\t', rest)
  | '"' :: rest => some ('"', rest)
  | '\\' :: rest => some ('\\', rest)
  | 'u' :: rest => codePoint 4 rest
  | 'U' :: rest => codePoint 8 rest
  | _ => none

/-- The rest of a string in double quotes on one line. -/
def basicString : (rounds : Nat) → (seen : List Char) → Reader String
  | 0, _, _ => none
  | rounds + 1, seen, text =>
      match text with
      | [] => none
      | '"' :: rest => some (String.ofList seen.reverse, rest)
      | '\\' :: rest =>
          match escape rest with
          | none => none
          | some (character, rest) => basicString rounds (character :: seen) rest
      | character :: rest =>
          if isPrintable character then basicString rounds (character :: seen) rest else none

/-- The rest of a string in single quotes on one line. -/
def literalString : (seen : List Char) → Reader String
  | _, [] => none
  | seen, character :: rest =>
      if character = '\'' then some (String.ofList seen.reverse, rest)
      else if isPrintable character then literalString (character :: seen) rest
      else none

/-- What is left behind the blanks and line breaks that a backslash at the end of a line hides, if
it stands there. -/
def hiddenBreak? (text : List Char) : Option (List Char) :=
  (newline? (skipBlanks text)).map (skipSpace (text.length + 1))
where
  /-- What is left behind blanks and line breaks. -/
  skipSpace : (rounds : Nat) → List Char → List Char
    | 0, text => text
    | rounds + 1, text =>
        match newline? (skipBlanks text) with
        | some rest => skipSpace rounds rest
        | none => skipBlanks text

/-- The rest of a string over several lines.  `mark` closes it when it stands there three times; up
to two more in front of that belong to the string.  Line breaks are single line feeds. -/
def longString (mark : Char) (escapes : Bool) : (rounds : Nat) → (seen : List Char) → Reader String
  | 0, _, _ => none
  | rounds + 1, seen, text =>
      match text with
      | [] => none
      | character :: rest =>
          if character = mark then
            let marks := (text.takeWhile (· = mark)).length
            if marks < 3 then longString mark escapes rounds (mark :: seen) rest
            else
              let kept := min (marks - 3) 2
              some (String.ofList (seen.reverse ++ List.replicate kept mark), text.drop (kept + 3))
          else if escapes && character = '\\' then
            match hiddenBreak? rest with
            | some rest => longString mark escapes rounds seen rest
            | none =>
                match escape rest with
                | none => none
                | some (character, rest) =>
                    longString mark escapes rounds (character :: seen) rest
          else
            match newline? text with
            | some rest => longString mark escapes rounds ('\n' :: seen) rest
            | none =>
                if isPrintable character then
                  longString mark escapes rounds (character :: seen) rest
                else none

/-- Opens a string over several lines; a line break right behind the opening is dropped. -/
def openLong (mark : Char) (escapes : Bool) : Reader String := fun text =>
  longString mark escapes (text.length + 1) [] ((newline? text).getD text)

/-- A string of any kind. -/
def readString : Reader String
  | '"' :: '"' :: '"' :: rest => openLong '"' true rest
  | '\'' :: '\'' :: '\'' :: rest => openLong '\'' false rest
  | '"' :: rest => basicString (rest.length + 1) [] rest
  | '\'' :: rest => literalString [] rest
  | _ => none

/-! ## Keys -/

/-- Whether a character may stand in a key without quotes. -/
def isBare (character : Char) : Bool :=
  character.isAlphanum || character = '_' || character = '-'

/-- One part of a key. -/
def readKeyPart : Reader String
  | '"' :: rest => basicString (rest.length + 1) [] rest
  | '\'' :: rest => literalString [] rest
  | text =>
      let bare := text.takeWhile isBare
      if bare.isEmpty then none else some (String.ofList bare, text.dropWhile isBare)

/-- The parts of a dotted key, with blanks around each. -/
def readKeyParts : (rounds : Nat) → Reader (List String)
  | 0, _ => none
  | rounds + 1, text =>
      match readKeyPart (skipBlanks text) with
      | none => none
      | some (part, rest) =>
          match skipBlanks rest with
          | '.' :: rest => (readKeyParts rounds rest).map fun (parts, rest) => (part :: parts, rest)
          | rest => some ([part], rest)

/-- How deep keys and brackets may nest. -/
def nestingLimit : Nat := 79

/-- A dotted key: the path to a table, and the key in it. -/
def readKey : Reader (List String × String) := fun text => do
  let (parts, rest) ← readKeyParts (text.length + 1) text
  guard (parts.length ≤ nestingLimit)
  let last ← parts.getLast?
  return ((parts.dropLast, last), rest)

/-! ## Numbers -/

/-- Digits of a base, with single underscores between them. -/
def digitsOf (isDigit : Char → Bool) : Reader (List Char) := fun text =>
  let run := text.takeWhile fun character => isDigit character || character = '_'
  let rest := text.drop run.length
  let digits := run.filter (· ≠ '_')
  if run.head?.any isDigit && run.getLast?.any isDigit && !hasDoubleMark run then
    some (digits, rest)
  else none
where
  /-- Whether two underscores stand next to each other. -/
  hasDoubleMark : List Char → Bool
    | '_' :: '_' :: _ => true
    | _ :: rest => hasDoubleMark rest
    | [] => false

/-- The value of digits of a base. -/
def valueOf (base : Nat) (digits : List Char) : Nat :=
  digits.foldl (fun value digit => value * base + (Numeral.hexDigit? digit).getD 0) 0

/-- A sign, if there is one: whether it is a minus. -/
def readSign : List Char → Bool × List Char
  | '-' :: rest => (true, rest)
  | '+' :: rest => (false, rest)
  | text => (false, text)

/-- Decimal digits without a leading zero. -/
def readWhole : Reader (List Char)
  | '0' :: rest => some (['0'], rest)
  | text => digitsOf Char.isDigit text

/-- The digits behind a point, if there is one. -/
def readFraction : Reader (Option (List Char))
  | '.' :: rest => (digitsOf Char.isDigit rest).map fun (digits, rest) => (some digits, rest)
  | text => some (none, text)

/-- An exponent, if there is one. -/
def readExponent : Reader (Option Int)
  | character :: rest =>
      if character = 'e' || character = 'E' then
        let (negative, rest) := readSign rest
        (digitsOf Char.isDigit rest).map fun (digits, rest) =>
          let value : Int := valueOf 10 digits
          (some (if negative then -value else value), rest)
      else some (none, character :: rest)
  | [] => some (none, [])

/-- A number with a fraction or an exponent.  One that is too large is refused unless it is
negative. -/
def readReal : Reader Double := fun text => do
  let (negative, rest) := readSign text
  let (whole, rest) ← readWhole rest
  let (fraction, rest) ← readFraction rest
  let (exponent, rest) ← readExponent rest
  guard (fraction.isSome || exponent.isSome)
  let fraction := fraction.getD []
  let value := Double.ofScientific negative (valueOf 10 (whole ++ fraction))
    (exponent.getD 0 - fraction.length)
  guard (value ≠ .infinite false)
  return (value, rest)

/-- The names of numbers that are not finite. -/
def readNamedReal : Reader Double := fun text =>
  let (negative, rest) := readSign text
  match rest with
  | 'i' :: 'n' :: 'f' :: rest => some (.infinite negative, rest)
  | 'n' :: 'a' :: 'n' :: rest => some (.nan, rest)
  | _ => none

/-- Digits of a base as a number. -/
def readBased (base : Nat) (isDigit : Char → Bool) : Reader Int := fun text =>
  (digitsOf isDigit text).map fun (digits, rest) => ((valueOf base digits : Nat), rest)

/-- Decimal digits with an optional sign as a number. -/
def readSigned : Reader Int := fun text =>
  let (negative, rest) := readSign text
  (readWhole rest).map fun (digits, rest) =>
    let value : Int := valueOf 10 digits
    (if negative then -value else value, rest)

/-- An integer in any of its notations. -/
def readAnyInteger : Reader Int
  | '0' :: 'x' :: rest => readBased 16 (fun digit => (Numeral.hexDigit? digit).isSome) rest
  | '0' :: 'o' :: rest => readBased 8 (fun digit => '0' ≤ digit && digit ≤ '7') rest
  | '0' :: 'b' :: rest => readBased 2 (fun digit => digit = '0' || digit = '1') rest
  | text => readSigned text

/-- An integer of 64 bits. -/
def readInteger : Reader Int := fun text =>
  (readAnyInteger text).filter fun (value, _) => Word.holds value

/-- A given character at the front. -/
def expect (character : Char) : Reader Unit
  | [] => none
  | other :: rest => if other = character then some ((), rest) else none

end TraceStore.Toml
