import TraceStore.Decimal.Double
import TraceStore.Decimal.Word

/-!
# Numbers in plain text

Texts that are numbers from their first character to their last: integers with an optional sign,
and doubles with an optional point and exponent or one of the names of what is not finite.  Besides,
the digits to base sixteen, of which characters are given by number.
-/

namespace TraceStore.Numeral

/-- A digit to base sixteen. -/
def hexDigit? (character : Char) : Option Nat :=
  if character.isDigit then some (character.toNat - '0'.toNat)
  else if 'a' ≤ character && character ≤ 'f' then some (character.toNat - 'a'.toNat + 10)
  else if 'A' ≤ character && character ≤ 'F' then some (character.toNat - 'A'.toNat + 10)
  else none

/-- A sign at the front, if there is one: whether it is a minus, and what follows. -/
def sign : List Char → Bool × List Char
  | '-' :: rest => (true, rest)
  | '+' :: rest => (false, rest)
  | text => (false, text)

/-- The value of decimal digits. -/
def valueOf (digits : List Char) : Nat :=
  digits.foldl (fun value digit => value * 10 + (digit.toNat - '0'.toNat)) 0

/-- An integer within bounds. -/
def integer? (least greatest : Int) (text : String) : Option Int :=
  let (negative, digits) := sign text.toList
  if digits.isEmpty || !digits.all Char.isDigit then none
  else
    let value : Int := if negative then -valueOf digits else valueOf digits
    if least ≤ value && value ≤ greatest then some value else none

/-- A signed integer of 64 bits. -/
def signed? (text : String) : Option Int := integer? Word.least Word.greatest text

/-- A natural number of 64 bits; no minus is allowed. -/
def natural? (text : String) : Option Nat :=
  if text.toList.head? = some '-' then none
  else (integer? 0 (Word.size - 1) text).map Int.toNat

/-- The exponent of a double, if the text is one. -/
def exponent? : List Char → Option Int
  | [] => some 0
  | mark :: rest =>
      let (negative, digits) := sign rest
      if (mark = 'e' || mark = 'E') && !digits.isEmpty && digits.all Char.isDigit then
        some (if negative then -valueOf digits else valueOf digits)
      else none

/-- A double without sign, in digits. -/
def unsigned? (negative : Bool) (text : List Char) : Option Double :=
  let whole := text.takeWhile Char.isDigit
  let rest := text.drop whole.length
  let fraction := match rest with
    | '.' :: rest => rest.takeWhile Char.isDigit
    | _ => []
  let rest := match rest with
    | '.' :: rest => rest.drop fraction.length
    | rest => rest
  if whole.isEmpty && fraction.isEmpty then none
  else
    (exponent? rest).map fun exponent =>
      Double.ofScientific negative (valueOf (whole ++ fraction)) (exponent - fraction.length)

/-- A double. -/
def double? (text : String) : Option Double :=
  let (negative, rest) := sign text.toList
  let name := String.ofList (rest.map Char.toLower)
  if name = "inf" || name = "infinity" then some (.infinite negative)
  else if name = "nan" then some .nan
  else unsigned? negative rest

end TraceStore.Numeral
