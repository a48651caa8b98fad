import TraceStore.Toml.Lexeme

/-!
# Dates and times

A date, a time of day, or a date with a time and perhaps the distance from the universal time; each
is read into its standard form.  In a document a moment stands where a value stands, and what does
not belong to it is left for the next reader.  A text may also be a moment as a whole: then nothing
may be left, the hour 24 counts, and the minutes of a distance may be any two digits as long as the
distance is within a day.
-/

namespace TraceStore.Toml

/-- A number of a fixed count of digits. -/
def fixedDigits (count : Nat) : Reader Nat := fun text =>
  let digits := text.take count
  if digits.length = count && digits.all Char.isDigit then
    some (valueOf 10 digits, text.drop count)
  else none

/-- A number of two digits within bounds. -/
def twoDigits (least greatest : Nat) : Reader Nat := fun text => do
  let (value, rest) ← fixedDigits 2 text
  guard (least ≤ value && value ≤ greatest)
  return (value, rest)

/-- How many days a month has. -/
def daysOf (year month : Nat) : Nat :=
  let leap := year % 4 = 0 ∧ (year % 100 ≠ 0 ∨ year % 400 = 0)
  if month = 2 then (if leap then 29 else 28)
  else if month = 4 || month = 6 || month = 9 || month = 11 then 30
  else 31

/-- A number with zeros in front, up to a width. -/
def padded (width value : Nat) : String :=
  let digits := Nat.toDigits 10 value
  String.ofList (List.replicate (width - digits.length) '0' ++ digits)

/-- A date of the calendar. -/
def readDate : Reader String := fun text => do
  let (year, rest) ← fixedDigits 4 text
  let (_, rest) ← expect '-' rest
  let (month, rest) ← twoDigits 1 12 rest
  let (_, rest) ← expect '-' rest
  let (day, rest) ← twoDigits 1 (daysOf year month) rest
  return (padded 4 year ++ "-" ++ padded 2 month ++ "-" ++ padded 2 day, rest)

/-- The part of a second behind the point, with the nine digits that count and no trailing zeros. -/
def readSecondFraction : Reader String
  | '.' :: rest =>
      let digits := rest.takeWhile Char.isDigit
      if digits.isEmpty then none
      else
        let kept := ((digits.take 9).reverse.dropWhile (· = '0')).reverse
        some (if kept.isEmpty then "" else "." ++ String.ofList kept, rest.drop digits.length)
  | _ => none

/-- A time of day. -/
def readTime (lastHour : Nat) : Reader String := fun text => do
  let (hour, rest) ← twoDigits 0 lastHour text
  let (_, rest) ← expect ':' rest
  let (minute, rest) ← twoDigits 0 59 rest
  let (_, rest) ← expect ':' rest
  let (second, rest) ← twoDigits 0 60 rest
  let (fraction, rest) := (readSecondFraction rest).getD ("", rest)
  return (padded 2 hour ++ ":" ++ padded 2 minute ++ ":" ++ padded 2 second ++ fraction, rest)

/-- A distance of minutes in its standard form, as hours and minutes. -/
def shownDistance (negative : Bool) (minutes : Nat) : String :=
  (if negative && 0 < minutes then "-" else "+") ++ padded 2 (minutes / 60) ++ ":" ++
    padded 2 (minutes % 60)

/-- The distance of a time from the universal one. -/
def readDistance (lastHour lastMinute greatest : Nat) : Reader String
  | 'Z' :: rest | 'z' :: rest => some ("Z", rest)
  | sign :: rest => do
      guard (sign = '+' || sign = '-')
      let (hours, rest) ← twoDigits 0 lastHour rest
      let (_, rest) ← expect ':' rest
      let (minutes, rest) ← twoDigits 0 lastMinute rest
      guard (hours * 60 + minutes ≤ greatest)
      return (shownDistance (sign = '-') (hours * 60 + minutes), rest)
  | [] => none

/-- Whether a character stands between a date and a time. -/
def isTimeMark (character : Char) : Bool :=
  character = 'T' || character = 't' || character = ' '

/-- A moment at the front of a text, in the standard form. -/
def readMoment : Reader String := fun text =>
  match readDate text with
  | none => readTime 23 text
  | some (date, rest) =>
      let time? := match rest with
        | mark :: after => if isTimeMark mark then readTime 23 after else none
        | [] => none
      match time? with
      | none => some (date, rest)
      | some (time, rest) =>
          let (distance, rest) := (readDistance 23 59 1440 rest).getD ("", rest)
          some (date ++ "T" ++ time ++ distance, rest)

/-- A text up to its end: what a reader makes of all of it. -/
def whole (reader : Reader String) (text : List Char) : Option String :=
  match reader text with
  | some (value, []) => some value
  | _ => none

/-- The standard form of a text that is a moment as a whole.  A text whose third character is a
colon is a time of day. -/
def momentOf? (text : String) : Option String :=
  let text := text.toList
  if text[2]? = some ':' then whole (readTime 24) text
  else do
    let (date, rest) ← readDate text
    match rest with
    | [] => return date
    | mark :: rest => do
        guard (isTimeMark mark)
        let (time, rest) ← readTime 24 rest
        if rest.isEmpty then return date ++ "T" ++ time
        else return date ++ "T" ++ time ++ (← whole (readDistance 99 99 1440) rest)

/-! ## Tables that stand for moments -/

/-- The key that makes a table stand for a moment, when it is the first one of the table. -/
def momentKey : String := "$__toml_private_datetime"

mutual

/-- A value in which moments take the place of the tables that stand for them.  Such a table has
the moment as a text under its first key; what follows that key does not count. -/
def settle : Value → Option Value
  | .list elements => (settleList elements).map .list
  | .table origin members => settleTable origin members
  | .tables all => (settleTables all).map .list
  | value => some value

/-- The values of a list, settled. -/
def settleList : List Value → Option (List Value)
  | [] => some []
  | value :: others => do return (← settle value) :: (← settleList others)

/-- A table, settled. -/
def settleTable (origin : Origin) : List (String × Value) → Option Value
  | [] => some (.table origin [])
  | (key, value) :: others =>
      if key = momentKey then
        match value with
        | .text text => (momentOf? text).map .moment
        | _ => none
      else do return .table origin ((key, ← settle value) :: (← settleMembers others))

/-- The members of a table behind the first one, settled. -/
def settleMembers : List (String × Value) → Option (List (String × Value))
  | [] => some []
  | (key, value) :: others => do return (key, ← settle value) :: (← settleMembers others)

/-- The tables under one header, settled. -/
def settleTables : List (List (String × Value)) → Option (List Value)
  | [] => some []
  | members :: others => do return (← settleTable .header members) :: (← settleTables others)

end

end TraceStore.Toml
