import TraceStore.Text.Hidden

/-!
# Quoted text

Messages and log lines show an id or a path between double quotes in a form that is unambiguous
on one line: quote, backslash and the usual control characters are escaped by letter, and every
other character without a visible form is escaped by number.
-/

namespace TraceStore.Text

/-- A code point in lower case hexadecimal, without leading zeros. -/
def hexadecimal (number : Nat) : String := String.ofList (Nat.toDigits 16 number)

/-- How one character is shown between double quotes. -/
def quoteChar (character : Char) : String :=
  if character = '"' then "\\\""
  else if character = '\\' then "\\\\"
  else if character = '\n' then "\\n"
  else if character = '\r' then "\\r"
  else if character = '\t' then "\\t"
  else if character.toNat = 0 then "\\0"
  else if character.toNat < 0x20 || isHidden character then
    "\\u\x7b" ++ hexadecimal character.toNat ++ "\x7d"
  else character.toString

/-- A text between double quotes. -/
def quoted (text : String) : String :=
  "\"" ++ String.join (text.toList.map quoteChar) ++ "\""

/-- Texts as a bracketed, comma separated list of their quoted forms. -/
def quotedList (texts : List String) : String :=
  "[" ++ ", ".intercalate (texts.map quoted) ++ "]"

end TraceStore.Text
