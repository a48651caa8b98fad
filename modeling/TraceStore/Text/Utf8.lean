/-!
# Text as bytes

Records, configuration files and directory entries are byte sequences, while ids and action
payloads are texts.  This module relates the two: `Text.bytes` writes a text in UTF-8,
`Text.ofBytes?` reads one back, and `Text.lossy` reads any bytes at all.

A byte sequence is cut into *sequences*: a well-formed one is one character, and a broken one is
the longest beginning of a character that can no longer be completed, or a single stray byte.
Lossy reading keeps the former and writes the replacement character for each of the latter.
-/

namespace TraceStore.Text

/-- The UTF-8 form of a text. -/
def bytes (text : String) : List UInt8 := text.toUTF8.data.toList

/-- The text whose UTF-8 form is `source`, if there is one. -/
def ofBytes? (source : List UInt8) : Option String := String.fromUTF8? ⟨source.toArray⟩

theorem ofBytes?_bytes (text : String) : ofBytes? (bytes text) = some text := by
  have valid : (⟨(bytes text).toArray⟩ : ByteArray) = text.toUTF8 := rfl
  simp only [ofBytes?, valid, String.fromUTF8?]
  rw [dif_pos (show text.toUTF8.IsValidUTF8 from text.isValidUTF8)]
  rfl

/-- How many bytes stand at the front of a byte sequence for one character, and whether they
really spell one. -/
structure Sequence where
  sound : Bool
  width : Nat
  deriving Repr, DecidableEq

/-- Second and later bytes of a character. -/
def isContinuation (byte : UInt8) : Bool := 0x80 ≤ byte && byte ≤ 0xBF

/-- The range of second bytes that a lead byte of a three or four byte character admits; it
excludes overlong forms, surrogates and values past the last code point. -/
def admitsSecond (lead second : UInt8) : Bool :=
  if lead == 0xE0 then 0xA0 ≤ second && second ≤ 0xBF
  else if lead == 0xED then 0x80 ≤ second && second ≤ 0x9F
  else if lead == 0xF0 then 0x90 ≤ second && second ≤ 0xBF
  else if lead == 0xF4 then 0x80 ≤ second && second ≤ 0x8F
  else isContinuation second

/-- The sequence led by `lead` in front of `rest`. -/
def sequence (lead : UInt8) (rest : List UInt8) : Sequence :=
  if lead < 0x80 then ⟨true, 1⟩
  else if 0xC2 ≤ lead && lead ≤ 0xDF then
    match rest with
    | second :: _ => if isContinuation second then ⟨true, 2⟩ else ⟨false, 1⟩
    | [] => ⟨false, 1⟩
  else if 0xE0 ≤ lead && lead ≤ 0xEF then
    match rest with
    | second :: third :: _ =>
        if !admitsSecond lead second then ⟨false, 1⟩
        else if isContinuation third then ⟨true, 3⟩ else ⟨false, 2⟩
    | [second] => if admitsSecond lead second then ⟨false, 2⟩ else ⟨false, 1⟩
    | [] => ⟨false, 1⟩
  else if 0xF0 ≤ lead && lead ≤ 0xF4 then
    match rest with
    | second :: third :: fourth :: _ =>
        if !admitsSecond lead second then ⟨false, 1⟩
        else if !isContinuation third then ⟨false, 2⟩
        else if isContinuation fourth then ⟨true, 4⟩ else ⟨false, 3⟩
    | [second, third] =>
        if !admitsSecond lead second then ⟨false, 1⟩
        else if isContinuation third then ⟨false, 3⟩ else ⟨false, 2⟩
    | [second] => if admitsSecond lead second then ⟨false, 2⟩ else ⟨false, 1⟩
    | [] => ⟨false, 1⟩
  else ⟨false, 1⟩

/-- The replacement character U+FFFD in UTF-8. -/
def replacement : List UInt8 := [0xEF, 0xBF, 0xBD]

/-- Every broken sequence of `source` replaced; the result is well formed. -/
def repair : List UInt8 → List UInt8
  | [] => []
  | lead :: rest =>
      let here := sequence lead rest
      let kept := if here.sound then lead :: rest.take (here.width - 1) else replacement
      kept ++ repair (rest.drop (here.width - 1))
termination_by source => source.length
decreasing_by simp only [List.length_drop, List.length_cons]; omega

/-- Any bytes as a text, with U+FFFD for each broken sequence. -/
def lossy (source : List UInt8) : String := (ofBytes? (repair source)).getD ""

/-- What is left of `source` from its first broken sequence on. -/
def fromFirstBroken : List UInt8 → List UInt8
  | [] => []
  | lead :: rest =>
      let here := sequence lead rest
      if here.sound then fromFirstBroken (rest.drop (here.width - 1)) else lead :: rest
termination_by source => source.length
decreasing_by simp only [List.length_drop, List.length_cons]; omega

end TraceStore.Text
