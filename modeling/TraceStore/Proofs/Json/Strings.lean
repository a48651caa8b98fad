import TraceStore.Json.Printer
import TraceStore.Proofs.Text.Bytes

/-!
# Strings read back

A text is written one character at a time and read one byte at a time.  The two meet in the middle:
whatever stands for a character between quotation marks, by itself or as an escape, is read as the
UTF-8 form of that character.  So the content of a written string is the UTF-8 form of its text,
whatever follows the closing quotation mark.
-/

namespace TraceStore.Json

/-- The bytes that stand for themselves between quotation marks. -/
def IsPlain (byte : UInt8) : Prop := byte ≠ quote ∧ byte ≠ backslash ∧ ¬ byte < 0x20

/-- Puts bytes in front of a content that was read. -/
def prepend (bytes : List UInt8) : List UInt8 × Input → List UInt8 × Input :=
  fun (content, left) => (bytes ++ content, left)

theorem readContent_cons_of_isPlain {byte : UInt8} (plain : IsPlain byte) (input : Input) :
    readContent (byte :: input) = (readContent input).map (prepend [byte]) := by
  rcases plain with ⟨notQuote, notBackslash, notControl⟩
  rw [readContent]
  simp only [beq_iff_eq, notQuote, notBackslash, notControl, if_false]
  cases readContent input <;> rfl

theorem readContent_append_of_isPlain {bytes : List UInt8}
    (plain : ∀ byte ∈ bytes, IsPlain byte) (input : Input) :
    readContent (bytes ++ input) = (readContent input).map (prepend bytes) := by
  induction bytes with
  | nil =>
      rw [List.nil_append]
      cases readContent input <;> rfl
  | cons byte bytes ih =>
      rw [List.cons_append, readContent_cons_of_isPlain (plain byte (by simp)),
        ih fun other member => plain other (by simp [member])]
      cases readContent input <;> rfl

theorem readContent_backslash {bytes : List UInt8} {escape more : Input}
    (read : readEscape escape = .ok (bytes, more)) :
    readContent (backslash :: escape) = (readContent more).map (prepend bytes) := by
  have notQuote : (backslash == quote) = false := by decide
  rw [readContent]
  simp only [notQuote, beq_self_eq_true, Bool.false_eq_true, if_false, if_true]
  split
  · next fault refused =>
      rw [read] at refused
      cases refused
  · next found rest accepted =>
      rw [read] at accepted
      cases accepted
      cases readContent more <;> rfl

/-! ## Characters -/

/-- The bytes of a character beyond ASCII all have their highest bit set. -/
theorem utf8EncodeChar_high {character : Char} (beyond : 0x80 ≤ character.toNat) :
    ∀ byte ∈ String.utf8EncodeChar character, 0x80 ≤ byte.toNat := by
  have value : character.val.toNat = character.toNat := rfl
  intro byte member
  simp only [String.utf8EncodeChar, value] at member
  rw [if_neg (by omega)] at member
  split at member
  · simp only [List.mem_cons, List.not_mem_nil, or_false] at member
    rcases member with rfl | rfl <;> simp only [UInt8.toNat_ofNat'] <;> omega
  · split at member
    · simp only [List.mem_cons, List.not_mem_nil, or_false] at member
      rcases member with rfl | rfl | rfl <;> simp only [UInt8.toNat_ofNat'] <;> omega
    · simp only [List.mem_cons, List.not_mem_nil, or_false] at member
      rcases member with rfl | rfl | rfl | rfl <;> simp only [UInt8.toNat_ofNat'] <;> omega

theorem utf8EncodeChar_ascii {character : Char} (ascii : character.toNat < 0x80) :
    String.utf8EncodeChar character = [UInt8.ofNat character.toNat] := by
  have value : character.val.toNat = character.toNat := rfl
  simp only [String.utf8EncodeChar, value]
  rw [if_pos (by omega)]

/-- A character that is written as it is has only plain bytes. -/
theorem isPlain_of_mem_utf8EncodeChar {character : Char} (printable : 0x20 ≤ character.toNat)
    (notQuote : character ≠ '"') (notBackslash : character ≠ '\\') :
    ∀ byte ∈ String.utf8EncodeChar character, IsPlain byte := by
  intro byte member
  by_cases ascii : character.toNat < 0x80
  · rw [utf8EncodeChar_ascii ascii, List.mem_singleton] at member
    have size : byte.toNat = character.toNat := by
      subst member
      simp only [UInt8.toNat_ofNat']
      omega
    refine ⟨?_, ?_, ?_⟩
    · rintro rfl
      exact notQuote (Char.toNat_inj.mp size.symm)
    · rintro rfl
      exact notBackslash (Char.toNat_inj.mp size.symm)
    · rw [UInt8.lt_iff_toNat_lt, size]
      exact Nat.not_lt.mpr printable
  · have high := utf8EncodeChar_high (Nat.not_lt.mp ascii) byte member
    refine ⟨?_, ?_, ?_⟩
    · rintro rfl
      simp [quote] at high
    · rintro rfl
      simp [backslash] at high
    · rw [UInt8.lt_iff_toNat_lt]
      simp only [UInt8.reduceToNat]
      omega

/-- The two digits of a byte below the blank are read back as the byte. -/
theorem hexUnit?_control : ∀ number < 0x20,
    hexUnit? digitZero digitZero (hexDigit (number / 16)) (hexDigit (number % 16)) =
      some number := by
  decide

theorem readEscape_control {character : Char} (control : character.toNat < 0x20) (rest : Input) :
    readEscape ([0x75, digitZero, digitZero, hexDigit (character.toNat / 16),
      hexDigit (character.toNat % 16)] ++ rest) =
        .ok (String.utf8EncodeChar character, rest) := by
  have notTrailing : isTrailing character.toNat = false := by
    simp only [isTrailing, Bool.and_eq_false_iff, decide_eq_false_iff_not]
    omega
  have notLeading : isLeading character.toNat = false := by
    simp only [isLeading, Bool.and_eq_false_iff, decide_eq_false_iff_not]
    omega
  have short : shortEscape? 0x75 = none := by decide
  simp only [List.cons_append, List.nil_append, readEscape, short, readUnicode, readHexUnit,
    hexUnit?_control _ control, notTrailing, notLeading, utf8, Char.ofNat_toNat]
  simp

theorem readEscape_short {letter byte : UInt8} (short : shortEscape? letter = some byte)
    (rest : Input) : readEscape (letter :: rest) = .ok ([byte], rest) := by
  simp [readEscape, short]

/-- Whatever stands for a character is read as the UTF-8 form of the character. -/
theorem readContent_escapeChar (character : Char) (rest : Input) :
    readContent (escapeChar character ++ rest) =
      (readContent rest).map (prepend (String.utf8EncodeChar character)) := by
  have byLetter {letter : UInt8} (number : Nat) (is : character.toNat = number)
      (small : number < 0x80) (short : shortEscape? letter = some (UInt8.ofNat number)) :
      readContent ([backslash, letter] ++ rest) =
        (readContent rest).map (prepend (String.utf8EncodeChar character)) := by
    rw [utf8EncodeChar_ascii (by omega), is]
    exact readContent_backslash (readEscape_short short rest)
  unfold escapeChar
  split
  · next isQuote =>
      exact byLetter 0x22 (by subst isQuote; rfl) (by omega) (by decide)
  · next notQuote =>
      split
      · next isBackslash =>
          exact byLetter 0x5C (by subst isBackslash; rfl) (by omega) (by decide)
      · next notBackslash =>
          split
          · next is => exact byLetter _ is (by omega) (by decide)
          · split
            · next is => exact byLetter _ is (by omega) (by decide)
            · split
              · next is => exact byLetter _ is (by omega) (by decide)
              · split
                · next is => exact byLetter _ is (by omega) (by decide)
                · split
                  · next is => exact byLetter _ is (by omega) (by decide)
                  · split
                    · next control => exact readContent_backslash (readEscape_control control rest)
                    · next printable =>
                        exact readContent_append_of_isPlain
                          (isPlain_of_mem_utf8EncodeChar (by omega) notQuote notBackslash) rest

/-! ## Texts -/

/-- The content of a written string is the UTF-8 form of its text. -/
theorem readContent_flatMap_escapeChar (characters : List Char) (rest : Input) :
    readContent (characters.flatMap escapeChar ++ quote :: rest) =
      .ok (characters.flatMap String.utf8EncodeChar, rest) := by
  induction characters with
  | nil =>
      rw [List.flatMap_nil, List.nil_append, readContent]
      simp
  | cons character characters ih =>
      rw [List.flatMap_cons, List.append_assoc, readContent_escapeChar, ih]
      rfl

/-- A written string is read back behind its opening quotation mark. -/
theorem readString_escaped (text : String) (rest : Input) :
    readString (text.toList.flatMap escapeChar ++ quote :: rest) = .ok (text, rest) := by
  rw [readString, readContent_flatMap_escapeChar, ← Text.bytes_eq_flatMap]
  simp only [Text.ofBytes?_bytes]

/-- A written string in front of other input: its opening quotation mark and what follows. -/
theorem writeString_append (text : String) (rest : Input) :
    writeString text ++ rest = quote :: (text.toList.flatMap escapeChar ++ quote :: rest) := by
  simp [writeString]

end TraceStore.Json
