import Mathlib.Data.List.Induction
import TraceStore.Json.Printer

/-!
# Integers read back

Integers are written in decimal and read digit by digit, where the digits are gathered as long as
they fit into 64 bits.  An integer that fits is read back exactly, provided that what follows it
cannot go on with the number.
-/

namespace TraceStore.Json

/-- Whether a number ends in front of some input: neither a digit nor a point nor an exponent
follows. -/
def EndsNumber (rest : Input) : Prop :=
  ∀ byte, rest.head? = some byte →
    isDigit byte = false ∧ byte ≠ point ∧ isExponentMark byte = false

theorem endsNumber_nil : EndsNumber [] := by simp [EndsNumber]

/-! ## Digits -/

/-- The byte of a decimal digit. -/
def digitByte (digit : Char) : UInt8 := UInt8.ofNat digit.toNat

theorem writeNatural_eq_map (value : Nat) :
    writeNatural value = (Nat.toDigits 10 value).map digitByte := rfl

theorem toNat_digitByte {digit : Char} (isDigit : digit.isDigit) :
    (digitByte digit).toNat = digit.toNat := by
  rw [Char.isDigit_iff_toNat] at isDigit
  have below : digit.toNat ≤ 57 := isDigit.2
  simp only [digitByte, UInt8.toNat_ofNat']
  omega

theorem isDigit_digitByte {digit : Char} (decimal : digit.isDigit) :
    isDigit (digitByte digit) = true := by
  have size := toNat_digitByte decimal
  rw [Char.isDigit_iff_toNat] at decimal
  have above : 48 ≤ digit.toNat := decimal.1
  have below : digit.toNat ≤ 57 := decimal.2
  simp only [isDigit, Bool.and_eq_true, decide_eq_true_eq, UInt8.le_iff_toNat_le, size,
    UInt8.reduceToNat]
  exact ⟨above, below⟩

theorem digitValue_digitByte {digit : Char} (decimal : digit.isDigit) :
    digitValue (digitByte digit) = digit.toNat - '0'.toNat := by
  rw [digitValue, toNat_digitByte decimal]
  rfl

theorem isDigit_of_mem_writeNatural (value : Nat) :
    ∀ byte ∈ writeNatural value, isDigit byte = true := by
  intro byte member
  rcases List.mem_map.mp member with ⟨digit, written, rfl⟩
  exact isDigit_digitByte (Nat.isDigit_of_mem_toDigits (by omega) (by omega) written)

/-- The value of digits behind those that make up `start`. -/
def digitsValue (start : Nat) (digits : List UInt8) : Nat :=
  digits.foldl (fun value digit => value * 10 + digitValue digit) start

theorem le_digitsValue (start : Nat) (digits : List UInt8) : start ≤ digitsValue start digits := by
  induction digits generalizing start with
  | nil => exact Nat.le_refl _
  | cons digit digits ih =>
      have longer := ih (start * 10 + digitValue digit)
      rw [digitsValue, List.foldl_cons]
      exact Nat.le_trans (by omega) longer

theorem digitsValue_map_digitByte (start : Nat) {digits : List Char}
    (decimal : ∀ digit ∈ digits, digit.isDigit) :
    digitsValue start (digits.map digitByte) = Nat.ofDigitChars 10 digits start := by
  induction digits generalizing start with
  | nil => rfl
  | cons digit digits ih =>
      rw [List.map_cons, digitsValue, List.foldl_cons,
        digitValue_digitByte (decimal digit (by simp)), Nat.ofDigitChars_cons, Nat.mul_comm]
      exact ih _ fun other member => decimal other (by simp [member])

theorem digitsValue_writeNatural (value : Nat) : digitsValue 0 (writeNatural value) = value := by
  rw [writeNatural_eq_map, digitsValue_map_digitByte, Nat.ofDigitChars_ten_toDigits]
  exact fun digit member => Nat.isDigit_of_mem_toDigits (by omega) (by omega) member

/-- Digits whose value fits are all gathered. -/
theorem gather_eq_digitsValue {start : Nat} {digits : List UInt8}
    (fits : digitsValue start digits < Word.size) :
    gather start digits = (digitsValue start digits, 0) := by
  induction digits generalizing start with
  | nil => rfl
  | cons digit digits ih =>
      have next : start * 10 + digitValue digit < Word.size :=
        Nat.lt_of_le_of_lt (le_digitsValue _ digits) fits
      rw [gather, if_pos next]
      exact ih fits

/-- Digits that are all gathered make up a number that fits. -/
theorem digitsValue_lt_of_gather {start : Nat} {digits : List UInt8} (fits : start < Word.size)
    (all : (gather start digits).2 = 0) : digitsValue start digits < Word.size := by
  induction digits generalizing start with
  | nil => exact fits
  | cons digit digits ih =>
      rw [gather] at all
      split at all
      · next more => exact ih more all
      · simp at all

/-- Digits in front of something else are split off. -/
theorem spanDigits_append {digits : List UInt8} {rest : Input}
    (decimal : ∀ byte ∈ digits, isDigit byte = true) (ends : EndsNumber rest) :
    spanDigits (digits ++ rest) = (digits, rest) := by
  have taken : rest.takeWhile isDigit = [] := by
    cases rest with
    | nil => rfl
    | cons byte rest => simp [(ends byte rfl).1]
  have dropped : rest.dropWhile isDigit = rest := by
    cases rest with
    | nil => rfl
    | cons byte rest => simp [(ends byte rfl).1]
  rw [spanDigits, List.takeWhile_append_of_pos decimal, List.dropWhile_append_of_pos decimal, taken,
    dropped, List.append_nil]

/-- A single digit is written as its byte. -/
theorem writeNatural_of_lt {value : Nat} (single : value < 10) :
    writeNatural value = [digitByte value.digitChar] := by
  rw [writeNatural_eq_map, Nat.toDigits_of_lt_base single]
  rfl

/-- The last digit is written behind the others. -/
theorem writeNatural_append {value digit : Nat} (positive : 0 < value) (single : digit < 10) :
    writeNatural (value * 10 + digit) = writeNatural value ++ [digitByte digit.digitChar] := by
  have whole : (value * 10 + digit) / 10 = value := by omega
  have last : (value * 10 + digit) % 10 = digit := by omega
  rw [writeNatural_eq_map, Nat.toDigits_of_base_le (by omega) (by omega), whole, last,
    List.map_append, ← writeNatural_eq_map]
  rfl

theorem toNat_digitByte_digitChar {digit : Nat} (single : digit < 10) :
    (digitByte digit.digitChar).toNat = 48 + digit := by
  rw [toNat_digitByte (by simp [Nat.isDigit_digitChar, single]),
    Nat.toNat_digitChar_of_lt_ten single]

/-- Only zero is written with a leading zero. -/
theorem writeNatural_of_pos {value : Nat} (positive : 0 < value) :
    ∃ first others, writeNatural value = first :: others ∧ first ≠ digitZero := by
  induction value using Nat.strongRecOn with
  | ind value ih =>
      by_cases single : value < 10
      · refine ⟨digitByte value.digitChar, [], writeNatural_of_lt single, ?_⟩
        intro equal
        have size := toNat_digitByte_digitChar single
        rw [equal] at size
        simp only [digitZero, UInt8.reduceToNat] at size
        omega
      · obtain ⟨first, others, written, nonzero⟩ := ih (value / 10) (by omega) (by omega)
        refine ⟨first, others ++ [digitByte (value % 10).digitChar], ?_, nonzero⟩
        have split : value = value / 10 * 10 + value % 10 := by omega
        rw [split, writeNatural_append (by omega) (Nat.mod_lt _ (by omega)), ← split, written]
        rfl

/-- The byte of a digit is that of its value. -/
theorem digitByte_digitValue {byte : UInt8} (decimal : isDigit byte = true) :
    digitValue byte < 10 ∧ digitByte (digitValue byte).digitChar = byte := by
  simp only [isDigit, Bool.and_eq_true, decide_eq_true_eq, UInt8.le_iff_toNat_le,
    UInt8.reduceToNat] at decimal
  have single : digitValue byte < 10 := by
    rw [digitValue]
    omega
  refine ⟨single, UInt8.toNat_inj.mp ?_⟩
  rw [toNat_digitByte_digitChar single, digitValue]
  omega

theorem digitsValue_append (start : Nat) (digits : List UInt8) (digit : UInt8) :
    digitsValue start (digits ++ [digit]) = digitsValue start digits * 10 + digitValue digit := by
  rw [digitsValue, List.foldl_append]
  rfl

/-- Digits without a leading zero are how their value is written. -/
theorem writeNatural_digitsValue {digits : List UInt8} (nonempty : digits ≠ [])
    (decimal : ∀ byte ∈ digits, isDigit byte = true) (noZero : digits.head? ≠ some digitZero) :
    0 < digitsValue 0 digits ∧ writeNatural (digitsValue 0 digits) = digits := by
  induction digits using List.reverseRecOn with
  | nil => exact absurd rfl nonempty
  | append_singleton others last ih =>
      obtain ⟨single, isLast⟩ := digitByte_digitValue (decimal last (by simp))
      rw [digitsValue_append]
      by_cases alone : others = []
      · subst alone
        have notZero : digitValue last ≠ 0 := by
          intro isZero
          rw [isZero] at isLast
          exact noZero (by rw [← isLast]; rfl)
        refine ⟨Nat.add_pos_right _ (Nat.pos_of_ne_zero notZero), ?_⟩
        simp only [digitsValue, List.foldl_nil, Nat.zero_mul, Nat.zero_add, List.nil_append]
        rw [writeNatural_of_lt single, isLast]
      · have head : (others ++ [last]).head? = others.head? := by
          rw [List.head?_append, List.head?_eq_some_head alone]
          rfl
        obtain ⟨positive, written⟩ :=
          ih alone (fun byte member => decimal byte (by simp [member])) (head ▸ noZero)
        refine ⟨by omega, ?_⟩
        rw [writeNatural_append positive single, written, isLast]

/-! ## Whole numbers -/

theorem readAfterWhole_of_endsNumber (negative : Bool) (digits leftOut : Nat) {rest : Input}
    (ends : EndsNumber rest) :
    readAfterWhole negative digits leftOut rest = wholeNumber negative digits leftOut rest := by
  cases rest with
  | nil => rfl
  | cons byte rest =>
      rcases ends byte rfl with ⟨-, notPoint, notMark⟩
      simp [readAfterWhole, notPoint, notMark]

/-- A written natural number that fits is read as a whole number of its value. -/
theorem readMagnitude_writeNatural (negative : Bool) {value : Nat} (fits : value < Word.size)
    {rest : Input} (ends : EndsNumber rest) :
    readMagnitude negative (writeNatural value ++ rest) = wholeNumber negative value 0 rest := by
  by_cases isZero : value = 0
  · subst isZero
    have written : writeNatural 0 = [digitZero] := by decide
    rw [written, List.singleton_append]
    unfold readMagnitude
    simp only [beq_self_eq_true, if_true]
    cases rest with
    | nil => rfl
    | cons byte rest =>
        simp only [(ends byte rfl).1, Bool.false_eq_true, if_false]
        exact readAfterWhole_of_endsNumber negative 0 0 ends
  · rcases writeNatural_of_pos (Nat.pos_of_ne_zero isZero) with ⟨first, others, written, nonzero⟩
    have decimal := isDigit_of_mem_writeNatural value
    have valued := digitsValue_writeNatural value
    rw [written] at decimal valued ⊢
    have whole : digitsValue 0 (first :: others) < Word.size := by rwa [valued]
    rw [List.cons_append]
    unfold readMagnitude
    simp only [beq_iff_eq, nonzero, if_false, decimal first (by simp), if_true]
    rw [spanDigits_append (fun byte member => decimal byte (by simp [member])) ends]
    simp only [gather_eq_digitsValue whole, valued]
    exact readAfterWhole_of_endsNumber negative value 0 ends

theorem writeNatural_eq_cons (value : Nat) :
    ∃ first others, writeNatural value = first :: others ∧ isDigit first = true := by
  cases written : writeNatural value with
  | nil =>
      rw [writeNatural_eq_map, List.map_eq_nil_iff] at written
      exact absurd written Nat.toDigits_ne_nil
  | cons first others =>
      exact ⟨first, others, rfl, isDigit_of_mem_writeNatural value first (by simp [written])⟩

/-- A written number opens with a minus sign or a digit. -/
theorem writeInteger_eq_cons (value : Int) :
    ∃ first others, writeInteger value = first :: others ∧
      (first == minus || isDigit first) = true := by
  cases value with
  | ofNat value =>
      rcases writeNatural_eq_cons value with ⟨first, others, written, decimal⟩
      exact ⟨first, others, written, by simp [decimal]⟩
  | negSucc value => exact ⟨minus, writeNatural (value + 1), rfl, by simp⟩

/-- An integer in the range of 64-bit words, with or without sign, is read back. -/
theorem readNumber_writeInteger {value : Int} (above : Word.least ≤ value)
    (below : value < Word.size) {rest : Input} (ends : EndsNumber rest) :
    readNumber (writeInteger value ++ rest) = .ok (.integer value, rest) := by
  cases value with
  | ofNat value =>
      have fits : value < Word.size := Int.ofNat_lt.mp below
      have magnitude := readMagnitude_writeNatural false fits ends
      have decimal := isDigit_of_mem_writeNatural value
      rcases writeInteger_eq_cons (.ofNat value) with ⟨first, others, written, -⟩
      rw [writeInteger] at written ⊢
      rw [written] at magnitude decimal ⊢
      have notMinus : first ≠ minus := by
        rintro rfl
        exact absurd (decimal minus (by simp)) (by decide)
      rw [List.cons_append, readNumber]
      simp only [beq_iff_eq, notMinus, if_false]
      rw [← List.cons_append, magnitude]
      simp [wholeNumber]
  | negSucc value =>
      have small : value + 1 ≤ Word.half := by
        simp only [Word.least, Word.half] at above ⊢
        omega
      have fits : value + 1 < Word.size := Nat.lt_of_le_of_lt small (by decide)
      rw [writeInteger, List.cons_append, readNumber]
      simp only [beq_self_eq_true, if_true]
      rw [readMagnitude_writeNatural true fits ends]
      simp [wholeNumber, small, Int.negSucc_eq]

end TraceStore.Json
