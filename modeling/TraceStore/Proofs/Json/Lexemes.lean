import TraceStore.Proofs.Json.Grammar
import TraceStore.Proofs.Results

/-!
# Words, numbers and strings as texts

The readers of the smallest parts of a document, and those that pass over them, take exactly the
texts that the grammar allows.  A lemma with a text in its name (`isMagnitude_of_skipMagnitude`)
says what was taken, one that ends in `append` that it is taken again in front of anything else.

`ReadsTexts` says both at once of a reader that gives a result.  A number is only taken to its end
if nothing follows that could go on with it, so these lemmas ask for `EndsNumber`.
-/

namespace TraceStore.Json

/-! ## Words -/

theorem readWord_eq_ok_iff {input rest : Input} {word : List UInt8} :
    readWord word input = .ok rest ↔ input = word ++ rest := by
  induction word generalizing input with
  | nil => simp [readWord, eq_comm]
  | cons expected word ih =>
      cases input with
      | nil => simp [readWord]
      | cons byte input =>
          rw [readWord]
          split
          · next same => simp [ih, eq_of_beq same]
          · next differs =>
              have apart : byte ≠ expected := by simpa using differs
              simp [apart]

/-! ## Numbers -/

section Numbers

variable {input rest : Input}

/-- Whether no digit comes next. -/
def EndsDigits (rest : Input) : Prop := ∀ byte, rest.head? = some byte → isDigit byte = false

theorem EndsNumber.endsDigits (ends : EndsNumber rest) : EndsDigits rest :=
  fun byte isFirst => (ends byte isFirst).1

theorem endsDigits_cons {byte : UInt8} (notDigit : isDigit byte = false) (rest : Input) :
    EndsDigits (byte :: rest) := by
  intro first isFirst
  obtain rfl : byte = first := Option.some.inj isFirst
  exact notDigit

theorem dropDigits_append {digits : Input} (decimal : ∀ byte ∈ digits, isDigit byte = true)
    (ends : EndsDigits rest) : (digits ++ rest).dropWhile isDigit = rest := by
  rw [List.dropWhile_append_of_pos decimal]
  cases rest with
  | nil => rfl
  | cons byte rest => simp [ends byte rfl]

theorem takeDigits_append {digits : Input} (decimal : ∀ byte ∈ digits, isDigit byte = true)
    (ends : EndsDigits rest) : (digits ++ rest).takeWhile isDigit = digits := by
  rw [List.takeWhile_append_of_pos decimal]
  cases rest with
  | nil => simp
  | cons byte rest => simp [ends byte rfl]

/-- Digits are split off as far as they go. -/
theorem exists_digits (input : Input) : ∃ digits rest, spanDigits input = (digits, rest) ∧
    input = digits ++ rest ∧ (∀ byte ∈ digits, isDigit byte = true) ∧ EndsDigits rest := by
  refine ⟨_, _, rfl, List.takeWhile_append_dropWhile.symm, ?_, ?_⟩
  · exact fun byte member => List.mem_takeWhile_imp member
  · intro byte isFirst
    have stops := List.head?_dropWhile_not isDigit input
    rw [isFirst] at stops
    simpa using stops

theorem exists_sign (input : Input) : ∃ sign, (sign = [] ∨ sign = [plus] ∨ sign = [minus]) ∧
    input = sign ++ (readExponentSign input).2 := by
  cases input with
  | nil => exact ⟨[], .inl rfl, rfl⟩
  | cons byte rest =>
      rw [readExponentSign]
      split
      · next isPlus => exact ⟨[plus], .inr (.inl rfl), by simp [eq_of_beq isPlus]⟩
      · split
        · next isMinus => exact ⟨[minus], .inr (.inr rfl), by simp [eq_of_beq isMinus]⟩
        · exact ⟨[], .inl rfl, rfl⟩

theorem readExponentSign_append {sign : Input} {byte : UInt8}
    (isSign : sign = [] ∨ sign = [plus] ∨ sign = [minus]) (decimal : isDigit byte = true)
    (rest : Input) :
    readExponentSign (sign ++ byte :: rest) = (sign == [minus], byte :: rest) := by
  have notPlus : byte ≠ plus := by
    rintro rfl
    exact absurd decimal (by decide)
  have notMinus : byte ≠ minus := by
    rintro rfl
    exact absurd decimal (by decide)
  rcases isSign with rfl | rfl | rfl
  · simp [readExponentSign, notPlus, notMinus]
  · rfl
  · rfl

theorem isPower_of_skipExponent (skipped : skipExponent input = .ok rest) :
    ∃ power, IsPower power ∧ input = power ++ rest := by
  obtain ⟨sign, isSign, split⟩ := exists_sign input
  rw [skipExponent] at skipped
  split at skipped
  · cases skipped
  · next down byte tail signed =>
      rw [signed] at split
      split at skipped
      · next decimal =>
          obtain ⟨digits, left, spanned, rfl, all, -⟩ := exists_digits tail
          obtain rfl : left = rest := (Prod.mk.inj spanned).2.symm.trans (Except.ok.inj skipped)
          have isDigits : Digits (byte :: digits) := ⟨by simp, by simpa [decimal] using all⟩
          exact ⟨_, ⟨sign, _, isSign, isDigits, rfl⟩, by simpa using split⟩
      · cases skipped

theorem skipExponent_append {power : Input} (isPower : IsPower power) (ends : EndsDigits rest) :
    skipExponent (power ++ rest) = .ok rest := by
  rcases isPower with ⟨sign, digits, isSign, ⟨notEmpty, all⟩, rfl⟩
  obtain ⟨byte, digits, rfl⟩ := List.exists_cons_of_ne_nil notEmpty
  have decimal := all byte (by simp)
  rw [List.append_assoc, List.cons_append, skipExponent, readExponentSign_append isSign decimal]
  simp only [decimal, if_true]
  rw [dropDigits_append (fun other member => all other (by simp [member])) ends]

theorem isExponent_of_skipAfterFraction (skipped : skipAfterFraction input = .ok rest) :
    ∃ exponent, IsExponent exponent ∧ input = exponent ++ rest := by
  rw [skipAfterFraction.eq_def] at skipped
  split at skipped
  · next mark tail =>
      split at skipped
      · next isMark =>
          obtain ⟨power, isPower, rfl⟩ := isPower_of_skipExponent skipped
          exact ⟨_, .some isMark isPower, rfl⟩
      · cases skipped
        exact ⟨[], .none, rfl⟩
  · cases skipped
    exact ⟨[], .none, rfl⟩

theorem skipAfterFraction_append {exponent : Input} (isExponent : IsExponent exponent)
    (ends : EndsNumber rest) : skipAfterFraction (exponent ++ rest) = .ok rest := by
  cases isExponent with
  | none =>
      cases rest with
      | nil => rfl
      | cons byte rest => simp [skipAfterFraction, (ends byte rfl).2.2]
  | some isMark isPower =>
      rw [List.cons_append, skipAfterFraction, if_pos isMark,
        skipExponent_append isPower ends.endsDigits]

/-- What may follow the fraction of a number does not go on with its digits. -/
theorem IsExponent.endsDigits {exponent : Input} (isExponent : IsExponent exponent)
    (ends : EndsNumber rest) : EndsDigits (exponent ++ rest) := by
  cases isExponent with
  | none => exact ends.endsDigits
  | @some mark power isMark _ =>
      apply endsDigits_cons
      by_contra decimal
      rw [Bool.not_eq_false] at decimal
      have small : mark.toNat ≤ 0x39 := by
        simpa [isDigit, UInt8.le_iff_toNat_le] using (Bool.and_eq_true_iff.mp decimal).2
      simp only [isExponentMark, Bool.or_eq_true, beq_iff_eq] at isMark
      rcases isMark with rfl | rfl <;> simp at small

theorem isFraction_of_skipAfterWhole (skipped : skipAfterWhole input = .ok rest) :
    ∃ fraction exponent, IsFraction fraction ∧ IsExponent exponent ∧
      input = fraction ++ (exponent ++ rest) := by
  rw [skipAfterWhole.eq_def] at skipped
  split at skipped
  · next byte tail =>
      split at skipped
      · next isPoint =>
          obtain ⟨digits, left, spanned, rfl, all, -⟩ := exists_digits tail
          rw [spanned] at skipped
          split at skipped
          · cases skipped
          · next nonempty same =>
              obtain ⟨rfl, rfl⟩ := Prod.mk.inj same
              obtain ⟨exponent, isExponent, rfl⟩ := isExponent_of_skipAfterFraction skipped
              have notEmpty : digits ≠ [] := by
                rintro rfl
                exact nonempty rfl
              exact ⟨_, exponent, .some ⟨notEmpty, all⟩, isExponent, by simp [eq_of_beq isPoint]⟩
      · obtain ⟨exponent, isExponent, split⟩ := isExponent_of_skipAfterFraction skipped
        exact ⟨[], exponent, .none, isExponent, split⟩
  · cases skipped
    exact ⟨[], [], .none, .none, rfl⟩

theorem skipAfterWhole_append {fraction exponent : Input} (isFraction : IsFraction fraction)
    (isExponent : IsExponent exponent) (ends : EndsNumber rest) :
    skipAfterWhole (fraction ++ (exponent ++ rest)) = .ok rest := by
  cases isFraction with
  | none =>
      have after := skipAfterFraction_append isExponent ends
      cases isExponent with
      | none =>
          cases rest with
          | nil => rfl
          | cons byte rest =>
              rw [List.nil_append] at after
              simp [skipAfterWhole, (ends byte rfl).2.1, after]
      | @some mark power isMark _ =>
          have notPoint : mark ≠ point := by
            rintro rfl
            exact absurd isMark (by decide)
          rw [List.nil_append, List.cons_append] at *
          simp [skipAfterWhole, notPoint, after]
  | @some digits isDigits =>
      have spanned : spanDigits (digits ++ (exponent ++ rest)) = (digits, exponent ++ rest) := by
        rw [spanDigits, takeDigits_append isDigits.2 (isExponent.endsDigits ends),
          dropDigits_append isDigits.2 (isExponent.endsDigits ends)]
      obtain ⟨byte, digits, rfl⟩ := List.exists_cons_of_ne_nil isDigits.1
      rw [List.cons_append, skipAfterWhole]
      simp only [beq_self_eq_true, if_true, spanned]
      exact skipAfterFraction_append isExponent ends

/-- What may follow the whole digits of a number does not go on with them. -/
theorem IsFraction.endsDigits {fraction exponent : Input} (isFraction : IsFraction fraction)
    (isExponent : IsExponent exponent) (ends : EndsNumber rest) :
    EndsDigits (fraction ++ (exponent ++ rest)) := by
  cases isFraction with
  | none => exact isExponent.endsDigits ends
  | some _ => exact endsDigits_cons (by decide) _

theorem isMagnitude_of_skipMagnitude (skipped : skipMagnitude input = .ok rest) :
    ∃ text, IsMagnitude text ∧ input = text ++ rest := by
  have assembled (whole tail : Input) (isWhole : IsWhole whole)
      (skipped : skipAfterWhole tail = .ok rest) :
      ∃ text, IsMagnitude text ∧ whole ++ tail = text ++ rest := by
    obtain ⟨fraction, exponent, isFraction, isExponent, rfl⟩ := isFraction_of_skipAfterWhole skipped
    exact ⟨_, ⟨whole, fraction, exponent, isWhole, isFraction, isExponent, rfl⟩, by simp⟩
  rw [skipMagnitude.eq_def] at skipped
  split at skipped
  · cases skipped
  · next byte tail =>
      split at skipped
      · next isZero =>
          obtain rfl := eq_of_beq isZero
          split at skipped
          · split at skipped
            · cases skipped
            · exact assembled [digitZero] _ (.inl rfl) skipped
          · cases skipped
            exact assembled [digitZero] [] (.inl rfl) rfl
      · next notZero =>
          split at skipped
          · next decimal =>
              obtain ⟨digits, left, spanned, rfl, all, -⟩ := exists_digits tail
              rw [(Prod.mk.inj spanned).2] at skipped
              have isDigits : Digits (byte :: digits) := ⟨by simp, by simpa [decimal] using all⟩
              exact assembled _ _ (.inr ⟨isDigits, by simpa using notZero⟩) skipped
          · cases skipped

theorem skipMagnitude_append {text : Input} (isMagnitude : IsMagnitude text)
    (ends : EndsNumber rest) : skipMagnitude (text ++ rest) = .ok rest := by
  rcases isMagnitude with ⟨whole, fraction, exponent, isWhole, isFraction, isExponent, rfl⟩
  have after := skipAfterWhole_append isFraction isExponent ends
  have endsDigits := isFraction.endsDigits isExponent ends
  rw [List.append_assoc, List.append_assoc]
  generalize fraction ++ (exponent ++ rest) = tail at after endsDigits
  rcases isWhole with rfl | ⟨⟨notEmpty, all⟩, notZero⟩
  · rw [List.singleton_append]
    unfold skipMagnitude
    cases tail with
    | nil =>
        obtain rfl := Except.ok.inj after
        rfl
    | cons byte tail => simp [endsDigits byte rfl, after]
  · obtain ⟨byte, digits, rfl⟩ := List.exists_cons_of_ne_nil notEmpty
    have decimal := all byte (by simp)
    have isNotZero : byte ≠ digitZero := by simpa using notZero
    rw [List.cons_append]
    unfold skipMagnitude
    simp only [beq_iff_eq, isNotZero, if_false, decimal, if_true]
    rw [dropDigits_append (fun other member => all other (by simp [member])) endsDigits, after]

end Numbers

/-! ## Strings -/

section Strings

variable {input rest : Input}

theorem readHexUnit_eq_ok_iff {unit : Nat} :
    readHexUnit input = .ok (unit, rest) ↔ ∃ first second third fourth,
      hexUnit? first second third fourth = some unit ∧
        input = first :: second :: third :: fourth :: rest := by
  constructor
  · intro read
    rw [readHexUnit.eq_def] at read
    split at read
    · split at read
      · next isUnit =>
          cases read
          exact ⟨_, _, _, _, isUnit, rfl⟩
      · cases read
    · cases read
  · rintro ⟨first, second, third, fourth, isUnit, rfl⟩
    simp [readHexUnit, isUnit]

theorem isEscape_of_skipEscape (skipped : skipEscape input = .ok rest) :
    ∃ escape, IsEscape escape ∧ input = escape ++ rest := by
  rw [skipEscape.eq_def] at skipped
  split at skipped
  · cases skipped
  · next letter tail =>
      split at skipped
      · next isShort =>
          cases skipped
          exact ⟨[letter], .short isShort, rfl⟩
      · split at skipped
        · next isUnicode =>
            obtain ⟨⟨unit, left⟩, read, rfl⟩ := map_eq_ok_iff.mp skipped
            obtain ⟨first, second, third, fourth, isUnit, rfl⟩ := readHexUnit_eq_ok_iff.mp read
            exact ⟨_, .unicode isUnit, by simp [eq_of_beq isUnicode]⟩
        · cases skipped

theorem skipEscape_append {escape : Input} (isEscape : IsEscape escape) (rest : Input) :
    skipEscape (escape ++ rest) = .ok rest := by
  cases isEscape with
  | short isShort => simp [skipEscape, isShort]
  | unicode isUnit =>
      have notShort : (shortEscape? 0x75).isSome = false := by decide
      simp only [List.cons_append, List.nil_append, skipEscape, notShort, Bool.false_eq_true,
        if_false, beq_self_eq_true, if_true]
      rw [readHexUnit_eq_ok_iff.mpr ⟨_, _, _, _, isUnit, rfl⟩]
      rfl

theorem spelled_of_skipString (skipped : skipString input = .ok rest) :
    ∃ content, Spelled content ∧ input = content ++ rest := by
  fun_induction skipString input with
  | case1 | case3 | case5 => cases skipped
  | case2 byte tail isQuote =>
      cases skipped
      exact ⟨[quote], .close, by simp [eq_of_beq isQuote]⟩
  | case4 byte tail _ isBackslash more escaped _ ih =>
      obtain ⟨escape, isEscape, rfl⟩ := isEscape_of_skipEscape escaped
      obtain ⟨content, spelled, rfl⟩ := ih skipped
      exact ⟨_, .escape isEscape spelled, by simp [eq_of_beq isBackslash]⟩
  | case6 byte tail notQuote notBackslash notControl ih =>
      obtain ⟨content, spelled, rfl⟩ := ih skipped
      have isPlain : IsPlain byte :=
        ⟨by simpa using notQuote, by simpa using notBackslash, notControl⟩
      exact ⟨_, .plain isPlain spelled, rfl⟩

theorem skipString_append {content : Input} (spelled : Spelled content) (rest : Input) :
    skipString (content ++ rest) = .ok rest := by
  induction spelled with
  | close => simp [skipString]
  | plain isPlain _ ih =>
      rcases isPlain with ⟨notQuote, notBackslash, notControl⟩
      rw [List.cons_append, skipString]
      simp only [beq_iff_eq, notQuote, notBackslash, notControl, if_false, ih]
  | @escape escape others isEscape _ ih =>
      have notQuote : (backslash == quote) = false := by decide
      have escaped := skipEscape_append isEscape (others ++ rest)
      rw [List.cons_append, List.append_assoc, skipString]
      simp only [notQuote, Bool.false_eq_true, if_false, beq_self_eq_true, if_true]
      split
      · next refused => rw [escaped] at refused; cases refused
      · next accepted =>
          rw [escaped] at accepted
          obtain rfl := Except.ok.inj accepted
          exact ih

end Strings

end TraceStore.Json
