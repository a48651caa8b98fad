import TraceStore.Proofs.Json.Lexemes

/-!
# Numbers and strings that are wanted

Where a number or a string is wanted, its reader takes exactly a text of the grammar, and what it
makes of the text does not depend on what follows.  `ReadsTexts` says both.  A number must not be
followed by a byte that could go on with it, a string may be followed by anything.

The readers treat some texts in several ways: an exponent that is too large is passed over, and a
pair of surrogates is one character spelled by two escapes.  Each way takes the same kind of text.
-/

namespace TraceStore.Json

/-- Whenever something is read up to a rest that `ends` allows, a text of the given kind was taken,
and the same is read from this text in front of any other such rest. -/
def ReadsTexts (ends kind : Input → Prop) (reads : Input → Input → Prop) : Prop :=
  ∀ input rest, ends rest → reads input rest →
    ∃ text, kind text ∧ input = text ++ rest ∧ ∀ more, ends more → reads (text ++ more) more

/-! ## Numbers -/

section Numbers

variable {negative : Bool} {number : Number}

theorem makeDouble_eq_ok {digits : Nat} {power : Int} {left rest : Input}
    (made : makeDouble negative digits power left = .ok (number, rest)) :
    left = rest ∧ ∀ more, makeDouble negative digits power more = .ok (number, more) := by
  rw [makeDouble] at made
  split at made
  · next value scaled =>
      cases made
      exact ⟨rfl, fun more => by simp [makeDouble, scaled]⟩
  · cases made

theorem readExponentDigits_of_some {start value : Nat} {input rest : Input}
    (read : readExponentDigits start input = (some value, rest)) :
    ∃ digits, (∀ byte ∈ digits, isDigit byte = true) ∧ input = digits ++ rest ∧
      ∀ more, EndsDigits more → readExponentDigits start (digits ++ more) = (some value, more) := by
  induction input generalizing start with
  | nil =>
      cases read
      refine ⟨[], by simp, rfl, fun more ends => ?_⟩
      cases more with
      | nil => rfl
      | cons byte more => simp [readExponentDigits, ends byte rfl]
  | cons byte input ih =>
      rw [readExponentDigits] at read
      split at read
      · next decimal =>
          simp only at read
          split at read
          · cases read
          · next small =>
              obtain ⟨digits, all, rfl, again⟩ := ih read
              refine ⟨byte :: digits, by simpa [decimal] using all, rfl, fun more ends => ?_⟩
              rw [List.cons_append, readExponentDigits, if_pos decimal]
              simp only [small, if_false, again more ends]
      · cases read
        refine ⟨[], by simp, rfl, fun more ends => ?_⟩
        cases more with
        | nil => rfl
        | cons byte more => simp [readExponentDigits, ends byte rfl]

theorem readExponentDigits_of_none {start : Nat} {input rest : Input}
    (read : readExponentDigits start input = (none, rest)) :
    ∃ digits, (∀ byte ∈ digits, isDigit byte = true) ∧ input = digits ++ rest ∧
      ∀ more, readExponentDigits start (digits ++ more) = (none, more) := by
  induction input generalizing start with
  | nil => cases read
  | cons byte input ih =>
      rw [readExponentDigits] at read
      split at read
      · next decimal =>
          simp only at read
          split at read
          · next large =>
              cases read
              refine ⟨[byte], by simpa using decimal, rfl, fun more => ?_⟩
              simp [readExponentDigits, decimal, large]
          · next small =>
              obtain ⟨digits, all, rfl, again⟩ := ih read
              refine ⟨byte :: digits, by simpa [decimal] using all, rfl, fun more => ?_⟩
              rw [List.cons_append, readExponentDigits, if_pos decimal]
              simp only [small, if_false, again more]
      · cases read

theorem readExponent_readsTexts (digits : Nat) (power : Int) :
    ReadsTexts EndsNumber IsPower fun input rest =>
      readExponent negative digits power input = .ok (number, rest) := by
  intro input rest ends read
  obtain ⟨sign, isSign, split⟩ := exists_sign input
  rw [readExponent] at read
  split at read
  · cases read
  · next down byte tail signed =>
      rw [signed] at split
      split at read
      · cases read
      · next isDigitFirst =>
          have decimal : isDigit byte = true := by simpa using isDigitFirst
          have first := readExponentSign_append isSign decimal
          rw [split, first, Prod.mk.injEq] at signed
          obtain ⟨rfl, -⟩ := signed
          split at read
          · next exponent left spanned =>
              obtain ⟨others, all, rfl, again⟩ := readExponentDigits_of_some spanned
              obtain ⟨rfl, made⟩ := makeDouble_eq_ok read
              have isDigits : Digits (byte :: others) := ⟨by simp, by simpa [decimal] using all⟩
              refine ⟨_, ⟨sign, _, isSign, isDigits, rfl⟩, by simp [split], fun more endsMore => ?_⟩
              beta_reduce
              rw [List.append_assoc, List.cons_append, readExponent, first]
              simp only [decimal, Bool.not_true, Bool.false_eq_true, if_false,
                again more endsMore.endsDigits]
              exact made more
          · next left spanned =>
              obtain ⟨early, allEarly, rfl, again⟩ := readExponentDigits_of_none spanned
              split at read
              · cases read
              · next inRange =>
                  obtain ⟨late, behind, spannedLate, rfl, allLate, -⟩ := exists_digits left
                  rw [(Prod.mk.inj spannedLate).2] at read
                  cases read
                  have isDigits : Digits (byte :: (early ++ late)) :=
                    ⟨by simp,
                      by simpa [decimal] using List.forall_mem_append.mpr ⟨allEarly, allLate⟩⟩
                  refine ⟨_, ⟨sign, _, isSign, isDigits, rfl⟩, by simp [split], ?_⟩
                  intro more endsMore
                  rw [List.append_assoc, List.cons_append, List.append_assoc, readExponent, first]
                  simp only [decimal, Bool.not_true, Bool.false_eq_true, if_false, again, inRange]
                  rw [dropDigits_append allLate endsMore.endsDigits]

/-- Reads an exponent if there is one, and goes on with `plain` otherwise. -/
def readExponentOr (plain : Input → Except Fault (Number × Input)) (negative : Bool) (digits : Nat)
    (power : Int) : Input → Except Fault (Number × Input)
  | byte :: rest =>
      if isExponentMark byte then readExponent negative digits power rest else plain (byte :: rest)
  | [] => plain []

theorem readExponentOr_readsTexts {plain : Input → Except Fault (Number × Input)}
    (plainly : ∀ {left rest : Input}, plain left = .ok (number, rest) →
      left = rest ∧ ∀ more, plain more = .ok (number, more)) (digits : Nat) (power : Int) :
    ReadsTexts EndsNumber IsExponent fun input rest =>
      readExponentOr plain negative digits power input = .ok (number, rest) := by
  have without {input rest : Input} (read : plain input = .ok (number, rest)) :
      ∃ text, IsExponent text ∧ input = text ++ rest ∧ ∀ more, EndsNumber more →
        readExponentOr plain negative digits power (text ++ more) = .ok (number, more) := by
    obtain ⟨rfl, made⟩ := plainly read
    refine ⟨[], .none, rfl, fun more ends => ?_⟩
    cases more with
    | nil => exact made []
    | cons byte more => simp [readExponentOr, (ends byte rfl).2.2, made]
  intro input rest ends read
  cases input with
  | nil => exact without read
  | cons byte input =>
      simp only [readExponentOr] at read
      split at read
      · next isMark =>
          obtain ⟨power, isPower, rfl, again⟩ := readExponent_readsTexts digits _ _ _ ends read
          refine ⟨_, .some isMark isPower, rfl, fun more endsMore => ?_⟩
          simp only [List.cons_append, readExponentOr, isMark, if_true]
          exact again more endsMore
      · exact without read

theorem readFraction_append {digits leftOut : Nat} {fraction more : Input}
    (isDigits : Digits fraction) (ends : EndsDigits more) :
    readFraction negative digits leftOut (fraction ++ more) =
      readExponentOr
        (makeDouble negative (gather digits fraction).1
          (leftOut - ((fraction.length - (gather digits fraction).2 : Nat) : Int)))
        negative (gather digits fraction).1
        (leftOut - ((fraction.length - (gather digits fraction).2 : Nat) : Int)) more := by
  rw [readFraction, spanDigits, takeDigits_append isDigits.2 ends,
    dropDigits_append isDigits.2 ends]
  obtain ⟨byte, others, rfl⟩ := List.exists_cons_of_ne_nil isDigits.1
  cases more <;> rfl

theorem readFraction_readsTexts (digits leftOut : Nat) :
    ReadsTexts EndsNumber
      (fun text => ∃ fraction exponent, Digits fraction ∧ IsExponent exponent ∧
        text = fraction ++ exponent)
      fun input rest => readFraction negative digits leftOut input = .ok (number, rest) := by
  intro input rest ends read
  obtain ⟨fraction, left, spanned, rfl, all, endsLeft⟩ := exists_digits input
  have notEmpty : fraction ≠ [] := by
    rintro rfl
    rw [readFraction, spanned] at read
    cases left <;> cases read
  have isDigits : Digits fraction := ⟨notEmpty, all⟩
  rw [readFraction_append isDigits endsLeft] at read
  obtain ⟨exponent, isExponent, rfl, again⟩ :=
    readExponentOr_readsTexts makeDouble_eq_ok _ _ _ _ ends read
  refine ⟨_, ⟨fraction, exponent, isDigits, isExponent, rfl⟩, by simp, fun more endsMore => ?_⟩
  beta_reduce
  rw [List.append_assoc, readFraction_append isDigits (isExponent.endsDigits endsMore)]
  exact again more endsMore

theorem wholeNumber_eq_ok {digits leftOut : Nat} {left rest : Input}
    (made : wholeNumber negative digits leftOut left = .ok (number, rest)) :
    left = rest ∧ ∀ more, wholeNumber negative digits leftOut more = .ok (number, more) := by
  rw [wholeNumber] at made
  split at made
  · next tooLong =>
      obtain ⟨rfl, again⟩ := makeDouble_eq_ok made
      exact ⟨rfl, fun more => by rw [wholeNumber, if_pos tooLong, again]⟩
  · next fits =>
      rw [Bool.not_eq_true] at fits
      split at made
      · next positive =>
          cases made
          exact ⟨rfl, fun more => by simp only [wholeNumber, fits, positive]; rfl⟩
      · next isNegative =>
          rw [Bool.not_eq_true] at isNegative
          split at made
          all_goals
            next small =>
              cases made
              exact ⟨rfl, fun more => by simp [wholeNumber, fits, isNegative, small]⟩

/-- A fraction and an exponent, each of which may be missing. -/
def IsScaling (text : Input) : Prop :=
  ∃ fraction exponent, IsFraction fraction ∧ IsExponent exponent ∧ text = fraction ++ exponent

theorem IsExponent.head?_ne_point {exponent rest : Input} (isExponent : IsExponent exponent)
    (ends : EndsNumber rest) : (exponent ++ rest).head? ≠ Option.some point := by
  intro isPoint
  cases isExponent with
  | none => exact (ends _ isPoint).2.1 rfl
  | some isMark _ =>
      obtain rfl := Option.some.inj isPoint
      exact absurd isMark (by decide)

theorem readAfterWhole_readsTexts (digits leftOut : Nat) :
    ReadsTexts EndsNumber IsScaling fun input rest =>
      readAfterWhole negative digits leftOut input = .ok (number, rest) := by
  have elsewhere (input : Input) (noPoint : input.head? ≠ some point) :
      readAfterWhole negative digits leftOut input =
        readExponentOr (wholeNumber negative digits leftOut) negative digits leftOut input := by
    cases input with
    | nil => rfl
    | cons byte input =>
        have notPoint : byte ≠ point := by simpa using noPoint
        simp [readAfterWhole, readExponentOr, notPoint]
  intro input rest ends read
  by_cases noPoint : input.head? ≠ some point
  · rw [elsewhere input noPoint] at read
    obtain ⟨exponent, isExponent, rfl, again⟩ :=
      readExponentOr_readsTexts wholeNumber_eq_ok _ _ _ _ ends read
    refine ⟨_, ⟨[], exponent, .none, isExponent, rfl⟩, by simp, fun more endsMore => ?_⟩
    beta_reduce
    rw [List.nil_append, elsewhere _ (isExponent.head?_ne_point endsMore)]
    exact again more endsMore
  · obtain ⟨tail, rfl⟩ : ∃ tail, input = point :: tail := by
      cases input with
      | nil => simp at noPoint
      | cons byte tail => exact ⟨tail, by simpa using noPoint⟩
    simp only [readAfterWhole, beq_self_eq_true, if_true] at read
    obtain ⟨text, ⟨fraction, exponent, isDigits, isExponent, rfl⟩, rfl, again⟩ :=
      readFraction_readsTexts _ _ _ _ ends read
    refine ⟨_, ⟨_, exponent, .some isDigits, isExponent, rfl⟩, by simp, fun more endsMore => ?_⟩
    have split :
        point :: fraction ++ exponent ++ more = point :: (fraction ++ exponent ++ more) := rfl
    rw [split]
    simp only [readAfterWhole, beq_self_eq_true, if_true]
    exact again more endsMore

/-- What may follow the whole digits of a number does not go on with them. -/
theorem IsScaling.endsDigits {scaling rest : Input} (isScaling : IsScaling scaling)
    (ends : EndsNumber rest) : EndsDigits (scaling ++ rest) := by
  rcases isScaling with ⟨fraction, exponent, isFraction, isExponent, rfl⟩
  rw [List.append_assoc]
  exact isFraction.endsDigits isExponent ends

theorem IsScaling.magnitude {whole scaling : Input} (isScaling : IsScaling scaling)
    (isWhole : IsWhole whole) : IsMagnitude (whole ++ scaling) := by
  rcases isScaling with ⟨fraction, exponent, isFraction, isExponent, rfl⟩
  exact ⟨whole, fraction, exponent, isWhole, isFraction, isExponent, rfl⟩

theorem readMagnitude_zero {rest : Input} (ends : EndsDigits rest) :
    readMagnitude negative (digitZero :: rest) = readAfterWhole negative 0 0 rest := by
  cases rest with
  | nil => rfl
  | cons byte rest => simp [readMagnitude, ends byte rfl]

theorem readMagnitude_digits {first : UInt8} {digits rest : Input}
    (notZero : ¬(first == digitZero) = true) (decimal : isDigit first = true)
    (all : ∀ byte ∈ digits, isDigit byte = true) (ends : EndsDigits rest) :
    readMagnitude negative (first :: (digits ++ rest)) =
      readAfterWhole negative (gather 0 (first :: digits)).1 (gather 0 (first :: digits)).2
        rest := by
  rw [readMagnitude.eq_def]
  simp only [notZero, Bool.false_eq_true, if_false, decimal, if_true, spanDigits,
    takeDigits_append all ends, dropDigits_append all ends]

theorem readMagnitude_readsTexts :
    ReadsTexts EndsNumber IsMagnitude fun input rest =>
      readMagnitude negative input = .ok (number, rest) := by
  intro input rest ends read
  cases input with
  | nil => cases read
  | cons byte input =>
      rw [readMagnitude.eq_def] at read
      simp only at read
      split at read
      · next isZero =>
          obtain rfl := eq_of_beq isZero
          have behind : readAfterWhole negative 0 0 input = .ok (number, rest) := by
            cases input with
            | nil => exact read
            | cons after tail =>
                simp only at read
                split at read
                · cases read
                · exact read
          obtain ⟨scaling, isScaling, rfl, again⟩ := readAfterWhole_readsTexts _ _ _ _ ends behind
          refine ⟨_, isScaling.magnitude (.inl rfl), rfl, fun more endsMore => ?_⟩
          exact (readMagnitude_zero (isScaling.endsDigits endsMore)).trans (again more endsMore)
      · next notZero =>
          split at read
          · next decimal =>
              obtain ⟨digits, left, spanned, rfl, all, -⟩ := exists_digits input
              rw [spanned] at read
              obtain ⟨scaling, isScaling, rfl, again⟩ := readAfterWhole_readsTexts _ _ _ _ ends read
              have isDigits : Digits (byte :: digits) := ⟨by simp, by simpa [decimal] using all⟩
              refine ⟨_, isScaling.magnitude (.inr ⟨isDigits, by simpa using notZero⟩), by simp,
                fun more endsMore => ?_⟩
              beta_reduce
              rw [List.append_assoc, List.cons_append, readMagnitude_digits notZero decimal all
                (isScaling.endsDigits endsMore)]
              exact again more endsMore
          · cases read

theorem readNumber_readsTexts :
    ReadsTexts EndsNumber IsNumber fun input rest => readNumber input = .ok (number, rest) := by
  intro input rest ends read
  cases input with
  | nil => cases read
  | cons byte input =>
      rw [readNumber] at read
      split at read
      · next isMinus =>
          obtain rfl := eq_of_beq isMinus
          obtain ⟨text, isMagnitude, rfl, again⟩ := readMagnitude_readsTexts _ _ ends read
          refine ⟨_, .inr ⟨text, isMagnitude, rfl⟩, rfl, fun more endsMore => ?_⟩
          simp only [List.cons_append, readNumber, beq_self_eq_true, if_true]
          exact again more endsMore
      · obtain ⟨text, isMagnitude, split, again⟩ := readMagnitude_readsTexts _ _ ends read
        refine ⟨_, .inl isMagnitude, split, fun more endsMore => ?_⟩
        obtain ⟨first, others, rfl, decimal⟩ := isMagnitude.opens
        have notMinus : first ≠ minus := by
          rintro rfl
          exact absurd decimal (by decide)
        simp only [List.cons_append, readNumber, beq_iff_eq, notMinus, if_false]
        exact again more endsMore

end Numbers

/-! ## Natural numbers -/

section Naturals

variable {negative : Bool} {digits : Nat} {power : Int} {value : Nat}

theorem makeDouble_ne_integer (left : Input) (number : Int) :
    makeDouble negative digits power left ≠ .ok (.integer number, rest) := by
  rw [makeDouble]
  split <;> simp

theorem readExponent_ne_integer (input : Input) (number : Int) :
    readExponent negative digits power input ≠ .ok (.integer number, rest) := by
  intro read
  rw [readExponent] at read
  split at read
  · cases read
  · split at read
    · cases read
    · split at read
      · exact makeDouble_ne_integer _ _ read
      · split at read <;> cases read

theorem readFraction_ne_integer {leftOut : Nat} (input : Input) (number : Int) :
    readFraction negative digits leftOut input ≠ .ok (.integer number, rest) := by
  intro read
  rw [readFraction] at read
  split at read
  · cases read
  · cases read
  · dsimp only at read
    split at read
    · split at read
      · exact readExponent_ne_integer _ _ read
      · exact makeDouble_ne_integer _ _ read
    · exact makeDouble_ne_integer _ _ read

/-- Only whole digits without a sign that all were gathered make up a natural number. -/
theorem natural_of_readAfterWhole {leftOut : Nat}
    (read : readAfterWhole negative digits leftOut input = .ok (.integer value, rest)) :
    negative = false ∧ leftOut = 0 ∧ digits = value ∧ input = rest := by
  have whole : wholeNumber negative digits leftOut input = .ok (.integer value, rest) := by
    rw [readAfterWhole.eq_def] at read
    split at read
    · split at read
      · exact absurd read (readFraction_ne_integer _ _)
      · split at read
        · exact absurd read (readExponent_ne_integer _ _)
        · exact read
    · exact read
  rw [wholeNumber] at whole
  split at whole
  · exact absurd whole (makeDouble_ne_integer _ _)
  · next all =>
      split at whole
      · next noSign =>
          injection whole with same
          injection same with same isRest
          injection same with same
          exact ⟨by simpa using noSign, by simpa using all, Int.ofNat_inj.mp same, isRest⟩
      · split at whole
        · next small =>
            injection whole with same
            injection same with same
            injection same with same
            have positive : digits ≠ 0 := by
              rintro rfl
              simp at small
            omega
        · cases whole

/-- A natural number is read from the text in which it is written. -/
theorem natural_of_readMagnitude
    (read : readMagnitude negative input = .ok (.integer value, rest)) :
    negative = false ∧ value < Word.size ∧ input = writeNatural value ++ rest := by
  cases input with
  | nil => cases read
  | cons byte input =>
      rw [readMagnitude.eq_def] at read
      simp only at read
      split at read
      · next isZero =>
          obtain rfl := eq_of_beq isZero
          have behind : readAfterWhole negative 0 0 input = .ok (.integer value, rest) := by
            cases input with
            | nil => exact read
            | cons after tail =>
                simp only at read
                split at read
                · cases read
                · exact read
          obtain ⟨noSign, -, rfl, rfl⟩ := natural_of_readAfterWhole behind
          exact ⟨noSign, by decide, rfl⟩
      · next notZero =>
          split at read
          · next decimal =>
              obtain ⟨more, left, spanned, rfl, all, -⟩ := exists_digits input
              rw [spanned] at read
              obtain ⟨noSign, gathered, isValue, rfl⟩ := natural_of_readAfterWhole read
              have fits := digitsValue_lt_of_gather (by decide) gathered
              rw [gather_eq_digitsValue fits] at isValue
              have written := writeNatural_digitsValue (List.cons_ne_nil byte more)
                (by simpa [decimal] using all) (by simpa using notZero)
              subst isValue
              exact ⟨noSign, fits, by rw [written.2, List.cons_append]⟩
          · cases read

theorem natural_of_readNumber (read : readNumber input = .ok (.integer value, rest)) :
    value < Word.size ∧ input = writeNatural value ++ rest := by
  cases input with
  | nil => cases read
  | cons byte input =>
      rw [readNumber] at read
      split at read
      · exact absurd (natural_of_readMagnitude read).1 (by decide)
      · exact (natural_of_readMagnitude read).2

end Naturals

/-! ## Strings -/

section Strings

variable {input rest : Input} {bytes content : List UInt8} {key : String}

theorem readTrailing_eq_ok {leading : Nat} (read : readTrailing leading input = .ok (bytes, rest)) :
    ∃ escape, IsEscape escape ∧ input = backslash :: (escape ++ rest) ∧
      ∀ more, readTrailing leading (backslash :: (escape ++ more)) = .ok (bytes, more) := by
  unfold readTrailing at read
  split at read
  · cases read
  · next byte tail =>
      split at read
      · cases read
      · next isBackslash =>
          obtain rfl : byte = backslash := by simpa using isBackslash
          split at read
          · cases read
          · next letter behind =>
              split at read
              · cases read
              · next isUnicode =>
                  obtain rfl : letter = 0x75 := by simpa using isUnicode
                  split at read
                  · cases read
                  · next trailing left readUnit =>
                      split at read
                      · next inRange =>
                          obtain ⟨rfl, rfl⟩ := Prod.mk.inj (Except.ok.inj read)
                          obtain ⟨first, second, third, fourth, isUnit, rfl⟩ :=
                            readHexUnit_eq_ok_iff.mp readUnit
                          refine ⟨_, .unicode isUnit, rfl, fun more => ?_⟩
                          simp [readTrailing, readHexUnit, isUnit, inRange]
                      · cases read

/-- What follows the `u` of an escape, including the second escape of a pair of surrogates. -/
theorem readUnicode_eq_ok (read : readUnicode input = .ok (bytes, rest)) :
    ∃ text, (∀ others, Spelled others → Spelled (backslash :: 0x75 :: (text ++ others))) ∧
      input = text ++ rest ∧ ∀ more, readUnicode (text ++ more) = .ok (bytes, more) := by
  rw [readUnicode] at read
  split at read
  · cases read
  · next unit left readUnit =>
      obtain ⟨first, second, third, fourth, isUnit, rfl⟩ := readHexUnit_eq_ok_iff.mp readUnit
      split at read
      · cases read
      · next notTrailing =>
          split at read
          · next leads =>
              obtain ⟨escape, isEscape, rfl, again⟩ := readTrailing_eq_ok read
              refine ⟨[first, second, third, fourth, backslash] ++ escape,
                fun others spelled => ?_, rfl, fun more => ?_⟩
              · exact .escape (.unicode isUnit) (.escape isEscape spelled)
              · simp [readUnicode, readHexUnit, isUnit, notTrailing, leads, again more]
          · next single =>
              cases read
              refine ⟨[first, second, third, fourth], fun others spelled => ?_, rfl, fun more => ?_⟩
              · exact .escape (.unicode isUnit) spelled
              · simp [readUnicode, readHexUnit, isUnit, notTrailing, single]

/-- The reader of an escape takes one, or the two of a pair of surrogates. -/
theorem readEscape_eq_ok (read : readEscape input = .ok (bytes, rest)) :
    ∃ escape, (∀ others, Spelled others → Spelled (backslash :: (escape ++ others))) ∧
      input = escape ++ rest ∧ ∀ more, readEscape (escape ++ more) = .ok (bytes, more) := by
  unfold readEscape at read
  split at read
  · cases read
  · next letter tail =>
      split at read
      · next byte isShort =>
          cases read
          refine ⟨[letter], fun others spelled => .escape (.short ?_) spelled, rfl, fun more => ?_⟩
          · simp [isShort]
          · simp [readEscape, isShort]
      · next notShort =>
          split at read
          · next isUnicode =>
              obtain rfl := eq_of_beq isUnicode
              obtain ⟨text, spells, rfl, again⟩ := readUnicode_eq_ok read
              refine ⟨0x75 :: text, spells, rfl, fun more => ?_⟩
              simp [readEscape, notShort, again more]
          · cases read

/-- The reader of a string takes what is spelled up to its closing quotation mark. -/
theorem readContent_eq_ok (read : readContent input = .ok (content, rest)) :
    ∃ text, Spelled text ∧ input = text ++ rest ∧
      ∀ more, readContent (text ++ more) = .ok (content, more) := by
  fun_induction readContent input generalizing content rest with
  | case1 | case3 | case4 | case6 | case7 => cases read
  | case2 byte tail isQuote =>
      cases read
      obtain rfl := eq_of_beq isQuote
      exact ⟨[quote], .close, rfl, fun more => by simp [readContent]⟩
  | case5 byte tail _ isBackslash bytes more escaped _ content left behind ih =>
      cases read
      obtain rfl := eq_of_beq isBackslash
      obtain ⟨escape, spells, rfl, escapedAgain⟩ := readEscape_eq_ok escaped
      obtain ⟨text, spelled, rfl, again⟩ := ih behind
      refine ⟨_, spells text spelled, by simp, fun others => ?_⟩
      rw [List.cons_append, List.append_assoc, readContent_backslash (escapedAgain _), again]
      rfl
  | case8 byte tail notQuote notBackslash notControl content left behind ih =>
      cases read
      obtain ⟨text, spelled, rfl, again⟩ := ih behind
      have isPlain : IsPlain byte :=
        ⟨by simpa using notQuote, by simpa using notBackslash, notControl⟩
      refine ⟨_, .plain isPlain spelled, rfl, fun more => ?_⟩
      rw [List.cons_append, readContent_cons_of_isPlain isPlain, again]
      rfl

theorem readString_eq_ok (read : readString input = .ok (key, rest)) :
    ∃ text, Spelled text ∧ input = text ++ rest ∧
      ∀ more, readString (text ++ more) = .ok (key, more) := by
  rw [readString] at read
  split at read
  · cases read
  · next content left readContent =>
      split at read
      · next key wellFormed =>
          cases read
          obtain ⟨text, spelled, rfl, again⟩ := readContent_eq_ok readContent
          refine ⟨text, spelled, rfl, fun more => ?_⟩
          rw [readString, again more]
          simp only [wellFormed]
      · cases read

end Strings

end TraceStore.Json
