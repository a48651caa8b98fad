import TraceStore.Proofs.Json.Lexemes

/-!
# What is passed over

A member that is not wanted is passed over by a loop with a stack of open brackets.  It takes
exactly the values: `skipValue_append` says that every value is passed over to its last byte,
whatever its shape and however deep it is, and `exists_value_of_skipValue` that nothing else is.

For the first a value inside brackets is one stretch of the loop, after which it goes on behind the
value (`resume`).  For the second, what the loop takes after a value is described by what closes the
brackets that are open (`Closes`).
-/

namespace TraceStore.Json

/-! ## Heads -/

section Heads

variable {input rest : Input}

/-- A scalar, or the byte that opens a bracket. -/
inductive IsHeadOf : Option Bracket → Input → Prop where
  | word {text : Input} (isWord : IsWord text) : IsHeadOf none text
  | number {text : Input} (isNumber : IsNumber text) : IsHeadOf none text
  | text {content : Input} (spelled : Spelled content) : IsHeadOf none (quote :: content)
  | bracket (bracket : Bracket) : IsHeadOf (some bracket) [bracket.opening]

theorem IsHeadOf.value {text : Input} (scalar : IsHeadOf none text) : IsValue text := by
  cases scalar with
  | word isWord => exact .word isWord
  | number isNumber => exact .number isNumber
  | text spelled => exact .text spelled

/-- What the loop passes over at once. -/
theorem head_of_skipHead {opened : Option Bracket} (skipped : skipHead input = .ok (opened, rest)) :
    ∃ gap head, Blank gap ∧ IsHeadOf opened head ∧ input = gap ++ (head ++ rest) := by
  obtain ⟨gap, blank, split⟩ := exists_blank input
  refine ⟨gap, ?_⟩
  rw [skipHead] at skipped
  split at skipped
  · cases skipped
  · next byte tail start =>
      rw [start] at split
      suffices ∃ head, IsHeadOf opened head ∧ byte :: tail = head ++ rest by
        rcases this with ⟨head, isHead, same⟩
        exact ⟨head, blank, isHead, same ▸ split⟩
      split at skipped
      · next value letters isWord =>
          obtain ⟨left, read, same⟩ := map_eq_ok_iff.mp skipped
          cases same
          rw [readWord_eq_ok_iff] at read
          exact ⟨_, .word ⟨byte, value, letters, isWord, rfl⟩, by simp [read]⟩
      · split at skipped
        · next isMinus =>
            obtain ⟨left, read, same⟩ := map_eq_ok_iff.mp skipped
            cases same
            obtain ⟨text, isMagnitude, rfl⟩ := isMagnitude_of_skipMagnitude read
            exact ⟨_, .number (.inr ⟨text, isMagnitude, rfl⟩), by simp [eq_of_beq isMinus]⟩
        · split at skipped
          · obtain ⟨left, read, same⟩ := map_eq_ok_iff.mp skipped
            cases same
            obtain ⟨text, isMagnitude, split⟩ := isMagnitude_of_skipMagnitude read
            exact ⟨_, .number (.inl isMagnitude), split⟩
          · split at skipped
            · next isQuote =>
                obtain ⟨left, read, same⟩ := map_eq_ok_iff.mp skipped
                cases same
                obtain ⟨content, spelled, rfl⟩ := spelled_of_skipString read
                exact ⟨_, .text spelled, by simp [eq_of_beq isQuote]⟩
            · split at skipped
              · next isBracket =>
                  cases skipped
                  exact ⟨_, .bracket .list, by simp [eq_of_beq isBracket, Bracket.opening]⟩
              · split at skipped
                · next isBrace =>
                    cases skipped
                    exact ⟨_, .bracket .object, by simp [eq_of_beq isBrace, Bracket.opening]⟩
                · cases skipped

theorem skipHead_append {gap head : Input} (blank : Blank gap) (scalar : IsHeadOf none head)
    (ends : EndsNumber rest) : skipHead (gap ++ (head ++ rest)) = .ok (none, rest) := by
  rw [skipHead, skipBlank_append blank]
  cases scalar with
  | word isWord =>
      rcases isWord with ⟨byte, value, letters, isWord, rfl⟩
      rw [List.cons_append, (opens_of_word? isWord).skipBlank]
      simp only [isWord]
      rw [readWord_eq_ok_iff.mpr rfl]
      rfl
  | number isNumber =>
      rcases isNumber with isMagnitude | ⟨magnitude, isMagnitude, rfl⟩
      · have skipped := skipMagnitude_append isMagnitude ends
        obtain ⟨byte, more, rfl, decimal⟩ := isMagnitude.opens
        have notMinus : (byte == minus) = false := by
          rw [beq_eq_false_iff_ne]
          rintro rfl
          exact absurd decimal (by decide)
        rw [List.cons_append] at skipped ⊢
        rw [(opens_of_isDigit decimal).skipBlank]
        have word : word? byte = none := (word?_of_opensNumber (by simp [decimal])).1
        simp [word, decimal, notMinus, skipped, Except.map]
      · rw [List.cons_append, skipBlank_cons (by decide)]
        have word : word? minus = none := by decide
        simp [word, skipMagnitude_append isMagnitude ends, Except.map]
  | text spelled =>
      rw [List.cons_append, skipBlank_cons (by decide)]
      have word : word? quote = none := by decide
      have notMinus : (quote == minus) = false := by decide
      have notDigit : isDigit quote = false := by decide
      simp [word, notMinus, notDigit, skipString_append spelled, Except.map]

end Heads

/-! ## Between values -/

section Between

variable {bracket : Bracket} {gap head value rest : Input}

/-- The key of a value is passed over, up to blanks in front of the value. -/
theorem skipKey_append (blank : Blank gap) (isHead : bracket.IsHead head) (value rest : Input) :
    ∃ after, Blank after ∧
      skipKey bracket (gap ++ (head ++ (value ++ rest))) = .ok (after ++ (value ++ rest)) := by
  cases bracket with
  | list => exact ⟨gap ++ head, blank.append isHead, by simp [skipKey]⟩
  | object =>
      rcases isHead with ⟨content, before, after, spelled, blankBefore, blankAfter, rfl⟩
      refine ⟨after, blankAfter, ?_⟩
      have split : quote :: (content ++ (before ++ colon :: after)) ++ (value ++ rest) =
          quote :: (content ++ (before ++ colon :: (after ++ (value ++ rest)))) := by simp
      rw [split, skipKey, skipBlank_append blank, skipBlank_cons (by decide)]
      simp only [bne_self_eq_false, Bool.false_eq_true, if_false, skipString_append spelled]
      rw [skipBlank_append blankBefore, skipBlank_cons (by decide)]
      simp

/-- The loop goes on to the value of the next part. -/
theorem settle_append {first : Bool} {lead : Input} (separates : Separates first lead)
    (isHead : bracket.IsHead head) (isValue : IsValue value) (rest : Input) (outer : List Bracket) :
    ∃ after, Blank after ∧
      settle (!first) (bracket :: outer) (lead ++ (head ++ (value ++ rest))) =
        .ok (bracket :: outer, after ++ (value ++ rest)) := by
  cases separates with
  | first blank =>
      obtain ⟨byte, more, after, start, opens, blankAfter, skipped⟩ :
          ∃ byte more after, skipBlank (lead ++ (head ++ (value ++ rest))) = byte :: more ∧
            Opens byte ∧ Blank after ∧
            skipKey bracket (byte :: more) = .ok (after ++ (value ++ rest)) := by
        cases bracket with
        | list =>
            obtain ⟨byte, more, rfl, opens⟩ := isValue.opens
            refine ⟨byte, more ++ rest, [], ?_, opens, blank_nil, rfl⟩
            rw [skipBlank_append blank, skipBlank_append isHead, List.cons_append, opens.skipBlank]
        | object =>
            obtain ⟨after, blankAfter, skipped⟩ := skipKey_append blank_nil isHead value rest
            rcases isHead with ⟨content, before, behind, -, -, -, rfl⟩
            refine ⟨quote, _, after, ?_, by decide, blankAfter, skipped⟩
            rw [skipBlank_append blank, List.cons_append, skipBlank_cons (by decide)]
            rfl
      have notClosing : byte ≠ bracket.closing := by
        cases bracket
        · exact opens.2.2.1
        · exact opens.2.2.2
      refine ⟨after, blankAfter, ?_⟩
      rw [settle, start]
      simp [notClosing, skipped, Except.map]
  | next blankBefore blank =>
      obtain ⟨after, blankAfter, skipped⟩ := skipKey_append blank isHead value rest
      refine ⟨after, blankAfter, ?_⟩
      rw [List.append_assoc, List.cons_append, settle, skipBlank_append blankBefore,
        skipBlank_cons (by decide)]
      simp [skipped, Except.map]

/-- What the loop does behind a value, or behind an opening bracket. -/
def resume (afterValue : Bool) (rounds : Nat) (enclosing : List Bracket) (input : Input) :
    Except Fault Input :=
  match settle afterValue enclosing input with
  | .error fault => .error fault
  | .ok ([], rest) => .ok rest
  | .ok (enclosing, rest) => skipRounds rounds enclosing rest

theorem skipRounds_succ (rounds : Nat) (enclosing : List Bracket) (input : Input) :
    skipRounds (rounds + 1) enclosing input =
      match skipHead input with
      | .error fault => .error fault
      | .ok (none, rest) => resume true rounds enclosing rest
      | .ok (some bracket, rest) => resume false rounds (bracket :: enclosing) rest := by
  rw [skipRounds]
  split
  · next refused => rw [refused]
  · next opened rest passed =>
      rw [passed]
      cases opened <;> rfl

theorem settled_of_resume {afterValue : Bool} {rounds : Nat} {enclosing : List Bracket}
    {input : Input} (resumed : resume afterValue rounds enclosing input = .ok rest) :
    ∃ left more, settle afterValue enclosing input = .ok (left, more) ∧ (left = [] → more = rest) ∧
      (left ≠ [] → skipRounds rounds left more = .ok rest) := by
  rw [resume] at resumed
  split at resumed
  · cases resumed
  · next more settled =>
      obtain rfl := Except.ok.inj resumed
      exact ⟨[], more, settled, fun _ => rfl, fun notNil => absurd rfl notNil⟩
  · next left more notNil settled =>
      exact ⟨left, more, settled, fun isNil => absurd isNil notNil, fun _ => resumed⟩

theorem skipRounds_scalar {rounds : Nat} {enclosing : List Bracket} (blank : Blank gap)
    (scalar : IsHeadOf none head) (ends : EndsNumber rest) :
    skipRounds (rounds + 1) enclosing (gap ++ (head ++ rest)) =
      resume true rounds enclosing rest := by
  rw [skipRounds_succ, skipHead_append blank scalar ends]

theorem skipRounds_bracket {rounds : Nat} {enclosing : List Bracket} (blank : Blank gap) :
    skipRounds (rounds + 1) enclosing (gap ++ bracket.opening :: rest) =
      resume false rounds (bracket :: enclosing) rest := by
  have opened : skipHead (gap ++ bracket.opening :: rest) = .ok (some bracket, rest) := by
    rw [skipHead, skipBlank_append blank]
    cases bracket <;> rfl
  rw [skipRounds_succ, opened]

/-- What stands behind a part inside a bracket ends a number. -/
theorem Spread.endsNumber {parts : List Input} {inner : Input} (spread : Spread false parts inner)
    (bracket : Bracket) (rest : Input) : EndsNumber (inner ++ bracket.closing :: rest) := by
  have closing : EndsNumber (bracket.closing :: rest) := by
    cases bracket <;> exact endsNumber_cons _ (by decide)
  have behindBlank (gap tail : Input) (blank : Blank gap) (ends : EndsNumber tail) :
      EndsNumber (gap ++ tail) := by
    cases gap with
    | nil => exact ends
    | cons byte gap =>
        have isBlank : isBlank byte = true := blank byte (by simp)
        apply endsNumber_cons
        simp only [Json.isBlank, Bool.or_eq_true, beq_iff_eq] at isBlank
        rcases isBlank with ((rfl | rfl) | rfl) | rfl <;> decide
  cases spread with
  | done blank => exact behindBlank _ _ blank closing
  | part separates _ =>
      cases separates with
      | next blankBefore _ =>
          rw [List.append_assoc, List.append_assoc, List.cons_append]
          exact behindBlank _ _ blankBefore (endsNumber_comma _)

end Between

/-! ## Values -/

/-- A text that the loop passes over in a stretch of rounds, at most one for every byte. -/
def Passed (text : Input) : Prop :=
  ∃ used ≤ text.length, ∀ gap rest enclosing rounds, Blank gap → EndsNumber rest →
    skipRounds (used + rounds) enclosing (gap ++ (text ++ rest)) =
      resume true rounds enclosing rest

theorem resume_spread {bracket : Bracket} {first : Bool} {members : List (Input × Input)}
    {inner : Input} (heads : ∀ member ∈ members, bracket.IsHead member.1)
    (values : ∀ member ∈ members, IsValue member.2)
    (passed : ∀ member ∈ members, Passed member.2)
    (spread : Spread first (members.map fun member => member.1 ++ member.2) inner) :
    ∃ used ≤ inner.length, ∀ rest outer rounds,
      resume (!first) (used + rounds) (bracket :: outer) (inner ++ bracket.closing :: rest) =
        resume true rounds outer rest := by
  generalize same : members.map (fun member => member.1 ++ member.2) = parts at spread
  induction spread generalizing members with
  | @done first gap blank =>
      refine ⟨0, Nat.zero_le _, fun rest outer rounds => ?_⟩
      rw [Nat.zero_add, resume, settle, skipBlank_append blank]
      cases bracket <;> rfl
  | @part first lead part inner parts separates others ih =>
      cases members with
      | nil => cases same
      | cons member members =>
          obtain ⟨rfl, rfl⟩ := List.cons.inj same
          simp only [List.forall_mem_cons] at heads values passed
          obtain ⟨inside, _, go⟩ := ih heads.2 values.2 passed.2 rfl
          obtain ⟨used, _, pass⟩ := passed.1
          refine ⟨used + inside, by simp; omega, fun rest outer rounds => ?_⟩
          obtain ⟨after, blankAfter, settled⟩ :=
            settle_append separates heads.1 values.1 (inner ++ bracket.closing :: rest) outer
          simp only [List.append_assoc, resume, settled]
          rw [Nat.add_assoc, pass _ _ _ _ blankAfter (others.endsNumber bracket rest)]
          exact go rest outer rounds

theorem IsValue.passed {text : Input} (value : IsValue text) : Passed text := by
  have scalar {text : Input} (notEmpty : text ≠ []) (scalar : IsHeadOf none text) :
      Passed text := by
    refine ⟨1, List.length_pos_iff.mpr notEmpty, fun gap rest enclosing rounds blank ends => ?_⟩
    rw [Nat.add_comm, skipRounds_scalar blank scalar ends]
  have notEmpty {text : Input} (value : IsValue text) : text ≠ [] := by
    obtain ⟨byte, more, rfl, -⟩ := value.opens
    simp
  induction value with
  | word isWord => exact scalar (notEmpty (.word isWord)) (.word isWord)
  | number isNumber => exact scalar (notEmpty (.number isNumber)) (.number isNumber)
  | text spelled => exact scalar (notEmpty (.text spelled)) (.text spelled)
  | bracket bracket members heads values spread passed =>
      obtain ⟨used, _, go⟩ := resume_spread heads values passed spread
      refine ⟨used + 1, by simp; omega, fun gap rest enclosing rounds blank _ => ?_⟩
      rw [Nat.add_right_comm, List.cons_append, skipRounds_bracket blank, List.append_assoc]
      exact go rest enclosing rounds

/-- Every value is passed over to its end. -/
theorem skipValue_append {gap text rest : Input} (blank : Blank gap) (value : IsValue text)
    (ends : EndsNumber rest) : skipValue (gap ++ (text ++ rest)) = .ok rest := by
  obtain ⟨used, short, pass⟩ := value.passed
  have enough : (gap ++ (text ++ rest)).length + 1 =
      used + ((gap ++ (text ++ rest)).length + 1 - used) := by
    simp only [List.length_append]
    omega
  rw [skipValue, enough, pass gap rest [] _ blank ends]
  rfl

/-! ## Nothing else -/

/-- What the loop takes behind a value until every open bracket is closed. -/
inductive Closes : List Bracket → Input → Input → Prop where
  | done {rest : Input} : Closes [] rest rest
  | close {bracket : Bracket} {outer : List Bracket} {gap more rest : Input} (blank : Blank gap)
      (others : Closes outer more rest) :
      Closes (bracket :: outer) (gap ++ bracket.closing :: more) rest
  | next {bracket : Bracket} {outer : List Bracket} {lead head value more rest : Input}
      (separates : Separates false lead) (isHead : bracket.IsHead head) (isValue : IsValue value)
      (others : Closes (bracket :: outer) more rest) :
      Closes (bracket :: outer) (lead ++ (head ++ (value ++ more))) rest

/-- What closes several brackets closes the innermost of them first. -/
theorem Closes.innermost {bracket : Bracket} {outer : List Bracket} {input rest : Input}
    (closes : Closes (bracket :: outer) input rest) :
    ∃ (members : List (Input × Input)) (inner more : Input),
      (∀ member ∈ members, bracket.IsHead member.1) ∧ (∀ member ∈ members, IsValue member.2) ∧
      Spread false (members.map fun member => member.1 ++ member.2) inner ∧
      input = inner ++ bracket.closing :: more ∧ Closes outer more rest := by
  generalize same : bracket :: outer = enclosing at closes
  induction closes with
  | done => cases same
  | @close bracket outer gap more rest blank others _ =>
      obtain ⟨rfl, rfl⟩ := List.cons.inj same
      exact ⟨[], gap, more, by simp, by simp, .done blank, rfl, others⟩
  | @next bracket outer lead head value more rest separates isHead isValue _ ih =>
      obtain ⟨members, inner, more, heads, values, spread, rfl, others⟩ := ih same
      obtain ⟨rfl, rfl⟩ := List.cons.inj same
      refine ⟨(head, value) :: members, _, more, ?_, ?_, .part separates spread, ?_, others⟩
      · exact List.forall_mem_cons.mpr ⟨isHead, heads⟩
      · exact List.forall_mem_cons.mpr ⟨isValue, values⟩
      · simp

theorem head_of_skipKey {bracket : Bracket} {input rest : Input}
    (skipped : skipKey bracket input = .ok rest) :
    ∃ gap head, Blank gap ∧ bracket.IsHead head ∧ input = gap ++ (head ++ rest) := by
  cases bracket with
  | list =>
      cases skipped
      exact ⟨[], [], blank_nil, blank_nil, rfl⟩
  | object =>
      obtain ⟨gap, blank, split⟩ := exists_blank input
      rw [skipKey] at skipped
      split at skipped
      · cases skipped
      · next byte tail start =>
          split at skipped
          · cases skipped
          · next isQuote =>
              obtain rfl : byte = quote := by simpa using isQuote
              split at skipped
              · cases skipped
              · next behind string =>
                  obtain ⟨content, spelled, rfl⟩ := spelled_of_skipString string
                  obtain ⟨before, blankBefore, splitBehind⟩ := exists_blank behind
                  split at skipped
                  · cases skipped
                  · next byte more startBehind =>
                      split at skipped
                      · next isColon =>
                          obtain rfl := eq_of_beq isColon
                          cases skipped
                          rw [startBehind] at splitBehind
                          refine ⟨gap, _, blank,
                            ⟨content, before, [], spelled, blankBefore, blank_nil, rfl⟩, ?_⟩
                          rw [split, start, splitBehind]
                          simp
                      · cases skipped

/-- A bracket that was just opened is closed, or goes on to its first value. -/
theorem first_of_settle {bracket : Bracket} {enclosing left : List Bracket} {input more : Input}
    (settled : settle false (bracket :: enclosing) input = .ok (left, more)) :
    ∃ gap, Blank gap ∧
      ((∃ tail, input = gap ++ bracket.closing :: tail ∧
          settle true enclosing tail = .ok (left, more)) ∨
        ∃ head, bracket.IsHead head ∧ input = gap ++ (head ++ more) ∧
          left = bracket :: enclosing) := by
  obtain ⟨gap, blank, split⟩ := exists_blank input
  rw [settle] at settled
  split at settled
  · cases settled
  · next byte tail start =>
      rw [start] at split
      simp only [Bool.and_false, Bool.false_eq_true, if_false] at settled
      split at settled
      · next isClosing =>
          obtain rfl := eq_of_beq isClosing
          exact ⟨gap, blank, .inl ⟨tail, split, settled⟩⟩
      · obtain ⟨left, skipped, same⟩ := map_eq_ok_iff.mp settled
        cases same
        obtain ⟨before, head, blankBefore, isHead, same⟩ := head_of_skipKey skipped
        refine ⟨gap ++ before, blank.append blankBefore, .inr ⟨head, isHead, ?_, rfl⟩⟩
        rw [split, same, List.append_assoc]

/-- Behind a value separators and closing brackets are taken, up to the next value if a bracket is
left. -/
theorem closes_of_settle {enclosing left : List Bracket} {input more rest : Input}
    (settled : settle true enclosing input = .ok (left, more)) (ended : left = [] → more = rest)
    (goesOn : left ≠ [] → ∃ gap value tail, Blank gap ∧ IsValue value ∧
      more = gap ++ (value ++ tail) ∧ Closes left tail rest) :
    Closes enclosing input rest := by
  induction enclosing generalizing input with
  | nil =>
      cases settled
      obtain rfl := ended rfl
      exact .done
  | cons bracket outer ih =>
      obtain ⟨gap, blank, split⟩ := exists_blank input
      rw [settle] at settled
      split at settled
      · cases settled
      · next byte tail start =>
          rw [split, start]
          split at settled
          · next isComma =>
              obtain rfl : byte = comma := by simpa using isComma
              obtain ⟨left, skipped, same⟩ := map_eq_ok_iff.mp settled
              cases same
              obtain ⟨before, head, blankBefore, isHead, rfl⟩ := head_of_skipKey skipped
              obtain ⟨after, value, behind, blankAfter, isValue, rfl, closes⟩ := goesOn (by simp)
              simpa using
                Closes.next (.next blank blankBefore) (isHead.append blankAfter) isValue closes
          · split at settled
            · next isClosing =>
                obtain rfl := eq_of_beq isClosing
                exact .close blank (ih settled)
            · cases settled

/-- The loop takes a value and what closes the brackets around it. -/
theorem value_of_skipRounds {rounds : Nat} {enclosing : List Bracket} {input rest : Input}
    (skipped : skipRounds rounds enclosing input = .ok rest) : ∃ gap value tail,
      Blank gap ∧ IsValue value ∧ input = gap ++ (value ++ tail) ∧ Closes enclosing tail rest := by
  -- An opening bracket pushes itself, so its content is found by the induction as part of what
  -- closes the brackets, and `Closes.innermost` takes it off again.
  induction rounds generalizing enclosing input with
  | zero => cases skipped
  | succ rounds ih =>
      have closes {enclosing left : List Bracket} {input more : Input}
          (settled : settle true enclosing input = .ok (left, more))
          (ended : left = [] → more = rest)
          (goesOn : left ≠ [] → skipRounds rounds left more = .ok rest) :
          Closes enclosing input rest :=
        closes_of_settle settled ended fun notNil => ih (goesOn notNil)
      rw [skipRounds_succ] at skipped
      split at skipped
      · cases skipped
      · next behind passed =>
          obtain ⟨gap, head, blank, isHead, rfl⟩ := head_of_skipHead passed
          obtain ⟨left, more, settled, ended, goesOn⟩ := settled_of_resume skipped
          exact ⟨gap, head, behind, blank, isHead.value, rfl, closes settled ended goesOn⟩
      · next bracket behind passed =>
          obtain ⟨gap, head, blank, isHead, rfl⟩ := head_of_skipHead passed
          cases isHead
          obtain ⟨left, more, settled, ended, goesOn⟩ := settled_of_resume skipped
          obtain ⟨before, blankBefore, ⟨tail, rfl, closed⟩ | ⟨first, isFirst, rfl, rfl⟩⟩ :=
            first_of_settle settled
          · have isValue := IsValue.bracket bracket [] (by simp) (by simp)
              (.done blankBefore)
            exact ⟨gap, _, tail, blank, isValue, by simp, closes closed ended goesOn⟩
          · obtain ⟨after, value, tail, blankAfter, isValue, rfl, closesInner⟩ :=
              ih (goesOn (by simp))
            obtain ⟨members, inner, more, heads, values, spread, rfl, closesOuter⟩ :=
              closesInner.innermost
            have isValue := IsValue.bracket bracket ((first ++ after, value) :: members)
              (List.forall_mem_cons.mpr ⟨isFirst.append blankAfter, heads⟩)
              (List.forall_mem_cons.mpr ⟨isValue, values⟩) (.part (.first blankBefore) spread)
            exact ⟨gap, _, more, blank, isValue, by simp, closesOuter⟩

/-- Nothing but a value is passed over. -/
theorem value_of_skipValue {input rest : Input} (skipped : skipValue input = .ok rest) :
    ∃ gap value, Blank gap ∧ IsValue value ∧ input = gap ++ (value ++ rest) := by
  obtain ⟨gap, value, tail, blank, isValue, split, closes⟩ := value_of_skipRounds skipped
  cases closes
  exact ⟨gap, value, blank, isValue, split⟩

end TraceStore.Json
