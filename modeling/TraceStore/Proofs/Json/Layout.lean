import Mathlib.Data.List.DropRight
import TraceStore.Json.Value
import TraceStore.Proofs.Json.Numbers
import TraceStore.Proofs.Json.Strings

/-!
# Written objects and lists read back

Readers of objects and lists run a step over the parts of a value and know nothing of how it was
laid out.  Here a step is related to a written part: `TakesMember` says that the step reads the
value of a member to its end and what it makes of its state, whatever follows.  A reader whose step
takes all members in turn reads the written object to its end, and the same holds of lists.

So a reader of a whole value is settled by the readers of its parts, and no reader of a part has to
know what surrounds it.
-/

namespace TraceStore.Json

/-! ## Blanks -/

@[simp] theorem skipBlank_space (input : Input) : skipBlank (0x20 :: input) = skipBlank input := rfl

theorem skipBlank_cons {byte : UInt8} (notBlank : isBlank byte = false) (rest : Input) :
    skipBlank (byte :: rest) = byte :: rest := by
  simp [skipBlank, notBlank]

@[simp] theorem skipBlank_skipBlank (input : Input) :
    skipBlank (skipBlank input) = skipBlank input :=
  List.dropWhile_idempotent isBlank input

/-- A line feed and the blanks behind it are dropped. -/
theorem skipBlank_newLine (level : Nat) (input : Input) :
    skipBlank (Value.newLine level ++ input) = skipBlank input := by
  have blank : ∀ byte ∈ Value.newLine level, isBlank byte = true := by
    intro byte member
    simp only [Value.newLine, List.mem_cons, List.mem_replicate] at member
    rcases member with rfl | ⟨-, rfl⟩ <;> rfl
  exact List.dropWhile_append_of_pos blank

theorem endsNumber_cons {byte : UInt8} (rest : Input)
    (other : (isDigit byte || byte == point || isExponentMark byte) = false) :
    EndsNumber (byte :: rest) := by
  intro first isFirst
  obtain rfl : byte = first := Option.some.inj isFirst
  simpa [and_assoc] using other

/-- A number ends at the end of a line. -/
theorem endsNumber_newLine (level : Nat) (rest : Input) :
    EndsNumber (Value.newLine level ++ rest) :=
  endsNumber_cons _ (by decide)

/-- A number ends in front of a comma. -/
theorem endsNumber_comma (rest : Input) : EndsNumber (comma :: rest) :=
  endsNumber_cons rest (by decide)

/-! ## Members -/

variable {σ : Type}

/-- The members that follow others, each on its line. -/
def laterMembers (level : Nat) : List (String × Value) → List UInt8
  | [] => []
  | member :: others => comma :: Value.prettyMembers level (member :: others)

theorem prettyMembers_cons (level : Nat) (key : String) (value : Value)
    (others : List (String × Value)) :
    Value.prettyMembers level ((key, value) :: others) =
      Value.newLine level ++ (writeString key ++
        colon :: 0x20 :: (value.pretty level ++ laterMembers level others)) := by
  cases others with
  | nil => simp [Value.prettyMembers, laterMembers]
  | cons other others => simp [Value.prettyMembers, laterMembers]

theorem length_le_prettyMembers (level : Nat) (members : List (String × Value)) :
    members.length ≤ (Value.prettyMembers level members).length := by
  induction members with
  | nil => simp
  | cons member others ih =>
      rcases member with ⟨key, value⟩
      rw [prettyMembers_cons]
      cases others with
      | nil => simp [Value.newLine]
      | cons other others =>
          simp only [laterMembers, List.length_append, List.length_cons, Value.newLine] at ih ⊢
          omega

/-- A step that reads the value of a member to its end and goes on in a next state. -/
def TakesMember (step : σ → String → Input → σ × Except Fault Input) (level : Nat) (state : σ)
    (key : String) (value : Value) (next : σ) : Prop :=
  ∀ rest, EndsNumber rest →
    step state key (colon :: 0x20 :: (value.pretty level ++ rest)) = (next, .ok rest)

/-- A step that reads members one after the other. -/
inductive TakesMembers (step : σ → String → Input → σ × Except Fault Input) (level : Nat) :
    σ → List (String × Value) → σ → Prop where
  | nil (state : σ) : TakesMembers step level state [] state
  | cons {state next last : σ} {key : String} {value : Value} {others : List (String × Value)} :
      TakesMember step level state key value next → TakesMembers step level next others last →
      TakesMembers step level state ((key, value) :: others) last

theorem nextKey_newLine_writeString (level : Nat) (key : String) (rest : Input) :
    nextKey true (Value.newLine level ++ (writeString key ++ rest)) = .ok (some key, rest) := by
  rw [nextKey, skipBlank_newLine, writeString_append, skipBlank_cons (by decide)]
  have notBrace : (quote == closeBrace) = false := by decide
  have notComma : (quote == comma) = false := by decide
  simp [notBrace, notComma, readString_escaped, Except.map]

theorem nextKey_comma_newLine_writeString (level : Nat) (key : String) (rest : Input) :
    nextKey false (comma :: (Value.newLine level ++ (writeString key ++ rest))) =
      .ok (some key, rest) := by
  have notBrace : (comma == closeBrace) = false := by decide
  rw [nextKey, skipBlank_cons (by decide)]
  simp only [notBrace, beq_self_eq_true, Bool.not_false, Bool.and_self, Bool.false_eq_true,
    if_false, if_true]
  rw [skipBlank_newLine, writeString_append, skipBlank_cons (by decide)]
  simp [readString_escaped, Except.map]

theorem nextKey_closeBrace (first : Bool) (input rest : Input)
    (blank : skipBlank input = closeBrace :: rest) :
    nextKey first input = .ok (none, closeBrace :: rest) := by
  rw [nextKey, blank]
  simp

theorem closeObject_closeBrace (rest : Input) : closeObject (closeBrace :: rest) = .ok rest := by
  rw [closeObject, skipBlank_cons (by decide)]
  simp

/-- A fold goes over later members up to the brace that closes their object. -/
theorem foldMembers_laterMembers {step : σ → String → Input → σ × Except Fault Input}
    {level : Nat} {state last : σ} {members : List (String × Value)}
    (takes : TakesMembers step level state members last) (outer : Nat) (rest : Input) :
    ∀ rounds, members.length < rounds →
      foldMembers step rounds false state
          (laterMembers level members ++ (Value.newLine outer ++ closeBrace :: rest)) =
        (last, .ok (closeBrace :: rest)) := by
  induction takes with
  | nil state =>
      intro rounds enough
      rcases Nat.exists_eq_add_one_of_ne_zero (Nat.ne_zero_of_lt enough) with ⟨rounds, rfl⟩
      have next := nextKey_closeBrace false (Value.newLine outer ++ closeBrace :: rest) rest
        (by rw [skipBlank_newLine, skipBlank_cons (by decide)])
      rw [laterMembers, List.nil_append, foldMembers, next]
  | @cons state next last key value others takesFirst _ ih =>
      intro rounds enough
      rcases Nat.exists_eq_add_one_of_ne_zero (Nat.ne_zero_of_lt enough) with ⟨rounds, rfl⟩
      have ends : EndsNumber
          (laterMembers level others ++ (Value.newLine outer ++ closeBrace :: rest)) := by
        cases others with
        | nil => exact endsNumber_newLine outer _
        | cons other others => exact endsNumber_comma _
      rw [laterMembers, prettyMembers_cons, List.cons_append, List.append_assoc, List.append_assoc,
        foldMembers, nextKey_comma_newLine_writeString, List.cons_append, List.cons_append,
        List.append_assoc]
      simp only [takesFirst _ ends]
      exact ih rounds (by simpa using enough)

/-- A reader whose step takes the members of an object reads the written object to its end. -/
theorem readObject_pretty {step : σ → String → Input → σ × Except Fault Input} {level : Nat}
    {state last : σ} {members : List (String × Value)}
    (takes : TakesMembers step (level + 1) state members last) (expected : String) (rest : Input) :
    readObject expected
        (some fun state input => foldMembers step (input.length + 1) true state input) state
        ((Value.object members).pretty level ++ rest) = (last, .ok rest) := by
  have close := closeObject_closeBrace rest
  cases takes with
  | nil state =>
      have next :=
        nextKey_closeBrace true (closeBrace :: rest) rest (skipBlank_cons (by decide) rest)
      rw [Value.pretty, List.cons_append, readObject, skipBlank_cons (by decide)]
      simp only [List.cons_append, List.nil_append, beq_self_eq_true, if_true, foldMembers, next,
        finish, close]
  | @cons state next last key value others takesFirst takesOthers =>
      have ends : EndsNumber (laterMembers (level + 1) others ++
          (Value.newLine level ++ closeBrace :: rest)) := by
        cases others with
        | nil => exact endsNumber_newLine level _
        | cons other others => exact endsNumber_comma _
      have enough : others.length <
          (Value.prettyMembers (level + 1) ((key, value) :: others) ++
            (Value.newLine level ++ closeBrace :: rest)).length := by
        have long := length_le_prettyMembers (level + 1) ((key, value) :: others)
        simp only [List.length_cons, List.length_append] at long ⊢
        omega
      have written : (Value.object ((key, value) :: others)).pretty level ++ rest =
          openBrace :: (Value.prettyMembers (level + 1) ((key, value) :: others) ++
            (Value.newLine level ++ closeBrace :: rest)) := by
        simp [Value.pretty]
      rw [written, readObject, skipBlank_cons (by decide)]
      simp only [beq_self_eq_true, if_true]
      generalize (Value.prettyMembers (level + 1) ((key, value) :: others) ++
        (Value.newLine level ++ closeBrace :: rest)).length = rounds at enough ⊢
      rw [prettyMembers_cons, List.append_assoc, List.append_assoc, foldMembers,
        nextKey_newLine_writeString, List.cons_append, List.cons_append, List.append_assoc]
      simp only [takesFirst _ ends]
      rw [foldMembers_laterMembers takesOthers level rest rounds enough]
      simp only [finish, close]

/-! ## Elements -/

/-- The elements that follow others, each on its line. -/
def laterElements (level : Nat) : List Value → List UInt8
  | [] => []
  | element :: others => comma :: Value.prettyElements level (element :: others)

theorem prettyElements_cons (level : Nat) (element : Value) (others : List Value) :
    Value.prettyElements level (element :: others) =
      Value.newLine level ++ (element.pretty level ++ laterElements level others) := by
  cases others with
  | nil => simp [Value.prettyElements, laterElements]
  | cons other others => simp [Value.prettyElements, laterElements]

theorem length_le_prettyElements (level : Nat) (elements : List Value) :
    elements.length ≤ (Value.prettyElements level elements).length := by
  induction elements with
  | nil => simp
  | cons element others ih =>
      rw [prettyElements_cons]
      cases others with
      | nil => simp [Value.newLine]
      | cons other others =>
          simp only [laterElements, List.length_append, List.length_cons, Value.newLine] at ih ⊢
          omega

/-- A byte that can open an element of a list: neither a blank nor the bracket that closes it. -/
def opensElement (byte : UInt8) : Bool := !isBlank byte && byte != closeBracket

/-- A step that reads an element to its end and goes on in a next state. -/
def TakesElement (step : σ → Input → σ × Except Fault Input) (level : Nat) (state : σ)
    (element : Value) (next : σ) : Prop :=
  (∃ byte text, element.pretty level = byte :: text ∧ opensElement byte = true) ∧
    ∀ rest, EndsNumber rest → step state (element.pretty level ++ rest) = (next, .ok rest)

/-- A step that reads elements one after the other. -/
inductive TakesElements (step : σ → Input → σ × Except Fault Input) (level : Nat) :
    σ → List Value → σ → Prop where
  | nil (state : σ) : TakesElements step level state [] state
  | cons {state next last : σ} {element : Value} {others : List Value} :
      TakesElement step level state element next → TakesElements step level next others last →
      TakesElements step level state (element :: others) last

theorem nextElement_newLine {level : Nat} {byte : UInt8} (opens : opensElement byte = true)
    (rest : Input) :
    nextElement true (Value.newLine level ++ byte :: rest) = .ok (true, byte :: rest) := by
  simp only [opensElement, Bool.and_eq_true, Bool.not_eq_true', bne_iff_ne] at opens
  rw [nextElement, skipBlank_newLine, skipBlank_cons opens.1]
  simp [opens.2]

theorem nextElement_comma_newLine {level : Nat} {byte : UInt8} (opens : opensElement byte = true)
    (rest : Input) :
    nextElement false (comma :: (Value.newLine level ++ byte :: rest)) =
      .ok (true, byte :: rest) := by
  simp only [opensElement, Bool.and_eq_true, Bool.not_eq_true', bne_iff_ne] at opens
  have notBracket : (comma == closeBracket) = false := by decide
  rw [nextElement, skipBlank_cons (by decide)]
  simp only [notBracket, beq_self_eq_true, Bool.not_false, Bool.and_self, Bool.false_eq_true,
    if_false, if_true]
  rw [skipBlank_newLine, skipBlank_cons opens.1]
  simp [opens.2]

theorem nextElement_closeBracket (first : Bool) (input rest : Input)
    (blank : skipBlank input = closeBracket :: rest) :
    nextElement first input = .ok (false, closeBracket :: rest) := by
  rw [nextElement, blank]
  simp

theorem closeList_closeBracket (rest : Input) : closeList (closeBracket :: rest) = .ok rest := by
  rw [closeList, skipBlank_cons (by decide)]
  simp

/-- A fold goes over later elements up to the bracket that closes their list. -/
theorem foldElements_laterElements {step : σ → Input → σ × Except Fault Input} {level : Nat}
    {state last : σ} {elements : List Value} (takes : TakesElements step level state elements last)
    (outer : Nat) (rest : Input) :
    ∀ rounds, elements.length < rounds →
      foldElements step rounds false state
          (laterElements level elements ++ (Value.newLine outer ++ closeBracket :: rest)) =
        (last, .ok (closeBracket :: rest)) := by
  induction takes with
  | nil state =>
      intro rounds enough
      rcases Nat.exists_eq_add_one_of_ne_zero (Nat.ne_zero_of_lt enough) with ⟨rounds, rfl⟩
      have next := nextElement_closeBracket false (Value.newLine outer ++ closeBracket :: rest) rest
        (by rw [skipBlank_newLine, skipBlank_cons (by decide)])
      rw [laterElements, List.nil_append, foldElements, next]
  | @cons state next last element others takesFirst _ ih =>
      intro rounds enough
      rcases Nat.exists_eq_add_one_of_ne_zero (Nat.ne_zero_of_lt enough) with ⟨rounds, rfl⟩
      rcases takesFirst with ⟨⟨byte, text, written, opens⟩, takesFirst⟩
      have ends : EndsNumber
          (laterElements level others ++ (Value.newLine outer ++ closeBracket :: rest)) := by
        cases others with
        | nil => exact endsNumber_newLine outer _
        | cons other others => exact endsNumber_comma _
      have taken := takesFirst _ ends
      rw [written, List.cons_append] at taken
      rw [laterElements, prettyElements_cons, List.cons_append, List.append_assoc,
        List.append_assoc, foldElements, written, List.cons_append, nextElement_comma_newLine opens]
      simp only [taken]
      exact ih rounds (by simpa using enough)

/-- A reader whose step takes the elements of a list reads the written list to its end. -/
theorem readList_pretty {step : σ → Input → σ × Except Fault Input} {level : Nat}
    {state last : σ} {elements : List Value}
    (takes : TakesElements step (level + 1) state elements last) (expected : String)
    (rest : Input) :
    readList expected
        (some fun state input => foldElements step (input.length + 1) true state input) state
        ((Value.list elements).pretty level ++ rest) = (last, .ok rest) := by
  have close := closeList_closeBracket rest
  cases takes with
  | nil state =>
      have next := nextElement_closeBracket true (closeBracket :: rest) rest
        (skipBlank_cons (by decide) rest)
      rw [Value.pretty, List.cons_append, readList, skipBlank_cons (by decide)]
      simp only [List.cons_append, List.nil_append, beq_self_eq_true, if_true, foldElements, next,
        finish, close]
  | @cons state next last element others takesFirst takesOthers =>
      rcases takesFirst with ⟨⟨byte, text, printed, opens⟩, takesFirst⟩
      have ends : EndsNumber (laterElements (level + 1) others ++
          (Value.newLine level ++ closeBracket :: rest)) := by
        cases others with
        | nil => exact endsNumber_newLine level _
        | cons other others => exact endsNumber_comma _
      have taken := takesFirst _ ends
      have enough : others.length <
          (Value.prettyElements (level + 1) (element :: others) ++
            (Value.newLine level ++ closeBracket :: rest)).length := by
        have long := length_le_prettyElements (level + 1) (element :: others)
        simp only [List.length_cons, List.length_append] at long ⊢
        omega
      have written : (Value.list (element :: others)).pretty level ++ rest =
          openBracket :: (Value.prettyElements (level + 1) (element :: others) ++
            (Value.newLine level ++ closeBracket :: rest)) := by
        simp [Value.pretty]
      rw [written, readList, skipBlank_cons (by decide)]
      simp only [beq_self_eq_true, if_true]
      generalize (Value.prettyElements (level + 1) (element :: others) ++
        (Value.newLine level ++ closeBracket :: rest)).length = rounds at enough ⊢
      rw [printed, List.cons_append] at taken
      rw [prettyElements_cons, List.append_assoc, List.append_assoc, foldElements, printed,
        List.cons_append, nextElement_newLine opens]
      simp only [taken]
      rw [foldElements_laterElements takesOthers level rest rounds enough]
      simp only [finish, close]

/-- A list of written items is read as the list of what its reader makes of each. -/
theorem readListOf_pretty {ι α : Type} (read : Nat → Input → Except Fault (α × Input))
    (budget level : Nat) (items : List ι) (write : ι → Value) (image : ι → α)
    (reads : ∀ item ∈ items, ∀ rest, EndsNumber rest →
      read budget ((write item).pretty (level + 1) ++ rest) = .ok (image item, rest))
    (opens : ∀ item ∈ items, ∃ byte text,
      (write item).pretty (level + 1) = byte :: text ∧ opensElement byte = true)
    (rest : Input) :
    readListOf (budget + 1) read ((Value.list (items.map write)).pretty level ++ rest) =
      .ok (items.map image, rest) := by
  have takes : ∀ remaining : List ι, (∀ item ∈ remaining, item ∈ items) → ∀ seen,
      TakesElements (collect (read budget)) (level + 1) seen (remaining.map write)
        (seen ++ remaining.map image) := by
    intro remaining
    induction remaining with
    | nil =>
        intro _ seen
        rw [List.map_nil, List.map_nil, List.append_nil]
        exact .nil seen
    | cons item remaining ih =>
        intro among seen
        have taken : TakesElement (collect (read budget)) (level + 1) seen (write item)
            (seen ++ [image item]) := by
          refine ⟨opens item (among item (by simp)), ?_⟩
          intro rest ends
          rw [collect, reads item (among item (by simp)) rest ends]
        have others := ih (fun other member => among other (by simp [member]))
          (seen ++ [image item])
        rw [List.append_assoc, List.singleton_append] at others
        exact .cons taken others
  rw [readListOf, readList_pretty (takes items (fun _ member => member) []) "a sequence" rest]
  rfl

/-! ## Texts and integers -/

theorem pretty_text_append (level : Nat) (text : String) (rest : Input) :
    (Value.text text).pretty level ++ rest =
      quote :: (text.toList.flatMap escapeChar ++ quote :: rest) := by
  rw [Value.pretty, writeString_append]

theorem opensElement_text (level : Nat) (text : String) : ∃ byte more,
    (Value.text text).pretty level = byte :: more ∧ opensElement byte = true :=
  ⟨quote, text.toList.flatMap escapeChar ++ [quote], by simp [Value.pretty, writeString], by decide⟩

theorem object_pretty_eq_cons (level : Nat) (members : List (String × Value)) :
    ∃ text, (Value.object members).pretty level = openBrace :: text := by
  cases members with
  | nil => exact ⟨[closeBrace], rfl⟩
  | cons member members =>
      exact ⟨_, by rw [Value.pretty, List.cons_append, List.cons_append]⟩

theorem list_pretty_eq_cons (level : Nat) (elements : List Value) :
    ∃ text, (Value.list elements).pretty level = openBracket :: text := by
  cases elements with
  | nil => exact ⟨[closeBracket], rfl⟩
  | cons element elements =>
      exact ⟨_, by rw [Value.pretty, List.cons_append, List.cons_append]⟩

theorem opensElement_object (level : Nat) (members : List (String × Value)) : ∃ byte more,
    (Value.object members).pretty level = byte :: more ∧ opensElement byte = true := by
  rcases object_pretty_eq_cons level members with ⟨text, written⟩
  exact ⟨openBrace, text, written, by decide⟩

theorem readText_pretty (expected : String) (level : Nat) (text : String) (rest : Input) :
    readText expected ((Value.text text).pretty level ++ rest) = .ok (text, rest) := by
  rw [pretty_text_append, readText, skipBlank_cons (by decide)]
  simp only [beq_self_eq_true, if_true, readString_escaped]

theorem readValue_pretty_text (budget level : Nat) (text : String) (rest : Input) :
    readValue budget ((Value.text text).pretty level ++ rest) = .ok (.text text, rest) := by
  have word : word? quote = none := by decide
  have number : (quote == minus || isDigit quote) = false := by decide
  have shape (element : Option (Input → Except Fault (Value × Input))) :
      readShape element (quote :: (text.toList.flatMap escapeChar ++ quote :: rest)) =
        .ok (.text text, rest) := by
    simp only [readShape, word, number, beq_self_eq_true, Bool.false_eq_true, if_false, if_true,
      readString_escaped]
    rfl
  rw [pretty_text_append]
  cases budget with
  | zero => rw [readValue, skipBlank_cons (by decide), shape]
  | succ budget => rw [readValue, skipBlank_cons (by decide), shape]

/-- The bytes that open a number open no word and are no blanks. -/
theorem word?_of_opensNumber {byte : UInt8} (opens : (byte == minus || isDigit byte) = true) :
    word? byte = none ∧ isBlank byte = false := by
  have small : byte.toNat ≤ 0x39 ∧ 0x2D ≤ byte.toNat := by
    simp only [Bool.or_eq_true, beq_iff_eq, isDigit, Bool.and_eq_true, decide_eq_true_eq,
      UInt8.le_iff_toNat_le, UInt8.reduceToNat] at opens
    rcases opens with rfl | ⟨above, below⟩
    · decide
    · omega
  have differs (other : UInt8) (far : 0x39 < other.toNat ∨ other.toNat < 0x2D) :
      byte ≠ other := by
    rintro rfl
    omega
  constructor
  · simp [word?, differs 0x6E (by decide), differs 0x74 (by decide), differs 0x66 (by decide)]
  · simp [isBlank, differs 0x20 (by decide), differs 0x0A (by decide), differs 0x09 (by decide),
      differs 0x0D (by decide)]

/-- Integers in the range of 64-bit words, with or without sign. -/
def FitsWord (value : Int) : Prop := Word.least ≤ value ∧ value < Word.size

/-- An integer that fits into a word is read back as a value. -/
theorem readValue_pretty_integer (budget level : Nat) {value : Int} (fits : FitsWord value)
    {rest : Input} (ends : EndsNumber rest) :
    readValue budget ((Value.number (.integer value)).pretty level ++ rest) =
      .ok (.number (.integer value), rest) := by
  rcases writeInteger_eq_cons value with ⟨byte, digits, written, opens⟩
  rcases word?_of_opensNumber opens with ⟨word, notBlank⟩
  have read := readNumber_writeInteger fits.1 fits.2 ends
  rw [written, List.cons_append] at read
  have shape (element : Option (Input → Except Fault (Value × Input))) :
      readShape element (byte :: (digits ++ rest)) = .ok (.number (.integer value), rest) := by
    simp only [readShape, word, opens, if_true, read]
    rfl
  rw [Value.pretty, writeNumber, written, List.cons_append]
  cases budget with
  | zero => rw [readValue, skipBlank_cons notBlank, shape]
  | succ budget => rw [readValue, skipBlank_cons notBlank, shape]

/-- The values without parts that records hold: texts and integers. -/
def IsScalar : Value → Prop
  | .text _ => True
  | .number (.integer value) => FitsWord value
  | _ => False

theorem readValue_pretty_of_isScalar (budget level : Nat) {value : Value} (scalar : IsScalar value)
    {rest : Input} (ends : EndsNumber rest) :
    readValue budget (value.pretty level ++ rest) = .ok (value, rest) := by
  match value, scalar with
  | .text text, _ => exact readValue_pretty_text budget level text rest
  | .number (.integer value), fits => exact readValue_pretty_integer budget level fits ends

/-! ## Behind a colon -/

theorem skipColon_of_colon {input value : Input} (isColon : skipBlank input = colon :: value) :
    skipColon input = .ok value := by
  rw [skipColon, isColon]
  simp

theorem skipColon_colon (input : Input) : skipColon (colon :: input) = .ok input :=
  skipColon_of_colon (skipBlank_cons (by decide) input)

theorem readMember_colon {α : Type} (read : Input → Except Fault (α × Input)) (input : Input) :
    readMember read (colon :: input) = read input := by
  rw [readMember, skipColon_colon]

@[simp] theorem readText_space (expected : String) (input : Input) :
    readText expected (0x20 :: input) = readText expected input := by
  rw [readText, readText, skipBlank_space]

@[simp] theorem readListOf_space {α : Type} (budget : Nat)
    (read : Nat → Input → Except Fault (α × Input)) (input : Input) :
    readListOf budget read (0x20 :: input) = readListOf budget read input := by
  unfold readListOf readList
  rw [skipBlank_space]

@[simp] theorem readValue_space (budget : Nat) (input : Input) :
    readValue budget (0x20 :: input) = readValue budget input := by
  cases budget with
  | zero => rw [readValue, readValue, skipBlank_space]
  | succ budget => rw [readValue, readValue, skipBlank_space]

end TraceStore.Json
