import TraceStore.Json.Value
import TraceStore.Proofs.Json.Parts

/-!
# What readers take

The readers of scalars, of lists, of objects and of whole values take one value each and read the
same from it wherever it stands (`ReadsValues`).  Lists and objects end with a bracket of their own,
so that anything may follow them.

A reader finds no blanks in what it looks at first.  `readsValues_of_skipBlank` reduces each of them
to what it does behind the blanks.
-/

namespace TraceStore.Json

/-- Nothing is asked of what follows. -/
def Anything (_ : Input) : Prop := True

section Readers

variable {α : Type} {ends : Input → Prop} {expected : String} {input rest : Input}

theorem ReadsValues.of_anything {reads : Input → Input → Prop}
    (values : ReadsValues Anything reads) : ReadsValues ends reads := by
  intro input rest _ read
  obtain ⟨gap, text, blank, isValue, split, again⟩ := values input rest trivial read
  exact ⟨gap, text, blank, isValue, split, fun gap more blank _ => again gap more blank trivial⟩

/-- A reader that skips blanks reads values if it does so where none are left. -/
theorem readsValues_of_skipBlank {reads : Input → Input → Prop}
    (skips : ∀ input rest, reads input rest ↔ reads (skipBlank input) rest)
    (nonempty : ∀ rest, ends rest → ¬reads [] rest)
    (values : ∀ byte tail rest, isBlank byte = false → ends rest → reads (byte :: tail) rest →
      ∃ text, IsValue text ∧ byte :: tail = text ++ rest ∧
        ∀ more, ends more → reads (text ++ more) more) : ReadsValues ends reads := by
  intro input rest endsRest read
  obtain ⟨gap, blank, split⟩ := exists_blank input
  rw [skips] at read
  cases start : skipBlank input with
  | nil =>
      rw [start] at read
      exact absurd read (nonempty rest endsRest)
  | cons byte tail =>
      rw [start] at read split
      have notBlank : isBlank byte = false := by
        have stops := List.head?_dropWhile_not isBlank input
        rw [← skipBlank, start] at stops
        simpa using stops
      obtain ⟨text, isValue, same, again⟩ := values byte tail rest notBlank endsRest read
      refine ⟨gap, text, blank, isValue, by rw [split, same], fun gap more blank endsMore => ?_⟩
      rw [skips, skipBlank_append blank, ← skips]
      exact again more endsMore

/-- Where no blank stands in front, the value starts at once. -/
theorem ReadsValues.of_notBlank {reads : Input → Input → Prop} (values : ReadsValues ends reads)
    {byte : UInt8} {tail : Input} (notBlank : isBlank byte = false) (endsRest : ends rest)
    (read : reads (byte :: tail) rest) : ∃ text, IsValue text ∧ byte :: tail = text ++ rest ∧
      ∀ more, ends more → reads (text ++ more) more := by
  obtain ⟨gap, text, blank, isValue, split, again⟩ := values _ _ endsRest read
  cases gap with
  | nil => exact ⟨text, isValue, split, fun more => again [] more blank_nil⟩
  | cons first gap =>
      obtain ⟨rfl, -⟩ := List.cons.inj split
      have isBlank := blank byte (by simp)
      rw [notBlank] at isBlank
      cases isBlank

/-! ## Scalars -/

theorem readText_readsValues (text : String) :
    ReadsValues Anything fun input rest => readText expected input = .ok (text, rest) := by
  apply readsValues_of_skipBlank
  · intro input rest
    simp only [readText, skipBlank_skipBlank]
  · simp [readText, skipBlank]
  · intro byte tail rest notBlank _ read
    rw [readText, skipBlank_cons notBlank] at read
    simp only at read
    split at read
    · next isQuote =>
        obtain rfl := eq_of_beq isQuote
        obtain ⟨content, spelled, rfl, again⟩ := readString_eq_ok read
        refine ⟨_, .text spelled, rfl, fun more _ => ?_⟩
        rw [List.cons_append, readText, skipBlank_cons notBlank]
        simpa using again more
    · cases read

theorem readNatural_readsValues (bound value : Nat) :
    ReadsValues EndsNumber fun input rest =>
      readNatural expected bound input = .ok (value, rest) := by
  apply readsValues_of_skipBlank
  · intro input rest
    simp only [readNatural, skipBlank_skipBlank]
  · simp [readNatural, skipBlank]
  · intro byte tail rest notBlank ends read
    rw [readNatural, skipBlank_cons notBlank] at read
    simp only at read
    split at read
    · next opensNumber =>
        split at read
        · cases read
        · next number left isNumber =>
            split at read
            · next natural isNatural =>
                cases read
                obtain ⟨text, isText, same, again⟩ := readNumber_readsTexts _ _ ends isNumber
                obtain ⟨first, others, rfl, -⟩ := (IsValue.number isText).opens
                obtain ⟨rfl, rfl⟩ := List.cons.inj same
                refine ⟨_, .number isText, rfl, fun more endsMore => ?_⟩
                rw [List.cons_append, readNatural, skipBlank_cons notBlank]
                have numberAgain := again more endsMore
                rw [List.cons_append] at numberAgain
                simp only [opensNumber, if_true, numberAgain, isNatural]
            · cases read
    · cases read

/-- A natural number is read from the text in which it is written. -/
theorem natural_of_readNatural {bound value : Nat}
    (read : readNatural expected bound input = .ok (value, rest)) :
    value < bound ∧ value < Word.size ∧ skipBlank input = writeNatural value ++ rest := by
  rw [readNatural] at read
  split at read
  · cases read
  · next start =>
      split at read
      · split at read
        · cases read
        · next number left isNumber =>
            split at read
            · next natural isNatural =>
                cases read
                obtain ⟨fits, rfl⟩ : value < bound ∧ number = .integer value := by
                  rw [natural?.eq_def] at isNatural
                  split at isNatural
                  · next integer =>
                      split at isNatural
                      · next within =>
                          cases isNatural
                          simp only [Bool.and_eq_true, decide_eq_true_eq] at within
                          obtain ⟨natural, rfl⟩ := Int.eq_ofNat_of_zero_le within.1
                          exact ⟨by simpa using within.2, rfl⟩
                      · cases isNatural
                  · cases isNatural
                obtain ⟨small, split⟩ := natural_of_readNumber isNumber
                exact ⟨fits, small, by rw [start, split]⟩
            · cases read
      · cases read

/-- A word is read where its first byte stands. -/
theorem readWord_readsTexts {byte : UInt8} {word : Option Bool} {letters : List UInt8}
    (isWord : word? byte = some (word, letters)) (read : readWord letters input = .ok rest) :
    ∃ text, IsValue (byte :: text) ∧ input = text ++ rest ∧
      ∀ more, readWord letters (text ++ more) = .ok more :=
  ⟨letters, .word ⟨byte, word, letters, isWord, rfl⟩, readWord_eq_ok_iff.mp read,
    fun _ => readWord_eq_ok_iff.mpr rfl⟩

theorem readNullable_readsValues {read : Input → Except Fault (α × Input)}
    (values : ∀ value, ReadsValues ends fun input rest => read input = .ok (value, rest))
    (value : Option α) :
    ReadsValues ends fun input rest => readNullable read input = .ok (value, rest) := by
  apply readsValues_of_skipBlank
  · intro input rest
    simp only [readNullable, skipBlank_skipBlank]
  · intro rest endsRest isRead
    simp only [readNullable, skipBlank, List.dropWhile_nil, map_eq_ok_iff] at isRead
    obtain ⟨⟨inside, left⟩, isRead, same⟩ := isRead
    cases same
    obtain ⟨gap, text, -, isValue, split, -⟩ := values inside _ _ endsRest isRead
    obtain ⟨byte, more, rfl, -⟩ := isValue.opens
    simp at split
  · intro byte tail rest notBlank endsRest isRead
    rw [readNullable, skipBlank_cons notBlank] at isRead
    simp only at isRead
    split at isRead
    · next letters isNull =>
        obtain ⟨left, isRead, same⟩ := map_eq_ok_iff.mp isRead
        cases same
        obtain ⟨text, isValue, rfl, again⟩ := readWord_readsTexts isNull isRead
        refine ⟨_, isValue, rfl, fun more _ => ?_⟩
        rw [List.cons_append, readNullable, skipBlank_cons notBlank]
        simp only [isNull, again more, Except.map]
    · next notNull =>
        obtain ⟨⟨inside, left⟩, readInside, same⟩ := map_eq_ok_iff.mp isRead
        cases same
        obtain ⟨text, isValue, same, again⟩ :=
          (values inside).of_notBlank notBlank endsRest readInside
        obtain ⟨first, others, rfl, -⟩ := isValue.opens
        obtain ⟨rfl, -⟩ := List.cons.inj same
        refine ⟨_, isValue, same, fun more endsMore => ?_⟩
        have readAgain := again more endsMore
        rw [List.cons_append] at readAgain ⊢
        rw [readNullable, skipBlank_cons notBlank]
        simp only [readAgain, Except.map]

end Readers

/-! ## Objects -/

/-- An object with the given members. -/
def ObjectText (members : List Member) (text : Input) : Prop :=
  (∀ member ∈ members, member.Stands) ∧
    ∃ inner, Spread true (members.map Member.text) inner ∧
      text = openBrace :: (inner ++ [closeBrace])

theorem SpellsKey.isHead {key : String} {head : Input} (spells : SpellsKey key head) :
    Bracket.object.IsHead head := by
  rcases spells with ⟨content, before, after, spelled, blankBefore, blankAfter, rfl⟩
  obtain ⟨text, isSpelled, same, -⟩ := readString_eq_ok spelled
  rw [List.append_nil] at same
  exact ⟨content, before, after, same ▸ isSpelled, blankBefore, blankAfter, rfl⟩

theorem ObjectText.isValue {members : List Member} {text : Input}
    (object : ObjectText members text) : IsValue text := by
  rcases object with ⟨stand, inner, spread, rfl⟩
  let parts := members.map fun member => (member.head, member.value)
  have texts : parts.map (fun part => part.1 ++ part.2) = members.map Member.text := by
    simp [parts, Member.text]
  refine .bracket .object parts ?_ ?_ (texts ▸ spread)
  · intro part isPart
    obtain ⟨member, among, rfl⟩ := List.mem_map.mp isPart
    exact (stand member among).1.isHead
  · intro part isPart
    obtain ⟨member, among, rfl⟩ := List.mem_map.mp isPart
    exact (stand member among).2

section Objects

variable {σ : Type} {step : σ → String → Input → σ × Except Fault Input} {expected : String}
  {state last : σ} {gap text input rest left : Input} {members : List Member}

/-- What stands between the braces of an object, as a reader of members takes it. -/
def overMembers (step : σ → String → Input → σ × Except Fault Input) :
    Option (σ → Input → σ × Except Fault Input) :=
  some fun state input => foldMembers step (input.length + 1) true state input

theorem readObject_openBrace (blank : Blank gap) (tail : Input) :
    readObject expected (overMembers step) state (gap ++ openBrace :: tail) =
      finish closeObject pastObject (foldMembers step (tail.length + 1) true state tail) := by
  rw [readObject, skipBlank_append blank, skipBlank_cons (by decide)]
  rfl

theorem closeObject_of_finish {folded : σ × Except Fault Input}
    (finished : finish closeObject pastObject folded = (last, .ok rest)) :
    ∃ left, folded = (last, .ok left) ∧ closeObject left = .ok rest := by
  rcases folded with ⟨state, fault | left⟩
  · cases finished
  · obtain ⟨rfl, closed⟩ := Prod.mk.inj finished
    exact ⟨left, rfl, closed⟩

theorem readObject_none (state last : σ) (input rest : Input) :
    readObject expected none state input ≠ (last, .ok rest) := by
  rw [readObject]
  split
  · simp
  · split <;> simp

/-- An object that is accepted is run over. -/
theorem readObject_eq_ok (steps : StepsOverMembers step)
    (read : readObject expected (overMembers step) state input = (last, .ok rest)) :
    ∃ gap members text, Blank gap ∧ ObjectText members text ∧ input = gap ++ (text ++ rest) ∧
      RunsOverMembers step state members last := by
  obtain ⟨gap, blank, split⟩ := exists_blank input
  cases start : skipBlank input with
  | nil =>
      rw [readObject, start] at read
      cases read
  | cons byte tail =>
      rw [start] at split
      by_cases isBrace : byte = openBrace
      · subst isBrace
        rw [split, readObject_openBrace blank] at read
        obtain ⟨left, folded, closed⟩ := closeObject_of_finish read
        obtain ⟨members, inner, more, stand, spread, rfl, rfl, runs⟩ :=
          members_of_foldMembers steps folded
        rw [closeObject_closeBrace] at closed
        obtain rfl := Except.ok.inj closed
        exact ⟨gap, members, _, blank, ⟨stand, inner, spread, rfl⟩, by simp [split], runs⟩
      · rw [readObject, start] at read
        simp [isBrace] at read

/-- An object is accepted if its members are run over. -/
theorem readObject_append (blank : Blank gap) (object : ObjectText members text)
    (runs : RunsOverMembers step state members last) (rest : Input) :
    readObject expected (overMembers step) state (gap ++ (text ++ rest)) = (last, .ok rest) := by
  rcases object with ⟨stand, inner, spread, rfl⟩
  have short := spread.length_le (by
    intro part isPart
    obtain ⟨member, among, rfl⟩ := List.mem_map.mp isPart
    exact (stand member among).notEmpty)
  rw [List.length_map] at short
  have split : openBrace :: (inner ++ [closeBrace]) ++ rest =
      openBrace :: (inner ++ closeBrace :: rest) := by simp
  rw [split, readObject_openBrace blank, foldMembers_append stand spread runs]
  · rw [finish, closeObject_closeBrace]
  · simp only [List.length_append]
    omega

/-- An object with given members that is accepted was run over as these members. -/
theorem runs_of_readObject (steps : StepsOverMembers step) (blank : Blank gap)
    (object : ObjectText members text)
    (read : readObject expected (overMembers step) state (gap ++ (text ++ rest)) =
      (last, .ok left)) :
    left = rest ∧ RunsOverMembers step state members last := by
  rcases object with ⟨stand, inner, spread, rfl⟩
  have split : openBrace :: (inner ++ [closeBrace]) ++ rest =
      openBrace :: (inner ++ closeBrace :: rest) := by simp
  rw [split, readObject_openBrace blank] at read
  obtain ⟨behind, folded, closed⟩ := closeObject_of_finish read
  obtain ⟨rfl, runs⟩ := runs_of_foldMembers steps stand spread folded
  rw [closeObject_closeBrace] at closed
  exact ⟨(Except.ok.inj closed).symm, runs⟩

theorem readObject_readsValues (steps : StepsOverMembers step) :
    ReadsValues Anything fun input rest =>
      readObject expected (overMembers step) state input = (last, .ok rest) := by
  intro input rest _ read
  obtain ⟨gap, members, text, blank, object, split, runs⟩ := readObject_eq_ok steps read
  exact ⟨gap, text, blank, object.isValue, split,
    fun _ more blank _ => readObject_append blank object runs more⟩

end Objects

/-! ## Lists -/

/-- A list of the given elements. -/
def ListText (elements : List Input) (text : Input) : Prop :=
  (∀ element ∈ elements, IsValue element) ∧
    ∃ inner, Spread true elements inner ∧ text = openBracket :: (inner ++ [closeBracket])

theorem ListText.isValue {elements : List Input} {text : Input} (list : ListText elements text) :
    IsValue text := by
  rcases list with ⟨values, inner, spread, rfl⟩
  let parts := elements.map fun element => (([] : Input), element)
  have texts : parts.map (fun part => part.1 ++ part.2) = elements := by
    simp [parts, Function.comp_def]
  refine .bracket .list parts ?_ ?_ (texts.symm ▸ spread)
  · intro part isPart
    obtain ⟨element, -, rfl⟩ := List.mem_map.mp isPart
    exact blank_nil
  · intro part isPart
    obtain ⟨element, among, rfl⟩ := List.mem_map.mp isPart
    exact values element among

section Lists

variable {σ : Type} {step : σ → Input → σ × Except Fault Input} {expected : String}
  {state last : σ} {gap text input rest left : Input} {elements : List Input}

/-- What stands between the brackets of a list, as a reader of elements takes it. -/
def overElements (step : σ → Input → σ × Except Fault Input) :
    Option (σ → Input → σ × Except Fault Input) :=
  some fun state input => foldElements step (input.length + 1) true state input

theorem readList_openBracket (blank : Blank gap) (tail : Input) :
    readList expected (overElements step) state (gap ++ openBracket :: tail) =
      finish closeList pastList (foldElements step (tail.length + 1) true state tail) := by
  rw [readList, skipBlank_append blank, skipBlank_cons (by decide)]
  rfl

theorem closeList_of_finish {folded : σ × Except Fault Input}
    (finished : finish closeList pastList folded = (last, .ok rest)) :
    ∃ left, folded = (last, .ok left) ∧ closeList left = .ok rest := by
  rcases folded with ⟨state, fault | left⟩
  · cases finished
  · obtain ⟨rfl, closed⟩ := Prod.mk.inj finished
    exact ⟨left, rfl, closed⟩

theorem readList_none (state last : σ) (input rest : Input) :
    readList expected none state input ≠ (last, .ok rest) := by
  rw [readList]
  split
  · simp
  · split <;> simp

/-- A list that is accepted is run over. -/
theorem readList_eq_ok (steps : StepsOverElements step)
    (read : readList expected (overElements step) state input = (last, .ok rest)) :
    ∃ gap elements text, Blank gap ∧ ListText elements text ∧ input = gap ++ (text ++ rest) ∧
      Runs (TakesAt step) state elements last := by
  obtain ⟨gap, blank, split⟩ := exists_blank input
  cases start : skipBlank input with
  | nil =>
      rw [readList, start] at read
      cases read
  | cons byte tail =>
      rw [start] at split
      by_cases isBracket : byte = openBracket
      · subst isBracket
        rw [split, readList_openBracket blank] at read
        obtain ⟨left, folded, closed⟩ := closeList_of_finish read
        obtain ⟨elements, inner, more, values, spread, rfl, rfl, runs⟩ :=
          elements_of_foldElements steps folded
        rw [closeList_closeBracket] at closed
        obtain rfl := Except.ok.inj closed
        exact ⟨gap, elements, _, blank, ⟨values, inner, spread, rfl⟩, by simp [split], runs⟩
      · rw [readList, start] at read
        simp [isBracket] at read

/-- A list is accepted if its elements are run over. -/
theorem readList_append (blank : Blank gap) (list : ListText elements text)
    (runs : Runs (TakesAt step) state elements last) (rest : Input) :
    readList expected (overElements step) state (gap ++ (text ++ rest)) = (last, .ok rest) := by
  rcases list with ⟨values, inner, spread, rfl⟩
  have short := spread.length_le (by
    intro element among
    obtain ⟨byte, more, rfl, -⟩ := (values element among).opens
    simp)
  have split : openBracket :: (inner ++ [closeBracket]) ++ rest =
      openBracket :: (inner ++ closeBracket :: rest) := by simp
  rw [split, readList_openBracket blank, foldElements_append values spread runs]
  · rw [finish, closeList_closeBracket]
  · simp only [List.length_append]
    omega

/-- A list of given elements that is accepted was run over as these elements. -/
theorem runs_of_readList (steps : StepsOverElements step) (blank : Blank gap)
    (list : ListText elements text)
    (read : readList expected (overElements step) state (gap ++ (text ++ rest)) =
      (last, .ok left)) :
    left = rest ∧ Runs (TakesAt step) state elements last := by
  rcases list with ⟨values, inner, spread, rfl⟩
  have split : openBracket :: (inner ++ [closeBracket]) ++ rest =
      openBracket :: (inner ++ closeBracket :: rest) := by simp
  rw [split, readList_openBracket blank] at read
  obtain ⟨behind, folded, closed⟩ := closeList_of_finish read
  obtain ⟨rfl, runs⟩ := runs_of_foldElements steps values spread folded
  rw [closeList_closeBracket] at closed
  exact ⟨(Except.ok.inj closed).symm, runs⟩

theorem readList_readsValues (steps : StepsOverElements step) :
    ReadsValues Anything fun input rest =>
      readList expected (overElements step) state input = (last, .ok rest) := by
  intro input rest _ read
  obtain ⟨gap, elements, text, blank, list, split, runs⟩ := readList_eq_ok steps read
  exact ⟨gap, text, blank, list.isValue, split,
    fun _ more blank _ => readList_append blank list runs more⟩

end Lists

/-! ## Lists of values of one kind, and whole values -/

section Values

variable {α β : Type} {ends : Input → Prop}

/-- What is made of a value does not matter to where it is read. -/
theorem ReadsValues.imp {reads others : Input → Input → Prop} (values : ReadsValues ends reads)
    (same : ∀ input rest, others input rest ↔ reads input rest) : ReadsValues ends others := by
  intro input rest endsRest read
  obtain ⟨gap, text, blank, isValue, split, again⟩ :=
    values input rest endsRest ((same input rest).mp read)
  exact ⟨gap, text, blank, isValue, split,
    fun gap more blank endsMore => (same _ _).mpr (again gap more blank endsMore)⟩

theorem ReadsValues.map {read : Input → Except Fault (α × Input)} (change : α → β)
    (values : ∀ value, ReadsValues ends fun input rest => read input = .ok (value, rest))
    (value : β) :
    ReadsValues ends fun input rest =>
      (read input).map (fun (value, rest) => (change value, rest)) = .ok (value, rest) := by
  intro input rest endsRest isRead
  obtain ⟨⟨inside, left⟩, readInside, same⟩ := map_eq_ok_iff.mp isRead
  cases same
  obtain ⟨gap, text, blank, isValue, split, again⟩ := values inside _ _ endsRest readInside
  refine ⟨gap, text, blank, isValue, split, fun gap more blank endsMore => ?_⟩
  exact map_eq_ok_iff.mpr ⟨_, again gap more blank endsMore, rfl⟩

theorem settled_eq_ok {σ : Type} {result : σ × Except Fault Input} {state : σ} {rest : Input} :
    settled result = .ok (state, rest) ↔ result = (state, .ok rest) := by
  rcases result with ⟨state, fault | left⟩
  · simp [settled, Except.map]
  · simp [settled, Except.map]

theorem collect_steps {read : Input → Except Fault (α × Input)}
    (values : ∀ value, ReadsValues EndsNumber fun input rest => read input = .ok (value, rest)) :
    StepsOverElements (collect read) := by
  intro seen next input rest ends stepped
  rw [collect] at stepped
  split at stepped
  · cases stepped
  · next value left isRead =>
      cases stepped
      obtain ⟨gap, text, blank, isValue, split, again⟩ := values value _ _ ends isRead
      refine ⟨gap, text, blank, isValue, split, fun gap more blank endsMore => ?_⟩
      beta_reduce
      rw [collect, again gap more blank endsMore]

theorem readListOf_readsValues (budget : Nat) {read : Nat → Input → Except Fault (α × Input)}
    (values : ∀ budget value, ReadsValues EndsNumber fun input rest =>
      read budget input = .ok (value, rest)) (elements : List α) :
    ReadsValues Anything fun input rest =>
      readListOf budget read input = .ok (elements, rest) := by
  cases budget with
  | zero =>
      intro input rest _ isRead
      rw [readListOf, settled_eq_ok] at isRead
      exact absurd isRead (readList_none _ _ _ _)
  | succ budget =>
      exact (readList_readsValues (collect_steps (values budget))).imp fun input rest =>
        settled_eq_ok

theorem readMember_eq_ok {read : Input → Except Fault (α × Input)} {value : α} {input rest : Input}
    (values : ReadsValues ends fun input rest => read input = .ok (value, rest))
    (endsRest : ends rest) (isRead : readMember read input = .ok (value, rest)) :
    ∃ before after text, Blank before ∧ Blank after ∧ IsValue text ∧
      input = before ++ colon :: (after ++ (text ++ rest)) ∧
      ∀ before after more, Blank before → Blank after → ends more →
        readMember read (before ++ colon :: (after ++ (text ++ more))) = .ok (value, more) := by
  rw [readMember] at isRead
  split at isRead
  · cases isRead
  · next behind colons =>
      refine member_of_skipColon colons ?_
      obtain ⟨after, text, blankAfter, isValue, split, again⟩ := values _ _ endsRest isRead
      refine ⟨after, text, blankAfter, isValue, split, ?_⟩
      intro before after more blankBefore blankAfter endsMore
      rw [readMember, skipColon_append blankBefore]
      exact again after more blankAfter endsMore

theorem collectMember_steps {read : Input → Except Fault (Value × Input)}
    (values : ∀ value, ReadsValues EndsNumber fun input rest => read input = .ok (value, rest)) :
    StepsOverMembers (collectMember read) := by
  intro seen key input next rest ends stepped
  rw [collectMember] at stepped
  split at stepped
  · cases stepped
  · next value left isRead =>
      cases stepped
      obtain ⟨before, after, text, blankBefore, blankAfter, isValue, split, again⟩ :=
        readMember_eq_ok (values value) ends isRead
      refine ⟨before, after, text, blankBefore, blankAfter, isValue, split, ?_⟩
      intro before after more blankBefore blankAfter endsMore
      rw [collectMember, again before after more blankBefore blankAfter endsMore]

theorem readShape_openBracket (read : Input → Except Fault (Value × Input)) (tail : Input) :
    readShape (some read) (openBracket :: tail) =
      (settled (readList "" (overElements (collect read)) [] (openBracket :: tail))).map
        fun (elements, rest) => (.list elements, rest) := by
  have listed : readList "" (overElements (collect read)) [] ([] ++ openBracket :: tail) = _ :=
    readList_openBracket blank_nil tail
  rw [List.nil_append] at listed
  rw [listed]
  rfl

theorem readShape_openBrace (read : Input → Except Fault (Value × Input)) (tail : Input) :
    readShape (some read) (openBrace :: tail) =
      (settled (readObject "" (overMembers (collectMember read)) [] (openBrace :: tail))).map
        fun (members, rest) => (.object members, rest) := by
  have object : readObject "" (overMembers (collectMember read)) [] ([] ++ openBrace :: tail) = _ :=
    readObject_openBrace blank_nil tail
  rw [List.nil_append] at object
  rw [object]
  rfl

section Shapes

variable {element : Option (Input → Except Fault (Value × Input))} {tail rest : Input}
  {value : Value}

theorem readShape_bracket
    (values : ∀ read, element = some read → ∀ value, ReadsValues EndsNumber fun input rest =>
      read input = .ok (value, rest)) {byte : UInt8}
    (isBracket : byte = openBracket ∨ byte = openBrace)
    (isRead : readShape element (byte :: tail) = .ok (value, rest)) :
    ∃ text, IsValue text ∧ byte :: tail = text ++ rest ∧
      ∀ more, readShape element (text ++ more) = .ok (value, more) := by
  cases element with
  | none => rcases isBracket with rfl | rfl <;> cases isRead
  | some read =>
      have elements := collect_steps (values read rfl)
      have members := collectMember_steps (values read rfl)
      have lists : ReadsValues Anything fun input rest =>
          (settled (readList "" (overElements (collect read)) [] input)).map
            (fun (elements, rest) => (.list elements, rest)) = .ok (value, rest) :=
        ReadsValues.map _
          (fun _ => (readList_readsValues elements).imp fun _ _ => settled_eq_ok) value
      have objects : ReadsValues Anything fun input rest =>
          (settled (readObject "" (overMembers (collectMember read)) [] input)).map
            (fun (members, rest) => (.object members, rest)) = .ok (value, rest) :=
        ReadsValues.map _
          (fun _ => (readObject_readsValues members).imp fun _ _ => settled_eq_ok) value
      rcases isBracket with rfl | rfl
      · rw [readShape_openBracket] at isRead
        obtain ⟨text, isValue, same, again⟩ := lists.of_notBlank (by decide) trivial isRead
        obtain ⟨first, others, rfl, -⟩ := isValue.opens
        obtain ⟨rfl, -⟩ := List.cons.inj same
        refine ⟨_, isValue, same, fun more => ?_⟩
        rw [List.cons_append, readShape_openBracket]
        exact again more trivial
      · rw [readShape_openBrace] at isRead
        obtain ⟨text, isValue, same, again⟩ := objects.of_notBlank (by decide) trivial isRead
        obtain ⟨first, others, rfl, -⟩ := isValue.opens
        obtain ⟨rfl, -⟩ := List.cons.inj same
        refine ⟨_, isValue, same, fun more => ?_⟩
        rw [List.cons_append, readShape_openBrace]
        exact again more trivial

/-- Reading by shape, for each shape in turn. -/
theorem readShape_readsTexts
    (values : ∀ read, element = some read → ∀ value, ReadsValues EndsNumber fun input rest =>
      read input = .ok (value, rest)) {byte : UInt8} (ends : EndsNumber rest)
    (isRead : readShape element (byte :: tail) = .ok (value, rest)) :
    ∃ text, IsValue text ∧ byte :: tail = text ++ rest ∧
      ∀ more, EndsNumber more → readShape element (text ++ more) = .ok (value, more) := by
  by_cases isBracket : byte = openBracket ∨ byte = openBrace
  · obtain ⟨text, isValue, same, again⟩ := readShape_bracket values isBracket isRead
    exact ⟨text, isValue, same, fun more _ => again more⟩
  · rw [not_or] at isBracket
    rw [readShape.eq_def] at isRead
    simp only at isRead
    split at isRead
    · next word letters isWord =>
        obtain ⟨left, inside, same⟩ := map_eq_ok_iff.mp isRead
        cases same
        obtain ⟨text, isValue, rfl, again⟩ := readWord_readsTexts isWord inside
        refine ⟨_, isValue, rfl, fun more _ => ?_⟩
        rw [List.cons_append, readShape.eq_def]
        simp only [isWord, again more, Except.map]
    · next notWord =>
        split at isRead
        · next opensNumber =>
            obtain ⟨⟨number, left⟩, inside, same⟩ := map_eq_ok_iff.mp isRead
            cases same
            obtain ⟨text, isText, same, again⟩ := readNumber_readsTexts _ _ ends inside
            obtain ⟨first, others, rfl, -⟩ := (IsValue.number isText).opens
            obtain ⟨rfl, rfl⟩ := List.cons.inj same
            refine ⟨_, .number isText, rfl, fun more endsMore => ?_⟩
            have numberAgain := again more endsMore
            rw [List.cons_append] at numberAgain ⊢
            rw [readShape.eq_def]
            simp only [notWord, opensNumber, if_true, numberAgain, Except.map]
        · next notNumber =>
            split at isRead
            · next isQuote =>
                obtain rfl := eq_of_beq isQuote
                obtain ⟨⟨text, left⟩, inside, same⟩ := map_eq_ok_iff.mp isRead
                cases same
                obtain ⟨content, spelled, rfl, again⟩ := readString_eq_ok inside
                refine ⟨_, .text spelled, rfl, fun more _ => ?_⟩
                rw [List.cons_append, readShape.eq_def]
                simp only [notWord, notNumber, Bool.false_eq_true, if_false, beq_self_eq_true,
                  if_true, again more, Except.map]
            · simp [isBracket] at isRead

end Shapes

theorem readValue_readsValues (budget : Nat) (value : Value) :
    ReadsValues EndsNumber fun input rest => readValue budget input = .ok (value, rest) := by
  have ofShape {element : Option (Input → Except Fault (Value × Input))}
      (values : ∀ read, element = some read → ∀ value, ReadsValues EndsNumber fun input rest =>
        read input = .ok (value, rest)) (value : Value) :
      ReadsValues EndsNumber fun input rest =>
        readShape element (skipBlank input) = .ok (value, rest) := by
    apply readsValues_of_skipBlank
    · simp
    · simp [skipBlank, readShape]
    · intro byte tail rest notBlank ends isRead
      rw [skipBlank_cons notBlank] at isRead
      obtain ⟨text, isValue, split, again⟩ := readShape_readsTexts values ends isRead
      refine ⟨text, isValue, split, fun more endsMore => ?_⟩
      obtain ⟨first, others, rfl, opens⟩ := isValue.opens
      rw [List.cons_append, opens.skipBlank]
      exact again more endsMore
  revert value
  induction budget with
  | zero => exact ofShape (by simp)
  | succ budget ih =>
      apply ofShape
      rintro read ⟨⟩
      exact ih

end Values

end TraceStore.Json
