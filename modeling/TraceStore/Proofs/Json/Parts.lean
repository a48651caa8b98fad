import TraceStore.Proofs.Json.Literals
import TraceStore.Proofs.Json.Skipping

/-!
# The parts of an object or a list

A step of a fold takes one part.  If every step takes the text of a value and does the same with it
wherever it stands (`ReadsValues`), a fold that comes to the end of its bracket has split the
content into parts, and its state is reached by running over them (`Runs`).

Such runs and texts go together in both directions.  `members_of_foldMembers` finds the parts of a
content that was accepted, `foldMembers_append` accepts a content of given parts, and
`runs_of_foldMembers` says that an accepted content with given parts was run over as these parts.
The lemmas for lists have the same names with elements in them.
-/

namespace TraceStore.Json

variable {σ ι : Type}

/-! ## Values in their place -/

/-- A text is read in every place that ends as `ends` allows. -/
def ReadsFrom (ends : Input → Prop) (reads : Input → Input → Prop) (text : Input) : Prop :=
  ∀ gap more, Blank gap → ends more → reads (gap ++ (text ++ more)) more

/-- Whenever something is read up to a rest that `ends` allows, one value was taken, and the same is
read from the value in any other place that ends so. -/
def ReadsValues (ends : Input → Prop) (reads : Input → Input → Prop) : Prop :=
  ∀ input rest, ends rest → reads input rest → ∃ gap text, Blank gap ∧ IsValue text ∧
    input = gap ++ (text ++ rest) ∧ ReadsFrom ends reads text

/-- A value is found in only one way. -/
theorem IsValue.unique {gap text rest before value more : Input} (isText : IsValue text)
    (isValue : IsValue value) (blank : Blank gap) (blankBefore : Blank before)
    (ends : EndsNumber rest) (endsMore : EndsNumber more)
    (same : gap ++ (text ++ rest) = before ++ (value ++ more)) : text = value ∧ rest = more := by
  have skipped := skipValue_append blank isText ends
  rw [same, skipValue_append blankBefore isValue endsMore] at skipped
  obtain rfl := Except.ok.inj skipped
  have dropped := congrArg skipBlank same
  rw [skipBlank_append blank, skipBlank_append blankBefore] at dropped
  obtain ⟨first, others, rfl, opens⟩ := isText.opens
  obtain ⟨byte, tail, rfl, opensValue⟩ := isValue.opens
  rw [List.cons_append, List.cons_append, opens.skipBlank, opensValue.skipBlank, ← List.cons_append,
    ← List.cons_append] at dropped
  exact ⟨List.append_cancel_right dropped, rfl⟩

/-- A known value is the one that is read. -/
theorem ReadsValues.of_isValue {reads : Input → Input → Prop}
    (values : ReadsValues EndsNumber reads) {gap text tail rest : Input} (isText : IsValue text)
    (blank : Blank gap) (endsTail : EndsNumber tail) (ends : EndsNumber rest)
    (read : reads (gap ++ (text ++ tail)) rest) :
    rest = tail ∧ ReadsFrom EndsNumber reads text := by
  obtain ⟨before, value, blankBefore, isValue, same, again⟩ := values _ _ ends read
  obtain ⟨rfl, rfl⟩ := isText.unique isValue blank blankBefore endsTail ends same
  exact ⟨rfl, again⟩

/-- A state reached from another over a list of parts. -/
inductive Runs (takes : σ → ι → σ → Prop) : σ → List ι → σ → Prop where
  | nil (state : σ) : Runs takes state [] state
  | cons {state next last : σ} {part : ι} {parts : List ι} (taken : takes state part next)
      (others : Runs takes next parts last) : Runs takes state (part :: parts) last

theorem Runs.imp {takes others : σ → ι → σ → Prop} {state last : σ} {parts : List ι}
    (implies : ∀ part ∈ parts, ∀ state next, takes state part next → others state part next)
    (runs : Runs takes state parts last) : Runs others state parts last := by
  induction runs with
  | nil state => exact .nil state
  | cons taken _ ih =>
      obtain ⟨here, later⟩ := List.forall_mem_cons.mp implies
      exact .cons (here _ _ taken) (ih later)

theorem Spread.length_le {first : Bool} {parts : List Input} {inner : Input}
    (spread : Spread first parts inner) (notEmpty : ∀ part ∈ parts, part ≠ []) :
    parts.length ≤ inner.length := by
  induction spread with
  | done _ => simp
  | @part first lead part inner parts _ _ ih =>
      have later := ih fun other member => notEmpty other (by simp [member])
      have here := List.length_pos_iff.mpr (notEmpty part (by simp))
      simp only [List.length_cons, List.length_append]
      omega

/-! ## Members -/

/-- What spells a key and the colon behind it, up to a value. -/
def SpellsKey (key : String) (head : Input) : Prop :=
  ∃ content before after, readString content = .ok (key, []) ∧ Blank before ∧ Blank after ∧
    head = quote :: (content ++ (before ++ colon :: after))

/-- A member of an object as it is spelled. -/
structure Member where
  key : String
  head : Input
  value : Input
  deriving DecidableEq

namespace Member

/-- The text of a member. -/
def text (member : Member) : Input := member.head ++ member.value

/-- Whether a member is spelled as one. -/
def Stands (member : Member) : Prop := SpellsKey member.key member.head ∧ IsValue member.value

theorem Stands.notEmpty {member : Member} (stands : member.Stands) : member.text ≠ [] := by
  rcases stands with ⟨⟨content, before, after, -, -, -, spelled⟩, -⟩
  simp [text, spelled]

end Member

/-- A step that takes a value wherever it stands behind a key, and goes on in a next state. -/
def TakesBehind (step : σ → String → Input → σ × Except Fault Input) (state : σ) (key : String)
    (value : Input) (next : σ) : Prop :=
  ∀ before after more, Blank before → Blank after → EndsNumber more →
    step state key (before ++ colon :: (after ++ (value ++ more))) = (next, .ok more)

/-- Every step that goes on has taken the value behind its key. -/
def StepsOverMembers (step : σ → String → Input → σ × Except Fault Input) : Prop :=
  ∀ state key input next rest, EndsNumber rest → step state key input = (next, .ok rest) →
    ∃ before after value, Blank before ∧ Blank after ∧ IsValue value ∧
      input = before ++ colon :: (after ++ (value ++ rest)) ∧ TakesBehind step state key value next

/-- A state reached by taking the values of members. -/
def RunsOverMembers (step : σ → String → Input → σ × Except Fault Input) :
    σ → List Member → σ → Prop :=
  Runs fun state member next => TakesBehind step state member.key member.value next

section Members

variable {step : σ → String → Input → σ × Except Fault Input} {first : Bool} {state last : σ}
  {lead input rest : Input} {key : String}

theorem skipColon_append {before : Input} (blank : Blank before) (rest : Input) :
    skipColon (before ++ colon :: rest) = .ok rest :=
  skipColon_of_colon (by rw [skipBlank_append blank, skipBlank_cons (by decide)])

theorem skipColon_eq_ok (skipped : skipColon input = .ok rest) :
    ∃ before, Blank before ∧ input = before ++ colon :: rest := by
  obtain ⟨before, blank, split⟩ := exists_blank input
  rw [skipColon] at skipped
  split at skipped
  · cases skipped
  · next byte tail start =>
      split at skipped
      · next isColon =>
          cases skipped
          obtain rfl := eq_of_beq isColon
          exact ⟨before, blank, start ▸ split⟩
      · cases skipped

/-- What is told of the value behind a colon is told of the value of a member. -/
theorem member_of_skipColon {told : Input → Prop} {behind : Input}
    (skipped : skipColon input = .ok behind)
    (value : ∃ gap value, Blank gap ∧ IsValue value ∧ behind = gap ++ (value ++ rest) ∧
      told value) :
    ∃ before gap value, Blank before ∧ Blank gap ∧ IsValue value ∧
      input = before ++ colon :: (gap ++ (value ++ rest)) ∧ told value := by
  obtain ⟨before, blankBefore, rfl⟩ := skipColon_eq_ok skipped
  obtain ⟨gap, value, blank, isValue, rfl, isTold⟩ := value
  exact ⟨before, gap, value, blankBefore, blank, isValue, rfl, isTold⟩

/-- The value behind a key is found in only one way. -/
theorem IsValue.unique_behind {before gap value rest front after other more : Input}
    (isValue : IsValue value) (isOther : IsValue other) (blankBefore : Blank before)
    (blankFront : Blank front) (blank : Blank gap) (blankAfter : Blank after)
    (ends : EndsNumber rest) (endsMore : EndsNumber more)
    (same : before ++ colon :: (gap ++ (value ++ rest)) =
      front ++ colon :: (after ++ (other ++ more))) : value = other ∧ rest = more := by
  have behind := skipColon_append blankBefore (gap ++ (value ++ rest))
  rw [same, skipColon_append blankFront] at behind
  exact isValue.unique isOther blank blankAfter ends endsMore (Except.ok.inj behind).symm

theorem nextKey_eq_some (found : nextKey first input = .ok (some key, rest)) :
    ∃ lead content, Separates first lead ∧ readString content = .ok (key, []) ∧
      input = lead ++ quote :: (content ++ rest) := by
  have ofString {tail : Input}
      (read : (readString tail).map (fun found => (some found.1, found.2)) = .ok (some key, rest)) :
      ∃ content, readString content = .ok (key, []) ∧ tail = content ++ rest := by
    obtain ⟨⟨spelled, left⟩, isRead, same⟩ := map_eq_ok_iff.mp read
    cases same
    obtain ⟨content, -, rfl, again⟩ := readString_eq_ok isRead
    exact ⟨content, by simpa using again [], rfl⟩
  obtain ⟨gap, blank, split⟩ := exists_blank input
  rw [nextKey] at found
  split at found
  · cases found
  · next byte tail start =>
      rw [start] at split
      split at found
      · cases found
      · split at found
        · next isComma =>
            obtain ⟨isComma, notFirst⟩ := Bool.and_eq_true_iff.mp isComma
            obtain rfl := eq_of_beq isComma
            obtain rfl : first = false := by simpa using notFirst
            obtain ⟨after, blankAfter, splitAfter⟩ := exists_blank tail
            split at found
            · cases found
            · next byte others startAfter =>
                rw [startAfter] at splitAfter
                split at found
                · next isQuote =>
                    obtain rfl := eq_of_beq isQuote
                    obtain ⟨content, spelled, rfl⟩ := ofString found
                    exact ⟨_, content, .next blank blankAfter, spelled, by simp [split, splitAfter]⟩
                · split at found <;> cases found
        · split at found
          · next isFirst =>
              obtain rfl := isFirst
              split at found
              · next isQuote =>
                  obtain rfl := eq_of_beq isQuote
                  obtain ⟨content, spelled, rfl⟩ := ofString found
                  exact ⟨gap, content, .first blank, spelled, split⟩
              · cases found
          · cases found

theorem nextKey_eq_none (found : nextKey first input = .ok (none, rest)) :
    ∃ gap more, Blank gap ∧ rest = closeBrace :: more ∧ input = gap ++ rest := by
  have notString {tail : Input} :
      (readString tail).map (fun found => (some found.1, found.2)) ≠ .ok (none, rest) := by
    intro read
    obtain ⟨_, -, same⟩ := map_eq_ok_iff.mp read
    cases same
  obtain ⟨gap, blank, split⟩ := exists_blank input
  rw [nextKey] at found
  split at found
  · cases found
  · next byte tail start =>
      split at found
      · next isBrace =>
          obtain rfl := eq_of_beq isBrace
          cases found
          exact ⟨gap, tail, blank, rfl, start ▸ split⟩
      · repeat' split at found
        all_goals first | cases found | exact absurd found notString

theorem nextKey_append {content : Input} (separates : Separates first lead)
    (spelled : readString content = .ok (key, [])) :
    nextKey first (lead ++ quote :: (content ++ rest)) = .ok (some key, rest) := by
  have read : readString (content ++ rest) = .ok (key, rest) := by
    obtain ⟨text, -, same, again⟩ := readString_eq_ok spelled
    rw [same, List.append_nil]
    exact again rest
  cases separates with
  | first blank =>
      rw [nextKey, skipBlank_append blank, skipBlank_cons (by decide)]
      have notBrace : (quote == closeBrace) = false := by decide
      simp [notBrace, read, Except.map]
  | next blankBefore blank =>
      rw [List.append_assoc, List.cons_append, nextKey, skipBlank_append blankBefore,
        skipBlank_cons (by decide)]
      have notBrace : (comma == closeBrace) = false := by decide
      simp only [notBrace, Bool.false_eq_true, if_false, beq_self_eq_true, Bool.not_false,
        Bool.and_self, if_true, skipBlank_append blank]
      rw [skipBlank_cons (by decide)]
      simp [read, Except.map]

/-- The content of an object that was accepted has parts. -/
theorem members_of_foldMembers (steps : StepsOverMembers step) {rounds : Nat}
    (folded : foldMembers step rounds first state input = (last, .ok rest)) :
    ∃ (members : List Member) (inner more : Input), (∀ member ∈ members, member.Stands) ∧
      Spread first (members.map Member.text) inner ∧ rest = closeBrace :: more ∧
      input = inner ++ rest ∧ RunsOverMembers step state members last := by
  induction rounds generalizing first state input with
  | zero => cases folded
  | succ rounds ih =>
      rw [foldMembers] at folded
      split at folded
      · cases folded
      · next found =>
          cases folded
          obtain ⟨gap, more, blank, isClosing, split⟩ := nextKey_eq_none found
          exact ⟨[], gap, more, by simp, .done blank, isClosing, split, .nil _⟩
      · next key behind found =>
          obtain ⟨lead, content, separates, spelled, rfl⟩ := nextKey_eq_some found
          split at folded
          · cases folded
          · next middle left stepped =>
              obtain ⟨members, inner, more, stand, spread, rfl, rfl, runs⟩ := ih folded
              have ends : EndsNumber (inner ++ closeBrace :: more) := spread.endsNumber .object more
              obtain ⟨before, after, value, blankBefore, blankAfter, isValue, rfl, taken⟩ :=
                steps _ _ _ _ _ ends stepped
              let head := quote :: (content ++ (before ++ colon :: after))
              have isMember : Member.Stands ⟨key, head, value⟩ :=
                ⟨⟨content, before, after, spelled, blankBefore, blankAfter, rfl⟩, isValue⟩
              refine ⟨⟨key, head, value⟩ :: members, lead ++ ((head ++ value) ++ inner), more,
                List.forall_mem_cons.mpr ⟨isMember, stand⟩, .part separates spread, rfl, ?_,
                .cons taken runs⟩
              simp [head]

/-- A content with given parts is accepted if they are run over. -/
theorem foldMembers_append {members : List Member} {inner more : Input}
    (stand : ∀ member ∈ members, member.Stands)
    (spread : Spread first (members.map Member.text) inner)
    (runs : RunsOverMembers step state members last) {rounds : Nat}
    (enough : members.length < rounds) :
    foldMembers step rounds first state (inner ++ closeBrace :: more) =
      (last, .ok (closeBrace :: more)) := by
  induction runs generalizing first inner rounds with
  | nil state =>
      cases spread with
      | done blank =>
          obtain ⟨rounds, rfl⟩ := Nat.exists_eq_add_one.mpr enough
          rw [foldMembers, nextKey_closeBrace _ _ more]
          rw [skipBlank_append blank, skipBlank_cons (by decide)]
  | @cons state next last member members taken others ih =>
      cases spread with
      | @part _ lead part inner parts separates spread =>
          obtain ⟨rounds, rfl⟩ := Nat.exists_eq_add_one.mpr (Nat.zero_lt_of_lt enough)
          obtain ⟨isMember, stand⟩ := List.forall_mem_cons.mp stand
          obtain ⟨⟨content, before, after, spelled, blankBefore, blankAfter, head⟩, -⟩ := isMember
          have split : lead ++ (member.text ++ inner) ++ closeBrace :: more =
              lead ++ quote :: (content ++ (before ++ colon :: (after ++ (member.value ++
                (inner ++ closeBrace :: more))))) := by
            simp [Member.text, head]
          rw [split, foldMembers, nextKey_append separates spelled]
          have ends : EndsNumber (inner ++ closeBrace :: more) := spread.endsNumber .object more
          have stepped := taken before after _ blankBefore blankAfter ends
          simp only [stepped]
          exact ih stand spread (Nat.lt_of_succ_lt_succ enough)

/-- A content with given parts that was accepted was run over as these parts. -/
theorem runs_of_foldMembers (steps : StepsOverMembers step) {members : List Member}
    {inner more : Input} (stand : ∀ member ∈ members, member.Stands)
    (spread : Spread first (members.map Member.text) inner) {rounds : Nat}
    (folded : foldMembers step rounds first state (inner ++ closeBrace :: more) =
      (last, .ok rest)) :
    rest = closeBrace :: more ∧ RunsOverMembers step state members last := by
  induction rounds generalizing first state members inner with
  | zero => cases folded
  | succ rounds ih =>
      rw [foldMembers] at folded
      cases members with
      | nil =>
          cases spread with
          | done blank =>
              rw [nextKey_closeBrace first _ more] at folded
              · cases folded
                exact ⟨rfl, .nil _⟩
              · rw [skipBlank_append blank, skipBlank_cons (by decide)]
      | cons member members =>
          cases spread with
          | @part _ lead _ inner _ separates spread =>
              obtain ⟨isMember, stand⟩ := List.forall_mem_cons.mp stand
              obtain ⟨⟨content, before, after, spelled, blankBefore, blankAfter, head⟩, isValue⟩ :=
                isMember
              have split : lead ++ (member.text ++ inner) ++ closeBrace :: more =
                  lead ++ quote :: (content ++ (before ++ colon :: (after ++ (member.value ++
                    (inner ++ closeBrace :: more))))) := by
                simp [Member.text, head]
              rw [split, nextKey_append separates spelled] at folded
              simp only at folded
              split at folded
              · cases folded
              · next middle left stepped =>
                  obtain ⟨_, innerLeft, moreLeft, -, spreadLeft, rfl, rfl, -⟩ :=
                    members_of_foldMembers steps folded
                  have endsLeft : EndsNumber (innerLeft ++ closeBrace :: moreLeft) :=
                    spreadLeft.endsNumber .object moreLeft
                  have ends : EndsNumber (inner ++ closeBrace :: more) :=
                    spread.endsNumber .object more
                  -- The step took the value of some text that starts where the member's does, and
                  -- no value goes on where another one ends.
                  obtain ⟨gap, behind, value, blankGap, blankBehind, isOther, same, taken⟩ :=
                    steps _ _ _ _ _ endsLeft stepped
                  obtain ⟨rfl, sameRest⟩ := isValue.unique_behind isOther blankBefore blankGap
                    blankAfter blankBehind ends endsLeft same
                  rw [← sameRest] at folded
                  obtain ⟨isRest, runs⟩ := ih stand spread folded
                  exact ⟨isRest, .cons taken runs⟩

end Members

/-! ## Elements -/

/-- A step that takes a value wherever it stands, and goes on in a next state. -/
def TakesAt (step : σ → Input → σ × Except Fault Input) (state : σ) (value : Input) (next : σ) :
    Prop :=
  ReadsFrom EndsNumber (fun input rest => step state input = (next, .ok rest)) value

/-- Every step that goes on has taken a value. -/
def StepsOverElements (step : σ → Input → σ × Except Fault Input) : Prop :=
  ∀ state next, ReadsValues EndsNumber fun input rest => step state input = (next, .ok rest)

section Elements

variable {step : σ → Input → σ × Except Fault Input} {first : Bool} {state last : σ}
  {lead input rest : Input}

theorem nextElement_eq_true (found : nextElement first input = .ok (true, rest)) :
    ∃ lead, Separates first lead ∧ input = lead ++ rest := by
  obtain ⟨gap, blank, split⟩ := exists_blank input
  rw [nextElement] at found
  split at found
  · cases found
  · next byte tail start =>
      rw [start] at split
      split at found
      · cases found
      · split at found
        · next isComma =>
            obtain ⟨isComma, notFirst⟩ := Bool.and_eq_true_iff.mp isComma
            obtain rfl := eq_of_beq isComma
            obtain rfl : first = false := by simpa using notFirst
            obtain ⟨after, blankAfter, splitAfter⟩ := exists_blank tail
            split at found
            · cases found
            · next byte others startAfter =>
                rw [startAfter] at splitAfter
                split at found
                · cases found
                · cases found
                  exact ⟨_, .next blank blankAfter, by simp [split, splitAfter]⟩
        · split at found
          · next isFirst =>
              obtain rfl := isFirst
              cases found
              exact ⟨gap, .first blank, split⟩
          · cases found

theorem nextElement_eq_false (found : nextElement first input = .ok (false, rest)) :
    ∃ gap more, Blank gap ∧ rest = closeBracket :: more ∧ input = gap ++ rest := by
  obtain ⟨gap, blank, split⟩ := exists_blank input
  rw [nextElement] at found
  split at found
  · cases found
  · next byte tail start =>
      split at found
      · next isBracket =>
          obtain rfl := eq_of_beq isBracket
          cases found
          exact ⟨gap, tail, blank, rfl, start ▸ split⟩
      · repeat' split at found
        all_goals cases found

theorem nextElement_append {value : Input} (separates : Separates first lead)
    (isValue : IsValue value) (rest : Input) :
    nextElement first (lead ++ (value ++ rest)) = .ok (true, value ++ rest) := by
  obtain ⟨byte, more, rfl, opens⟩ := isValue.opens
  have notComma : byte ≠ comma := opens.2.1
  have notBracket : byte ≠ closeBracket := opens.2.2.1
  cases separates with
  | first blank =>
      rw [List.cons_append, nextElement, skipBlank_append blank, opens.skipBlank]
      simp [notBracket]
  | next blankBefore blank =>
      rw [List.append_assoc, List.cons_append, nextElement, skipBlank_append blankBefore,
        skipBlank_cons (by decide)]
      have notClosing : (comma == closeBracket) = false := by decide
      simp only [notClosing, Bool.false_eq_true, if_false, beq_self_eq_true, Bool.not_false,
        Bool.and_self, if_true, skipBlank_append blank]
      rw [List.cons_append, opens.skipBlank]
      simp [notBracket]

/-- The content of a list that was accepted has parts. -/
theorem elements_of_foldElements (steps : StepsOverElements step) {rounds : Nat}
    (folded : foldElements step rounds first state input = (last, .ok rest)) :
    ∃ elements inner more, (∀ element ∈ elements, IsValue element) ∧
      Spread first elements inner ∧ rest = closeBracket :: more ∧ input = inner ++ rest ∧
      Runs (TakesAt step) state elements last := by
  induction rounds generalizing first state input with
  | zero => cases folded
  | succ rounds ih =>
      rw [foldElements] at folded
      split at folded
      · cases folded
      · next found =>
          cases folded
          obtain ⟨gap, more, blank, isClosing, split⟩ := nextElement_eq_false found
          exact ⟨[], gap, more, by simp, .done blank, isClosing, split, .nil _⟩
      · next behind found =>
          obtain ⟨lead, separates, rfl⟩ := nextElement_eq_true found
          split at folded
          · cases folded
          · next middle left stepped =>
              obtain ⟨elements, inner, more, values, spread, rfl, rfl, runs⟩ := ih folded
              have ends : EndsNumber (inner ++ closeBracket :: more) := spread.endsNumber .list more
              obtain ⟨gap, value, blank, isValue, rfl, taken⟩ := steps _ _ _ _ ends stepped
              refine ⟨value :: elements, (lead ++ gap) ++ (value ++ inner), more,
                List.forall_mem_cons.mpr ⟨isValue, values⟩, .part (separates.append blank) spread,
                rfl, by simp, .cons taken runs⟩

/-- A content with given parts is accepted if they are run over. -/
theorem foldElements_append {elements : List Input} {inner more : Input}
    (values : ∀ element ∈ elements, IsValue element) (spread : Spread first elements inner)
    (runs : Runs (TakesAt step) state elements last) {rounds : Nat}
    (enough : elements.length < rounds) :
    foldElements step rounds first state (inner ++ closeBracket :: more) =
      (last, .ok (closeBracket :: more)) := by
  induction runs generalizing first inner rounds with
  | nil state =>
      cases spread with
      | done blank =>
          obtain ⟨rounds, rfl⟩ := Nat.exists_eq_add_one.mpr enough
          rw [foldElements, nextElement_closeBracket _ _ more]
          rw [skipBlank_append blank, skipBlank_cons (by decide)]
  | @cons state next last element elements taken others ih =>
      cases spread with
      | @part _ lead part inner parts separates spread =>
          obtain ⟨rounds, rfl⟩ := Nat.exists_eq_add_one.mpr (Nat.zero_lt_of_lt enough)
          obtain ⟨isValue, values⟩ := List.forall_mem_cons.mp values
          have ends : EndsNumber (inner ++ closeBracket :: more) := spread.endsNumber .list more
          rw [List.append_assoc, List.append_assoc, foldElements,
            nextElement_append separates isValue]
          have stepped := taken [] _ blank_nil ends
          rw [List.nil_append] at stepped
          simp only [stepped]
          exact ih values spread (Nat.lt_of_succ_lt_succ enough)

/-- A content with given parts that was accepted was run over as these parts. -/
theorem runs_of_foldElements (steps : StepsOverElements step) {elements : List Input}
    {inner more : Input} (values : ∀ element ∈ elements, IsValue element)
    (spread : Spread first elements inner) {rounds : Nat}
    (folded : foldElements step rounds first state (inner ++ closeBracket :: more) =
      (last, .ok rest)) :
    rest = closeBracket :: more ∧ Runs (TakesAt step) state elements last := by
  induction rounds generalizing first state elements inner with
  | zero => cases folded
  | succ rounds ih =>
      rw [foldElements] at folded
      cases elements with
      | nil =>
          cases spread with
          | done blank =>
              rw [nextElement_closeBracket first _ more] at folded
              · cases folded
                exact ⟨rfl, .nil _⟩
              · rw [skipBlank_append blank, skipBlank_cons (by decide)]
      | cons element elements =>
          cases spread with
          | @part _ lead _ inner _ separates spread =>
              obtain ⟨isValue, values⟩ := List.forall_mem_cons.mp values
              rw [List.append_assoc, List.append_assoc, nextElement_append separates isValue]
                at folded
              simp only at folded
              split at folded
              · cases folded
              · next middle left stepped =>
                  obtain ⟨_, innerLeft, moreLeft, -, spreadLeft, rfl, rfl, -⟩ :=
                    elements_of_foldElements steps folded
                  have endsLeft : EndsNumber (innerLeft ++ closeBracket :: moreLeft) :=
                    spreadLeft.endsNumber .list moreLeft
                  have ends : EndsNumber (inner ++ closeBracket :: more) :=
                    spread.endsNumber .list more
                  obtain ⟨sameRest, taken⟩ :=
                    (steps state middle).of_isValue isValue blank_nil ends endsLeft stepped
                  rw [sameRest] at folded
                  obtain ⟨isRest, runs⟩ := ih values spread folded
                  exact ⟨isRest, .cons taken runs⟩

end Elements

end TraceStore.Json
