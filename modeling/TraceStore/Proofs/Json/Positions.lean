import TraceStore.Proofs.Json.Layout

/-!
# What stands in a document

A document is described here by what stands at its positions, in whichever layout: a relation takes
the bytes at which something starts and the bytes that are left behind it.  `MembersAt` goes over
the members of an object, whose values are described by a relation of the caller, and `ObjectAt`
adds the braces and says which members have to be there.

A reader whose step takes each member of such an object takes the object: `readObject_of_objectAt`.
The members may stand in any order, so the state of the step is given as a function of the keys
that were seen.  One member that the step refuses is enough to refuse the object:
`readObject_of_refuses`.  Written objects are the case of one layout: `objectAt_pretty`.
-/

namespace TraceStore.Json

/-! ## Natural numbers -/

/-- A natural number, however large. -/
def NaturalAt (value : Nat) (input rest : Input) : Prop :=
  skipBlank input = writeNatural value ++ rest ∧ EndsNumber rest

theorem natural?_of_lt {value bound : Nat} (fits : value < bound) (expected : String) :
    natural? expected bound (.integer value) = .ok value := by
  simp [natural?, fits]

/-- A natural number below a bound of at most a word is read. -/
theorem readNatural_of_lt {value bound : Nat} {input rest : Input}
    (stands : NaturalAt value input rest) (fits : value < bound) (small : bound ≤ Word.size)
    (expected : String) : readNatural expected bound input = .ok (value, rest) := by
  have above : Word.least ≤ (value : Int) := by
    have negative : Word.least ≤ 0 := by simp [Word.least]
    exact Int.le_trans negative (Int.natCast_nonneg value)
  have below : (value : Int) < Word.size := Int.ofNat_lt.mpr (Nat.lt_of_lt_of_le fits small)
  have read := readNumber_writeInteger above below stands.2
  rcases writeNatural_eq_cons value with ⟨first, others, written, decimal⟩
  rw [show writeInteger value = writeNatural value from rfl, written, List.cons_append] at read
  rw [readNatural, stands.1, written, List.cons_append]
  simp only [decimal, Bool.or_true, if_true, read, natural?_of_lt fits expected]

/-- A natural number that does not fit into a word is refused. -/
theorem readNatural_of_size_le {value : Nat} {input rest : Input}
    (stands : NaturalAt value input rest) (large : Word.size ≤ value) (expected : String) :
    ∃ fault, readNatural expected Word.size input = .error fault := by
  have positive : 0 < value := Nat.lt_of_lt_of_le (by decide) large
  rcases writeNatural_of_pos positive with ⟨first, others, written, nonzero⟩
  have decimal := isDigit_of_mem_writeNatural value
  have valued := digitsValue_writeNatural value
  rw [written] at decimal valued
  have notMinus : first ≠ minus := by
    rintro rfl
    exact absurd (decimal minus (by simp)) (by decide)
  cases gathered : gather 0 (first :: others) with
  | mk digits leftOut =>
      have someLeft : leftOut ≠ 0 := by
        intro none
        have all : (gather 0 (first :: others)).2 = 0 := by rw [gathered, none]
        have small := digitsValue_lt_of_gather (by decide) all
        rw [valued] at small
        exact Nat.not_lt_of_le large small
      have read : readNumber (first :: (others ++ rest)) =
          makeDouble false digits leftOut rest := by
        rw [readNumber]
        simp only [beq_iff_eq, notMinus, if_false]
        unfold readMagnitude
        simp only [beq_iff_eq, nonzero, if_false, decimal first (by simp), if_true]
        rw [spanDigits_append (fun byte member => decimal byte (by simp [member])) stands.2]
        simp only [gathered]
        rw [readAfterWhole_of_endsNumber false digits leftOut stands.2, wholeNumber]
        simp [someLeft]
      rw [readNatural, stands.1, written, List.cons_append]
      simp only [decimal first (by simp), Bool.or_true, if_true, read, makeDouble]
      cases scale (.ofNat digits) leftOut with
      | none => exact ⟨_, rfl⟩
      | some double => exact ⟨_, rfl⟩

/-! ## Keys -/

theorem readContent_shorter {input rest : Input} {content : List UInt8}
    (read : readContent input = .ok (content, rest)) : rest.length < input.length := by
  fun_induction readContent input generalizing content rest with
  | case1 | case3 | case4 | case6 | case7 => cases read
  | case2 =>
      cases read
      simp
  | case5 _ _ _ _ _ _ _ shorter _ _ readMore ih =>
      cases read
      exact Nat.lt_succ_of_lt (Nat.lt_trans (ih readMore) shorter)
  | case8 _ _ _ _ _ _ _ readMore ih =>
      cases read
      exact Nat.lt_succ_of_lt (ih readMore)

theorem readString_shorter {input rest : Input} {text : String}
    (read : readString input = .ok (text, rest)) : rest.length < input.length := by
  rw [readString] at read
  split at read
  · cases read
  · next found =>
      split at read
      · cases read
        exact readContent_shorter found
      · cases read

/-- Where a part of an object or a list starts: the first at once, a later one behind a comma. -/
def PartAt (first : Bool) (input start : Input) : Prop :=
  if first then start = input else skipBlank input = comma :: start

theorem PartAt.length_le {first : Bool} {input start : Input} (part : PartAt first input start) :
    start.length ≤ input.length := by
  rw [PartAt] at part
  split at part
  · exact Nat.le_of_eq (congrArg List.length part)
  · have shorter := skipBlank_length_le input
    rw [part] at shorter
    exact Nat.le_of_succ_le shorter

/-- A key stands next, whose colon and value follow. -/
def KeyAt (first : Bool) (key : String) (input behind : Input) : Prop :=
  ∃ start spelled, PartAt first input start ∧ skipBlank start = quote :: spelled ∧
    readString spelled = .ok (key, behind)

theorem KeyAt.shorter {first : Bool} {key : String} {input behind : Input}
    (stands : KeyAt first key input behind) : behind.length < input.length := by
  rcases stands with ⟨start, spelled, part, opens, read⟩
  have starts := part.length_le
  have shorter := skipBlank_length_le start
  have read := readString_shorter read
  rw [opens] at shorter
  calc
    behind.length < spelled.length := read
    _ < start.length := shorter
    _ ≤ input.length := starts

theorem nextKey_of_keyAt {first : Bool} {key : String} {input behind : Input}
    (stands : KeyAt first key input behind) : nextKey first input = .ok (some key, behind) := by
  rcases stands with ⟨start, spelled, part, opens, read⟩
  have notBrace : (quote == closeBrace) = false := by decide
  have notComma : (quote == comma) = false := by decide
  have commaNotBrace : (comma == closeBrace) = false := by decide
  cases first with
  | true =>
      obtain rfl : start = input := part
      simp [nextKey, opens, notBrace, notComma, read, Except.map]
  | false =>
      have separator : skipBlank input = comma :: start := part
      simp [nextKey, separator, opens, commaNotBrace, read, Except.map]

/-! ## Members -/

variable {holds : String → Input → Input → Prop}

/-- The members of an object, up to and with the brace that closes it.  The keys are given in order;
what stands behind each colon is described by `holds`. -/
inductive MembersAt (holds : String → Input → Input → Prop) :
    (first : Bool) → List String → Input → Input → Prop where
  | close {first : Bool} {input rest : Input} (closes : skipBlank input = closeBrace :: rest) :
      MembersAt holds first [] input rest
  | member {first : Bool} {key : String} {keys : List String}
      {input behind value after rest : Input} (isKey : KeyAt first key input behind)
      (isColon : skipBlank behind = colon :: value) (stands : holds key value after)
      (within : after <:+ value) (others : MembersAt holds false keys after rest) :
      MembersAt holds first (key :: keys) input rest

namespace MembersAt

variable {first : Bool} {keys : List String} {input rest : Input}

theorem length_lt (members : MembersAt holds first keys input rest) :
    keys.length + rest.length < input.length := by
  induction members with
  | @close _ input rest closes =>
      have shorter := skipBlank_length_le input
      rw [closes] at shorter
      simp only [List.length_cons, List.length_nil] at shorter ⊢
      omega
  | @member _ _ _ input behind value after rest isKey isColon stands within others ih =>
      have keyShorter := isKey.shorter
      have colonShorter := skipBlank_length_le behind
      have valueShorter := within.length_le
      rw [isColon] at colonShorter
      simp only [List.length_cons] at colonShorter ⊢
      omega

/-- The value of a member stands between the first key and the closing brace. -/
theorem value_of_mem (members : MembersAt holds first keys input rest) {key : String}
    (member : key ∈ keys) :
    ∃ value after, holds key value after ∧ value.length < input.length ∧
      rest.length < after.length := by
  induction members with
  | close => simp at member
  | @member _ _ _ input behind value after rest isKey isColon stands within others ih =>
      have keyShorter := isKey.shorter
      have colonShorter := skipBlank_length_le behind
      rw [isColon] at colonShorter
      simp only [List.length_cons] at colonShorter
      rcases List.mem_cons.mp member with rfl | later
      · have othersShorter := others.length_lt
        exact ⟨value, after, stands, by omega, by omega⟩
      · rcases ih later with ⟨inner, end_, stands, starts, ends⟩
        have valueShorter := within.length_le
        exact ⟨inner, end_, stands, by omega, ends⟩

end MembersAt

/-! ## Folding members -/

variable {σ : Type} {step : σ → String → Input → σ × Except Fault Input}
  {state : List String → σ} {first : Bool} {keys : List String} {input rest : Input}

/-- A step takes the members of a key: whichever keys were seen before, it reads the value to its
end and goes on in the state for one key more. -/
def Takes (step : σ → String → Input → σ × Except Fault Input) (state : List String → σ)
    (key : String) (stands : Input → Input → Prop) : Prop :=
  ∀ seen behind value after, key ∉ seen → skipBlank behind = colon :: value →
    stands value after → step (state seen) key behind = (state (seen ++ [key]), .ok after)

/-- A step refuses the members of a key, whichever keys were seen before. -/
def Refuses (step : σ → String → Input → σ × Except Fault Input) (state : List String → σ)
    (key : String) (stands : Input → Input → Prop) : Prop :=
  ∀ seen behind value after, key ∉ seen → skipBlank behind = colon :: value →
    stands value after → ∃ last fault, step (state seen) key behind = (last, .error fault)

theorem Takes.mono {key : String} {stands stronger : Input → Input → Prop}
    (takes : Takes step state key stands)
    (implies : ∀ value after, stronger value after → stands value after) :
    Takes step state key stronger :=
  fun seen behind value after fresh isColon holds =>
    takes seen behind value after fresh isColon (implies value after holds)

theorem Refuses.mono {key : String} {stands stronger : Input → Input → Prop}
    (refuses : Refuses step state key stands)
    (implies : ∀ value after, stronger value after → stands value after) :
    Refuses step state key stronger :=
  fun seen behind value after fresh isColon holds =>
    refuses seen behind value after fresh isColon (implies value after holds)

theorem notMem_of_nodup {key : String} {seen later : List String}
    (distinct : (seen ++ key :: later).Nodup) : key ∉ seen :=
  fun early => (List.nodup_append.mp distinct).2.2 key early key List.mem_cons_self rfl

/-- A step that takes all members goes over them up to the closing brace. -/
theorem foldMembers_of_takes (members : MembersAt holds first keys input rest)
    (takes : ∀ key ∈ keys, Takes step state key (holds key)) (seen : List String)
    (distinct : (seen ++ keys).Nodup) :
    ∀ rounds, keys.length < rounds →
      foldMembers step rounds first (state seen) input =
        (state (seen ++ keys), .ok (closeBrace :: rest)) := by
  induction members generalizing seen with
  | @close first input rest closes =>
      intro rounds enough
      rcases Nat.exists_eq_add_one_of_ne_zero (Nat.ne_zero_of_lt enough) with ⟨rounds, rfl⟩
      rw [foldMembers, nextKey_closeBrace first input rest closes, List.append_nil]
  | @member first key keys input behind value after rest isKey isColon stands _ _ ih =>
      intro rounds enough
      rcases Nat.exists_eq_add_one_of_ne_zero (Nat.ne_zero_of_lt enough) with ⟨rounds, rfl⟩
      have fresh := notMem_of_nodup distinct
      have taken := takes key (by simp) seen behind value after fresh isColon stands
      rw [List.append_cons] at distinct
      rw [foldMembers, nextKey_of_keyAt isKey, List.append_cons]
      simp only [taken]
      exact ih (fun other member => takes other (by simp [member])) _ distinct rounds
        (by simpa using enough)

/-- A step that refuses one of the members and takes those in front of it goes no further. -/
theorem foldMembers_of_refuses (members : MembersAt holds first keys input rest)
    (either : ∀ key ∈ keys, Takes step state key (holds key) ∨ Refuses step state key (holds key))
    {refused : String} (among : refused ∈ keys)
    (refuses : Refuses step state refused (holds refused)) (seen : List String)
    (distinct : (seen ++ keys).Nodup) :
    ∀ rounds, ∃ last fault,
      foldMembers step rounds first (state seen) input = (last, .error fault) := by
  induction members generalizing seen with
  | close => simp at among
  | @member first key keys input behind value after rest isKey isColon stands _ _ ih =>
      intro rounds
      cases rounds with
      | zero => exact ⟨_, _, rfl⟩
      | succ rounds =>
          have fresh := notMem_of_nodup distinct
          rw [foldMembers, nextKey_of_keyAt isKey]
          rcases either key (by simp) with takes | refusesFirst
          · -- a key that is taken may still be refused as well, so membership is not split here
            have taken := takes seen behind value after fresh isColon stands
            simp only [taken]
            rcases List.mem_cons.mp among with rfl | later
            · rcases refuses seen behind value after fresh isColon stands with ⟨_, _, stopped⟩
              rw [stopped] at taken
              cases taken
            · rw [List.append_cons] at distinct
              exact ih (fun other member => either other (by simp [member])) later _ distinct rounds
          · rcases refusesFirst seen behind value after fresh isColon stands with
              ⟨last, fault, stopped⟩
            simp only [stopped]
            exact ⟨last, fault, rfl⟩

/-! ## Objects -/

/-- What stands behind the colon of a key.  A key that is recognized holds the part that is listed
for it; anything may stand behind another key. -/
def MemberOf (recognized : List String) (parts : List (String × (Input → Input → Prop)))
    (key : String) (value after : Input) : Prop :=
  if key ∈ recognized then ∀ part ∈ parts, part.1 = key → part.2 value after
  else skipValue value = .ok after

/-- An object without repeated keys, which holds the listed parts, no other recognized member, and
any members besides.  Members stand in any order. -/
def ObjectAt (recognized : List String) (parts : List (String × (Input → Input → Prop)))
    (input rest : Input) : Prop :=
  ∃ inside keys, skipBlank input = openBrace :: inside ∧ keys.Nodup ∧
    (∀ key ∈ recognized, key ∈ keys ↔ key ∈ parts.map Prod.fst) ∧
    MembersAt (MemberOf recognized parts) true keys inside rest

section Objects

variable {recognized : List String} {parts : List (String × (Input → Input → Prop))}

theorem stands_of_memberOf {part : String × (Input → Input → Prop)} (listed : part ∈ parts)
    (known : part.1 ∈ recognized) (value after : Input)
    (member : MemberOf recognized parts part.1 value after) : part.2 value after := by
  rw [MemberOf, if_pos known] at member
  exact member part listed rfl

theorem skipValue_of_memberOf {key : String} (unknown : key ∉ recognized) (value after : Input)
    (member : MemberOf recognized parts key value after) : skipValue value = .ok after := by
  rwa [MemberOf, if_neg unknown] at member

/-- A part of an object stands between the braces. -/
theorem ObjectAt.part_of_mem (object : ObjectAt recognized parts input rest)
    {part : String × (Input → Input → Prop)} (listed : part ∈ parts)
    (known : part.1 ∈ recognized) :
    ∃ value after, part.2 value after ∧ value.length + 1 < input.length ∧
      rest.length < after.length := by
  rcases object with ⟨inside, keys, opens, -, complete, members⟩
  rcases members.value_of_mem ((complete part.1 known).mpr (List.mem_map_of_mem listed)) with
    ⟨value, after, member, starts, ends⟩
  have shorter := skipBlank_length_le input
  rw [opens, List.length_cons] at shorter
  exact ⟨value, after, stands_of_memberOf listed known value after member, by omega, ends⟩

theorem ObjectAt.length_lt (object : ObjectAt recognized parts input rest) :
    rest.length + 1 < input.length := by
  rcases object with ⟨inside, keys, opens, -, -, members⟩
  have shorter := skipBlank_length_le input
  have inner := members.length_lt
  rw [opens, List.length_cons] at shorter
  omega

/-- A reader whose step takes the listed parts, and passes over other members, takes the object.  It
ends in the state for keys of which the recognized ones are those of the parts. -/
theorem readObject_of_objectAt (object : ObjectAt recognized parts input rest)
    (takes : ∀ part ∈ parts, Takes step state part.1 part.2)
    (passes : ∀ key, key ∉ recognized →
      Takes step state key fun value after => skipValue value = .ok after) (expected : String) :
    ∃ keys : List String, (∀ key ∈ recognized, key ∈ keys ↔ key ∈ parts.map Prod.fst) ∧
      readObject expected
          (some fun state input => foldMembers step (input.length + 1) true state input)
          (state []) input = (state keys, .ok rest) := by
  rcases object with ⟨inside, keys, opens, distinct, complete, members⟩
  have all : ∀ key ∈ keys, Takes step state key (MemberOf recognized parts key) := by
    intro key member
    by_cases known : key ∈ recognized
    · rcases List.mem_map.mp ((complete key known).mp member) with ⟨part, listed, rfl⟩
      exact (takes part listed).mono (stands_of_memberOf listed known)
    · exact (passes key known).mono (skipValue_of_memberOf known)
  have short := members.length_lt
  have folded := foldMembers_of_takes members all [] distinct (inside.length + 1) (by omega)
  refine ⟨keys, complete, ?_⟩
  rw [readObject, opens]
  simp only [beq_self_eq_true, if_true, folded, finish, closeObject_closeBrace, List.nil_append]

/-- A reader whose step refuses one of the listed parts refuses the object. -/
theorem readObject_of_refuses (object : ObjectAt recognized parts input rest)
    (either : ∀ part ∈ parts, Takes step state part.1 part.2 ∨ Refuses step state part.1 part.2)
    (passes : ∀ key, key ∉ recognized →
      Takes step state key fun value after => skipValue value = .ok after)
    {refused : String × (Input → Input → Prop)} (listed : refused ∈ parts)
    (known : refused.1 ∈ recognized) (refuses : Refuses step state refused.1 refused.2)
    (expected : String) :
    ∃ last fault, readObject expected
        (some fun state input => foldMembers step (input.length + 1) true state input)
        (state []) input = (last, .error fault) := by
  rcases object with ⟨inside, keys, opens, distinct, complete, members⟩
  have all : ∀ key ∈ keys, Takes step state key (MemberOf recognized parts key) ∨
      Refuses step state key (MemberOf recognized parts key) := by
    intro key member
    by_cases known : key ∈ recognized
    · rcases List.mem_map.mp ((complete key known).mp member) with ⟨part, listed, rfl⟩
      exact (either part listed).imp (fun takes => takes.mono (stands_of_memberOf listed known))
        fun refuses => refuses.mono (stands_of_memberOf listed known)
    · exact .inl ((passes key known).mono (skipValue_of_memberOf known))
  have among : refused.1 ∈ keys := (complete refused.1 known).mpr (List.mem_map_of_mem listed)
  rcases foldMembers_of_refuses members all among
      (refuses.mono (stands_of_memberOf listed known)) [] distinct (inside.length + 1) with
    ⟨last, fault, folded⟩
  rw [readObject, opens]
  simp only [beq_self_eq_true, if_true, folded, finish]
  exact ⟨_, _, rfl⟩

/-- Blanks in front of an object make no difference. -/
@[simp] theorem readObject_skipBlank (expected : String)
    (content : Option (σ → Input → σ × Except Fault Input)) (start : σ) (input : Input) :
    readObject expected content start (skipBlank input) =
      readObject expected content start input := by
  rw [readObject, readObject, skipBlank_skipBlank]

end Objects

/-! ## Elements -/

/-- A list has a next element where one starts. -/
theorem nextElement_of_partAt {start more : Input} {byte : UInt8} (part : PartAt first input start)
    (opens : skipBlank start = byte :: more) (inside : (byte == closeBracket) = false) :
    nextElement first input = .ok (true, byte :: more) := by
  have notBracket : (comma == closeBracket) = false := by decide
  cases first with
  | true =>
      obtain rfl : start = input := part
      simp [nextElement, opens, inside]
  | false =>
      have separator : skipBlank input = comma :: start := part
      simp [nextElement, separator, opens, inside, notBracket]

/-! ## Written objects -/

theorem naturalAt_pretty (level value : Nat) {rest : Input} (ends : EndsNumber rest) :
    NaturalAt value (0x20 :: ((Value.natural value).pretty level ++ rest)) rest := by
  rcases writeNatural_eq_cons value with ⟨first, others, written, decimal⟩
  have opens : (first == minus || isDigit first) = true := by simp [decimal]
  have notBlank := (word?_of_opensNumber opens).2
  refine ⟨?_, ends⟩
  rw [skipBlank_space, Value.natural, Value.pretty, writeNumber,
    show writeInteger (value : Int) = writeNatural value from rfl, written, List.cons_append,
    skipBlank_cons notBlank]

/-- A written member stands where its line starts. -/
theorem MembersAt.pretty (level : Nat) {first : Bool} {key : String} {value : Value}
    {keys : List String} {input left rest : Input}
    (stands : holds key (0x20 :: (value.pretty level ++ left)) left)
    (part : PartAt first input (Value.newLine level ++ (writeString key ++
      colon :: 0x20 :: (value.pretty level ++ left))))
    (others : MembersAt holds false keys left rest) :
    MembersAt holds first (key :: keys) input rest := by
  have isKey : KeyAt first key input (colon :: 0x20 :: (value.pretty level ++ left)) := by
    refine ⟨_, _, part, ?_, readString_escaped key _⟩
    rw [skipBlank_newLine, writeString_append, skipBlank_cons (by decide)]
  exact .member isKey (skipBlank_cons (by decide) _) stands
    (List.suffix_append (0x20 :: value.pretty level) left) others

/-- Written members stand in front of the brace that closes their object. -/
theorem membersAt_prettyMembers (level outer : Nat) {first : Bool} {input rest : Input}
    (member : String × Value) (others : List (String × Value))
    (stands : ∀ found ∈ member :: others, ∀ left, EndsNumber left →
      holds found.1 (0x20 :: (found.2.pretty level ++ left)) left)
    (part : PartAt first input (Value.prettyMembers level (member :: others) ++
      (Value.newLine outer ++ closeBrace :: rest))) :
    MembersAt holds first ((member :: others).map Prod.fst) input rest := by
  induction others generalizing member first input with
  | nil =>
      rw [prettyMembers_cons] at part
      simp only [laterMembers, List.append_nil, List.append_assoc, List.cons_append] at part
      refine .pretty level (stands member (by simp) _ (endsNumber_newLine outer _)) part (.close ?_)
      rw [skipBlank_newLine, skipBlank_cons (by decide)]
  | cons other others ih =>
      rw [prettyMembers_cons] at part
      simp only [laterMembers, List.append_assoc, List.cons_append] at part
      have later := ih other (fun found among => stands found (by simp [among]))
        (show PartAt false (comma :: _) _ from skipBlank_cons (by decide) _)
      exact .pretty level (stands member (by simp) _ (endsNumber_comma _)) part later

/-- A written object holds the parts that its members are written for. -/
theorem objectAt_pretty (level : Nat) {recognized : List String}
    {parts : List (String × (Input → Input → Prop))} {member : String × Value}
    {others : List (String × Value)} (distinct : ((member :: others).map Prod.fst).Nodup)
    (listed : ∀ key ∈ recognized,
      key ∈ (member :: others).map Prod.fst ↔ key ∈ parts.map Prod.fst)
    (stands : ∀ found ∈ member :: others, ∀ left, EndsNumber left →
      MemberOf recognized parts found.1 (0x20 :: (found.2.pretty (level + 1) ++ left)) left)
    (rest : Input) :
    ObjectAt recognized parts ((Value.object (member :: others)).pretty level ++ rest) rest := by
  refine ⟨Value.prettyMembers (level + 1) (member :: others) ++
    (Value.newLine level ++ closeBrace :: rest), _, ?_, distinct, listed,
    membersAt_prettyMembers (level + 1) level member others stands rfl⟩
  rw [Value.pretty, List.cons_append, List.cons_append, List.cons_append,
    skipBlank_cons (by decide)]
  simp

end TraceStore.Json
