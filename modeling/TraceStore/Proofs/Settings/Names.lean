import TraceStore.Proofs.Text.Lowercase
import TraceStore.Settings.Layers

/-!
# Names of settings as paths

What a name of a setting is read as: words behind points are read as the steps that they spell out,
and a name that is read as a path is a single word, or else a word with a point or a bracket behind
it.  A word consists of ASCII characters, so that lowering a name lowers its first word by itself.
-/

namespace TraceStore

namespace KeyPath

variable {text rest : List Char} {name : String} {path : KeyPath}

/-- A name that can stand between the points of a path. -/
def IsWord (name : String) : Prop :=
  name.toList ≠ [] ∧ ∀ character ∈ name.toList, isNamePart character = true

-- on the letters of the name: deciding over all characters would not end
instance (name : String) : Decidable (IsWord name) :=
  @instDecidableAnd _ _ inferInstance (List.decidableBAll _ _)

/-- The marks that can stand behind the first word of a path. -/
def marks : List Char := ['.', '[']

theorem isNamePart_of_mem_marks : ∀ mark ∈ marks, isNamePart mark = false :=
  List.forall_mem_cons.mpr ⟨rfl, List.forall_mem_singleton.mpr rfl⟩

/-- Names behind points. -/
def pointedNames (names : List String) : List Char := names.flatMap fun name => '.' :: name.toList

/-! ## Reading words -/

theorem readName_append (isWord : IsWord name) (stops : rest.head?.all (isNamePart · = false)) :
    readName (name.toList ++ rest) = some (name, rest) := by
  have taken : (name.toList ++ rest).takeWhile isNamePart = name.toList := by
    rw [List.takeWhile_append_of_pos isWord.2]
    cases rest with
    | nil => simp
    | cons mark rest =>
        have stop : isNamePart mark = false := by simpa using stops
        simp [stop]
  have left : (name.toList ++ rest).dropWhile isNamePart = rest := by
    rw [List.dropWhile_append_of_pos isWord.2]
    cases rest with
    | nil => rfl
    | cons mark rest =>
        have stop : isNamePart mark = false := by simpa using stops
        simp [stop]
  simp [readName, taken, left, isWord.1]

theorem of_readName (read : readName text = some (name, rest)) :
    IsWord name ∧ text = name.toList ++ rest := by
  simp only [readName, Option.ite_none_left_eq_some, Option.some.injEq, Prod.mk.injEq] at read
  obtain ⟨some, rfl, rfl⟩ := read
  refine ⟨⟨by simpa using some, fun character member => ?_⟩, ?_⟩
  · rw [String.toList_ofList] at member
    exact List.all_eq_true.mp List.all_takeWhile character member
  · rw [String.toList_ofList, List.takeWhile_append_dropWhile]

theorem readSteps_pointedNames {names : List String} (words : ∀ name ∈ names, IsWord name)
    {rounds : Nat} (enough : (pointedNames names).length ≤ rounds) :
    readSteps rounds (pointedNames names) = some (names.map .child) := by
  induction names generalizing rounds with
  | nil => cases rounds <;> rfl
  | cons name names ih =>
      have whole : pointedNames (name :: names) = '.' :: (name.toList ++ pointedNames names) := rfl
      rw [whole] at enough ⊢
      cases rounds with
      | zero => simp at enough
      | succ rounds =>
          have stops : (pointedNames names).head?.all (isNamePart · = false) := by
            cases names <;> simp [pointedNames, isNamePart_of_mem_marks '.' (by decide)]
          have fewer : (pointedNames names).length ≤ rounds := by
            simp only [List.length_cons, List.length_append] at enough
            omega
          rw [readSteps, readName_append (words name (by simp)) stops]
          simp [ih (fun name member => words name (by simp [member])) fewer]

/-- Words with points between them are the path with these steps. -/
theorem ofText?_pointedNames {first : String} {names : List String} (isWord : IsWord first)
    (words : ∀ name ∈ names, IsWord name) :
    ofText? (String.ofList (first.toList ++ pointedNames names)) =
      some ⟨first, names.map .child⟩ := by
  have stops : (pointedNames names).head?.all (isNamePart · = false) := by
    cases names <;> simp [pointedNames, isNamePart_of_mem_marks '.' (by decide)]
  rw [ofText?, String.toList_ofList, readName_append isWord stops]
  simp [readSteps_pointedNames words (Nat.le_refl _)]

/-- A step begins with a mark. -/
theorem of_readSteps_cons {rounds : Nat} {mark : Char} {steps : List KeyStep}
    (read : readSteps rounds (mark :: rest) = some steps) : mark ∈ marks ∧ steps ≠ [] := by
  unfold readSteps at read
  split at read
  · next empty => simp at empty
  · simp at read
  case h_3 same | h_4 same =>
    obtain rfl := (List.cons.inj same).1
    simp only [Option.bind_eq_bind, Option.bind_eq_some_iff, Option.pure_def,
      Option.some.injEq] at read
    obtain ⟨-, -, others, -, rfl⟩ := read
    exact ⟨by decide, by simp⟩
  · simp at read

/-- A text that is a path is one word, or one word with a mark behind it. -/
theorem of_ofText? {text : String} (read : ofText? text = some path) :
    IsWord path.first ∧ (path.steps = [] ∧ text = path.first ∨
      path.steps ≠ [] ∧ ∃ mark ∈ marks, ∃ rest,
        text.toList = path.first.toList ++ mark :: rest) := by
  rw [ofText?] at read
  cases first : readName text.toList with
  | none => simp [first] at read
  | some found =>
      obtain ⟨name, rest⟩ := found
      obtain ⟨isWord, whole⟩ := of_readName first
      cases below : readSteps rest.length rest with
      | none => simp [first, below] at read
      | some steps =>
          obtain rfl : ⟨name, steps⟩ = path := by simpa [first, below] using read
          refine ⟨isWord, ?_⟩
          cases rest with
          | nil =>
              obtain rfl : [] = steps := by simpa [readSteps] using below
              exact .inl ⟨rfl, String.toList_inj.mp (by simpa using whole)⟩
          | cons mark rest =>
              obtain ⟨isMark, some⟩ := of_readSteps_cons below
              exact .inr ⟨some, mark, isMark, rest, whole⟩

/-! ## Lowering words -/

theorem ascii_of_isNamePart {character : Char} (isPart : isNamePart character = true) :
    character.toNat < 0x80 := by
  simp only [isNamePart, Bool.or_eq_true, decide_eq_true_eq] at isPart
  rcases isPart with ((alphanumeric | rfl) | rfl) | rfl
  · delta Char.isAlphanum Char.isAlpha Char.isUpper Char.isLower Char.isDigit at alphanumeric
    simp only [Bool.or_eq_true, Bool.and_eq_true, decide_eq_true_eq, UInt32.le_iff_toNat_le,
      ge_iff_le] at alphanumeric
    have upper : 'Z'.val.toNat = 90 := rfl
    have lower : 'z'.val.toNat = 122 := rfl
    have digit : '9'.val.toNat = 57 := rfl
    have code : character.toNat = character.val.toNat := rfl
    omega
  all_goals decide

theorem ascii_of_isWord (isWord : IsWord name) :
    ∀ character ∈ name.toList, character.toNat < 0x80 :=
  fun character member => ascii_of_isNamePart (isWord.2 character member)

theorem isNamePart_toLower {character : Char} (isPart : isNamePart character = true) :
    isNamePart character.toLower = true := by
  have all : ∀ code < 0x80, isNamePart (Char.ofNat code) = true →
      isNamePart (Char.ofNat code).toLower = true := by
    decide
  have lower := all character.toNat (ascii_of_isNamePart isPart)
  rw [Char.ofNat_toNat] at lower
  exact lower isPart

/-- A word stays one in lower case. -/
theorem isWord_lowered (isWord : IsWord name) : IsWord (Text.lowered name) := by
  have letters := Text.lowerFrom_append_of_ascii (ascii_of_isWord isWord) [] []
  rw [List.append_nil, Text.lowerFrom, List.append_nil] at letters
  rw [IsWord, Text.lowered, String.toList_ofList, letters]
  refine ⟨by simpa using isWord.1, fun character member => ?_⟩
  obtain ⟨upper, present, rfl⟩ := List.mem_map.mp member
  exact isNamePart_toLower (isWord.2 upper present)

theorem toLower_of_mem_marks : ∀ mark ∈ marks, mark.toNat < 0x80 ∧ mark.toLower = mark :=
  List.forall_mem_cons.mpr ⟨by decide, List.forall_mem_singleton.mpr (by decide)⟩

/-- A word with a mark behind it in lower case. -/
theorem toList_lowered {text first : String} {mark : Char} (isWord : IsWord first)
    (isMark : mark ∈ marks) (whole : text.toList = first.toList ++ mark :: rest) :
    ∃ behind, (Text.lowered text).toList = (Text.lowered first).toList ++ mark :: behind := by
  obtain ⟨ascii, same⟩ := toLower_of_mem_marks mark isMark
  have letters := Text.toList_lowered_append (ascii_of_isWord isWord) (mark :: rest)
  rw [← whole, String.ofList_toList, String.ofList_toList, Text.lowerFrom_cons_of_ascii ascii,
    same] at letters
  exact ⟨_, letters⟩

/-! ## Names that lead into a section -/

/-- A name begins with the name of a section and a mark, up to letter case. -/
def LeadsInto (top name : String) : Prop :=
  ∃ mark ∈ marks, top.toList ++ [mark] <+: (Text.lowered name).toList

instance (top name : String) : Decidable (LeadsInto top name) :=
  List.decidableBEx _ _

@[simp] theorem leadsInto_lowered (top name : String) :
    LeadsInto top (Text.lowered name) ↔ LeadsInto top name := by
  simp [LeadsInto]

theorem not_leadsInto_of_isWord (top : String) (isWord : IsWord name) : ¬ LeadsInto top name := by
  rintro ⟨mark, isMark, behind, whole⟩
  have member : mark ∈ (Text.lowered name).toList := by simp [← whole]
  have isPart := (isWord_lowered isWord).2 mark member
  simp [isNamePart_of_mem_marks mark isMark] at isPart

/-- A path of several steps that starts with a section leads into it. -/
theorem leadsInto_of_ofText? {top text : String} (read : ofText? text = some path)
    (deep : path.steps ≠ []) (same : Text.lowered path.first = top) : LeadsInto top text := by
  obtain ⟨isWord, ⟨single, -⟩ | ⟨-, mark, isMark, rest, whole⟩⟩ := of_ofText? read
  · exact absurd single deep
  · obtain ⟨behind, lower⟩ := toList_lowered isWord isMark whole
    exact ⟨mark, isMark, behind, by rw [lower, same]; simp⟩

/-- A path of several steps is not the name of a section. -/
theorem lowered_ne_of_ofText? {top text : String} (isTop : IsWord top)
    (read : ofText? text = some path) (deep : path.steps ≠ []) : Text.lowered text ≠ top := by
  rintro rfl
  obtain ⟨isWord, ⟨single, -⟩ | ⟨-, mark, isMark, rest, whole⟩⟩ := of_ofText? read
  · exact absurd single deep
  · obtain ⟨behind, lower⟩ := toList_lowered isWord isMark whole
    have isPart := isTop.2 mark (by simp [lower])
    simp [isNamePart_of_mem_marks mark isMark] at isPart

end KeyPath

end TraceStore
