import Mathlib.Data.List.TakeWhile
import TraceStore.Proofs.Json.Layout

/-!
# The texts of values

The values of a document are described here as texts, without a reader: words, numbers, strings,
and brackets around further values.  `IsValue` is the smallest set of texts with these forms; it
puts no bound on nesting, and asks of a string no more than that its escapes are complete.

`Spread` lays parts out between brackets, with commas between them and blanks around them.  In a
list the parts are values, in an object each value has a key and a colon in front.
-/

namespace TraceStore.Json

/-! ## Blanks -/

/-- Blanks only. -/
def Blank (gap : Input) : Prop := ∀ byte ∈ gap, isBlank byte = true

theorem blank_nil : Blank [] := by simp [Blank]

theorem Blank.append {first second : Input} (blank : Blank first) (others : Blank second) :
    Blank (first ++ second) :=
  List.forall_mem_append.mpr ⟨blank, others⟩

theorem skipBlank_append {gap : Input} (blank : Blank gap) (rest : Input) :
    skipBlank (gap ++ rest) = skipBlank rest :=
  List.dropWhile_append_of_pos blank

/-- What is skipped are blanks. -/
theorem exists_blank (input : Input) : ∃ gap, Blank gap ∧ input = gap ++ skipBlank input := by
  refine ⟨input.takeWhile isBlank, ?_, (List.takeWhile_append_dropWhile (p := isBlank)).symm⟩
  exact fun byte member => List.mem_takeWhile_imp member

/-! ## Words and numbers -/

/-- One of the words `null`, `true` and `false`. -/
def IsWord (text : Input) : Prop :=
  ∃ byte value letters, word? byte = some (value, letters) ∧ text = byte :: letters

/-- At least one digit, and nothing else. -/
def Digits (text : Input) : Prop := text ≠ [] ∧ ∀ byte ∈ text, isDigit byte = true

/-- An integer without sign and without leading zeros. -/
def IsWhole (text : Input) : Prop :=
  text = [digitZero] ∨ (Digits text ∧ text.head? ≠ some digitZero)

/-- A point with digits behind it, or nothing. -/
inductive IsFraction : Input → Prop where
  | none : IsFraction []
  | some {digits : Input} (isDigits : Digits digits) : IsFraction (point :: digits)

/-- An exponent without its letter: digits, with a sign or without. -/
def IsPower (text : Input) : Prop :=
  ∃ sign digits, (sign = [] ∨ sign = [plus] ∨ sign = [minus]) ∧ Digits digits ∧
    text = sign ++ digits

/-- An exponent, or nothing. -/
inductive IsExponent : Input → Prop where
  | none : IsExponent []
  | some {mark : UInt8} {power : Input} (isMark : isExponentMark mark = true)
      (isPower : IsPower power) : IsExponent (mark :: power)

/-- A number without its sign. -/
def IsMagnitude (text : Input) : Prop :=
  ∃ whole fraction exponent, IsWhole whole ∧ IsFraction fraction ∧ IsExponent exponent ∧
    text = whole ++ (fraction ++ exponent)

/-- A number. -/
def IsNumber (text : Input) : Prop :=
  IsMagnitude text ∨ ∃ magnitude, IsMagnitude magnitude ∧ text = minus :: magnitude

/-! ## Strings -/

/-- An escape without its backslash. -/
inductive IsEscape : Input → Prop where
  | short {letter : UInt8} (isShort : (shortEscape? letter).isSome = true) : IsEscape [letter]
  | unicode {first second third fourth : UInt8} {unit : Nat}
      (isUnit : hexUnit? first second third fourth = some unit) :
      IsEscape [0x75, first, second, third, fourth]

/-- The content of a string up to and with its closing quotation mark. -/
inductive Spelled : Input → Prop where
  | close : Spelled [quote]
  | plain {byte : UInt8} {others : Input} (isPlain : IsPlain byte) (spelled : Spelled others) :
      Spelled (byte :: others)
  | escape {escape others : Input} (isEscape : IsEscape escape) (spelled : Spelled others) :
      Spelled (backslash :: (escape ++ others))

/-! ## Brackets -/

/-- The byte that opens a bracket. -/
def Bracket.opening : Bracket → UInt8
  | .list => openBracket
  | .object => openBrace

/-- What stands in front of a value inside a bracket: in an object its key and the colon. -/
def Bracket.IsHead : Bracket → Input → Prop
  | .list, head => Blank head
  | .object, head => ∃ content gap after, Spelled content ∧ Blank gap ∧ Blank after ∧
      head = quote :: (content ++ (gap ++ colon :: after))

/-- Blanks in front of a value belong to what stands in front of it. -/
theorem Bracket.IsHead.append {bracket : Bracket} {head gap : Input} (isHead : bracket.IsHead head)
    (blank : Blank gap) : bracket.IsHead (head ++ gap) := by
  cases bracket with
  | list => exact Blank.append isHead blank
  | object =>
      rcases isHead with ⟨content, before, after, spelled, blankBefore, blankAfter, rfl⟩
      exact ⟨content, before, after ++ gap, spelled, blankBefore, blankAfter.append blank, by simp⟩

/-- What stands in front of a part inside a bracket: blanks, and a comma unless it is the first. -/
inductive Separates : (first : Bool) → Input → Prop where
  | first {gap : Input} (blank : Blank gap) : Separates true gap
  | next {before gap : Input} (blankBefore : Blank before) (blank : Blank gap) :
      Separates false (before ++ comma :: gap)

theorem Separates.append {first : Bool} {lead gap : Input} (separates : Separates first lead)
    (blank : Blank gap) : Separates first (lead ++ gap) := by
  cases separates with
  | first blankLead => exact .first (blankLead.append blank)
  | next blankBefore blankLead =>
      rw [List.append_assoc, List.cons_append]
      exact .next blankBefore (blankLead.append blank)

/-- Parts inside a bracket, with what separates them. -/
inductive Spread : (first : Bool) → List Input → Input → Prop where
  | done {first : Bool} {gap : Input} (blank : Blank gap) : Spread first [] gap
  | part {first : Bool} {lead part inner : Input} {parts : List Input}
      (separates : Separates first lead) (others : Spread false parts inner) :
      Spread first (part :: parts) (lead ++ (part ++ inner))

/-- The texts of values. -/
inductive IsValue : Input → Prop where
  | word {text : Input} (isWord : IsWord text) : IsValue text
  | number {text : Input} (isNumber : IsNumber text) : IsValue text
  | text {content : Input} (spelled : Spelled content) : IsValue (quote :: content)
  | bracket (bracket : Bracket) (members : List (Input × Input)) {inner : Input}
      (heads : ∀ member ∈ members, bracket.IsHead member.1)
      (values : ∀ member ∈ members, IsValue member.2)
      (spread : Spread true (members.map fun member => member.1 ++ member.2) inner) :
      IsValue (bracket.opening :: (inner ++ [bracket.closing]))

/-! ## How values start -/

/-- Bytes that neither are blank nor separate or end anything. -/
def Opens (byte : UInt8) : Prop :=
  isBlank byte = false ∧ byte ≠ comma ∧ byte ≠ closeBracket ∧ byte ≠ closeBrace

instance (byte : UInt8) : Decidable (Opens byte) := inferInstanceAs (Decidable (_ ∧ _))

theorem Opens.skipBlank {byte : UInt8} (opens : Opens byte) (rest : Input) :
    skipBlank (byte :: rest) = byte :: rest :=
  skipBlank_cons opens.1 rest

theorem opens_of_isDigit {byte : UInt8} (decimal : isDigit byte = true) : Opens byte := by
  refine ⟨(word?_of_opensNumber (by simp [decimal])).2, ?_, ?_, ?_⟩
  all_goals
    rintro rfl
    exact absurd decimal (by decide)

theorem opens_of_word? {byte : UInt8} {word : Option Bool × List UInt8}
    (isWord : word? byte = some word) : Opens byte := by
  have isFirst : byte = 0x6E ∨ byte = 0x74 ∨ byte = 0x66 := by
    unfold word? at isWord
    repeat' split at isWord
    all_goals simp_all
  rcases isFirst with rfl | rfl | rfl <;> decide

theorem IsMagnitude.opens {text : Input} (isMagnitude : IsMagnitude text) :
    ∃ byte more, text = byte :: more ∧ isDigit byte = true := by
  rcases isMagnitude with ⟨whole, fraction, exponent, isWhole, -, -, rfl⟩
  rcases isWhole with rfl | ⟨⟨notEmpty, decimal⟩, -⟩
  · exact ⟨digitZero, _, rfl, by decide⟩
  · obtain ⟨byte, more, rfl⟩ := List.exists_cons_of_ne_nil notEmpty
    exact ⟨byte, _, rfl, decimal byte (by simp)⟩

/-- Every value has a first byte that belongs to it. -/
theorem IsValue.opens {text : Input} (value : IsValue text) :
    ∃ byte more, text = byte :: more ∧ Opens byte := by
  cases value with
  | word isWord =>
      rcases isWord with ⟨byte, value, letters, isWord, rfl⟩
      exact ⟨byte, letters, rfl, opens_of_word? isWord⟩
  | number isNumber =>
      rcases isNumber with isMagnitude | ⟨magnitude, -, rfl⟩
      · obtain ⟨byte, more, rfl, decimal⟩ := isMagnitude.opens
        exact ⟨byte, more, rfl, opens_of_isDigit decimal⟩
      · exact ⟨minus, magnitude, rfl, by decide⟩
  | text spelled => exact ⟨quote, _, rfl, by decide⟩
  | bracket bracket _ _ _ _ =>
      refine ⟨bracket.opening, _, rfl, ?_⟩
      cases bracket <;> decide

end TraceStore.Json
