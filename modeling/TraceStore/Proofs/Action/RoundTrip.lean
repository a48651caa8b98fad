import TraceStore.Action.Form
import TraceStore.Proofs.Json.Layout

/-!
# Actions read back

A written action is read as its payload: the kind is found by its name, the fields of the kind are
gathered from the members, and their values fit because they were written from words of the same
size.  What an action remembers is not written, so a remembering action comes back as new.
-/

namespace TraceStore.Action

open TraceStore.Json

@[simp] theorem toValue_payload (action : Action) : action.payload.toValue = action.toValue := by
  cases action <;> rfl

@[simp] theorem unwritable?_payload (action : Action) :
    action.payload.unwritable? = action.unwritable? := by
  cases action <;> rfl

/-! ## Fields -/

theorem fitsWord_natural (value : UInt64) : FitsWord value.toNat := by
  have below := value.toNat_lt
  constructor
  · simp only [Word.least]
    omega
  · simp only [Word.size]
    omega

theorem fitsWord_integer (value : Int64) : FitsWord value.toInt := by
  have above := value.le_toInt
  have below := value.toInt_lt
  constructor
  · simp only [Word.least]
    omega
  · simp only [Word.size]
    omega

theorem naturalField_natural (value : UInt64) :
    naturalField (.natural value.toNat) = .ok value := by
  have below : (value.toNat : Int) < Word.size := (fitsWord_natural value).2
  have natural : natural? "u64" Word.size (.integer value.toNat) = .ok value.toNat := by
    simp [natural?, below]
  rw [Value.natural, naturalField, natural]
  simp [Except.map]

theorem integerField_integer (value : Int64) :
    integerField (.number (.integer value.toInt)) = .ok value := by
  have below := value.toInt_lt
  have small : value.toInt ≤ Word.greatest := by
    simp only [Word.greatest]
    omega
  rw [integerField, if_pos small, Int64.ofInt_toInt]

/-- Every field is written as a text or an integer, and none under the name of the kind. -/
theorem isScalar_of_mem_writtenFields (action : Action) :
    ∀ field ∈ action.writtenFields, field.1 ≠ kindKey ∧ IsScalar field.2 := by
  cases action with
  | timing millis =>
      simp [writtenFields, kindKey, Value.natural, IsScalar, fitsWord_natural]
  | adjustment note delta =>
      cases note <;> simp [writtenFields, kindKey, IsScalar, fitsWord_integer]
  | _ => simp [writtenFields, kindKey, IsScalar]

theorem ofContent_timing {value : Value} {millis : UInt64}
    (field : naturalField value = .ok millis) :
    ofContent .timing (.members [("millis", value)]) = .ok (.timing millis) := by
  simp [ofContent, gather, Kind.fields, checkField, ofFields, required, field, Except.map, bind,
    Except.bind, pure, Except.pure]

theorem ofContent_adjustment {value : Value} {delta : Int64}
    (field : integerField value = .ok delta) (note : Option String) :
    ofContent .adjustment
        (.members ((note.map fun text => ("note", Value.text text)).toList ++ [("delta", value)])) =
      .ok (.adjustment note delta) := by
  cases note <;>
    simp [ofContent, gather, Kind.fields, checkField, ofFields, required, noteField, textField,
      field, Except.map, bind, Except.bind, pure, Except.pure]

/-- The written fields of an action make up its payload. -/
theorem ofContent_writtenFields (action : Action) :
    ofContent action.kind (.members action.writtenFields) = .ok action.payload := by
  cases action with
  | timing millis => exact ofContent_timing (naturalField_natural millis)
  | adjustment note delta => exact ofContent_adjustment (integerField_integer delta) note
  | _ =>
      simp [ofContent, gather, writtenFields, kind, Kind.fields, checkField, ofFields, required,
        textField, Except.map, bind, Except.bind, pure, Except.pure, payload]

/-! ## Whole actions -/

theorem takesMember_kind (budget level : Nat) (kind : Kind) :
    TakesMember (readMember budget) level ⟨none, []⟩ kindKey (.text kind.name) ⟨some kind, []⟩ := by
  intro rest _
  have named : namedKind kind.name = .ok kind := by
    rw [namedKind, Kind.ofName?_name]
  have read : Json.readMember readKind (colon :: 0x20 ::
      ((Value.text kind.name).pretty level ++ rest)) = .ok (kind, rest) := by
    rw [readMember_colon, readKind, readText_space, readText_pretty]
    simp only [named]
  simp [readMember, read]

theorem takesMember_field (budget level : Nat) (kind : Kind) (seen : List (String × Value))
    {key : String} {value : Value} (other : key ≠ kindKey) (scalar : IsScalar value) :
    TakesMember (readMember budget) level ⟨some kind, seen⟩ key value
      ⟨some kind, seen ++ [(key, value)]⟩ := by
  intro rest ends
  have read : Json.readMember (readValue budget) (colon :: 0x20 :: (value.pretty level ++ rest)) =
      .ok (value, rest) := by
    rw [readMember_colon, readValue_space, readValue_pretty_of_isScalar budget level scalar ends]
  simp [readMember, other, read]

theorem takesMembers_fields (budget level : Nat) (kind : Kind) {fields : List (String × Value)}
    (scalar : ∀ field ∈ fields, field.1 ≠ kindKey ∧ IsScalar field.2)
    (seen : List (String × Value)) :
    TakesMembers (readMember budget) level ⟨some kind, seen⟩ fields
      ⟨some kind, seen ++ fields⟩ := by
  induction fields generalizing seen with
  | nil =>
      rw [List.append_nil]
      exact .nil _
  | cons field fields ih =>
      obtain ⟨other, isScalar⟩ := scalar field (by simp)
      have others := ih (fun field member => scalar field (by simp [member])) (seen ++ [field])
      rw [List.append_assoc, List.singleton_append] at others
      exact .cons (takesMember_field budget level kind seen other isScalar) others

/-- A written action is read as its payload. -/
theorem read_pretty (budget level : Nat) (action : Action) (rest : Input) :
    read (budget + 1) (action.toValue.pretty level ++ rest) = .ok (action.payload, rest) := by
  have takes : TakesMembers (readMember budget) (level + 1) ⟨none, []⟩
      (("type", .text action.kind.name) :: action.writtenFields)
      ⟨some action.kind, action.writtenFields⟩ :=
    .cons (takesMember_kind budget (level + 1) action.kind)
      (takesMembers_fields budget (level + 1) action.kind action.isScalar_of_mem_writtenFields [])
  have object := readObject_pretty takes expected rest
  rw [← toValue] at object
  obtain ⟨text, written⟩ : ∃ text, action.toValue.pretty level = openBrace :: text :=
    object_pretty_eq_cons level _
  rw [written, List.cons_append] at object ⊢
  rw [read, skipBlank_cons (by decide)]
  simp only [beq_self_eq_true, if_true, members, object, complete, ofContent_writtenFields]

/-! ## Lists of actions -/

/-- The actions of a list can be written exactly if none refuses. -/
theorem writeAll_eq_ok_iff (actions : List Action) (values : List Value) :
    writeAll actions = .ok values ↔
      (∀ action ∈ actions, action.unwritable? = none) ∧ values = actions.map toValue := by
  induction actions generalizing values with
  | nil =>
      simp [writeAll, eq_comm]
  | cons action others ih =>
      cases refused : action.unwritable? with
      | some reason =>
          simp [writeAll, refused]
      | none =>
          simp only [writeAll, refused, List.forall_mem_cons, true_and, List.map_cons]
          cases written : writeAll others with
          | error reason =>
              have fails := ih (others.map toValue)
              rw [written] at fails
              simp only [reduceCtorEq, and_true, false_iff] at fails
              simp [Except.map, fails]
          | ok values' =>
              rcases (ih values').mp written with ⟨writable, rfl⟩
              simp only [Except.map, Except.ok.injEq]
              exact ⟨fun equal => ⟨writable, equal.symm⟩, fun both => both.2.symm⟩

theorem writeAll_payload (actions : List Action) :
    writeAll (actions.map payload) = writeAll actions := by
  induction actions with
  | nil => rfl
  | cons action others ih => simp [writeAll, ih]

/-- A written list of actions is read as the list of their payloads. -/
theorem readMany_pretty (budget level : Nat) (actions : List Action) (rest : Input) :
    readMany (budget + 2) (0x20 :: ((Value.list (actions.map toValue)).pretty level ++ rest)) =
      .ok (some (actions.map payload), rest) := by
  have list := readListOf_pretty read (budget + 1) level actions toValue payload
    (fun action _ rest _ => read_pretty budget (level + 1) action rest)
    (fun action _ => opensElement_object (level + 1) _) rest
  rcases list_pretty_eq_cons level (actions.map toValue) with ⟨text, written⟩
  have noWord : word? openBracket = none := by decide
  rw [written, List.cons_append] at list ⊢
  rw [readMany, readNullable, skipBlank_space, skipBlank_cons (by decide)]
  simp only [noWord, list, Except.map]

end TraceStore.Action
