import TraceStore.Action.Form
import TraceStore.Proofs.Json.Reading

/-!
# Actions in their place

An action is read as an object or as a list.  Either way its members or elements are taken one by
one, so that actions, too, are the values that their readers take, wherever they stand.
-/

namespace TraceStore.Action

open Json

variable {action : Action} {input rest : Input}

theorem readKind_readsValues (kind : Kind) :
    ReadsValues Anything fun input rest => readKind input = .ok (kind, rest) := by
  intro input rest _ read
  rw [readKind] at read
  split at read
  · cases read
  · next name left isText =>
      split at read
      · next kind isKind =>
          cases read
          obtain ⟨gap, text, blank, isValue, split, again⟩ :=
            readText_readsValues name _ _ trivial isText
          refine ⟨gap, text, blank, isValue, split, fun gap more blank _ => ?_⟩
          beta_reduce
          rw [readKind, again gap more blank trivial]
          simp only [isKind]
      · cases read

theorem readMember_steps (budget : Nat) : StepsOverMembers (Action.readMember budget) := by
  intro seen key input next rest ends stepped
  rw [Action.readMember] at stepped
  split at stepped
  · next isKind =>
      split at stepped
      · cases stepped
      · next fresh =>
          split at stepped
          · cases stepped
          · next kind left isRead =>
              cases stepped
              obtain ⟨before, after, text, blankBefore, blankAfter, isValue, split, again⟩ :=
                readMember_eq_ok (readKind_readsValues kind) trivial isRead
              refine ⟨before, after, text, blankBefore, blankAfter, isValue, split, ?_⟩
              intro before after more blankBefore blankAfter _
              rw [Action.readMember, if_pos isKind, if_neg fresh,
                again before after more blankBefore blankAfter trivial]
  · next notKind =>
      split at stepped
      · cases stepped
      · next value left isRead =>
          cases stepped
          obtain ⟨before, after, text, blankBefore, blankAfter, isValue, split, again⟩ :=
            readMember_eq_ok (readValue_readsValues budget value) ends isRead
          refine ⟨before, after, text, blankBefore, blankAfter, isValue, split, ?_⟩
          intro before after more blankBefore blankAfter endsMore
          rw [Action.readMember, if_neg notKind,
            again before after more blankBefore blankAfter endsMore]

theorem readElement_steps (budget : Nat) : StepsOverElements (readElement budget) := by
  intro seen next input rest ends stepped
  rw [readElement] at stepped
  split at stepped
  · next isFirst =>
      split at stepped
      · cases stepped
      · next kind left isRead =>
          cases stepped
          obtain ⟨gap, text, blank, isValue, split, again⟩ :=
            readKind_readsValues kind _ _ trivial isRead
          refine ⟨gap, text, blank, isValue, split, fun gap more blank _ => ?_⟩
          beta_reduce
          rw [readElement, if_pos isFirst, again gap more blank trivial]
  · next isLater =>
      split at stepped
      · cases stepped
      · next value left isRead =>
          cases stepped
          obtain ⟨gap, text, blank, isValue, split, again⟩ :=
            readValue_readsValues budget value _ _ ends isRead
          refine ⟨gap, text, blank, isValue, split, fun gap more blank endsMore => ?_⟩
          beta_reduce
          rw [readElement, if_neg isLater, again gap more blank endsMore]

theorem complete_eq_ok {kind : Option Kind} {content : Content} {left : Input}
    (completed : complete kind content left = .ok (action, rest)) :
    left = rest ∧ ∀ more, complete kind content more = .ok (action, more) := by
  cases kind with
  | none => cases completed
  | some kind =>
      rw [complete] at completed
      split at completed
      · next isAction =>
          cases completed
          exact ⟨rfl, fun more => by rw [complete, isAction]⟩
      · cases completed

theorem members_readsValues (budget : Nat) (state last : Partial) :
    ReadsValues Anything fun input rest =>
      readObject expected (members budget) state input = (last, .ok rest) := by
  cases budget with
  | zero => exact fun _ _ _ read => absurd read (readObject_none _ _ _ _)
  | succ budget => exact readObject_readsValues (readMember_steps budget)

theorem elements_readsValues (budget : Nat) (state last : PartialList) :
    ReadsValues Anything fun input rest =>
      readList expected (elements budget) state input = (last, .ok rest) := by
  cases budget with
  | zero => exact fun _ _ _ read => absurd read (readList_none _ _ _ _)
  | succ budget => exact readList_readsValues (readElement_steps budget)

theorem read_readsValues (budget : Nat) (action : Action) :
    ReadsValues Anything fun input rest => read budget input = .ok (action, rest) := by
  apply readsValues_of_skipBlank
  · intro input rest
    simp only [read, skipBlank_skipBlank]
  · simp [read, skipBlank]
  · intro byte tail rest notBlank _ isRead
    rw [read, skipBlank_cons notBlank] at isRead
    simp only at isRead
    split at isRead
    · next isBrace =>
        split at isRead
        · cases isRead
        · next seen left isObject =>
            obtain ⟨rfl, completed⟩ := complete_eq_ok isRead
            obtain ⟨text, isValue, same, again⟩ :=
              (members_readsValues budget _ seen).of_notBlank notBlank trivial isObject
            obtain ⟨first, others, rfl, -⟩ := isValue.opens
            obtain ⟨rfl, -⟩ := List.cons.inj same
            refine ⟨_, isValue, same, fun more _ => ?_⟩
            have objectAgain := again more trivial
            rw [List.cons_append] at objectAgain ⊢
            rw [read, skipBlank_cons notBlank]
            simp only [isBrace, if_true, objectAgain, completed more]
    · next notBrace =>
        split at isRead
        · next isBracket =>
            split at isRead
            · cases isRead
            · next seen left isList =>
                obtain ⟨rfl, completed⟩ := complete_eq_ok isRead
                obtain ⟨text, isValue, same, again⟩ :=
                  (elements_readsValues budget _ seen).of_notBlank notBlank trivial isList
                obtain ⟨first, others, rfl, -⟩ := isValue.opens
                obtain ⟨rfl, -⟩ := List.cons.inj same
                refine ⟨_, isValue, same, fun more _ => ?_⟩
                have listAgain := again more trivial
                rw [List.cons_append] at listAgain ⊢
                rw [read, skipBlank_cons notBlank]
                simp only [notBrace, Bool.false_eq_true, if_false, isBracket, if_true, listAgain,
                  completed more]
        · cases isRead

theorem readMany_readsValues (budget : Nat) (actions : Option (List Action)) :
    ReadsValues Anything fun input rest => readMany budget input = .ok (actions, rest) :=
  readNullable_readsValues
    (readListOf_readsValues budget fun budget action =>
      (read_readsValues budget action).of_anything) actions

end TraceStore.Action
