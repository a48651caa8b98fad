import TraceStore.Json.Reader

/-!
# What whole runs keep

Objects and lists are read by running a step over their parts.  A relation between two states that
every pair of steps keeps is kept by whole runs, and if the steps have equal results, so have the
runs (`foldMembers_pairs`, `readObject_pairs` and the same of lists).  A property that every step
keeps is the case of two equal runs.
-/

namespace TraceStore.Json

/-- Two runs that leave related states, and either the same error or related values. -/
inductive Paired {σ τ ε α β : Type} (states : σ → τ → Prop) (values : σ → τ → α → β → Prop) :
    σ × Except ε α → τ × Except ε β → Prop where
  | error {left : σ} {right : τ} (related : states left right) (fault : ε) :
      Paired states values (left, .error fault) (right, .error fault)
  | ok {left : σ} {right : τ} {given : α} {other : β} (related : states left right)
      (same : values left right given other) :
      Paired states values (left, .ok given) (right, .ok other)

/-- Two runs that leave related states and have the same result. -/
abbrev InStep {σ τ ε α : Type} (states : σ → τ → Prop) : σ × Except ε α → τ × Except ε α → Prop :=
  Paired states fun _ _ => Eq

namespace Paired

variable {σ τ ε α β : Type} {states : σ → τ → Prop} {values : σ → τ → α → β → Prop}

theorem states_of {left : σ × Except ε α} {right : τ × Except ε β}
    (paired : Paired states values left right) : states left.1 right.1 := by
  cases paired <;> assumption

theorem inStep {left : σ} {right : τ} (related : states left right) (result : Except ε α) :
    InStep states (left, result) (right, result) := by
  cases result with
  | error fault => exact .error related fault
  | ok given => exact .ok related rfl

end Paired

/-! ## Pairs of runs -/

section Pairs

variable {σ τ : Type} {states : σ → τ → Prop}

theorem foldMembers_pairs {step : σ → String → Input → σ × Except Fault Input}
    {other : τ → String → Input → τ × Except Fault Input}
    (steps : ∀ left right key input, states left right →
      InStep states (step left key input) (other right key input))
    (rounds : Nat) (first : Bool) {left : σ} {right : τ} (input : Input)
    (related : states left right) :
    InStep states (foldMembers step rounds first left input)
      (foldMembers other rounds first right input) := by
  induction rounds generalizing first left right input with
  | zero => exact .error related _
  | succ rounds ih =>
      rw [foldMembers, foldMembers]
      rcases nextKey first input with fault | ⟨key, rest⟩
      · exact .error related fault
      · cases key with
        | none => exact .ok related rfl
        | some key =>
            have stepped := steps left right key rest related
            dsimp only
            generalize step left key rest = run at stepped ⊢
            generalize other right key rest = beside at stepped ⊢
            cases stepped with
            | error related fault => exact .error related fault
            | ok related same =>
                cases same
                exact ih _ _ related

theorem foldElements_pairs {step : σ → Input → σ × Except Fault Input}
    {other : τ → Input → τ × Except Fault Input}
    (steps : ∀ left right input, states left right →
      InStep states (step left input) (other right input))
    (rounds : Nat) (first : Bool) {left : σ} {right : τ} (input : Input)
    (related : states left right) :
    InStep states (foldElements step rounds first left input)
      (foldElements other rounds first right input) := by
  induction rounds generalizing first left right input with
  | zero => exact .error related _
  | succ rounds ih =>
      rw [foldElements, foldElements]
      rcases nextElement first input with fault | ⟨more, rest⟩
      · exact .error related fault
      · cases more with
        | false => exact .ok related rfl
        | true =>
            have stepped := steps left right rest related
            dsimp only
            generalize step left rest = run at stepped ⊢
            generalize other right rest = beside at stepped ⊢
            cases stepped with
            | error related fault => exact .error related fault
            | ok related same =>
                cases same
                exact ih _ _ related

theorem finish_pairs (close : Input → Except Fault Input) (past : Input → Input)
    {content : σ × Except Fault Input} {other : τ × Except Fault Input}
    (paired : InStep states content other) :
    InStep states (finish close past content) (finish close past other) := by
  cases paired with
  | error related fault => exact .error related _
  | ok related same =>
      cases same
      exact .inStep related _

/-- Contents of objects, or of lists, that pair runs from related states. -/
abbrev PairsContents (states : σ → τ → Prop) :
    Option (σ → Input → σ × Except Fault Input) → Option (τ → Input → τ × Except Fault Input) →
      Prop :=
  Option.Rel fun content other => ∀ left right input, states left right →
    InStep states (content left input) (other right input)

variable {content : Option (σ → Input → σ × Except Fault Input)}
  {other : Option (τ → Input → τ × Except Fault Input)}

theorem readObject_pairs (expected : String) (contents : PairsContents states content other)
    {left : σ} {right : τ} (input : Input) (related : states left right) :
    InStep states (readObject expected content left input)
      (readObject expected other right input) := by
  rw [readObject, readObject]
  cases skipBlank input with
  | nil => exact .error related _
  | cons byte rest =>
      dsimp only
      split
      · cases contents with
        | none => exact .error related _
        | some pairs => exact finish_pairs _ _ (pairs left right rest related)
      · exact .error related _

theorem readList_pairs (expected : String) (contents : PairsContents states content other)
    {left : σ} {right : τ} (input : Input) (related : states left right) :
    InStep states (readList expected content left input)
      (readList expected other right input) := by
  rw [readList, readList]
  cases skipBlank input with
  | nil => exact .error related _
  | cons byte rest =>
      dsimp only
      split
      · cases contents with
        | none => exact .error related _
        | some pairs => exact finish_pairs _ _ (pairs left right rest related)
      · exact .error related _

end Pairs

/-! ## Properties that runs keep -/

section Keeps

variable {σ : Type} (kept : σ → Prop)

/-- One state twice, with a property. -/
def Kept (left right : σ) : Prop := left = right ∧ kept left

variable {kept}

theorem inStep_of_kept {ε α : Type} {run : σ × Except ε α} (holds : kept run.1) :
    InStep (Kept kept) run run :=
  .inStep ⟨rfl, holds⟩ run.2

variable (kept)

theorem foldMembers_keeps {step : σ → String → Input → σ × Except Fault Input}
    (keeps : ∀ state key input, kept state → kept (step state key input).1) (rounds : Nat)
    (first : Bool) (state : σ) (input : Input) (holds : kept state) :
    kept (foldMembers step rounds first state input).1 := by
  have steps (left right : σ) (key : String) (input : Input) (related : Kept kept left right) :
      InStep (Kept kept) (step left key input) (step right key input) := by
    obtain ⟨rfl, holds⟩ := related
    exact inStep_of_kept (keeps left key input holds)
  exact (foldMembers_pairs steps rounds first input ⟨rfl, holds⟩).states_of.2

theorem foldElements_keeps {step : σ → Input → σ × Except Fault Input}
    (keeps : ∀ state input, kept state → kept (step state input).1) (rounds : Nat)
    (first : Bool) (state : σ) (input : Input) (holds : kept state) :
    kept (foldElements step rounds first state input).1 := by
  have steps (left right : σ) (input : Input) (related : Kept kept left right) :
      InStep (Kept kept) (step left input) (step right input) := by
    obtain ⟨rfl, holds⟩ := related
    exact inStep_of_kept (keeps left input holds)
  exact (foldElements_pairs steps rounds first input ⟨rfl, holds⟩).states_of.2

theorem pairsContents_of_keeps {content : Option (σ → Input → σ × Except Fault Input)}
    (keeps : ∀ inner ∈ content, ∀ state input, kept state → kept (inner state input).1) :
    PairsContents (Kept kept) content content := by
  cases content with
  | none => exact .none
  | some inner =>
      refine .some fun left right input related => ?_
      obtain ⟨rfl, holds⟩ := related
      exact inStep_of_kept (keeps inner rfl left input holds)

theorem readObject_keeps (expected : String)
    {content : Option (σ → Input → σ × Except Fault Input)}
    (keeps : ∀ inner ∈ content, ∀ state input, kept state → kept (inner state input).1)
    (state : σ) (input : Input) (holds : kept state) :
    kept (readObject expected content state input).1 :=
  (readObject_pairs expected (pairsContents_of_keeps kept keeps) input ⟨rfl, holds⟩).states_of.2

theorem readList_keeps (expected : String)
    {content : Option (σ → Input → σ × Except Fault Input)}
    (keeps : ∀ inner ∈ content, ∀ state input, kept state → kept (inner state input).1)
    (state : σ) (input : Input) (holds : kept state) :
    kept (readList expected content state input).1 :=
  (readList_pairs expected (pairsContents_of_keeps kept keeps) input ⟨rfl, holds⟩).states_of.2

end Keeps

end TraceStore.Json
