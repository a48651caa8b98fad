import TraceStore.Text.Lowercase

/-!
# Lower case is final

Lowering a text leaves only characters that lowering leaves alone (`Text.Settled`), so that it
changes nothing the second time.  For the characters beyond the ASCII block this is a property of
the table of runs, which is looked through once (`Text.settled_of_run`).

Characters of the ASCII block are lowered one by one, whatever stands around them.
-/

namespace TraceStore.Text

/-- Lowering leaves a character as it is, wherever it stands. -/
def Settled (character : Char) : Prop :=
  character.toNat ≠ 0x130 ∧ character.toNat ≠ 0x3A3 ∧ lowerChar character = character

instance (character : Char) : Decidable (Settled character) :=
  inferInstanceAs (Decidable (_ ∧ _ ∧ _))

theorem settled_toLower : ∀ code < 0x80, Settled (Char.ofNat code).toLower := by
  decide +kernel

/-- The dot that is left of a capital I with a dot, and both forms of a small sigma. -/
theorem settled_special : Settled '\u0307' ∧ Settled 'ς' ∧ Settled 'σ' := by
  decide

/-! ## The table of runs -/

/-- The characters that a run covers. -/
def CaseRun.covers (run : CaseRun) (code : Nat) : Bool :=
  run.first ≤ code && code ≤ run.last && (code - run.first) % run.step == 0

/-- Where a run takes a character. -/
def CaseRun.target (run : CaseRun) (code : Nat) : Nat := (code + run.distance).toNat

/-- Whether a run takes its characters past all that another one covers, be it only because both
jump and never meet.  The table is large, so that numerals are compared here without propositions in
between. -/
def CaseRun.avoids (run other : CaseRun) : Bool :=
  Nat.blt (run.target run.last) other.first || Nat.blt other.last (run.target run.first) ||
    ((Nat.beq run.step 2 || Nat.beq run.first run.last) && Nat.beq other.step 2 &&
      !Nat.beq (run.target run.first % 2) (other.first % 2))

/-- Whether a run takes its characters past all runs and past both characters with a rule of their
own. -/
def CaseRun.isFinal (run : CaseRun) : Bool :=
  (Nat.ble 0x1CBD (run.target run.first) || lowerRunsEarly.all run.avoids) &&
    (Nat.blt (run.target run.last) 0x1CBD || lowerRunsLate.all run.avoids) &&
    (Nat.blt (run.target run.last) 0x130 || Nat.blt 0x130 (run.target run.first)) &&
    (Nat.blt (run.target run.last) 0x3A3 || Nat.blt 0x3A3 (run.target run.first))

theorem isFinal_of_mem {run : CaseRun} (member : run ∈ lowerRunsEarly ++ lowerRunsLate) :
    run.isFinal = true := by
  have all : (lowerRunsEarly ++ lowerRunsLate).all CaseRun.isFinal = true := by decide +kernel
  exact List.all_eq_true.mp all run member

/-- Runs lead beyond the ASCII block, but for the sign for Kelvin, which leads to a small k. -/
theorem target_of_mem : ∀ run ∈ lowerRunsEarly ++ lowerRunsLate,
    0x80 ≤ run.target run.first ∨
      run.first = run.last ∧ run.target run.first = Char.toNat (Char.ofNat 0x6B) := by
  decide +kernel

theorem CaseRun.avoids_iff (run other : CaseRun) : run.avoids other = true ↔
    run.target run.last < other.first ∨ other.last < run.target run.first ∨
      (run.step = 2 ∨ run.first = run.last) ∧ other.step = 2 ∧
        run.target run.first % 2 ≠ other.first % 2 := by
  simp [avoids, Nat.blt_eq, or_assoc, and_assoc, ← Bool.not_eq_true, Nat.beq_eq]

theorem CaseRun.covers_iff (run : CaseRun) (code : Nat) : run.covers code = true ↔
    run.first ≤ code ∧ code ≤ run.last ∧ (code - run.first) % run.step = 0 := by
  simp [covers, and_assoc]

theorem CaseRun.covers_target_of_avoids {run other : CaseRun} {code : Nat}
    (past : run.avoids other = true) (leads : 0 < run.target run.first)
    (covered : run.covers code = true) : other.covers (run.target code) = false := by
  rw [avoids_iff] at past
  rw [covers_iff] at covered
  rw [← Bool.not_eq_true, covers_iff]
  obtain ⟨above, below, onStep⟩ := covered
  rintro ⟨otherAbove, otherBelow, hit⟩
  simp only [target] at *
  rcases past with before | behind | ⟨jumps | single, otherJumps, apart⟩
  · omega
  · omega
  · rw [jumps] at onStep
    rw [otherJumps] at hit
    omega
  · rw [otherJumps] at hit
    omega

/-- What a run leads to is covered by no run. -/
theorem lowerRun?_target {run : CaseRun} (member : run ∈ lowerRunsEarly ++ lowerRunsLate)
    {code : Nat} (covered : run.covers code = true) {character : Char}
    (form : character.toNat = run.target code) :
    lowerRun? character = none ∧ character.toNat ≠ 0x130 ∧ character.toNat ≠ 0x3A3 := by
  have final := isFinal_of_mem member
  have leads : 0 < run.target run.first := by
    rcases target_of_mem run member with beyond | ⟨-, kelvin⟩
    · omega
    · rw [kelvin]
      decide
  have within := (run.covers_iff code).mp covered
  simp only [CaseRun.isFinal, Bool.and_eq_true, Bool.or_eq_true, Nat.ble_eq, Nat.blt_eq,
    List.all_eq_true] at final
  obtain ⟨⟨⟨early, late⟩, noDotted⟩, noSigma⟩ := final
  have bounds : run.target run.first ≤ run.target code ∧ run.target code ≤ run.target run.last := by
    simp only [CaseRun.target]
    omega
  refine ⟨?_, by omega, by omega⟩
  rw [lowerRun?, form, List.find?_eq_none]
  split
  · next before =>
      have all := early.resolve_left (by omega)
      intro other listed
      simpa [CaseRun.covers] using CaseRun.covers_target_of_avoids (all other listed) leads covered
  · next behind =>
      have all := late.resolve_left (by omega)
      intro other listed
      simpa [CaseRun.covers] using CaseRun.covers_target_of_avoids (all other listed) leads covered

/-- What a run leads to is left alone from then on. -/
theorem settled_target {run : CaseRun} (member : run ∈ lowerRunsEarly ++ lowerRunsLate)
    {code : Nat} (covered : run.covers code = true) :
    Settled (Char.ofNat (run.target code)) := by
  by_cases valid : (run.target code).isValidChar
  · have form : (Char.ofNat (run.target code)).toNat = run.target code := by
      rw [Char.ofNat, dif_pos valid]
      rfl
    obtain ⟨alone, noDotted, noSigma⟩ := lowerRun?_target member covered form
    rcases target_of_mem run member with beyond | ⟨single, kelvin⟩
    · have within := (run.covers_iff code).mp covered
      have behind : ¬ (Char.ofNat (run.target code)).toNat < 0x80 := by
        rw [form]
        simp only [CaseRun.target] at *
        omega
      exact ⟨noDotted, noSigma, by simp [lowerChar, behind, alone]⟩
    · have within := (run.covers_iff code).mp covered
      obtain rfl : run.first = code := by omega
      rw [kelvin]
      exact settled_toLower 0x6B (by decide)
  · have none : Char.ofNat (run.target code) = Char.ofNat 0 := by
      rw [Char.ofNat, dif_neg valid]
      rfl
    rw [none]
    exact settled_toLower 0 (by decide)

/-! ## Lowered texts -/

theorem settled_lowerChar {character : Char} (noDotted : character.toNat ≠ 0x130)
    (noSigma : character.toNat ≠ 0x3A3) : Settled (lowerChar character) := by
  by_cases ascii : character.toNat < 0x80
  · have lower := settled_toLower character.toNat ascii
    rwa [Char.ofNat_toNat, ← show lowerChar character = character.toLower by
      simp [lowerChar, ascii]] at lower
  · cases found : lowerRun? character with
    | none =>
        have same : lowerChar character = character := by simp [lowerChar, ascii, found]
        rw [same]
        exact ⟨noDotted, noSigma, same⟩
    | some run =>
        have member : run ∈ lowerRunsEarly ++ lowerRunsLate := by
          rw [lowerRun?] at found
          have listed := List.mem_of_find?_eq_some found
          rw [List.mem_append]
          split at listed
          · exact .inl listed
          · exact .inr listed
        have covered : run.covers character.toNat = true := by
          simpa [CaseRun.covers] using List.find?_some found
        simpa [lowerChar, ascii, found, CaseRun.target] using settled_target member covered

theorem lowerFrom_nil (before : List Char) : lowerFrom before [] = [] := rfl

theorem lowerFrom_cons (before : List Char) (character : Char) (rest : List Char) :
    lowerFrom before (character :: rest) =
      (if character.toNat = 0x130 then [Char.ofNat 0x69, Char.ofNat 0x307]
        else if character.toNat = 0x3A3 then
          [Char.ofNat (if meetsCased before && !meetsCased rest then 0x3C2 else 0x3C3)]
        else [lowerChar character]) ++ lowerFrom (character :: before) rest := rfl

theorem settled_of_mem_lowerFrom {before text : List Char} {character : Char}
    (member : character ∈ lowerFrom before text) : Settled character := by
  induction text generalizing before with
  | nil => exact absurd member List.not_mem_nil
  | cons first rest ih =>
      rw [lowerFrom_cons, List.mem_append] at member
      refine member.elim (fun new => ?_) ih
      split at new
      · simp only [List.mem_cons, List.not_mem_nil, or_false] at new
        rcases new with rfl | rfl
        · exact settled_toLower 0x69 (by decide)
        · exact settled_special.1
      · next noDotted =>
          split at new
          · obtain rfl := List.mem_singleton.mp new
            split
            · exact settled_special.2.1
            · exact settled_special.2.2
          · next noSigma =>
              obtain rfl := List.mem_singleton.mp new
              exact settled_lowerChar noDotted noSigma

theorem settled_of_mem_lowered {text : String} {character : Char}
    (member : character ∈ (lowered text).toList) : Settled character := by
  rw [lowered, String.toList_ofList] at member
  exact settled_of_mem_lowerFrom member

theorem lowerFrom_of_settled {before text : List Char}
    (settled : ∀ character ∈ text, Settled character) : lowerFrom before text = text := by
  induction text generalizing before with
  | nil => rfl
  | cons first rest ih =>
      obtain ⟨noDotted, noSigma, same⟩ := settled first (by simp)
      rw [lowerFrom_cons, if_neg noDotted, if_neg noSigma, same,
        ih fun character member => settled character (by simp [member])]
      rfl

theorem lowered_of_settled {text : String}
    (settled : ∀ character ∈ text.toList, Settled character) : lowered text = text := by
  rw [lowered, lowerFrom_of_settled settled, String.ofList_toList]

/-- Lowering twice is lowering once. -/
@[simp] theorem lowered_lowered (text : String) : lowered (lowered text) = lowered text :=
  lowered_of_settled fun _ => settled_of_mem_lowered

/-! ## The ASCII block -/

theorem lowerFrom_cons_of_ascii {character : Char} (ascii : character.toNat < 0x80)
    (before rest : List Char) : lowerFrom before (character :: rest) =
      character.toLower :: lowerFrom (character :: before) rest := by
  have noDotted : character.toNat ≠ 0x130 := by omega
  have noSigma : character.toNat ≠ 0x3A3 := by omega
  simp [lowerFrom_cons, noDotted, noSigma, lowerChar, ascii]

theorem lowerFrom_append_of_ascii {front : List Char}
    (ascii : ∀ character ∈ front, character.toNat < 0x80) (before rest : List Char) :
    lowerFrom before (front ++ rest) =
      front.map Char.toLower ++ lowerFrom (front.reverse ++ before) rest := by
  induction front generalizing before with
  | nil => rfl
  | cons first others ih =>
      rw [List.cons_append, lowerFrom_cons_of_ascii (ascii first (by simp)),
        ih fun character member => ascii character (by simp [member])]
      simp

/-- An ASCII beginning of a text is lowered by itself. -/
theorem toList_lowered_append {front : List Char}
    (ascii : ∀ character ∈ front, character.toNat < 0x80) (rest : List Char) :
    (lowered (String.ofList (front ++ rest))).toList =
      (lowered (String.ofList front)).toList ++ lowerFrom front.reverse rest := by
  have alone := lowerFrom_append_of_ascii ascii [] []
  rw [List.append_nil, lowerFrom_nil, List.append_nil] at alone
  simp only [lowered, String.toList_ofList, lowerFrom_append_of_ascii ascii, alone,
    List.append_nil]

end TraceStore.Text
