import TraceStore.Proofs.Store.Confinement
import TraceStore.Proofs.Store.Drafts
import Mathlib.Data.List.Forall2

/-!
# Callers on different nodes

Callers that work on nodes of different ids share one buffer, one cache and one directory, and do
not meet in any of them.  `Scene.interleavings_agree` says this of any number of callers: in
whatever way their operations are interleaved, each of them ends in the same way, and the same is
left in the files and in the buffer.

There is one exception, for a directory that cannot be made.  The first attempt may fail for another
reason than later ones, so it can matter to an operation that fails whether it is the first one to
fail: it fails for the one reason or for the other (`Scene.Wavers`).  In a tree without gaps this
takes a directory that is spelled with a step back (`Trace.isSteady_run`).
-/

namespace TraceStore

namespace Scene

variable {scene other : Scene} {operation first second : Operation} {id own : String}
  {result result' : Except StoreError Unit} {fault : FileFault} {faults : FileFault → Prop}

/-! ## Operations on different nodes -/

/-- Whether the directory of the records can be made is answered in the same way every time. -/
def IsSteady (scene : Scene) : Prop :=
  scene.store.repository.Steady scene.site.working scene.site.files

/-- A fault of the first attempt at making the directory of the records or of the next one, where
the two end differently. -/
def Wavers (scene : Scene) (fault : FileFault) : Prop :=
  scene.store.repository.Wavers scene.site.working scene.site.files fault

theorem wavers_perform (isTarget : scene.target? operation = some own)
    (wavers : (scene.perform operation).2.Wavers fault) : scene.Wavers fault := by
  have enters := enters_perform isTarget
  rw [Wavers, enters.setting.repository, enters.setting.working, enters.files] at wavers
  exact Repository.wavers_entered (isDraft_draft isTarget) _ wavers

/-- What the buffer knows of an id is not changed by operations on other nodes. -/
theorem agreeAt_perform (isTarget : scene.target? operation = some own) (apart : own ≠ id) :
    Deferred.AgreeAt id (scene.perform operation).2.store.deferred scene.store.deferred := by
  have mutates := (single_of_target? isTarget).1
  obtain ⟨change, isLocal, changed⟩ := local_bufferAfter isTarget (scene.perform operation).1
  rw [(scene.effect_perform mutates).deferred, changed scene rfl (.refl _ _)]
  exact isLocal.other id _ apart

/-- Answers that concur leave the same buffer. -/
theorem bufferAfter_of_concur (concur : Repository.Concur faults result result')
    (operation : Operation) :
    scene.bufferAfter operation result = scene.bufferAfter operation result' := by
  rcases concur with rfl | ⟨one, two, -, -, rfl, rfl⟩
  · rfl
  · rfl

section Apart

variable (isFirst : scene.target? first = some id) (isSecond : scene.target? second = some own)
  (apart : id ≠ own)

include isFirst isSecond apart

/-- An operation on another node enters what it would have entered before. -/
theorem enters_perform_perform :
    let atomic := scene.store.repository.atomic
    let site := scene.site.entered atomic (scene.draft first)
    let later := (scene.perform first).2.perform second
    later.1 = (site.enter atomic (scene.draft second)).1 ∧
      later.2.site.files = (site.enter atomic (scene.draft second)).2 := by
  intro atomic site later
  have enters := enters_perform isFirst
  have isSecondLater := (enters.setting.target?_eq second).trans isSecond
  have entersLater := enters_perform isSecondLater
  have same := draft_congr enters.setting isSecondLater (agreeAt_perform isFirst apart)
  obtain ⟨-, cache, deferred, events, after⟩ := enters
  rw [entersLater.answer, entersLater.files, same, after]
  exact ⟨rfl, rfl⟩

/-- An operation on another node ends as it would have ended before. -/
theorem concur_perform_perform (within : ∀ fault, scene.Wavers fault → faults fault) :
    Repository.Concur faults ((scene.perform first).2.perform second).1
      (scene.perform second).1 := by
  rw [(enters_perform_perform isFirst isSecond apart).1, (enters_perform isSecond).answer]
  exact (Repository.enter_enter apart (isDraft_draft isFirst) (isDraft_draft isSecond) _
    within).1

theorem deferred_perform_perform {change : Deferred → Deferred}
    (changed : ∀ other : Scene, other.site.graph = scene.site.graph →
      Deferred.AgreeAt own other.store.deferred scene.store.deferred →
      other.bufferAfter second (scene.perform second).1 = change other.store.deferred) :
    ((scene.perform first).2.perform second).2.store.deferred =
      change (scene.perform first).2.store.deferred := by
  have setting := (enters_perform isFirst).setting
  have mutates := (single_of_target? isSecond).1
  rw [((scene.perform first).2.effect_perform mutates).deferred,
    bufferAfter_of_concur
      (concur_perform_perform isFirst isSecond apart fun _ wavers => wavers) second,
    changed _ setting.graph (agreeAt_perform isFirst apart)]

/-- Operations on different nodes can be done in either order. -/
theorem perform_comm :
    ((scene.perform first).2.perform second).2.Alike
      ((scene.perform second).2.perform first).2 := by
  have enters := enters_perform isFirst
  have entersSecond := enters_perform isSecond
  have isSecondLater := (enters.setting.target?_eq second).trans isSecond
  have isFirstLater := (entersSecond.setting.target?_eq first).trans isFirst
  refine ⟨⟨?setting, ?files⟩, ?deferred⟩
  case setting =>
    exact ((enters_perform isSecondLater).setting.trans enters.setting).trans
      ((enters_perform isFirstLater).setting.trans entersSecond.setting).symm
  case files =>
    rw [(enters_perform_perform isFirst isSecond apart).2,
      (enters_perform_perform isSecond isFirst apart.symm).2]
    exact (Repository.enter_enter apart (isDraft_draft isFirst) (isDraft_draft isSecond) _
      fun _ wavers => wavers).2
  case deferred =>
    intro place
    obtain ⟨change, isLocal, changed⟩ := local_bufferAfter isFirst (scene.perform first).1
    obtain ⟨later, isLocalLater, changedLater⟩ :=
      local_bufferAfter isSecond (scene.perform second).1
    have mutates := (single_of_target? isFirst).1
    have mutatesSecond := (single_of_target? isSecond).1
    rw [deferred_perform_perform isFirst isSecond apart changedLater,
      deferred_perform_perform isSecond isFirst apart.symm changed,
      (scene.effect_perform mutates).deferred, changed scene rfl (.refl _ _),
      (scene.effect_perform mutatesSecond).deferred, changedLater scene rfl (.refl _ _)]
    exact isLocal.comm isLocalLater apart place _

end Apart

end Scene

/-! ## Interleavings -/

/-- What several callers do or get, one item after the other. -/
abbrev Interleaving (Caller α : Type) := List (Caller × α)

namespace Interleaving

variable {Caller α : Type} [DecidableEq Caller]

/-- The items of one caller. -/
def part (caller : Caller) (items : Interleaving Caller α) : List α :=
  (items.filter (·.1 = caller)).map (·.2)

theorem part_cons (caller : Caller) (item : Caller × α) (items : Interleaving Caller α) :
    part caller (item :: items) =
      if item.1 = caller then item.2 :: part caller items else part caller items := by
  by_cases same : item.1 = caller <;> simp [part, same]

theorem part_append (caller : Caller) (items later : Interleaving Caller α) :
    part caller (items ++ later) = part caller items ++ part caller later := by
  simp [part]

theorem mem_part (caller : Caller) (items : Interleaving Caller α) (item : α) :
    item ∈ part caller items ↔ (caller, item) ∈ items := by
  simp [part]

theorem part_eq_nil {caller : Caller} {items : Interleaving Caller α}
    (others : ∀ item ∈ items, item.1 ≠ caller) : part caller items = [] := by
  simpa [part] using others

/-- The first item of a caller, behind items of others. -/
theorem exists_of_part_eq_cons {caller : Caller} {items : Interleaving Caller α} {item : α}
    {rest : List α} (whole : part caller items = item :: rest) :
    ∃ front back, items = front ++ (caller, item) :: back ∧ ∀ other ∈ front, other.1 ≠ caller := by
  induction items with
  | nil => simp [part] at whole
  | cons first later ih =>
      rw [part_cons] at whole
      split at whole
      · next same =>
          obtain ⟨rfl, -⟩ := List.cons.inj whole
          exact ⟨[], later, by simp [← same], by simp⟩
      · next apart =>
          obtain ⟨front, back, rfl, others⟩ := ih whole
          refine ⟨first :: front, back, rfl, ?_⟩
          intro other member
          rcases List.mem_cons.mp member with rfl | later
          · exact apart
          · exact others other later

theorem subset_of_part_eq {items others : Interleaving Caller α}
    (same : ∀ caller, part caller items = part caller others) : others ⊆ items := by
  rintro ⟨caller, item⟩ member
  rwa [← mem_part, ← same caller, mem_part] at member

/-- What is left of two interleavings of the same items without the first item of the one. -/
theorem part_eq_of_cons {caller : Caller} {item : α} {later front back : Interleaving Caller α}
    (differ : ∀ other ∈ front, other.1 ≠ caller)
    (same : ∀ other, part other ((caller, item) :: later) =
      part other (front ++ (caller, item) :: back)) :
    ∀ other, part other later = part other (front ++ back) := by
  intro other
  have whole := same other
  rw [part_cons, part_append, part_cons] at whole
  rw [part_append]
  by_cases isCaller : caller = other
  · subst isCaller
    rw [part_eq_nil differ] at whole ⊢
    simpa using whole
  · simpa [isCaller] using whole

end Interleaving

namespace Scene

open Interleaving

variable {Caller : Type} {scene other : Scene} {faults : FileFault → Prop}

/-- Performs the operations of several callers, which get the answers. -/
def performAll (scene : Scene) :
    Interleaving Caller Operation → Interleaving Caller (Except StoreError Unit) × Scene
  | [] => ([], scene)
  | (caller, operation) :: later =>
      let (result, after) := scene.perform operation
      let (results, last) := after.performAll later
      ((caller, result) :: results, last)

theorem performAll_cons (scene : Scene) (call : Caller × Operation)
    (later : Interleaving Caller Operation) :
    scene.performAll (call :: later) =
      ((call.1, (scene.perform call.2).1) :: ((scene.perform call.2).2.performAll later).1,
        ((scene.perform call.2).2.performAll later).2) := rfl

/-- All are operations on one node, and those of different callers are on nodes of different ids. -/
structure Apart (scene : Scene) (calls : Interleaving Caller Operation) : Prop where
  single : ∀ call ∈ calls, (scene.target? call.2).isSome = true
  apart : ∀ call ∈ calls, ∀ other ∈ calls, call.1 ≠ other.1 →
    scene.target? call.2 ≠ scene.target? other.2

namespace Apart

variable {calls : Interleaving Caller Operation} {call : Caller × Operation}

theorem exists_target (apart : scene.Apart calls) (member : call ∈ calls) :
    ∃ id, scene.target? call.2 = some id :=
  Option.isSome_iff_exists.mp (apart.single call member)

theorem of_subset {more : Interleaving Caller Operation} (apart : scene.Apart more)
    (subset : calls ⊆ more) : scene.Apart calls :=
  ⟨fun call member => apart.single call (subset member),
    fun call member other isOther => apart.apart call (subset member) other (subset isOther)⟩

theorem of_setting (apart : scene.Apart calls) (same : scene.SameSetting other) :
    other.Apart calls := by
  constructor
  · intro call member
    rw [← same.target?_eq]
    exact apart.single call member
  · intro call member later isLater
    rw [← same.target?_eq, ← same.target?_eq]
    exact apart.apart call member later isLater

/-- The calls that are left once the first one was performed. -/
theorem perform (apart : scene.Apart (call :: calls)) : (scene.perform call.2).2.Apart calls := by
  obtain ⟨id, isTarget⟩ := apart.exists_target List.mem_cons_self
  exact (apart.of_subset (List.subset_cons_self _ _)).of_setting
    (enters_perform isTarget).setting.symm

end Apart

variable [DecidableEq Caller]

/-- Each caller gets answers that concur, and alike scenes are left. -/
structure Concurs (faults : FileFault → Prop)
    (outcome other : Interleaving Caller (Except StoreError Unit) × Scene) : Prop where
  answers : ∀ caller,
    List.Forall₂ (Repository.Concur faults) (part caller outcome.1) (part caller other.1)
  after : outcome.2.Alike other.2

namespace Concurs

variable {outcome outcome' third : Interleaving Caller (Except StoreError Unit) × Scene}

theorem refl (faults : FileFault → Prop)
    (outcome : Interleaving Caller (Except StoreError Unit) × Scene) :
    Concurs faults outcome outcome :=
  ⟨fun _ => List.forall₂_same.mpr fun answer _ => .refl faults answer, .refl _⟩

theorem trans (concurs : Concurs faults outcome outcome') (later : Concurs faults outcome' third) :
    Concurs faults outcome third := by
  refine ⟨fun caller => ?_, concurs.after.trans later.after⟩
  have left := concurs.answers caller
  have right := later.answers caller
  generalize part caller outcome.1 = answers at left ⊢
  generalize part caller outcome'.1 = answers' at left right
  generalize part caller third.1 = answers'' at right ⊢
  induction left generalizing answers'' with
  | nil => simpa using right
  | cons concur _ ih =>
      cases right with
      | cons concur' right => exact .cons (concur.trans concur') (ih _ right)

/-- The same caller gets one more answer first. -/
theorem cons (concurs : Concurs faults outcome outcome') (caller : Caller)
    {answer answer' : Except StoreError Unit} (concur : Repository.Concur faults answer answer') :
    Concurs faults ((caller, answer) :: outcome.1, outcome.2)
      ((caller, answer') :: outcome'.1, outcome'.2) := by
  refine ⟨fun other => ?_, concurs.after⟩
  simp only [part_cons]
  split
  · exact .cons concur (concurs.answers other)
  · exact concurs.answers other

/-- Two callers get one more answer each, in either order. -/
theorem swap (concurs : Concurs faults outcome outcome') {one two : Caller} (apart : one ≠ two)
    {first first' second second' : Except StoreError Unit}
    (concur : Repository.Concur faults first first')
    (concurSecond : Repository.Concur faults second second') :
    Concurs faults ((one, first) :: (two, second) :: outcome.1, outcome.2)
      ((two, second') :: (one, first') :: outcome'.1, outcome'.2) := by
  refine ⟨fun caller => ?_, concurs.after⟩
  have rest := concurs.answers caller
  simp only [part_cons]
  by_cases isOne : one = caller
  · have notTwo : two ≠ caller := isOne ▸ apart.symm
    rw [if_pos isOne, if_neg notTwo, if_neg notTwo, if_pos isOne]
    exact .cons concur rest
  · rw [if_neg isOne, if_neg isOne]
    split
    · exact .cons concurSecond rest
    · exact rest

end Concurs

/-- From alike scenes all goes on alike. -/
theorem concurs_of_alike (alike : scene.Alike other) {calls : Interleaving Caller Operation}
    (apart : scene.Apart calls) :
    Concurs faults (scene.performAll calls) (other.performAll calls) := by
  induction calls generalizing scene other with
  | nil => exact ⟨fun _ => .nil, alike⟩
  | cons call later ih =>
      obtain ⟨id, isTarget⟩ := apart.exists_target List.mem_cons_self
      obtain ⟨answer, after⟩ := alike.perform isTarget
      rw [performAll_cons, performAll_cons, answer]
      exact (ih after apart.perform).cons call.1 (.refl _ _)

/-- Two operations of different callers, one after the other. -/
theorem concurs_swap {call next : Caller × Operation} {calls : Interleaving Caller Operation}
    (apart : scene.Apart (call :: next :: calls)) (differ : call.1 ≠ next.1)
    (within : ∀ fault, scene.Wavers fault → faults fault) :
    Concurs faults (scene.performAll (call :: next :: calls))
      (scene.performAll (next :: call :: calls)) := by
  obtain ⟨id, isTarget⟩ := apart.exists_target List.mem_cons_self
  obtain ⟨own, isNext⟩ := apart.exists_target (List.mem_cons_of_mem _ List.mem_cons_self)
  have distinct : id ≠ own := by
    rintro rfl
    exact apart.apart call (by simp) next (by simp) differ (isTarget.trans isNext.symm)
  have rest : Concurs faults (((scene.perform call.2).2.perform next.2).2.performAll calls)
      (((scene.perform next.2).2.perform call.2).2.performAll calls) :=
    concurs_of_alike (perform_comm isTarget isNext distinct) apart.perform.perform
  simp only [performAll_cons]
  exact rest.swap differ (concur_perform_perform isNext isTarget distinct.symm within).symm
    (concur_perform_perform isTarget isNext distinct within)

/-- An operation can be done before those of other callers. -/
theorem concurs_move {call : Caller × Operation} {front back : Interleaving Caller Operation}
    (apart : scene.Apart (call :: (front ++ back))) (differ : ∀ other ∈ front, other.1 ≠ call.1)
    (within : ∀ fault, scene.Wavers fault → faults fault) :
    Concurs faults (scene.performAll (call :: (front ++ back)))
      (scene.performAll (front ++ call :: back)) := by
  induction front generalizing scene with
  | nil => exact .refl _ _
  | cons first others ih =>
      have swapped : scene.Apart (first :: call :: (others ++ back)) :=
        apart.of_subset (List.Perm.swap call first (others ++ back)).subset
      obtain ⟨id, isTarget⟩ := swapped.exists_target List.mem_cons_self
      have withinAfter (fault : FileFault) (wavers : (scene.perform first.2).2.Wavers fault) :
          faults fault :=
        within fault (wavers_perform isTarget wavers)
      have moved := ih swapped.perform (fun other member => differ other (by simp [member]))
        withinAfter
      refine (concurs_swap apart (Ne.symm (differ first (by simp))) within).trans ?_
      rw [List.cons_append, performAll_cons scene first, performAll_cons scene first]
      exact moved.cons first.1 (.refl _ _)

/-- Interleavings of the same operations concur. -/
theorem concurs_of_part_eq {calls others : Interleaving Caller Operation}
    (apart : scene.Apart calls) (same : ∀ caller, part caller calls = part caller others)
    (within : ∀ fault, scene.Wavers fault → faults fault) :
    Concurs faults (scene.performAll calls) (scene.performAll others) := by
  induction calls generalizing scene others with
  | nil =>
      obtain rfl : others = [] := List.subset_nil.mp (subset_of_part_eq same)
      exact .refl _ _
  | cons call later ih =>
      rcases call with ⟨caller, operation⟩
      have own := same caller
      rw [part_cons, if_pos rfl] at own
      obtain ⟨front, back, rfl, differ⟩ := exists_of_part_eq_cons own.symm
      have rest := part_eq_of_cons differ same
      obtain ⟨id, isTarget⟩ := apart.exists_target List.mem_cons_self
      have withinAfter (fault : FileFault) (wavers : (scene.perform operation).2.Wavers fault) :
          faults fault :=
        within fault (wavers_perform isTarget wavers)
      have goesOn := ih apart.perform rest withinAfter
      have subset := List.cons_subset_cons (caller, operation) (subset_of_part_eq rest)
      have moved := concurs_move (apart.of_subset subset) differ within
      rw [performAll_cons] at moved ⊢
      have whole := goesOn.cons caller (.refl faults (scene.perform operation).1)
      exact whole.trans moved

/-- However the operations of callers on different nodes are interleaved, each caller gets the same
answers, and the same is left in the files and in the buffer.  Only if the directory of the records
cannot be made, and the first attempt at it fails otherwise than the next one, may an operation fail
for the reason of the one in place of that of the other; and this takes a directory that is spelled
with a step back. -/
theorem interleavings_agree (scene : Scene) (calls others : Interleaving Caller Operation)
    (apart : scene.Apart calls) (same : ∀ caller, part caller calls = part caller others) :
    let one := scene.performAll calls
    let two := scene.performAll others
    (∀ caller, List.Forall₂ (Repository.Concur scene.Wavers) (part caller one.1)
        (part caller two.1)) ∧
      (scene.site.files.Rooted → ".." ∉ Path.names scene.store.repository.directory →
        scene.IsSteady) ∧
      one.2.site.files.get? = two.2.site.files.get? ∧
      (∀ id, one.2.store.deferred.get? id = two.2.store.deferred.get? id) ∧
      ∀ id, one.2.store.deferred.isExempt id = two.2.store.deferred.isExempt id := by
  intro one two
  obtain ⟨answers, ⟨-, files⟩, deferred⟩ :=
    concurs_of_part_eq apart same fun fault (wavers : scene.Wavers fault) => wavers
  exact ⟨answers, Repository.steady_of_no_back, files, fun id => (deferred id).pending,
    fun id => (deferred id).exempt⟩

end Scene

namespace Trace

open Scene Interleaving

/-- A directory that is spelled without a step back is steady in every state of a run in which
others leave no gaps in the tree. -/
theorem isSteady_run (execution : ExecutionRef) {directory : String} (capacity : Nat)
    (direct : Bool) {files : FileTree} {working : Route} (rootedAt : files.RootedAt working)
    (noBack : ".." ∉ Path.names directory) {turns : List Turn}
    (others : ∀ changed, .others changed ∈ turns → changed.RootedAt working) :
    ((opened execution directory capacity direct files working).run turns).scene.IsSteady := by
  have rooted := (rootedAt_run execution directory capacity direct rootedAt others).rooted
  obtain ⟨-, isRepository, -⟩ :=
    placed_run execution directory capacity direct files working turns
  rw [IsSteady, isRepository]
  exact Repository.steady_of_no_back rooted noBack

/-- Two callers, one of which defers a node, saves its actions and has it written, while the other
writes another node.  Where the store was opened there was nothing yet. -/
theorem interleavings_of_two_callers :
    let scene := ((opened 0 "d" 1 false {} []).run [.own (.create ⟨"a", .held [], [], some 0⟩),
      .own (.create ⟨"b", .held [0], [], some 0⟩)]).scene
    let calls : Interleaving Bool Operation := [(false, .put 0 true), (true, .flushNode 1),
      (false, .saveActions 0 [.label "x"]), (false, .autopersist 0)]
    let others : Interleaving Bool Operation := [(false, .put 0 true),
      (false, .saveActions 0 [.label "x"]), (false, .autopersist 0), (true, .flushNode 1)]
    scene.IsSteady ∧
      (∀ caller, part caller (scene.performAll calls).1 =
        part caller (scene.performAll others).1) ∧
      (scene.performAll calls).2.site.files.get? = (scene.performAll others).2.site.files.get? ∧
      (scene.performAll calls).2.site.files ≠ scene.site.files := by
  intro scene calls others
  obtain ⟨answers, steady, files, -⟩ := interleavings_agree scene calls others
    ⟨by decide +kernel, by decide +kernel⟩ (by decide +kernel)
  have isSteady : scene.IsSteady :=
    steady (rootedAt_run 0 "d" 1 false FileTree.rootedAt_empty (by simp)).rooted (by decide +kernel)
  refine ⟨isSteady, fun caller => ?_, files, by decide +kernel⟩
  rw [← List.forall₂_eq_eq_eq]
  exact (answers caller).imp fun _ _ concur => concur.eq isSteady.not_wavers

/-- A store whose directory is spelled as a step back from a directory that is missing, and leads
through a file. -/
def detour : Trace :=
  (opened 0 "new/../file/b" 0 false (FileTree.put {} ["file"] (.file [])) []).run
    [.own (.create ⟨"1", .held [], [], some 0⟩), .own (.create ⟨"2", .held [], [], some 0⟩)]

/-- Two callers write nodes of different ids, and whichever comes first fails otherwise than it does
as the second one. -/
theorem first_write_fails_otherwise :
    let scene := detour.scene
    let calls : Interleaving Bool Operation := [(false, .put 0 false), (true, .put 1 false)]
    let others : Interleaving Bool Operation := [(true, .put 1 false), (false, .put 0 false)]
    scene.target? (.put 0 false) = some "1" ∧ scene.target? (.put 1 false) = some "2" ∧
      (∀ caller, part caller calls = part caller others) ∧
      part true (scene.performAll calls).1 = [.error (.io .notDirectory)] ∧
      part true (scene.performAll others).1 = [.error (.io .exists_)] := by
  decide +kernel

end Trace

end TraceStore
