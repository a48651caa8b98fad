import TraceStore.Proofs.Store.Soundness

/-!
# Traces of a store

A `Trace` is a run that remembers its steps.  Each `Deed` is an operation with the scene in which it
was begun, so what the operation meant at that moment, and what came of it, can be asked later.
Between two operations others may change the files under the store in any way.

`Since` is the past tense of a trace: something was done, and something else was not done after
that.
-/

namespace TraceStore

/-- What happens next: an operation of this store, or a change of the files by others. -/
inductive Turn where
  | own (operation : Operation)
  | others (files : FileTree)
  deriving Repr, DecidableEq

/-- An operation that was performed, with the scene in which it was begun. -/
structure Deed where
  before : Scene
  operation : Operation
  deriving Repr, DecidableEq

namespace Deed

/-- How an operation ended. -/
def result (deed : Deed) : Except StoreError Unit := (deed.before.perform deed.operation).1

/-- The scene that an operation left. -/
def after (deed : Deed) : Scene := (deed.before.perform deed.operation).2

/-- Whether an operation succeeded. -/
def Succeeds (deed : Deed) : Prop := deed.result = .ok ()

end Deed

/-- A scene with the operations that led to it, the oldest first. -/
structure Trace where
  scene : Scene
  deeds : List Deed := []
  deriving Repr, DecidableEq

namespace Trace

/-- The beginning of a run: a new store over a file tree. -/
def opened (execution : ExecutionRef) (directory : String) (capacity : Nat) (direct : Bool)
    (files : FileTree) (working : Route) : Trace where
  scene := .opened execution directory capacity direct files working

/-- What happens to a scene when others change its files. -/
def changing (scene : Scene) (files : FileTree) : Scene :=
  { scene with site := { scene.site with files } }

/-- One turn of a run.  An operation that cannot be performed leaves the run as it is. -/
def turn (trace : Trace) : Turn → Trace
  | .own operation =>
      if trace.scene.permits operation then
        ⟨(trace.scene.perform operation).2, trace.deeds ++ [⟨trace.scene, operation⟩]⟩
      else trace
  | .others files => { trace with scene := changing trace.scene files }

/-- A run from a given trace on. -/
def run (trace : Trace) (turns : List Turn) : Trace := turns.foldl turn trace

/-- What holds at first and is kept by the turns of a run holds after it. -/
theorem run_induction_of_turns {motive : Trace → Prop} {start : Trace} {turns : List Turn}
    (initial : motive start)
    (own : ∀ trace operation, motive trace → trace.scene.permits operation = true →
      motive ⟨(trace.scene.perform operation).2, trace.deeds ++ [⟨trace.scene, operation⟩]⟩)
    (others : ∀ trace files, .others files ∈ turns → motive trace →
      motive { trace with scene := changing trace.scene files }) : motive (start.run turns) := by
  induction turns generalizing start with
  | nil => exact initial
  | cons next later ih =>
      apply ih
      case initial =>
        cases next with
        | others files => exact others start files List.mem_cons_self initial
        | own operation =>
            rw [turn]
            split
            · next permitted => exact own start operation initial permitted
            · exact initial
      case others =>
        exact fun trace files member => others trace files (List.mem_cons_of_mem _ member)

/-- What holds at first and is kept by every turn holds after every run. -/
theorem run_induction {motive : Trace → Prop} {start : Trace} (initial : motive start)
    (own : ∀ trace operation, motive trace → trace.scene.permits operation = true →
      motive ⟨(trace.scene.perform operation).2, trace.deeds ++ [⟨trace.scene, operation⟩]⟩)
    (others : ∀ trace files, motive trace →
      motive { trace with scene := changing trace.scene files })
    (turns : List Turn) : motive (start.run turns) :=
  run_induction_of_turns initial own fun trace files _ => others trace files

/-- What is true of a scene does not depend on its files. -/
theorem sound_changing {scene : Scene} (sound : scene.Sound) (files : FileTree) :
    (changing scene files).Sound :=
  ⟨sound.acyclic, sound.held, sound.cache, sound.deferred⟩

/-! ## The past -/

/-- Something was done, and after that something else was not done any more. -/
def Since (done undone : Deed → Prop) (deeds : List Deed) : Prop :=
  ∃ earlier deed later, deeds = earlier ++ deed :: later ∧ done deed ∧
    ∀ other ∈ later, ¬ undone other

variable {done undone : Deed → Prop} {deeds : List Deed} {deed : Deed}

theorem not_since_nil : ¬ Since done undone [] := by
  rintro ⟨earlier, deed, later, split, -⟩
  simp at split

/-- The last operation either did it, or did not undo what was done earlier. -/
theorem since_concat :
    Since done undone (deeds ++ [deed]) ↔
      done deed ∨ (Since done undone deeds ∧ ¬ undone deed) := by
  constructor
  · rintro ⟨earlier, first, later, split, isDone, kept⟩
    rcases List.eq_nil_or_concat later with rfl | ⟨between, last, rfl⟩
    · obtain ⟨-, same⟩ := List.append_inj' split rfl
      obtain rfl := List.singleton_inj.mp same
      exact .inl isDone
    · rw [List.concat_eq_append, ← List.cons_append, ← List.append_assoc] at split
      obtain ⟨rfl, same⟩ := List.append_inj' split rfl
      obtain rfl := List.singleton_inj.mp same
      right
      constructor
      · refine ⟨earlier, first, between, rfl, isDone, ?_⟩
        intro other member
        exact kept other (by simp [member])
      · exact kept _ (by simp)
  · rintro (isDone | ⟨⟨earlier, first, later, rfl, isDone, kept⟩, notUndone⟩)
    · exact ⟨deeds, deed, [], rfl, isDone, by simp⟩
    · refine ⟨earlier, first, later ++ [deed], by simp, isDone, ?_⟩
      intro other member
      rcases List.mem_append.mp member with isLater | isLast
      · exact kept other isLater
      · obtain rfl := List.mem_singleton.mp isLast
        exact notUndone

end Trace

end TraceStore
