import TraceStore.Proofs.FileTree.Growth

/-!
# Alike trees

Two trees are alike if the same stands at every place, whatever the order of their entries and
whatever files were made before.  Alike trees answer alike, and directories that are made in both
leave them alike.
-/

namespace TraceStore.FileTree

variable {tree other grown : FileTree} {working : Route} {path : String} {fault : FileFault}

/-! ## Entries -/

/-- What stands at each place once an entry was put somewhere. -/
theorem get?_put (tree : FileTree) (route : Route) (entry : Entry) :
    (tree.put route entry).get? = fun place =>
      if place = [] then some .directory
      else if route = place then some entry
      else tree.get? place := by
  funext place
  split
  · next root => rw [root, get?_root]
  · next below =>
      split
      · next same =>
          subst same
          exact get?_put_self tree entry below
      · next apart => exact get?_put_other tree entry apart

theorem get?_put_congr (alike : tree.get? = other.get?) (route : Route) (entry : Entry) :
    (tree.put route entry).get? = (other.put route entry).get? := by
  rw [get?_put, get?_put, alike]

/-- Entries at different places can be put in either order. -/
theorem get?_put_comm (tree : FileTree) {first second : Route} (apart : first ≠ second)
    (one two : Entry) :
    ((tree.put first one).put second two).get? = ((tree.put second two).put first one).get? := by
  rw [get?_put, get?_put, get?_put, get?_put]
  funext place
  grind

/-! ## Looking up -/

theorem walk_congr (alike : tree.get? = other.get?) : tree.walk = other.walk := by
  funext here names
  induction names generalizing here with
  | nil => rfl
  | cons name others ih => rw [walk, walk, ih, ih, ih, alike]

theorem locate_congr (alike : tree.get? = other.get?) : tree.locate = other.locate := by
  funext working path
  rw [locate, locate, walk_congr alike]

theorem isDirectory_congr (alike : tree.get? = other.get?) :
    tree.isDirectory = other.isDirectory := by
  funext working path
  rw [isDirectory, isDirectory, stat, stat, locate_congr alike, alike]

/-! ## Making directories -/

/-- Two outcomes are alike: the same answer, and alike trees. -/
structure Agrees {ε α : Type} (outcome other : Except ε α × FileTree) : Prop where
  answer : outcome.1 = other.1
  tree : outcome.2.get? = other.2.get?

theorem makeDirectory_congr (alike : tree.get? = other.get?) (working : Route) (path : String) :
    Agrees (tree.makeDirectory working path) (other.makeDirectory working path) := by
  rw [makeDirectory, makeDirectory, locate_congr alike]
  split
  · exact ⟨rfl, alike⟩
  · exact ⟨rfl, alike⟩
  · split
    · exact ⟨rfl, alike⟩
    · rw [alike]
      split
      · exact ⟨rfl, alike⟩
      · exact ⟨rfl, get?_put_congr alike _ _⟩

theorem ensureDirectory_congr (alike : tree.get? = other.get?) (working : Route) (path : String) :
    Agrees (tree.ensureDirectory working path) (other.ensureDirectory working path) := by
  obtain ⟨answer, grown⟩ := makeDirectory_congr alike working path
  rw [ensureDirectory, ensureDirectory, isDirectory_congr alike]
  cases made : tree.makeDirectory working path with
  | mk result after =>
      cases madeOther : other.makeDirectory working path with
      | mk resultOther afterOther =>
          rw [made, madeOther] at answer grown
          simp only at answer grown
          subst answer
          cases result with
          | ok _ => exact ⟨rfl, grown⟩
          | error fault =>
              simp only
              split <;> exact ⟨rfl, alike⟩

/-- Goes on with the tree of an outcome, unless that is a failure. -/
def andThen (outcome : Except FileFault Unit × FileTree)
    (next : FileTree → Except FileFault Unit × FileTree) : Except FileFault Unit × FileTree :=
  match outcome with
  | (.error fault, grown) => (.error fault, grown)
  | (.ok (), grown) => next grown

theorem Agrees.andThen {outcome outcome' : Except FileFault Unit × FileTree}
    {next : FileTree → Except FileFault Unit × FileTree} (agrees : Agrees outcome outcome')
    (later : ∀ grown grown' : FileTree, grown.get? = grown'.get? →
      Agrees (next grown) (next grown')) :
    Agrees (andThen outcome next) (andThen outcome' next) := by
  rcases outcome with ⟨answer, grown⟩
  rcases outcome' with ⟨answer', grown'⟩
  obtain ⟨rfl, alike⟩ := agrees
  cases answer with
  | error fault => exact ⟨rfl, alike⟩
  | ok _ => exact later grown grown' alike

theorem ensureLevels_empty (tree : FileTree) (working : Route) (levels : Nat) :
    tree.ensureLevels working levels "" = (.ok (), tree) := by
  cases levels <;> simp [ensureLevels]

theorem ensureLevels_of_present (levels : Nat) (nonempty : path ≠ "")
    (present : (tree.ensureDirectory working path).1 ≠ .error .missing) :
    tree.ensureLevels working (levels + 1) path = tree.ensureDirectory working path := by
  rw [ensureLevels, if_neg (by simpa using nonempty)]
  split
  · next missing => exact absurd (congrArg Prod.fst missing) present
  · rfl

/-- A directory below one that is missing is made after that one. -/
theorem ensureLevels_of_missing (levels : Nat) (nonempty : path ≠ "")
    (missing : (tree.ensureDirectory working path).1 = .error .missing) :
    tree.ensureLevels working (levels + 1) path =
      match Path.parent? path with
      | none => (.error (.other "failed to create whole tree"), tree)
      | some above =>
          andThen (tree.ensureLevels working levels above) (·.ensureDirectory working path) := by
  rw [ensureLevels, if_neg (by simpa using nonempty)]
  split
  · rfl
  · next present => exact (present _ (Prod.ext missing rfl)).elim

theorem ensureLevels_congr (alike : tree.get? = other.get?) (working : Route) (levels : Nat)
    (path : String) :
    Agrees (tree.ensureLevels working levels path) (other.ensureLevels working levels path) := by
  induction levels generalizing path with
  | zero => exact ⟨rfl, alike⟩
  | succ levels ih =>
      by_cases empty : path = ""
      · rw [empty, ensureLevels_empty, ensureLevels_empty]
        exact ⟨rfl, alike⟩
      · have direct := ensureDirectory_congr alike working path
        by_cases missing : (tree.ensureDirectory working path).1 = .error .missing
        · have missingOther := direct.answer.symm.trans missing
          rw [ensureLevels_of_missing levels empty missing,
            ensureLevels_of_missing levels empty missingOther]
          split
          · exact ⟨rfl, alike⟩
          · next above _ =>
              exact (ih above).andThen fun _ _ alike => ensureDirectory_congr alike working path
        · have presentOther := fun same => missing (direct.answer.trans same)
          rw [ensureLevels_of_present levels empty missing,
            ensureLevels_of_present levels empty presentOther]
          exact direct

theorem ensureDirectories_congr (alike : tree.get? = other.get?) (working : Route)
    (path : String) :
    Agrees (tree.ensureDirectories working path) (other.ensureDirectories working path) :=
  ensureLevels_congr alike working _ path

end TraceStore.FileTree
