import TraceStore.Proofs.FileTree.Writing

/-!
# The two ways of replacing a file

A file is replaced by writing it in place, or by moving a temporary file onto it.  The system is
asked in other words each time, and refuses in other words; but it refuses the same paths, since
both calls follow the path to the same place (`FileTree.Accepts`), and where it does not refuse, the
same file stands there afterwards.  The temporary file is in the way of neither: it is no directory,
so that paths lead where they led without it, and it is gone afterwards, moved or removed.

All that is used of the temporary file is that nothing stood at its name.  `replaceThrough` is the
atomic way with the name left open, `Unused` what the name has to be.
-/

namespace TraceStore.FileTree

variable {tree other : FileTree} {working target temporary : Route} {path name : String}
  {content : List UInt8}

/-! ## Paths that a file can be written to -/

/-- A path leads to a place where a file stands or can be made. -/
def Accepts (tree : FileTree) (working : Route) (path : String) (target : Route) : Prop :=
  ∃ directory name, tree.locate working path = .ok (.entry directory name false) ∧
    name.utf8ByteSize ≤ longestName ∧ tree.get? (directory ++ [name]) ≠ some .directory ∧
    target = directory ++ [name]

namespace Accepts

/-- It is the directories alone that decide about it. -/
theorem of_directories
    (same : ∀ route, tree.get? route = some .directory ↔ other.get? route = some .directory)
    (accepts : tree.Accepts working path target) : other.Accepts working path target := by
  obtain ⟨directory, name, located, fits, free, rfl⟩ := accepts
  exact ⟨directory, name, locate_of_directories (fun route => (same route).mp) located, fits,
    fun there => free ((same _).mpr there), rfl⟩

theorem overwrite (accepts : tree.Accepts working path target) (content : List UInt8) :
    (tree.overwrite working path content).1 = .ok () ∧
      (tree.overwrite working path content).2.get? = (tree.put target (.file content)).get? := by
  obtain ⟨directory, name, located, fits, free, rfl⟩ := accepts
  simp only [FileTree.overwrite, openWrite, located, Bool.false_eq_true, if_false,
    if_neg (Nat.not_lt_of_le fits)]
  cases there : tree.get? (directory ++ [name]) with
  | none => exact ⟨rfl, get?_make tree _ content⟩
  | some entry =>
      cases entry with
      | directory => exact absurd there free
      | file old => exact ⟨rfl, rfl⟩

theorem moveFile (accepts : tree.Accepts working path target) (source : Route)
    (content : List UInt8) : tree.moveFile working source content path =
      (.ok (), (tree.erase source).make target content) := by
  obtain ⟨directory, name, located, fits, free, rfl⟩ := accepts
  simp only [FileTree.moveFile, located, Bool.false_eq_true, if_false,
    if_neg (Nat.not_lt_of_le fits)]

end Accepts

/-- A file is written in place at such paths only. -/
theorem overwrite_ok_iff (tree : FileTree) (working : Route) (path : String)
    (content : List UInt8) : (tree.overwrite working path content).1 = .ok () ↔
      ∃ target, tree.Accepts working path target := by
  refine ⟨fun written => ?_, fun ⟨_, accepts⟩ => (accepts.overwrite content).1⟩
  obtain ⟨directory, name, located, fits, replaced⟩ :=
    overwrite_ok (Prod.ext written rfl) fun _ => False
  exact ⟨_, directory, name, located, fits, replaced.noDirectory, rfl⟩

/-- A file is moved to such paths only. -/
theorem moveFile_ok_iff (tree : FileTree) (working source : Route) (path : String)
    (content : List UInt8) : (tree.moveFile working source content path).1 = .ok () ↔
      ∃ target, tree.Accepts working path target := by
  refine ⟨fun moved => ?_, fun ⟨_, accepts⟩ => by rw [accepts.moveFile]⟩
  obtain ⟨directory, name, located, fits, free, -⟩ := moveFile_ok (Prod.ext moved rfl)
  exact ⟨_, directory, name, located, fits, free, rfl⟩

/-! ## By way of a temporary file -/

/-- Two writes have come to the same: both took place or both were refused, and the same entries are
left. -/
def SameOutcome (one two : Except FileFault Unit × FileTree) : Prop :=
  (one.1 = .ok () ↔ two.1 = .ok ()) ∧ one.2.get? = two.2.get?

/-- Moves a temporary file onto a path, and removes it if it cannot be moved. -/
def moveOrRemove (tree : FileTree) (working temporary : Route) (content : List UInt8)
    (path : String) : Except FileFault Unit × FileTree :=
  match (tree.put temporary (.file content)).moveFile working temporary content path with
  | (.error fault, held) => (.error fault, held.erase temporary)
  | (.ok (), replaced) => (.ok (), replaced)

/-- Moving a file that stood nowhere before comes to the same as writing it in place. -/
theorem moveOrRemove_sameOutcome (below : temporary ≠ []) (free : tree.get? temporary = none)
    (working : Route) (path : String) (content : List UInt8) :
    SameOutcome (tree.moveOrRemove working temporary content path)
      (tree.overwrite working path content) := by
  have directories := put_file_directory_iff tree below (by simp [free]) content
  have gone := get?_erase_put tree below free (.file content)
  by_cases accepted : ∃ target, tree.Accepts working path target
  · obtain ⟨target, accepts⟩ := accepted
    have moved := (accepts.of_directories fun route => (directories route).symm).moveFile
      temporary content
    obtain ⟨written, left⟩ := accepts.overwrite content
    rw [moveOrRemove, moved]
    refine ⟨by simp [written], ?_⟩
    rw [left, get?_make]
    exact get?_put_congr gone target _
  · have refused : ¬ ∃ target, (tree.put temporary (.file content)).Accepts working path target :=
      fun ⟨target, accepts⟩ => accepted ⟨target, accepts.of_directories directories⟩
    rw [← moveFile_ok_iff _ _ temporary _ content] at refused
    rw [← overwrite_ok_iff _ _ _ content] at accepted
    rw [moveOrRemove]
    split
    · next fault held moved =>
        obtain rfl := moveFile_error moved
        refine ⟨by simp [accepted], gone.trans ?_⟩
        cases written : tree.overwrite working path content with
        | mk answer after =>
            cases answer with
            | ok _ => simp [written] at accepted
            | error fault => rw [overwrite_error written]
    · next moved => simp [moved] at refused

/-- Replaces a file by way of a temporary file of a given name in its directory. -/
def replaceThrough (tree : FileTree) (working : Route) (path : String) (content : List UInt8)
    (name : String) : Except FileFault Unit × FileTree :=
  match tree.ensureDirectories working (homeOf path) with
  | (.error fault, grown) => (.error fault, grown)
  | (.ok (), grown) =>
      match grown.directoryAt working (homeOf path) with
      | .error fault => (.error fault, grown)
      | .ok directory => grown.moveOrRemove working (directory ++ [name]) content path

/-- Once the directory of a path is made, nothing stands there at a name. -/
def Unused (tree : FileTree) (working : Route) (path name : String) : Prop :=
  let grown := (tree.ensureDirectories working (homeOf path)).2
  ∀ directory, grown.directoryAt working (homeOf path) = .ok directory →
    grown.get? (directory ++ [name]) = none

theorem unused_freshName (tree : FileTree) (working : Route) (path : String) :
    tree.Unused working path (tree.ensureDirectories working (homeOf path)).2.freshName :=
  fun directory _ => get?_freshName _ directory

/-- The atomic way goes by way of a file with a fresh name. -/
theorem replace_atomic (tree : FileTree) (working : Route) (path : String)
    (content : List UInt8) : tree.replace working path content true =
      tree.replaceThrough working path content
        (tree.ensureDirectories working (homeOf path)).2.freshName := by
  rw [replace, replaceThrough]
  cases tree.ensureDirectories working (homeOf path) with
  | mk made grown =>
      cases made with
      | error fault => rfl
      | ok _ => rfl

/-- By way of a temporary file of whatever unused name, a replacement comes to the same as in
place. -/
theorem replaceThrough_sameOutcome (unused : tree.Unused working path name)
    (content : List UInt8) : SameOutcome (tree.replaceThrough working path content name)
      (tree.replace working path content false) := by
  rw [replaceThrough, replace]
  rw [Unused] at unused
  cases outcome : tree.ensureDirectories working (homeOf path) with
  | mk made grown =>
      cases made with
      | error fault => exact ⟨Iff.rfl, rfl⟩
      | ok _ =>
          -- the directory that was made is found again
          have there := isDirectory_of_ensureDirectories (homeOf_ne_empty path) outcome
          obtain ⟨directory, reached⟩ := walk_of_isDirectory there
          have found : grown.directoryAt working (homeOf path) = .ok directory := by
            rw [directoryAt, if_neg (by simpa using homeOf_ne_empty path)]
            exact reached
          rw [outcome] at unused
          simpa only [found, Bool.false_eq_true, if_false] using
            moveOrRemove_sameOutcome (by simp) (unused directory found) working path content

/-! ## What becomes of the files -/

/-- Whether the files of two trees have the same bytes, except for those that are left out. -/
def FilesKept (except : Route → Prop) (before after : FileTree) : Prop :=
  ∀ route, ¬ except route → ∀ bytes,
    (after.get? route = some (.file bytes) ↔ before.get? route = some (.file bytes))

/-- The two ways of replacing a file agree, by way of whatever temporary file, and neither touches
any other file: a replacement that takes place gives its file the new bytes, one that is refused
changes and makes no file at all. -/
theorem replacing_modes_agree (tree : FileTree) (working : Route) (path : String)
    (content : List UInt8) :
    SameOutcome (tree.replace working path content true)
        (tree.replace working path content false) ∧
      (∀ name, tree.Unused working path name →
        SameOutcome (tree.replaceThrough working path content name)
          (tree.replace working path content false)) ∧
      ∀ atomic, match tree.replace working path content atomic with
        | (.ok (), after) =>
            after.read working path = .ok content ∧
              ∃ target, after.Accepts working path target ∧
                after.get? target = some (.file content) ∧ FilesKept (· = target) tree after
        | (.error _, after) => FilesKept (fun _ => False) tree after := by
  refine ⟨?_, fun name unused => replaceThrough_sameOutcome unused content, fun atomic => ?_⟩
  · rw [replace_atomic]
    exact replaceThrough_sameOutcome (unused_freshName tree working path) content
  · have grows := ensureDirectories_grows tree working (homeOf path)
    split
    · next after written =>
        obtain ⟨directory, name, located, fits, replaced⟩ := replace_ok grows written
        exact ⟨read_replaced written, directory ++ [name],
          ⟨directory, name, located, fits, by simp [replaced.content_eq], rfl⟩,
          replaced.content_eq, fun route => replaced.file_iff⟩
    · next after refused =>
        exact fun route _ => (replace_error grows refused).file_iff route

end TraceStore.FileTree
