import TraceStore.Proofs.FileTree.Writing
import TraceStore.Proofs.Repository.Failures
import TraceStore.Proofs.Repository.Home

/-!
# What stands in the place of a record

The system can refuse to read a record for many reasons.  But where the directory of the repository
is a directory or is missing, and the path of the record is within the limits of the system, what
stands in the place of the record decides: its bytes are read if it is a file, and otherwise a
directory or nothing is met.
-/

namespace TraceStore

namespace FileTree

variable {tree : FileTree} {working : Route} {directory file path : String}

/-- The entry that a path leads to, if it leads to one. -/
def entry? (tree : FileTree) (working : Route) (path : String) : Option Entry :=
  match tree.locate working path with
  | .ok (.entry directory name _) => tree.get? (directory ++ [name])
  | .ok (.directory _) => some .directory
  | .error _ => none

/-- What reading an entry gives. -/
def contentOf : Option Entry → Except FileFault (List UInt8)
  | some (.file content) => .ok content
  | some .directory => .error .isDirectory
  | none => .error .missing

/-- A path leads to a directory, or to nothing at all. -/
def AbsentOrDirectory (tree : FileTree) (working : Route) (path : String) : Prop :=
  tree.stat working path = .ok .directory ∨ tree.stat working path = .error .missing

namespace AbsentOrDirectory

variable (clear : tree.AbsentOrDirectory working directory)

include clear

theorem noNul : '\x00' ∉ directory.toList := by
  intro nul
  have refused : tree.stat working directory = .error .nulByte := by
    simp [stat, locate, nul]
  cases clear with
  | inl there => simp [refused] at there
  | inr missing => simp [refused] at missing

/-- The names of the directory lead to a place, or to something missing. -/
theorem walk : (∃ place, tree.walk (startOf working directory) (Path.names directory) = .ok place) ∨
    tree.walk (startOf working directory) (Path.names directory) = .error .missing := by
  by_cases empty : directory = ""
  · subst empty
    exact .inl ⟨_, by rw [Path.names_empty, FileTree.walk]⟩
  cases clear with
  | inl there => exact .inl (walk_of_isDirectory (by simp [isDirectory, there]))
  | inr missing =>
      right
      rw [stat] at missing
      cases located : tree.locate working directory with
      | error fault =>
          obtain rfl : fault = .missing := by simpa [located] using missing
          exact walk_of_locate_missing empty located
      | ok target =>
          cases target with
          | directory place => simp [located] at missing
          | entry above name slash =>
              obtain ⟨-, noDot, noBack, -, front, whole, reached⟩ := of_locate_eq_entry located
              rw [whole, walk_append, reached]
              simp only [located] at missing
              split at missing
              · simp at missing
              · next short =>
                  split at missing
                  · next free => simp [Except.bind, FileTree.walk, noDot, noBack, short, free]
                  · simp at missing
                  · split at missing <;> simp at missing

/-- Reading a file of the directory tells what stands in its place. -/
theorem read_join (isName : Path.IsName file) (noDot : file ≠ ".") (noBack : file ≠ "..")
    (noNul : '\x00' ∉ file.toList) (short : file.utf8ByteSize ≤ longestName)
    (fits : (Path.join directory file).utf8ByteSize ≤ longestPath) :
    tree.read working (Path.join directory file) =
      contentOf (tree.entry? working (Path.join directory file)) := by
  have located : tree.locate working (Path.join directory file) = _ :=
    locate_eq_entry (admissible_join isName clear.noNul noNul fits)
      (Path.names_join directory isName) noDot noBack
  rw [startOf_join isName, Path.endsInSlash_join directory isName] at located
  rw [read, stat, entry?, located]
  obtain ⟨place, reached⟩ | missing := clear.walk
  · simp only [reached, Except.map, if_neg (Nat.not_lt_of_le short)]
    cases tree.get? (place ++ [file]) with
    | none => rfl
    | some entry => cases entry <;> rfl
  · simp [missing, Except.map, contentOf]

end AbsentOrDirectory

end FileTree

namespace Repository

variable {repository : Repository} {site : Site} {id path : String}

/-- What reading finds at the path of a record that the system can address. -/
theorem content_of_clear (found : repository.path id = .ok path) (admits : repository.Admits id)
    (clear : site.files.AbsentOrDirectory site.working repository.directory) :
    site.files.read site.working path =
      FileTree.contentOf (site.files.entry? site.working path) := by
  obtain ⟨safe, fits, short⟩ := (admits_iff repository id).mp admits
  obtain ⟨-, rfl⟩ := (path_eq_ok_iff repository id path).mp found
  exact clear.read_join (isName_file safe) (file_ne_of_length (by decide))
    (file_ne_of_length (by decide)) (noNul_file safe) short fits

end Repository

end TraceStore
