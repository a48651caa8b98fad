import TraceStore.Proofs.FileTree.Making

/-!
# Writing into a directory

All files of a directory are written in the same directory, whatever the dots in its path.  Once
that is there, how a write ends is decided by the path of the file and by what stands in its place
(`FileTree.verdict`), in either way of writing; and all it does is to put the file there.
-/

namespace TraceStore

namespace Path

/-- The parts of a path to a file of a directory are those of the directory, and the file. -/
theorem parts_join (directory : String) {file : String} (isName : IsName file)
    (noDot : file ≠ ".") : parts (join directory file) = parts directory ++ [file] := by
  rw [parts, names_join directory isName, isAbsolute_join directory isName, parts]
  cases names directory with
  | nil =>
      split
      · next others whole => exact absurd (List.cons.inj whole).1 noDot
      · simp [noDot]
  | cons first rest =>
      by_cases dot : first = "."
      · subst dot
        simp [noDot]
      · simp [dot, noDot]

theorem parent?_join (directory : String) {file : String} (isName : IsName file)
    (noDot : file ≠ ".") :
    parent? (join directory file) = some (ofParts (isAbsolute directory) (parts directory)) := by
  rw [parent?, parts_join directory isName noDot, isAbsolute_join directory isName]
  split
  · next empty => simp at empty
  · next first others whole => rw [← whole, List.dropLast_concat]

theorem endsInSlash_join (directory : String) {file : String} (isName : IsName file) :
    endsInSlash (join directory file) = false := by
  have nonempty : file.toList ≠ [] := by simpa using isName.1
  have plain : file.toList.getLast? ≠ some '/' := fun slash =>
    isName.2 (List.mem_of_getLast? slash)
  have last (front : String) : (front ++ file).toList.getLast? = file.toList.getLast? := by
    rw [String.toList_append, List.getLast?_append]
    cases last : file.toList.getLast? with
    | none => exact absurd (List.getLast?_eq_none_iff.mp last) nonempty
    | some _ => rfl
  have whole : (join directory file).toList.getLast? = file.toList.getLast? := by
    rw [join_of_isName directory isName]
    split <;> exact last _
  simp [endsInSlash, whole, plain]

end Path

namespace FileTree

variable {tree grown : FileTree} {working place : Route} {path file : String}
  {content : List UInt8} {atomic : Bool} {fault : FileFault}

theorem homeOf_ne_empty (path : String) : homeOf path ≠ "" := by
  rw [homeOf]
  split
  · split
    · decide
    · next some => simpa using some
  · decide

theorem plain_homeOf (path : String) : Path.Plain (homeOf path) := by
  have plainDot : Path.Plain "." := by
    intro front whole
    have names : Path.names "." = ["."] := by decide
    simpa [names, eq_comm] using whole
  rw [homeOf]
  split
  · next above parent =>
      split
      · exact plainDot
      · exact Path.plain_of_parent? parent
  · exact plainDot

/-- All files of a directory are written in the same directory. -/
theorem homeOf_join {directory other : String} (isName : Path.IsName file) (noDot : file ≠ ".")
    (isNameOther : Path.IsName other) (noDotOther : other ≠ ".") :
    homeOf (Path.join directory file) = homeOf (Path.join directory other) := by
  rw [homeOf, homeOf, Path.parent?_join directory isName noDot,
    Path.parent?_join directory isNameOther noDotOther]

/-! ## Writing into a directory -/

/-- A file in a place without a directory leaves all directories as they are. -/
theorem put_file_directory_iff (tree : FileTree) {route : Route} (below : route ≠ [])
    (noDirectory : tree.get? route ≠ some .directory) (content : List UInt8) (other : Route) :
    (tree.put route (.file content)).get? other = some .directory ↔
      tree.get? other = some .directory := by
  by_cases same : route = other
  · subst same
    simp [get?_put_self tree _ below, noDirectory]
  · rw [get?_put_other tree _ same]

theorem replace_of_error
    (failed : tree.ensureDirectories working (homeOf path) = (.error fault, grown)) :
    tree.replace working path content atomic = (.error fault, grown) := by
  rw [replace, failed]

/-- Once the directory is made, a write goes on as if it had been there. -/
theorem replace_of_made (made : tree.ensureDirectories working (homeOf path) = (.ok (), grown)) :
    tree.replace working path content atomic = grown.replace working path content atomic := by
  have there := isDirectory_of_ensureDirectories (homeOf_ne_empty path) made
  rw [replace, replace, made, ensureDirectories_of_isDirectory there]

/-- Puts a file in its place, if the answer allows it. -/
def putIf (tree : FileTree) (route : Route) (content : List UInt8) :
    Except FileFault Unit → FileTree
  | .ok () => tree.put route (.file content)
  | .error _ => tree

theorem get?_putIf_congr {other : FileTree} (alike : tree.get? = other.get?) (route : Route)
    (content : List UInt8) (answer : Except FileFault Unit) :
    (tree.putIf route content answer).get? = (other.putIf route content answer).get? := by
  cases answer with
  | ok _ => exact get?_put_congr alike route _
  | error _ => exact alike

theorem get?_putIf_comm (tree : FileTree) {first second : Route} (apart : first ≠ second)
    (one two : List UInt8) (answer other : Except FileFault Unit) :
    ((tree.putIf first one answer).putIf second two other).get? =
      ((tree.putIf second two other).putIf first one answer).get? := by
  cases answer with
  | ok _ =>
      cases other with
      | ok _ => exact get?_put_comm tree apart _ _
      | error _ => rfl
  | error _ => cases other <;> rfl

theorem get?_putIf_other (tree : FileTree) {route place : Route} (apart : place ≠ route)
    (content : List UInt8) (answer : Except FileFault Unit) :
    (tree.putIf route content answer).get? place = tree.get? place := by
  cases answer with
  | ok _ => exact get?_put_other tree _ (Ne.symm apart)
  | error _ => rfl

/-- How a write of a file ends, by its path and by what stands in its place. -/
def verdict (path file : String) (target : Option Entry) (atomic : Bool) :
    Except FileFault Unit :=
  if path.toList.contains '\x00' then .error (if atomic then .invalid else .nulByte)
  else if longestPath < path.utf8ByteSize then .error .nameTooLong
  else if longestName < file.utf8ByteSize then .error .nameTooLong
  else if target = some .directory then .error .isDirectory
  else .ok ()

theorem verdict_congr {target other : Option Entry}
    (same : target = some .directory ↔ other = some .directory) :
    verdict path file target atomic = verdict path file other atomic := by
  simp only [verdict, same]

/-- A path leads to the place of a file in a directory that is there. -/
structure Opens (tree : FileTree) (working : Route) (path : String) (place : Route)
    (file : String) : Prop where
  isDirectory : tree.isDirectory working (homeOf path) = true
  home : tree.walk (startOf working (homeOf path)) (Path.names (homeOf path)) = .ok place
  reached : ∃ front, Path.names path = front ++ [file] ∧
    tree.walk (startOf working path) front = .ok place
  noDot : file ≠ "."
  noBack : file ≠ ".."
  noSlash : Path.endsInSlash path = false

namespace Opens

variable (opens : Opens tree working path place file)

include opens

theorem of_directories {other : FileTree}
    (kept : ∀ route, tree.get? route = some .directory → other.get? route = some .directory) :
    Opens other working path place file := by
  obtain ⟨isDirectory, home, ⟨front, whole, reached⟩, noDot, noBack, noSlash⟩ := opens
  exact ⟨isDirectory_of_directories kept isDirectory, walk_of_directories kept home,
    ⟨front, whole, walk_of_directories kept reached⟩, noDot, noBack, noSlash⟩

/-- Where a path leads that the system follows. -/
theorem locate_eq : tree.locate working path =
    if path.toList.contains '\x00' then .error .nulByte
    else if longestPath < path.utf8ByteSize then .error .nameTooLong
    else .ok (.entry place file false) := by
  obtain ⟨front, whole, reached⟩ := opens.reached
  have nonempty : path ≠ "" := by
    rintro rfl
    simp at whole
  by_cases nul : path.toList.contains '\x00' = true
  · rw [locate, if_pos nul, if_pos nul]
  · by_cases long : longestPath < path.utf8ByteSize
    · rw [locate, if_neg nul, if_neg (by simpa using nonempty), if_pos long, if_neg nul,
        if_pos long]
    · rw [if_neg nul, if_neg long]
      have admissible : Admissible path := ⟨by simpa using nul, nonempty, Nat.le_of_not_lt long⟩
      rw [locate_eq_entry admissible whole opens.noDot opens.noBack, reached, opens.noSlash]
      rfl

theorem overwrite_fst (content : List UInt8) :
    (tree.overwrite working path content).1 =
      verdict path file (tree.get? (place ++ [file])) false := by
  rw [overwrite, openWrite, opens.locate_eq, verdict]
  grind

theorem moveFile_fst (temporary : Route) (content : List UInt8) :
    (tree.moveFile working temporary content path).1 =
      verdict path file (tree.get? (place ++ [file])) true := by
  rw [moveFile, opens.locate_eq, verdict]
  grind

theorem replace_fst (content : List UInt8) : (tree.replace working path content atomic).1 =
    verdict path file (tree.get? (place ++ [file])) atomic := by
  rw [replace, ensureDirectories_of_isDirectory opens.isDirectory]
  cases atomic with
  | false => exact opens.overwrite_fst content
  | true =>
      have directory : tree.directoryAt working (homeOf path) = .ok place := by
        rw [directoryAt, if_neg (by simpa using homeOf_ne_empty path)]
        exact opens.home
      simp only [directory, if_true]
      -- the fresh file is no directory, and takes the place of none
      have free := get?_freshName tree place
      have put := put_file_directory_iff tree (List.concat_ne_nil tree.freshName place)
        (by simp [free]) content
      have moved := (opens.of_directories fun route => (put route).mpr).moveFile_fst
        (place ++ [tree.freshName]) content
      rw [verdict_congr (put (place ++ [file]))] at moved
      rw [← moved]
      split <;> simp_all

/-- What a write leaves in a directory that is there: the file, or the tree as it was. -/
theorem get?_replace (content : List UInt8) : (tree.replace working path content atomic).2.get? =
    (tree.putIf (place ++ [file]) content
      (verdict path file (tree.get? (place ++ [file])) atomic)).get? := by
  have there := ensureDirectories_of_isDirectory opens.isDirectory
  rw [← opens.replace_fst content]
  cases written : tree.replace working path content atomic with
  | mk result after =>
      cases result with
      | error fault =>
          rw [get?_of_replace_error written, there]
          rfl
      | ok _ =>
          obtain ⟨directory, name, located, -, replaced⟩ :=
            replaced_of_replace_ok (fun _ => False) written
          rw [there] at replaced
          have later := (opens.of_directories fun _ => replaced.directory).locate_eq
          rw [located] at later
          obtain ⟨rfl, rfl⟩ : directory = place ∧ name = file := by
            grind
          show after.get? = (tree.put (directory ++ [name]) (.file content)).get?
          funext route
          by_cases target : route = directory ++ [name]
          · rw [target, replaced.content_eq, get?_put_self tree _ replaced.below]
          · rw [get?_put_other tree _ (Ne.symm target)]
            exact (replaced.other route target).resolve_right fun made => made.1

end Opens

end FileTree

end TraceStore
