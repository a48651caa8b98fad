import TraceStore.Proofs.FileTree.Alike
import TraceStore.Proofs.FileTree.Replace
import TraceStore.Proofs.FileTree.Rooted

/-!
# Making a directory again

A directory that could be made is there from then on, so that making it again changes nothing.  A
directory that could not be made cannot be made the next time either, and what was made on the way
to it is all that ever will be.  The fault need not be the same, since the first time may have met
something missing that is there the next time; but this takes a path that steps back.
-/

namespace TraceStore

namespace Path

/-- A path that ends in a dot has no other name. -/
def Plain (path : String) : Prop := ∀ front, names path = front ++ ["."] → front = []

/-- Only the first part of a path can be a dot. -/
theorem dot_not_mem_tail_parts (path : String) : "." ∉ (parts path).tail := by
  rcases parts_eq_append path with ⟨lead, isLead, whole⟩
  have noDots : "." ∉ steps path := by simp [steps]
  rw [whole]
  rcases isLead with rfl | rfl
  · exact fun member => noDots (List.mem_of_mem_tail member)
  · simpa using noDots

theorem plain_of_parent? {path above : String} (parent : parent? path = some above) :
    Plain above := by
  have all : ∀ part ∈ (parts path).dropLast, IsName part := fun part member =>
    isName_of_mem_parts (List.dropLast_subset _ member)
  intro front whole
  rw [parent?] at parent
  split at parent
  · simp at parent
  · next first others found =>
      obtain rfl := Option.some.inj parent
      rw [← found, names_ofParts _ all] at whole
      cases front with
      | nil => rfl
      | cons head between =>
          have some : parts path ≠ [] := by simp [found]
          have member : "." ∈ (parts path).tail := by
            rw [← List.dropLast_concat_getLast some, whole]
            simp
          exact absurd member (dot_not_mem_tail_parts path)

end Path

namespace FileTree

variable {tree other grown : FileTree} {working place : Route} {path above : String}
  {fault : FileFault}

/-! ## Directories that are there -/

theorem walk_of_locate_directory (located : tree.locate working path = .ok (.directory place)) :
    tree.walk (startOf working path) (Path.names path) = .ok place := by
  rw [locate] at located
  split at located
  · simp at located
  · split at located
    · simp at located
    · split at located
      · simp at located
      · simp only at located
        split at located
        · next none =>
            have noNames : Path.names path = [] := List.getLast?_eq_none_iff.mp none
            rw [noNames]
            simpa [walk, startOf] using located
        · next last found =>
            rcases List.getLast?_eq_some_iff.mp found with ⟨front, whole⟩
            rw [whole, List.dropLast_concat] at located
            rw [whole, walk_append, startOf]
            grind [walk, Except.bind]

/-- A path leads to a directory if it is spelled so that it can lead to nothing else, or if a
directory stands at its last name. -/
theorem isDirectory_iff (tree : FileTree) (working : Route) (path : String) :
    tree.isDirectory working path = true ↔
      (∃ place, tree.locate working path = .ok (.directory place)) ∨
        ∃ directory name slash, tree.locate working path = .ok (.entry directory name slash) ∧
          name.utf8ByteSize ≤ longestName ∧ tree.get? (directory ++ [name]) = some .directory := by
  rw [isDirectory, stat]
  cases tree.locate working path with
  | error fault => simp
  | ok target =>
      cases target with
      | directory route => simp
      | entry directory name slash =>
          by_cases long : longestName < name.utf8ByteSize
          · simp [long, Nat.not_le_of_lt long]
          · simp only [if_neg long]
            cases found : tree.get? (directory ++ [name]) with
            | none => simp [found]
            | some there =>
                cases there with
                | file content => cases slash <;> simp [found]
                | directory =>
                    have named : ∃ route last, (directory = route ∧ name = last) ∧
                        last.utf8ByteSize ≤ longestName ∧
                        tree.get? (route ++ [last]) = some .directory :=
                      ⟨directory, name, ⟨rfl, rfl⟩, Nat.le_of_not_lt long, found⟩
                    simpa using named

theorem walk_of_isDirectory (there : tree.isDirectory working path = true) :
    ∃ place, tree.walk (startOf working path) (Path.names path) = .ok place := by
  rcases (isDirectory_iff _ _ _).mp there with ⟨place, located⟩ |
    ⟨directory, name, slash, located, short, isDirectory⟩
  · exact ⟨place, walk_of_locate_directory located⟩
  · rcases of_locate_eq_entry located with ⟨-, noDot, noBack, -, front, whole, reached⟩
    refine ⟨directory ++ [name], ?_⟩
    rw [whole, walk_append, reached]
    simp [Except.bind, walk, noDot, noBack, Nat.not_lt_of_le short, isDirectory]

/-- A directory is still there in every tree that has the same directories. -/
theorem isDirectory_of_directories
    (kept : ∀ route, tree.get? route = some .directory → other.get? route = some .directory)
    (there : tree.isDirectory working path = true) : other.isDirectory working path = true := by
  rw [isDirectory_iff] at there ⊢
  rcases there with ⟨place, located⟩ | ⟨directory, name, slash, located, short, isDirectory⟩
  · exact .inl ⟨place, locate_of_directories kept located⟩
  · exact .inr ⟨directory, name, slash, locate_of_directories kept located, short,
      kept _ isDirectory⟩

/-- Where a directory is there nothing is made. -/
theorem makeDirectory_of_isDirectory (there : tree.isDirectory working path = true) :
    tree.makeDirectory working path = (.error .exists_, tree) := by
  rw [makeDirectory]
  rcases (isDirectory_iff _ _ _).mp there with ⟨place, located⟩ |
    ⟨directory, name, slash, located, short, isDirectory⟩
  · rw [located]
  · simp [located, Nat.not_lt_of_le short, isDirectory]

theorem ensureDirectory_of_isDirectory (there : tree.isDirectory working path = true) :
    tree.ensureDirectory working path = (.ok (), tree) := by
  rw [ensureDirectory, makeDirectory_of_isDirectory there]
  simp [there]

theorem ensureDirectories_of_isDirectory (there : tree.isDirectory working path = true) :
    tree.ensureDirectories working path = (.ok (), tree) := by
  by_cases empty : path = ""
  · rw [ensureDirectories, empty, ensureLevels_empty]
  · have direct := ensureDirectory_of_isDirectory there
    rw [ensureDirectories, ensureLevels_of_present _ empty (by simp [direct]), direct]

/-! ## Directories that could be made -/

theorem isDirectory_of_makeDirectory
    (made : tree.makeDirectory working path = (.ok (), grown)) :
    grown.isDirectory working path = true := by
  rw [makeDirectory] at made
  split at made
  · simp at made
  · simp at made
  · next directory name slash located =>
      split at made
      · simp at made
      · next short =>
          split at made
          · simp at made
          · next free =>
              obtain rfl : tree.put (directory ++ [name]) .directory = grown :=
                (Prod.mk.inj made).2
              have grows : Grows (fun _ => True) tree (tree.put (directory ++ [name]) .directory) :=
                grows_put tree (by simp) trivial free
              exact (isDirectory_iff _ _ _).mpr (.inr ⟨directory, name, slash,
                locate_of_directories (fun _ => grows.directory) located,
                Nat.le_of_not_lt short, get?_put_self tree .directory (by simp)⟩)

theorem makeDirectory_error (failed : tree.makeDirectory working path = (.error fault, grown)) :
    grown = tree := by
  rw [makeDirectory] at failed
  grind

/-- What making one directory comes to: it is there afterwards, or the tree is as it was. -/
theorem ensureDirectory_cases (tree : FileTree) (working : Route) (path : String) :
    (∃ grown, tree.ensureDirectory working path = (.ok (), grown) ∧
      grown.isDirectory working path = true) ∨
    ∃ fault, tree.ensureDirectory working path = (.error fault, tree) ∧
      tree.makeDirectory working path = (.error fault, tree) ∧
      tree.isDirectory working path = false := by
  rw [ensureDirectory]
  cases made : tree.makeDirectory working path with
  | mk result after =>
      cases result with
      | ok _ => exact .inl ⟨after, rfl, isDirectory_of_makeDirectory made⟩
      | error fault =>
          obtain rfl := makeDirectory_error made
          cases there : after.isDirectory working path with
          | true => exact .inl ⟨after, rfl, there⟩
          | false => exact .inr ⟨fault, rfl, rfl, rfl⟩

theorem isDirectory_of_ensureDirectory
    (made : tree.ensureDirectory working path = (.ok (), grown)) :
    grown.isDirectory working path = true := by
  rcases ensureDirectory_cases tree working path with ⟨after, isMade, there⟩ | ⟨fault, failed, -⟩
  · obtain rfl : after = grown := (Prod.mk.inj (isMade.symm.trans made)).2
    exact there
  · simp [failed] at made

theorem isDirectory_of_ensureLevels {levels : Nat} (nonempty : path ≠ "")
    (made : tree.ensureLevels working (levels + 1) path = (.ok (), grown)) :
    grown.isDirectory working path = true := by
  by_cases missing : (tree.ensureDirectory working path).1 = .error .missing
  · rw [ensureLevels_of_missing levels nonempty missing] at made
    split at made
    · simp at made
    · simp only [andThen] at made
      split at made
      · simp at made
      · exact isDirectory_of_ensureDirectory made
  · rw [ensureLevels_of_present levels nonempty missing] at made
    exact isDirectory_of_ensureDirectory made

/-- A directory that could be made is there. -/
theorem isDirectory_of_ensureDirectories (nonempty : path ≠ "")
    (made : tree.ensureDirectories working path = (.ok (), grown)) :
    grown.isDirectory working path = true :=
  isDirectory_of_ensureLevels nonempty made

/-! ## Directories that could not be made -/

/-- The names of a path lead into something that stands in the way, and not to something that is
missing. -/
structure IsBlocked (tree : FileTree) (working : Route) (path : String) (met : FileFault) :
    Prop where
  admissible : Admissible path
  stuck : tree.walk (startOf working path) (Path.names path) = .error met
  present : met ≠ .missing

/-- What stands in the way of a directory stands in the way of those below it. -/
theorem IsBlocked.of_above {met : FileFault} (isAbove : Path.Above above path)
    (admissible : Admissible path) (blocked : tree.IsBlocked working above met) :
    tree.IsBlocked working path met := by
  obtain ⟨-, stuck, present⟩ := blocked
  refine ⟨admissible, ?_, present⟩
  rw [← walk_filter, ← Path.steps, isAbove.steps_eq, startOf, isAbove.isAbsolute_eq, ← startOf]
    at stuck
  rw [← walk_filter, ← Path.steps]
  rcases List.eq_nil_or_concat (Path.steps path) with empty | ⟨front, last, whole⟩
  · simp [empty, walk] at stuck
  · rw [whole, List.concat_eq_append, List.dropLast_concat] at stuck
    rw [whole, List.concat_eq_append, walk_append, stuck]
    rfl

/-- A name that is too long is the fault that a directory is refused with. -/
def Tells (met fault : FileFault) : Prop := met = .nameTooLong → fault = .nameTooLong

theorem makeDirectory_of_isBlocked {met : FileFault} (blocked : tree.IsBlocked working path met) :
    ∃ again ≠ .missing, tree.makeDirectory working path = (.error again, tree) ∧
      Tells met again := by
  obtain ⟨admissible, stuck, present⟩ := blocked
  rcases List.eq_nil_or_concat (Path.names path) with empty | ⟨front, name, whole⟩
  · simp [empty, walk] at stuck
  · rw [List.concat_eq_append] at whole
    have located := locate_eq tree working admissible whole
    rw [whole, walk_append] at stuck
    rw [makeDirectory, located]
    cases walked : tree.walk (startOf working path) front with
    | error fault =>
        obtain rfl : fault = met := by simpa [walked, Except.bind] using stuck
        exact ⟨fault, present, rfl, fun long => long⟩
    | ok place =>
        by_cases dot : name = "." ∨ name = ".."
        · rcases dot with rfl | rfl <;> simp [walked, Except.bind, walk] at stuck
        obtain ⟨noDot, noBack⟩ := not_or.mp dot
        simp only [walked, Except.bind, walk, if_neg noDot, if_neg noBack] at stuck
        simp only [Except.map, if_neg noDot, if_neg noBack]
        by_cases long : longestName < name.utf8ByteSize
        · exact ⟨.nameTooLong, by simp, by simp [long], fun _ => rfl⟩
        · rw [if_neg long] at stuck ⊢
          cases found : tree.get? (place ++ [name]) with
          | none =>
              rw [found] at stuck
              exact absurd (Except.error.inj stuck).symm present
          | some entry =>
              cases entry with
              | file content =>
                  rw [found] at stuck
                  obtain rfl := Except.error.inj stuck
                  exact ⟨.exists_, by simp, rfl, by simp [Tells]⟩
              | directory => simp [found] at stuck

/-- A directory that is blocked cannot be made. -/
theorem ensureDirectory_of_isBlocked {met : FileFault}
    (blocked : tree.IsBlocked working path met) :
    ∃ again ≠ .missing, tree.ensureDirectory working path = (.error again, tree) ∧
      Tells met again := by
  obtain ⟨again, present, refused, tells⟩ := makeDirectory_of_isBlocked blocked
  refine ⟨again, present, ?_, tells⟩
  have absent : tree.isDirectory working path = false := by
    rw [Bool.eq_false_iff]
    intro there
    rcases walk_of_isDirectory there with ⟨place, reached⟩
    simp [blocked.stuck] at reached
  rw [ensureDirectory, refused]
  simp [absent]

/-- Where the directory above is there, only something in the way keeps a directory from being
made. -/
theorem isBlocked_of_failed {front : List String} {name : String} (admissible : Admissible path)
    (whole : Path.names path = front ++ [name])
    (reached : tree.walk (startOf working path) front = .ok place)
    (failed : tree.ensureDirectory working path = (.error fault, grown)) :
    ∃ met, tree.IsBlocked working path met ∧ Tells met fault := by
  rcases ensureDirectory_cases tree working path with ⟨after, made, -⟩ |
    ⟨again, same, refused, absent⟩
  · simp [made] at failed
  obtain rfl : again = fault := by
    rw [same] at failed
    exact Except.error.inj (Prod.mk.inj failed).1
  have located := locate_eq tree working admissible whole
  rw [reached, Except.map] at located
  have notThere := mt (isDirectory_iff tree working path).mpr (by simp [absent])
  have walked : tree.walk (startOf working path) (Path.names path) = tree.walk place [name] := by
    rw [whole, walk_append, reached]
    rfl
  by_cases dot : name = "." ∨ name = ".."
  · rcases dot with rfl | rfl <;> exact absurd (.inl ⟨_, located⟩) notThere
  · obtain ⟨noDot, noBack⟩ := not_or.mp dot
    rw [if_neg noDot, if_neg noBack] at located
    rw [walk, if_neg noDot, if_neg noBack] at walked
    by_cases long : longestName < name.utf8ByteSize
    · refine ⟨.nameTooLong, ⟨admissible, by rw [walked, if_pos long], by simp⟩, fun _ => ?_⟩
      simpa [makeDirectory, located, long, eq_comm] using refused
    · rw [if_neg long] at walked
      cases found : tree.get? (place ++ [name]) with
      | none => simp [makeDirectory, located, long, found] at refused
      | some entry =>
          cases entry with
          | file content =>
              exact ⟨.notDirectory, ⟨admissible, by rw [walked, found], by simp⟩, by simp [Tells]⟩
          | directory =>
              exact absurd (.inr ⟨place, name, _, located, Nat.le_of_not_lt long, found⟩) notThere

theorem locate_of_missing (missing : (tree.ensureDirectory working path).1 = .error .missing) :
    tree.locate working path = .error .missing := by
  rcases ensureDirectory_cases tree working path with ⟨grown, made, -⟩ | ⟨fault, failed, refused, -⟩
  · simp [made] at missing
  · obtain rfl : fault = .missing := by simpa [failed] using missing
    rw [makeDirectory] at refused
    grind

/-- Only a path that the system follows can lead to something missing. -/
theorem of_locate_missing (nonempty : path ≠ "")
    (missing : tree.locate working path = .error .missing) :
    Admissible path ∧ ∃ front name, Path.names path = front ++ [name] := by
  rw [locate] at missing
  split at missing
  · simp at missing
  · next noNul =>
      rw [if_neg (by simpa using nonempty)] at missing
      split at missing
      · simp at missing
      · next fits =>
          refine ⟨⟨by simpa using noNul, nonempty, Nat.le_of_not_lt fits⟩, ?_⟩
          cases last : (Path.names path).getLast? with
          | none => simp [last] at missing
          | some name =>
              rcases List.getLast?_eq_some_iff.mp last with ⟨front, whole⟩
              exact ⟨front, name, whole⟩

/-- A path that is found missing is empty, or its names lead to something missing. -/
theorem walk_of_locate_missing (nonempty : path ≠ "")
    (missing : tree.locate working path = .error .missing) :
    tree.walk (startOf working path) (Path.names path) = .error .missing := by
  obtain ⟨admissible, front, name, whole⟩ := of_locate_missing nonempty missing
  rw [locate_eq tree working admissible whole] at missing
  rw [whole, walk_append]
  cases walked : tree.walk (startOf working path) front with
  | error fault => simpa [walked, Except.map, Except.bind] using missing
  | ok place => simp [walked, Except.map] at missing

/-- A directory that cannot be made below one that could. -/
theorem alike_or_isBlocked_below {levels : Nat} {between : FileTree} (plain : Path.Plain path)
    (nonempty : path ≠ "") (missing : (tree.ensureDirectory working path).1 = .error .missing)
    (isAbove : Path.Above above path)
    (made : tree.ensureLevels working levels above = (.ok (), between))
    (failed : between.ensureDirectory working path = (.error fault, grown)) :
    grown = tree ∨ ∃ met, grown.IsBlocked working path met ∧ Tells met fault := by
  have same : grown = between := by
    rcases ensureDirectory_cases between working path with ⟨after, isMade, -⟩ | ⟨met, refused, -⟩
    · simp [isMade] at failed
    · exact (Prod.mk.inj (refused.symm.trans failed)).2.symm
  subst same
  have notFound := locate_of_missing missing
  obtain ⟨admissible, front, name, whole⟩ := of_locate_missing nonempty notFound
  by_cases unmade : levels = 0 ∨ above = ""
  · left
    rcases unmade with rfl | rfl
    · exact (Prod.mk.inj made).2.symm
    · rw [ensureLevels_empty] at made
      exact (Prod.mk.inj made).2.symm
  · right
    obtain ⟨some, nonemptyAbove⟩ := not_or.mp unmade
    obtain ⟨levels, rfl⟩ := Nat.exists_eq_succ_of_ne_zero some
    obtain ⟨place, reached⟩ :=
      walk_of_isDirectory (isDirectory_of_ensureLevels nonemptyAbove made)
    have noDot : name ≠ "." := by
      rintro rfl
      obtain rfl := plain front whole
      simp [locate_eq tree working admissible whole, walk, Except.map] at notFound
    have front_eq : front.filter (· ≠ ".") = Path.steps above := by
      rw [isAbove.steps_eq, Path.steps, whole, List.filter_append]
      simp [noDot]
    have reachedFront : grown.walk (startOf working path) front = .ok place := by
      rw [← walk_filter, front_eq, Path.steps, walk_filter, startOf, ← isAbove.isAbsolute_eq,
        ← startOf, reached]
    exact isBlocked_of_failed admissible whole reachedFront failed

/-- Making a directory and the missing ones above it fails for what stands in the way, or it has not
begun. -/
theorem alike_or_isBlocked {levels : Nat} (plain : Path.Plain path)
    (failed : tree.ensureLevels working levels path = (.error fault, grown)) :
    grown = tree ∨ ∃ met, grown.IsBlocked working path met ∧ Tells met fault := by
  induction levels generalizing path fault grown with
  | zero => simp [ensureLevels] at failed
  | succ levels ih =>
      by_cases empty : path = ""
      · simp [empty, ensureLevels_empty] at failed
      by_cases missing : (tree.ensureDirectory working path).1 = .error .missing
      · rw [ensureLevels_of_missing levels empty missing] at failed
        split at failed
        · exact .inl (Prod.mk.inj failed).2.symm
        · next above parent =>
            have isAbove := Path.above_of_parent? parent
            simp only [andThen] at failed
            split at failed
            · next failedAbove =>
                obtain ⟨same, rfl⟩ := Prod.mk.inj failed
                obtain rfl := Except.error.inj same
                have admissible := (of_locate_missing empty (locate_of_missing missing)).1
                rcases ih (Path.plain_of_parent? parent) failedAbove with
                  same | ⟨met, blocked, tells⟩
                · exact .inl same
                · exact .inr ⟨met, blocked.of_above isAbove admissible, tells⟩
            · next between made =>
                exact alike_or_isBlocked_below plain empty missing isAbove made failed
      · rw [ensureLevels_of_present levels empty missing] at failed
        rcases ensureDirectory_cases tree working path with ⟨after, made, -⟩ | ⟨met, refused, -⟩
        · simp [made] at failed
        · exact .inl (Prod.mk.inj (refused.symm.trans failed)).2.symm

theorem ensureDirectories_of_isBlocked {met : FileFault}
    (blocked : tree.IsBlocked working path met) :
    ∃ again, tree.ensureDirectories working path = (.error again, tree) ∧ Tells met again := by
  obtain ⟨again, present, refused, tells⟩ := ensureDirectory_of_isBlocked blocked
  refine ⟨again, ?_, tells⟩
  rw [ensureDirectories, ensureLevels_of_present _ blocked.admissible.nonempty
    (by simpa [refused] using present)]
  exact refused

/-- A directory that could not be made cannot be made the next time, and nothing more is made. -/
theorem ensureDirectories_again (plain : Path.Plain path)
    (failed : tree.ensureDirectories working path = (.error fault, grown)) :
    ∃ again, grown.ensureDirectories working path = (.error again, grown) := by
  rcases alike_or_isBlocked plain failed with rfl | ⟨met, blocked, -⟩
  · exact ⟨fault, failed⟩
  · obtain ⟨again, refused, -⟩ := ensureDirectories_of_isBlocked blocked
    exact ⟨again, refused⟩

/-! ## Paths that do not step back -/

/-- A file that is in the way of a path was there before any directory was made. -/
theorem walk_notDirectory_of_grows {within : Route → Prop} (rooted : tree.Rooted)
    (grows : Grows within tree grown) {here : Route} {names : List String}
    (noBack : ".." ∉ names) (stuck : grown.walk here names = .error .notDirectory) :
    tree.walk here names = .error .notDirectory ∧
      ∃ rest ≠ [], tree.get? (here ++ rest) ≠ none := by
  induction names generalizing here with
  | nil => simp [walk] at stuck
  | cons name others ih =>
      obtain ⟨notBack, noBack⟩ := List.ne_and_not_mem_of_not_mem_cons noBack
      rw [walk, if_neg notBack.symm] at stuck ⊢
      by_cases dot : name = "."
      · rw [if_pos dot] at stuck ⊢
        exact ih noBack stuck
      rw [if_neg dot] at stuck ⊢
      by_cases long : longestName < name.utf8ByteSize
      · simp [long] at stuck
      rw [if_neg long] at stuck ⊢
      cases found : grown.get? (here ++ [name]) with
      | none => simp [found] at stuck
      | some entry =>
          cases entry with
          | file content =>
              have earlier := (grows.file_iff _ _).mp found
              simp only [earlier, true_and]
              exact ⟨[name], by simp, by simp [earlier]⟩
          | directory =>
              simp only [found] at stuck
              obtain ⟨walked, rest, below, there⟩ := ih noBack stuck
              simp only [rooted.directory_of_below below there]
              exact ⟨walked, name :: rest, by simp, by simpa using there⟩

theorem walk_fault {here : Route} {names : List String}
    (stuck : tree.walk here names = .error fault) :
    fault = .missing ∨ fault = .nameTooLong ∨ fault = .notDirectory := by
  induction names generalizing here with
  | nil => simp [walk] at stuck
  | cons name others ih =>
      rw [walk] at stuck
      grind

/-- A directory whose path does not step back fails to be made in the same way every time. -/
theorem ensureDirectories_again_of_no_back (rooted : tree.Rooted) (plain : Path.Plain path)
    (noBack : ".." ∉ Path.names path)
    (failed : tree.ensureDirectories working path = (.error fault, grown)) :
    grown.ensureDirectories working path = (.error fault, grown) := by
  rcases alike_or_isBlocked plain failed with rfl | ⟨met, blocked, tells⟩
  · exact failed
  have grows := ensureDirectories_grows tree working path
  rw [failed] at grows
  rcases walk_fault blocked.stuck with rfl | rfl | rfl
  · exact absurd rfl blocked.present
  · obtain rfl := tells rfl
    obtain ⟨again, refused, tellsAgain⟩ := ensureDirectories_of_isBlocked blocked
    obtain rfl := tellsAgain rfl
    exact refused
  · -- the file was in the way from the beginning, so that nothing was made
    have stuck := (walk_notDirectory_of_grows rooted grows noBack blocked.stuck).1
    have before : tree.IsBlocked working path .notDirectory :=
      ⟨blocked.admissible, stuck, blocked.present⟩
    obtain ⟨again, refused, -⟩ := ensureDirectories_of_isBlocked before
    obtain rfl : tree = grown := (Prod.mk.inj (refused.symm.trans failed)).2
    exact failed

end FileTree

end TraceStore
