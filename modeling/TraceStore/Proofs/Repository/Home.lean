import TraceStore.Proofs.FileTree.Making
import TraceStore.Proofs.Repository.Records

/-!
# The directory of a repository

The directory of a repository leads to a place in the tree, or is still to be made at a place that
its names spell out.  `FileTree.Home` covers both, since the first write turns the second into the
first.  Records stand right below that place, and making the directory leaves what stands there
alone, so a write sets one record and makes no other: `Home.replaced`.
-/

namespace TraceStore

namespace FileTree

variable {tree after : FileTree} {working place : Route} {directory path file : String}
  {content : List UInt8} {atomic : Bool}

/-! ## Directories that are there -/

/-- A path that leads to a directory is not found missing. -/
theorem locate_ne_missing
    (reached : tree.walk (startOf working path) (Path.names path) = .ok place)
    (nonempty : path ≠ "") :
    tree.locate working path ≠ .error .missing := by
  intro missing
  simp [walk_of_locate_missing nonempty missing] at reached

/-- A directory that is there is not made. -/
theorem makeDirectory_of_walk
    (reached : tree.walk (startOf working path) (Path.names path) = .ok place)
    (nonempty : path ≠ "") :
    ∃ fault ≠ .missing, tree.makeDirectory working path = (.error fault, tree) := by
  have found := locate_ne_missing reached nonempty
  rw [makeDirectory]
  cases located : tree.locate working path with
  | error fault => exact ⟨fault, fun same => found (same ▸ located), rfl⟩
  | ok target =>
      cases target with
      | directory route => exact ⟨.exists_, by simp, rfl⟩
      | entry above name slash =>
          rcases of_locate_eq_entry located with ⟨-, noDot, noBack, -, front, whole, walked⟩
          rw [whole, walk_append, walked] at reached
          simp only [Except.bind, walk, if_neg noDot, if_neg noBack] at reached
          by_cases long : longestName < name.utf8ByteSize
          · exact ⟨.nameTooLong, by simp, by simp only [if_pos long]⟩
          · rw [if_neg long] at reached
            refine ⟨.exists_, by simp, ?_⟩
            simp only [if_neg long]
            split
            · rfl
            · next free => simp [free] at reached

/-- Where the directory is there already, nothing is made. -/
theorem ensureDirectories_of_walk
    (reached : tree.walk (startOf working path) (Path.names path) = .ok place) :
    (tree.ensureDirectories working path).2 = tree := by
  rw [ensureDirectories, ensureLevels]
  split
  · rfl
  · next nonempty =>
      obtain ⟨fault, notMissing, refused⟩ := makeDirectory_of_walk reached (by simpa using nonempty)
      rw [ensureDirectory, refused]
      by_cases there : tree.isDirectory working path = true
      · simp [there]
      · cases fault <;> simp_all

/-! ## Homes -/

/-- A directory leads to a place, or is missing and will be made there. -/
structure Home (tree : FileTree) (working : Route) (directory : String) (place : Route) : Prop where
  noNul : '\x00' ∉ directory.toList
  leads : tree.walk (startOf working directory) (Path.names directory) = .ok place ∨
    (tree.walk (startOf working directory) (Path.names directory) = .error .missing ∧
      ".." ∉ Path.names directory ∧ place = startOf working directory ++ Path.steps directory)

theorem startOf_join (isName : Path.IsName file) :
    startOf working (Path.join directory file) = startOf working directory := by
  rw [startOf, Path.isAbsolute_join directory isName, startOf]

/-- The system looks at the path of a file, unless it is too long. -/
theorem admissible_join (isName : Path.IsName file) (noNulThere : '\x00' ∉ directory.toList)
    (noNul : '\x00' ∉ file.toList)
    (fits : (Path.join directory file).utf8ByteSize ≤ longestPath) :
    Admissible (Path.join directory file) := by
  constructor
  case noNul =>
    rw [Path.join_of_isName directory isName]
    split <;> simp [noNul, noNulThere]
  case nonempty =>
    intro empty
    have names := Path.names_join directory isName
    simp [empty] at names
  case fits => exact fits

namespace Home

variable (home : Home tree working directory place) (isName : Path.IsName file)

include home isName

/-- An entry for a file of the directory is one of its place, in this tree and in every later one
that has the same directories. -/
theorem of_locate
    (kept : ∀ route, tree.get? route = some .directory → after.get? route = some .directory)
    {above : Route} {name : String} {slash : Bool}
    (located : after.locate working (Path.join directory file) = .ok (.entry above name slash)) :
    above = place ∧ name = file ∧ Home after working directory place := by
  rcases of_locate_eq_entry located with ⟨-, -, -, -, front, whole, walked⟩
  rw [Path.names_join directory isName] at whole
  rcases List.append_inj' whole rfl with ⟨rfl, last⟩
  obtain rfl : file = name := by simpa using last
  rw [startOf_join isName] at walked
  have same : above = place := by
    cases home.leads with
    | inl there =>
        have again := walk_of_directories kept there
        rw [walked] at again
        exact Except.ok.inj again
    | inr unmade =>
        rcases unmade with ⟨-, onward, rfl⟩
        exact walk_eq_append walked onward
  exact ⟨same, rfl, home.noNul, .inl (same ▸ walked)⟩

/-- What is made on the way to a file of the directory does not stand below its place. -/
theorem grows (noDot : file ≠ ".") (noBack : file ≠ "..") :
    Grows (fun route => route.length ≤ place.length) tree
      (tree.ensureDirectories working (homeOf (Path.join directory file))).2 := by
  have steps : Path.steps (Path.join directory file) = Path.steps directory ++ [file] := by
    simp [Path.steps, Path.names_join directory isName, noDot]
  have leads : Path.steps (Path.join directory file) ≠ [] := by simp [steps]
  rcases Path.above_homeOf leads with ⟨steps_eq, isAbsolute_eq, back⟩
  rw [steps, List.dropLast_concat] at steps_eq
  have start : startOf working (homeOf (Path.join directory file)) = startOf working directory := by
    rw [startOf, isAbsolute_eq, ← startOf, startOf_join isName]
  cases home.leads with
  | inl there =>
      have reached : tree.walk (startOf working (homeOf (Path.join directory file)))
          (Path.names (homeOf (Path.join directory file))) = .ok place := by
        rw [← walk_filter, ← Path.steps, steps_eq, start, Path.steps, walk_filter, there]
      rw [ensureDirectories_of_walk reached]
  | inr unmade =>
      rcases unmade with ⟨-, onward, rfl⟩
      apply (ensureDirectories_grows tree working _).weaken
      intro route onWay
      have within := onWay fun member => by
        have behind := back member
        rw [Path.names_join directory isName, List.mem_append] at behind
        simp [onward, Ne.symm noBack] at behind
      rw [steps_eq, start] at within
      exact within.length_le

/-- A write of a file of the directory sets that file, and what stood nowhere in the directory
still does not. -/
theorem replaced (noDot : file ≠ ".") (noBack : file ≠ "..")
    (written : tree.replace working (Path.join directory file) content atomic = (.ok (), after)) :
    Home after working directory place ∧
      ∀ other ≠ file, tree.get? (place ++ [other]) = none →
        after.get? (place ++ [other]) = none := by
  obtain ⟨above, name, located, -, replaced⟩ := replace_ok (home.grows isName noDot noBack) written
  obtain ⟨rfl, rfl, after_home⟩ :=
    home.of_locate isName (fun route => replaced.directory) located
  refine ⟨after_home, ?_⟩
  intro other apart free
  have elsewhere : above ++ [other] ≠ above ++ [name] := by simpa using apart
  cases replaced.other _ elsewhere with
  | inl same => rw [same, free]
  | inr made => exact absurd made.1 (by simp)

/-! ## Reading -/

/-- What is read is the file in the place. -/
theorem get?_of_read {bytes : List UInt8}
    (read : tree.read working (Path.join directory file) = .ok bytes) :
    tree.get? (place ++ [file]) = some (.file bytes) := by
  rcases (read_eq_ok_iff _ _ _ _).mp read with ⟨above, name, located, -, there⟩
  obtain ⟨rfl, rfl, -⟩ := home.of_locate isName (fun route there => there) located
  exact there

/-- Where no file stands, a path within the limits of the system finds none. -/
theorem read_of_free (noDot : file ≠ ".") (noBack : file ≠ "..") (noNul : '\x00' ∉ file.toList)
    (short : file.utf8ByteSize ≤ longestName)
    (fits : (Path.join directory file).utf8ByteSize ≤ longestPath)
    (free : tree.get? (place ++ [file]) = none) :
    tree.read working (Path.join directory file) = .error .missing := by
  have located : tree.locate working (Path.join directory file) = _ :=
    locate_eq_entry (admissible_join isName home.noNul noNul fits)
      (Path.names_join directory isName) noDot noBack
  rw [startOf_join isName] at located
  rw [read, stat, located]
  cases home.leads with
  | inl there => simp [there, Except.map, Nat.not_lt_of_le short, free]
  | inr unmade => simp [unmade.1, Except.map]

end Home

end FileTree

/-! ## Records -/

namespace Repository

variable {repository : Repository} {site : Site} {place : Route} {id path : String}

/-- An id whose record the system can address. -/
def Admits (repository : Repository) (id : String) : Prop :=
  ∃ path, repository.path id = .ok path ∧ path.utf8ByteSize ≤ longestPath ∧
    (id ++ extension).utf8ByteSize ≤ longestName

theorem admits_iff (repository : Repository) (id : String) :
    repository.Admits id ↔ isSafeId id = true ∧
      (Path.join repository.directory (id ++ extension)).utf8ByteSize ≤ longestPath ∧
      (id ++ extension).utf8ByteSize ≤ longestName := by
  constructor
  · rintro ⟨path, found, fits, short⟩
    rcases (path_eq_ok_iff repository id path).mp found with ⟨safe, rfl⟩
    exact ⟨safe, fits, short⟩
  · rintro ⟨safe, fits, short⟩
    exact ⟨_, (path_eq_ok_iff repository id _).mpr ⟨safe, rfl⟩, fits, short⟩

instance (repository : Repository) (id : String) : Decidable (repository.Admits id) :=
  decidable_of_iff' _ (admits_iff repository id)

theorem noNul_file (safe : isSafeId id = true) : '\x00' ∉ (id ++ extension).toList := by
  simp only [isSafeId, Bool.and_eq_true, List.all_eq_true, decide_eq_true_eq] at safe
  rw [String.toList_append, List.mem_append, not_or]
  exact ⟨fun nul => (safe.2 _ nul).2 rfl, by decide⟩

section

variable (home : site.files.Home site.working repository.directory place)

include home

/-- A record stands below the place of its repository. -/
theorem Stored.get?_eq {bytes : List UInt8} (stored : repository.Stored site id bytes) :
    site.files.get? (place ++ [id ++ extension]) = some (.file bytes) := by
  rcases stored with ⟨path, found, there⟩
  rcases (path_eq_ok_iff repository id path).mp found with ⟨safe, rfl⟩
  exact home.get?_of_read (isName_file safe) there

/-- A record that was written leaves the place where it is, and what was free there for others. -/
theorem home_of_replace {bytes : List UInt8} {files : FileTree}
    (found : repository.path id = .ok path)
    (replaced : site.files.replace site.working path bytes repository.atomic = (.ok (), files)) :
    files.Home site.working repository.directory place ∧
      ∀ other ≠ id, site.files.get? (place ++ [other ++ extension]) = none →
        files.get? (place ++ [other ++ extension]) = none := by
  rcases (path_eq_ok_iff repository id path).mp found with ⟨safe, rfl⟩
  obtain ⟨after, free⟩ := home.replaced (isName_file safe) (file_ne_of_length (by decide))
    (file_ne_of_length (by decide)) replaced
  exact ⟨after, fun other apart => free _ (by simpa using apart)⟩

/-- Where no record stands, reading finds none. -/
theorem read_of_free (admits : repository.Admits id)
    (free : site.files.get? (place ++ [id ++ extension]) = none) (execution : ExecutionRef) :
    ∃ path, repository.read site id execution = (.error (.notFound path), site) := by
  rcases admits with ⟨path, found, fits, short⟩
  rcases (path_eq_ok_iff repository id path).mp found with ⟨safe, rfl⟩
  exact ⟨_, read_of_missing found (home.read_of_free (isName_file safe)
    (file_ne_of_length (by decide)) (file_ne_of_length (by decide)) (noNul_file safe) short fits
    free) execution⟩

end

/-- Only what is stored is read. -/
theorem stored_of_read {execution : ExecutionRef} {loaded : Loaded} {after : Site}
    (read : repository.read site id execution = (.ok loaded, after)) :
    ∃ bytes, repository.Stored site id bytes := by
  rw [Repository.read] at read
  split at read
  · simp at read
  · next path found =>
      split at read
      · simp at read
      · next bytes there =>
          refine ⟨bytes, path, found, ?_⟩
          rw [content] at there
          split at there
          · next same => simpa [same] using there
          · simp at there
          · simp at there

end Repository

end TraceStore
