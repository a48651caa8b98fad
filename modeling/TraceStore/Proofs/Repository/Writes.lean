import TraceStore.Proofs.FileTree.Writing
import TraceStore.Proofs.Repository.Confinement

/-!
# Writes of different records

Once the directory of a repository is there, whether a record can be written depends on its path, on
what the system refuses, and on whether a directory stands in the place of the record; and what is
written stands in that place only.  So writes of different records do not meet there.

They do meet in the directory, which the first of them makes.  If it cannot be made then none of
them writes anything, but the first may fail for another reason than the others.
`Repository.Steady` says that it does not, and holds of every directory that is spelled without a
step back (`steady_of_no_back`).  Otherwise the reasons are those for which the first attempt at
making the directory fails and the next one (`Repository.Wavers`).
-/

namespace TraceStore

/-- What is to be written: nothing, or bytes at a path, unless there can be no such record. -/
abbrev Draft := Option (Except StoreError (String × List UInt8))

namespace Site

/-- What becomes of a draft. -/
def enter (site : Site) (atomic : Bool) : Draft → Except StoreError Unit × FileTree
  | none => (.ok (), site.files)
  | some (.error failure) => (.error failure, site.files)
  | some (.ok (path, bytes)) =>
      let (result, files) := site.replaceFile path bytes atomic
      (result.mapError .io, files)

/-- The surroundings once a draft was entered. -/
def entered (site : Site) (atomic : Bool) (draft : Draft) : Site :=
  { site with files := (site.enter atomic draft).2 }

/-- How a write ends in a directory that is there, by what stands in its place. -/
def verdict (site : Site) (path file : String) (target : Option Entry) (atomic : Bool) :
    Except FileFault Unit :=
  match site.refusal? path with
  | some fault => .error fault
  | none => FileTree.verdict path file target atomic

variable {site : Site} {place : Route} {path file : String} {bytes : List UInt8} {atomic : Bool}

theorem verdict_congr {other : Site} (refusals : site.refusals = other.refusals)
    {target target' : Option Entry}
    (same : target = some .directory ↔ target' = some .directory) :
    site.verdict path file target atomic = other.verdict path file target' atomic := by
  rw [verdict, verdict, refusal?, refusal?, refusals, FileTree.verdict_congr same]

theorem target_ne_of_verdict {target : Option Entry}
    (isOk : site.verdict path file target atomic = .ok ()) : target ≠ some .directory := by
  rw [verdict, FileTree.verdict] at isOk
  grind

/-- Entering bytes in a directory that is there. -/
theorem enter_of_opens (opens : site.files.Opens site.working path place file)
    (bytes : List UInt8) (atomic : Bool) :
    let verdict := site.verdict path file (site.files.get? (place ++ [file])) atomic
    (site.enter atomic (some (.ok (path, bytes)))).1 = verdict.mapError .io ∧
      (site.enter atomic (some (.ok (path, bytes)))).2.get? =
        (site.files.putIf (place ++ [file]) bytes verdict).get? := by
  intro answer
  simp only [enter, replaceFile, answer, verdict]
  cases refused : site.refusal? path with
  | none => exact ⟨congrArg _ (opens.replace_fst bytes), opens.get?_replace bytes⟩
  | some fault =>
      simp only
      rw [FileTree.ensureDirectories_of_isDirectory opens.isDirectory]
      exact ⟨rfl, rfl⟩

/-- A write in a directory that is there leaves all directories. -/
theorem directory_of_opens (opens : site.files.Opens site.working path place file)
    (bytes : List UInt8) (atomic : Bool) {route : Route}
    (there : site.files.get? route = some .directory) :
    (site.enter atomic (some (.ok (path, bytes)))).2.get? route = some .directory := by
  rw [(enter_of_opens opens bytes atomic).2]
  cases answered : site.verdict path file (site.files.get? (place ++ [file])) atomic with
  | ok _ =>
      exact (FileTree.put_file_directory_iff _ (List.concat_ne_nil file place)
        (target_ne_of_verdict answered) bytes route).mpr there
  | error fault => exact there

/-- In alike directories, a file is written alike. -/
theorem enter_congr_of_opens {other : Site} (working : site.working = other.working)
    (refusals : site.refusals = other.refusals) (alike : site.files.get? = other.files.get?)
    (opens : site.files.Opens site.working path place file) (bytes : List UInt8)
    (atomic : Bool) :
    FileTree.Agrees (site.enter atomic (some (.ok (path, bytes))))
      (other.enter atomic (some (.ok (path, bytes)))) := by
  have opensOther : other.files.Opens other.working path place file := by
    rw [← working]
    exact opens.of_directories fun _ there => alike ▸ there
  obtain ⟨answer, left⟩ := enter_of_opens opens bytes atomic
  obtain ⟨answerOther, leftOther⟩ := enter_of_opens opensOther bytes atomic
  rw [verdict_congr refusals (by rw [alike])] at answer left
  constructor
  case answer => rw [answer, answerOther]
  case tree =>
    rw [left, leftOther]
    exact FileTree.get?_putIf_congr alike _ _ _

variable {otherPath otherFile : String}
  (opens : site.files.Opens site.working path place file)
  (opensOther : site.files.Opens site.working otherPath place otherFile)
  (apart : file ≠ otherFile) (bytes otherBytes : List UInt8) (atomic : Bool)

include opens opensOther apart

/-- A write in a directory that is there does not meet the next write of another file. -/
theorem enter_enter_of_opens :
    let first : Draft := some (.ok (path, bytes))
    let second : Draft := some (.ok (otherPath, otherBytes))
    ((site.entered atomic first).enter atomic second).1 = (site.enter atomic second).1 ∧
      ((site.entered atomic first).enter atomic second).2.get? =
        ((site.files.putIf (place ++ [file]) bytes
          (site.verdict path file (site.files.get? (place ++ [file])) atomic)).putIf
            (place ++ [otherFile]) otherBytes
            (site.verdict otherPath otherFile (site.files.get? (place ++ [otherFile]))
              atomic)).get? := by
  intro first second
  have written := (enter_of_opens opens bytes atomic).2
  have later : (site.entered atomic first).files.Opens site.working otherPath place otherFile :=
    opensOther.of_directories fun _ there => directory_of_opens opens bytes atomic there
  have target : (site.entered atomic first).files.get? (place ++ [otherFile]) =
      site.files.get? (place ++ [otherFile]) := by
    rw [entered, written, FileTree.get?_putIf_other _ (by simpa using Ne.symm apart)]
  have writtenLater := enter_of_opens later otherBytes atomic
  rw [target] at writtenLater
  exact ⟨writtenLater.1.trans (enter_of_opens opensOther otherBytes atomic).1.symm,
    writtenLater.2.trans (FileTree.get?_putIf_congr written _ _ _)⟩

/-- Writes of different files in a directory that is there can be done in either order. -/
theorem enter_enter_comm_of_opens :
    let first : Draft := some (.ok (path, bytes))
    let second : Draft := some (.ok (otherPath, otherBytes))
    ((site.entered atomic first).enter atomic second).2.get? =
      ((site.entered atomic second).enter atomic first).2.get? := by
  intro first second
  rw [(enter_enter_of_opens opens opensOther apart bytes otherBytes atomic).2,
    (enter_enter_of_opens opensOther opens apart.symm otherBytes bytes atomic).2]
  apply FileTree.get?_putIf_comm
  simpa using apart

end Site

namespace Repository

variable {repository : Repository} {site : Site} {id other path : String}
  {working place : Route} {tree grown : FileTree} {bytes : List UInt8} {fault : FileFault}
  {atomic : Bool}

/-! ## The directory of a repository -/

/-- The directory in which all records are written. -/
def home (repository : Repository) : String :=
  FileTree.homeOf (Path.join repository.directory extension)

theorem homeOf_path (found : repository.path id = .ok path) :
    FileTree.homeOf path = repository.home := by
  rcases (path_eq_ok_iff repository id path).mp found with ⟨safe, rfl⟩
  exact FileTree.homeOf_join (isName_file safe) (file_ne_of_length (by decide))
    ⟨by decide, by decide⟩ (by decide)

theorem home_ne_empty (repository : Repository) : repository.home ≠ "" :=
  FileTree.homeOf_ne_empty _

theorem plain_home (repository : Repository) : Path.Plain repository.home :=
  FileTree.plain_homeOf _

/-- Where the directory is there, the path of a record leads to the place of the record in it. -/
theorem opens_of_isDirectory (there : tree.isDirectory working repository.home = true) :
    ∃ place, ∀ id path, repository.path id = .ok path →
      tree.Opens working path place (id ++ extension) := by
  obtain ⟨place, reached⟩ := FileTree.walk_of_isDirectory there
  refine ⟨place, fun id path found => ?_⟩
  obtain ⟨steps_eq, isAbsolute_eq⟩ := above_of_path found
  have isPath := found
  rcases (path_eq_ok_iff repository id path).mp found with ⟨safe, rfl⟩
  rw [← homeOf_path isPath] at there reached
  constructor
  case isDirectory => exact there
  case home => exact reached
  case reached =>
    refine ⟨Path.names repository.directory, names_path isPath, ?_⟩
    rw [FileTree.startOf_join (isName_file safe), FileTree.startOf, ← isAbsolute_eq,
      ← FileTree.startOf, ← FileTree.walk_filter, ← Path.steps, ← steps_eq, Path.steps,
      FileTree.walk_filter, reached]
  case noDot => exact file_ne_of_length (by decide)
  case noBack => exact file_ne_of_length (by decide)
  case noSlash => exact Path.endsInSlash_join _ (isName_file safe)

/-- Making the directory gives the same answer the first time and the second time. -/
def Steady (repository : Repository) (working : Route) (tree : FileTree) : Prop :=
  let made := tree.ensureDirectories working repository.home
  (made.2.ensureDirectories working repository.home).1 = made.1

/-- A fault of the first attempt at making the directory or of the next one, where the two end
differently. -/
def Wavers (repository : Repository) (working : Route) (tree : FileTree) (fault : FileFault) :
    Prop :=
  let first := tree.ensureDirectories working repository.home
  let next := first.2.ensureDirectories working repository.home
  next.1 ≠ first.1 ∧ (first.1 = .error fault ∨ next.1 = .error fault)

theorem Steady.not_wavers (steady : repository.Steady working tree) (fault : FileFault) :
    ¬ repository.Wavers working tree fault :=
  fun wavers => wavers.1 steady

theorem steady_of_isDirectory (there : tree.isDirectory working repository.home = true) :
    repository.Steady working tree := by
  have again := FileTree.ensureDirectories_of_isDirectory there
  simp only [Steady, again]

theorem steady_of_made (made : tree.ensureDirectories working repository.home = (.ok (), grown)) :
    repository.Steady working tree := by
  have there := FileTree.isDirectory_of_ensureDirectories repository.home_ne_empty made
  have again := FileTree.ensureDirectories_of_isDirectory there
  simp only [Steady, made, again]

/-- A directory that could not be made before fails for the same reason from then on. -/
theorem steady_of_failed
    (failed : tree.ensureDirectories working repository.home = (.error fault, grown)) :
    repository.Steady working grown := by
  obtain ⟨again, failedAgain⟩ := FileTree.ensureDirectories_again repository.plain_home failed
  simp only [Steady, failedAgain]

/-- The directory is reached by the steps of the path that the store was opened with. -/
theorem steps_home (repository : Repository) :
    Path.steps repository.home = Path.steps repository.directory := by
  have found := (path_eq_ok_iff repository "0" _).mpr ⟨by decide, rfl⟩
  rw [← homeOf_path found]
  exact (above_of_path found).1

/-- A directory that is spelled without a step back is steady. -/
theorem steady_of_no_back (rooted : tree.Rooted)
    (noBack : ".." ∉ Path.names repository.directory) : repository.Steady working tree := by
  have noBackHome : ".." ∉ Path.names repository.home := by
    intro member
    have step : ".." ∈ Path.steps repository.home := by simpa [Path.steps] using member
    rw [steps_home, Path.steps] at step
    exact noBack (List.mem_of_mem_filter step)
  cases made : tree.ensureDirectories working repository.home with
  | mk answer grown =>
      cases answer with
      | ok _ => exact steady_of_made made
      | error fault =>
          have again := FileTree.ensureDirectories_again_of_no_back rooted repository.plain_home
            noBackHome made
          simp only [Steady, made, again]

/-! ## Entering bytes -/

theorem enter_of_error (site : Site) (found : repository.path id = .ok path)
    (failed : site.files.ensureDirectories site.working repository.home = (.error fault, grown))
    (bytes : List UInt8) (atomic : Bool) :
    site.enter atomic (some (.ok (path, bytes))) = (.error (.io fault), grown) := by
  rw [← homeOf_path found] at failed
  rw [Site.enter, Site.replaceFile]
  split
  · next answer files replaced =>
      split at replaced
      · rw [FileTree.replace_of_error failed] at replaced
        cases replaced
        rfl
      · rw [failed] at replaced
        cases replaced
        rfl

/-- Once the directory is made, entering bytes goes on as if it had been there. -/
theorem enter_of_made (site : Site) (found : repository.path id = .ok path)
    (made : site.files.ensureDirectories site.working repository.home = (.ok (), grown))
    (bytes : List UInt8) (atomic : Bool) :
    site.enter atomic (some (.ok (path, bytes))) =
      { site with files := grown }.enter atomic (some (.ok (path, bytes))) := by
  have there := FileTree.isDirectory_of_ensureDirectories repository.home_ne_empty made
  have again := FileTree.ensureDirectories_of_isDirectory there
  rw [← homeOf_path found] at made again
  simp only [Site.enter, Site.replaceFile, Site.refusal?, FileTree.replace_of_made made, made,
    again]

theorem entered_of_made (site : Site) (found : repository.path id = .ok path)
    (made : site.files.ensureDirectories site.working repository.home = (.ok (), grown))
    (bytes : List UInt8) (atomic : Bool) :
    site.entered atomic (some (.ok (path, bytes))) =
      { site with files := grown }.entered atomic (some (.ok (path, bytes))) := by
  rw [Site.entered, Site.entered, enter_of_made site found made]

/-- Once the directory is made, the paths of all records lead into it. -/
theorem opens_of_made (site : Site)
    (made : site.files.ensureDirectories site.working repository.home = (.ok (), grown)) :
    ∃ place, ∀ id path, repository.path id = .ok path →
      { site with files := grown }.files.Opens { site with files := grown }.working path place
        (id ++ extension) :=
  repository.opens_of_isDirectory
    (FileTree.isDirectory_of_ensureDirectories repository.home_ne_empty made)

/-! ## Entering different records -/

/-- Two answers are the same, or else both are refusals by the system, for faults of a kind. -/
def Concur (faults : FileFault → Prop) (first second : Except StoreError Unit) : Prop :=
  first = second ∨
    ∃ one two, faults one ∧ faults two ∧ first = .error (.io one) ∧ second = .error (.io two)

namespace Concur

variable {faults : FileFault → Prop} {first second third : Except StoreError Unit}

@[refl] theorem refl (faults : FileFault → Prop) (answer : Except StoreError Unit) :
    Concur faults answer answer := .inl rfl

theorem symm (concur : Concur faults first second) : Concur faults second first := by
  rcases concur with rfl | ⟨one, two, isOne, isTwo, rfl, rfl⟩
  · exact .inl rfl
  · exact .inr ⟨two, one, isTwo, isOne, rfl, rfl⟩

theorem trans (left : Concur faults first second) (right : Concur faults second third) :
    Concur faults first third := by
  rcases left with rfl | ⟨one, two, isOne, isTwo, rfl, rfl⟩
  · exact right
  · rcases right with rfl | ⟨-, three, -, isThree, -, rfl⟩
    · exact .inr ⟨one, two, isOne, isTwo, rfl, rfl⟩
    · exact .inr ⟨one, three, isOne, isThree, rfl, rfl⟩

/-- Where there are no such faults the answers are the same. -/
theorem eq (concur : Concur faults first second) (none : ∀ fault, ¬ faults fault) :
    first = second :=
  concur.resolve_right fun ⟨one, _, isOne, _⟩ => none one isOne

end Concur

/-- A draft of the record of an id. -/
def IsDraft (repository : Repository) (id : String) (draft : Draft) : Prop :=
  ∀ path bytes, draft = some (.ok (path, bytes)) → repository.path id = .ok path

/-- A draft is bytes at the path of the record; or else it leaves all files, and is answered in the
same way everywhere. -/
theorem IsDraft.cases {draft : Draft} (isDraft : repository.IsDraft id draft) :
    (∃ path bytes, draft = some (.ok (path, bytes)) ∧ repository.path id = .ok path) ∨
      ∃ answer, ∀ (site : Site) atomic, site.enter atomic draft = (answer, site.files) := by
  rcases draft with _ | failure | ⟨path, bytes⟩
  · exact .inr ⟨.ok (), fun _ _ => rfl⟩
  · exact .inr ⟨.error failure, fun _ _ => rfl⟩
  · exact .inl ⟨path, bytes, rfl, isDraft path bytes rfl⟩

variable {first second : Draft} {faults : FileFault → Prop}

/-- The faults of the first attempt at making the directory and of the next one concur. -/
theorem concur_of_failed {again : FileFault}
    (failed : tree.ensureDirectories working repository.home = (.error fault, grown))
    (failedAgain : grown.ensureDirectories working repository.home = (.error again, grown))
    (within : ∀ fault, repository.Wavers working tree fault → faults fault) :
    Concur faults (.error (.io again)) (.error (.io fault)) := by
  by_cases same : again = fault
  · rw [same]
  · have differ : (.error again : Except FileFault Unit) ≠ .error fault := by simpa using same
    have ofNext : repository.Wavers working tree again := by
      simp [Wavers, failed, failedAgain, differ]
    have ofFirst : repository.Wavers working tree fault := by
      simp [Wavers, failed, failedAgain, differ]
    exact .inr ⟨again, fault, within again ofNext, within fault ofFirst, rfl, rfl⟩

/-- Bytes for two records are entered in either order with the same effect, where each ends as it
would have alone. -/
theorem enter_enter_of_bytes (apart : id ≠ other) {path otherPath : String}
    (found : repository.path id = .ok path) (foundOther : repository.path other = .ok otherPath)
    (bytes otherBytes : List UInt8) (atomic : Bool)
    (within : ∀ fault, repository.Wavers site.working site.files fault → faults fault) :
    let first : Draft := some (.ok (path, bytes))
    let second : Draft := some (.ok (otherPath, otherBytes))
    Concur faults ((site.entered atomic first).enter atomic second).1
        (site.enter atomic second).1 ∧
      ((site.entered atomic first).enter atomic second).2.get? =
        ((site.entered atomic second).enter atomic first).2.get? := by
  intro first second
  cases made : site.files.ensureDirectories site.working repository.home with
  | mk answer grown =>
      cases answer with
      | error fault =>
          -- neither is written, and nothing more is made for the later one
          obtain ⟨again, madeAgain⟩ := FileTree.ensureDirectories_again repository.plain_home made
          have later {id path : String} (found : repository.path id = .ok path)
              (bytes : List UInt8) :
              { site with files := grown }.enter atomic (some (.ok (path, bytes))) =
                (.error (.io again), grown) :=
            enter_of_error { site with files := grown } found madeAgain bytes atomic
          simp only [Site.entered, enter_of_error site found made,
            enter_of_error site foundOther made, later found,
            later foundOther, and_true, first, second]
          exact concur_of_failed made madeAgain within
      | ok _ =>
          obtain ⟨place, opens⟩ := opens_of_made site made
          have files : id ++ extension ≠ other ++ extension := by simpa using apart
          rw [entered_of_made site found made, entered_of_made site foundOther made,
            enter_of_made site foundOther made]
          have one := opens id path found
          have two := opens other otherPath foundOther
          generalize { site with files := grown } = base at one two
          rw [(Site.enter_enter_of_opens one two files bytes otherBytes atomic).1]
          exact ⟨.refl _ _, Site.enter_enter_comm_of_opens one two files bytes otherBytes atomic⟩

/-- Drafts of two records are entered in either order with the same effect. -/
theorem enter_enter (apart : id ≠ other) (isFirst : repository.IsDraft id first)
    (isSecond : repository.IsDraft other second) (atomic : Bool)
    (within : ∀ fault, repository.Wavers site.working site.files fault → faults fault) :
    Concur faults ((site.entered atomic first).enter atomic second).1
        (site.enter atomic second).1 ∧
      ((site.entered atomic first).enter atomic second).2.get? =
        ((site.entered atomic second).enter atomic first).2.get? := by
  rcases isFirst.cases with ⟨path, bytes, rfl, found⟩ | ⟨answer, answers⟩
  · rcases isSecond.cases with ⟨otherPath, otherBytes, rfl, foundOther⟩ | ⟨answer, answers⟩
    · exact enter_enter_of_bytes apart found foundOther bytes otherBytes atomic within
    · simp [Site.entered, answers, Concur.refl]
  · simp [Site.entered, answers, Concur.refl]

/-- Once a draft was entered the directory is steady, unless entering it changes nothing. -/
theorem steady_entered (isFirst : repository.IsDraft id first) (atomic : Bool) :
    (site.enter atomic first).2 = site.files ∨
      repository.Steady site.working (site.enter atomic first).2 := by
  rcases isFirst.cases with ⟨path, bytes, rfl, found⟩ | ⟨answer, answers⟩
  · cases made : site.files.ensureDirectories site.working repository.home with
    | mk answer grown =>
        cases answer with
        | error fault =>
            rw [enter_of_error site found made]
            exact .inr (steady_of_failed made)
        | ok _ =>
            have there := FileTree.isDirectory_of_ensureDirectories repository.home_ne_empty made
            obtain ⟨place, opens⟩ := opens_of_made site made
            rw [enter_of_made site found made]
            exact .inr (steady_of_isDirectory (FileTree.isDirectory_of_directories
              (fun _ => Site.directory_of_opens (opens id path found) bytes atomic) there))
  · rw [answers]
    exact .inl rfl

/-- Entering a draft brings about no new faults of this kind. -/
theorem wavers_entered (isFirst : repository.IsDraft id first) (atomic : Bool)
    (wavers : repository.Wavers site.working (site.enter atomic first).2 fault) :
    repository.Wavers site.working site.files fault := by
  rcases steady_entered isFirst atomic with same | steady
  · rwa [same] at wavers
  · exact absurd wavers (steady.not_wavers fault)

/-- In alike trees, drafts of records are entered alike. -/
theorem enter_congr {site' : Site} (isFirst : repository.IsDraft id first) (atomic : Bool)
    (working : site.working = site'.working) (refusals : site.refusals = site'.refusals)
    (alike : site.files.get? = site'.files.get?) :
    FileTree.Agrees (site.enter atomic first) (site'.enter atomic first) := by
  rcases isFirst.cases with ⟨path, bytes, rfl, found⟩ | ⟨answer, answers⟩
  · have agrees := FileTree.ensureDirectories_congr alike site.working repository.home
    cases made : site.files.ensureDirectories site.working repository.home with
    | mk answer grown =>
        cases madeOther : site'.files.ensureDirectories site'.working repository.home with
        | mk answer' grown' =>
            rw [made, working, madeOther] at agrees
            obtain ⟨rfl, grownAlike⟩ := agrees
            cases answer with
            | error fault =>
                rw [enter_of_error site found made, enter_of_error site' found madeOther]
                exact ⟨rfl, grownAlike⟩
            | ok _ =>
                obtain ⟨place, opens⟩ := opens_of_made site made
                rw [enter_of_made site found made, enter_of_made site' found madeOther]
                apply Site.enter_congr_of_opens
                · exact working
                · exact refusals
                · exact grownAlike
                · exact opens id path found
  · rw [answers, answers]
    exact ⟨rfl, alike⟩

end Repository

end TraceStore
