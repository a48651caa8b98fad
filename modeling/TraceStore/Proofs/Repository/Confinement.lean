import TraceStore.Proofs.Repository.Home

/-!
# Where a repository writes

The record of an id is a file of its own directly in the directory of the repository: distinct ids
have distinct paths, and a path adds one name to those of the directory.

`Repository.Confined` says of two trees that the second came about by writing records of given ids
and nothing else.  What stands at a place is as before, or it is a directory that was missing on the
way to the records, or it is the record of one of the ids.
-/

namespace TraceStore

namespace Site

/-- A write that fails has left the tree as making the directory left it. -/
theorem get?_of_replaceFile_error {site : Site} {path : String} {content : List UInt8}
    {atomic : Bool} {fault : FileFault} {after : FileTree}
    (refused : site.replaceFile path content atomic = (.error fault, after)) :
    after.get? = (site.files.ensureDirectories site.working (FileTree.homeOf path)).2.get? := by
  rw [replaceFile] at refused
  split at refused
  · exact FileTree.get?_of_replace_error refused
  · split at refused
    · next made =>
        rcases Prod.mk.inj refused with ⟨-, rfl⟩
        rw [made]
    · next made =>
        rcases Prod.mk.inj refused with ⟨-, rfl⟩
        rw [made]

end Site

namespace Repository

variable {repository : Repository} {working : Route} {ids : List String} {id path : String}
  {before between after : FileTree} {route place : Route}

/-! ## Paths -/

/-- Distinct ids have distinct paths. -/
theorem path_injective {other : String} (found : repository.path id = .ok path)
    (foundOther : repository.path other = .ok path) : id = other := by
  by_cases same : id = other
  · exact same
  · exact absurd rfl (getLast?_names_path_ne same found foundOther)

/-- The steps to the directory that a record is written in are those to the repository. -/
theorem above_of_path (found : repository.path id = .ok path) :
    Path.steps (FileTree.homeOf path) = Path.steps repository.directory ∧
      Path.isAbsolute (FileTree.homeOf path) = Path.isAbsolute repository.directory := by
  rcases (path_eq_ok_iff repository id path).mp found with ⟨safe, rfl⟩
  have isName := isName_file safe
  have noDot : id ++ extension ≠ "." := file_ne_of_length (by decide)
  have steps : Path.steps (Path.join repository.directory (id ++ extension)) =
      Path.steps repository.directory ++ [id ++ extension] := by
    simp [Path.steps, Path.names_join repository.directory isName, noDot]
  have leads : Path.steps (Path.join repository.directory (id ++ extension)) ≠ [] := by
    simp [steps]
  rcases Path.above_homeOf leads with ⟨steps_eq, isAbsolute_eq, -⟩
  rw [steps, List.dropLast_concat] at steps_eq
  exact ⟨steps_eq, isAbsolute_eq.trans (Path.isAbsolute_join repository.directory isName)⟩

/-- What is on the way to the directory of a record is on the way to the repository. -/
theorem leads_of_home (found : repository.path id = .ok path)
    (leads : before.Leads working (FileTree.homeOf path) route) :
    before.Leads working repository.directory route := by
  rcases above_of_path found with ⟨steps_eq, isAbsolute_eq⟩
  rcases leads with ⟨front, beginning, reached⟩
  rw [steps_eq] at beginning
  rw [FileTree.startOf, isAbsolute_eq, ← FileTree.startOf] at reached
  exact ⟨front, beginning, reached⟩

/-! ## Changes -/

/-- The place of the record of an id: directly below the place of the directory, and where the path
of the id leads. -/
structure IsRecord (repository : Repository) (tree : FileTree) (working : Route) (id : String)
    (route : Route) : Prop where
  below : ∃ place, tree.walk (FileTree.startOf working repository.directory)
    (Path.names repository.directory) = .ok place ∧ route = place ++ [id ++ extension]
  located : ∃ path directory name, repository.path id = .ok path ∧
    tree.locate working path = .ok (.entry directory name false) ∧ route = directory ++ [name]

theorem IsRecord.of_directories (isRecord : repository.IsRecord before working id route)
    (kept : ∀ route, before.get? route = some .directory → after.get? route = some .directory) :
    repository.IsRecord after working id route := by
  rcases isRecord with ⟨⟨place, reached, same⟩, ⟨path, directory, name, found, located, again⟩⟩
  exact ⟨⟨place, FileTree.walk_of_directories kept reached, same⟩,
    ⟨path, directory, name, found, FileTree.locate_of_directories kept located, again⟩⟩

/-- What may have become of what stood at a place, when records of some ids were written. -/
inductive Change (repository : Repository) (working : Route) (ids : List String)
    (before after : FileTree) (route : Route) : Prop where
  | none (same : after.get? route = before.get? route)
  /-- The directory of the repository or one above it was missing, and was made. -/
  | made (free : before.get? route = .none) (there : after.get? route = some .directory)
      (leads : after.Leads working repository.directory route)
  /-- The record of one of the ids was replaced or created. -/
  | written (id : String) (member : id ∈ ids) (noDirectory : before.get? route ≠ some .directory)
      (file : ∃ content, after.get? route = some (.file content))
      (isRecord : repository.IsRecord after working id route)

/-- Nothing was changed but the records of some ids. -/
def Confined (repository : Repository) (working : Route) (ids : List String)
    (before after : FileTree) : Prop :=
  ∀ route, Change repository working ids before after route

namespace Confined

theorem refl (repository : Repository) (working : Route) (ids : List String) (tree : FileTree) :
    Confined repository working ids tree tree := by
  intro route
  exact .none rfl

theorem directory (confined : Confined repository working ids before after)
    (there : before.get? route = some .directory) : after.get? route = some .directory := by
  cases confined route with
  | none same => rw [same, there]
  | made free made leads => exact made
  | written id member noDirectory file isRecord => exact absurd there noDirectory

theorem mono {more : List String} (confined : Confined repository working ids before after)
    (subset : ids ⊆ more) : Confined repository working more before after := by
  intro route
  cases confined route with
  | none same => exact .none same
  | made free there leads => exact .made free there leads
  | written id member noDirectory file isRecord =>
      exact .written id (subset member) noDirectory file isRecord

theorem trans (first : Confined repository working ids before between)
    (second : Confined repository working ids between after) :
    Confined repository working ids before after := by
  have kept : ∀ route, between.get? route = some .directory → after.get? route = some .directory :=
    fun route => second.directory
  intro route
  cases first route with
  | none same =>
      cases second route with
      | none again => exact .none (again.trans same)
      | made free there leads => exact .made (same ▸ free) there leads
      | written id member noDirectory file isRecord =>
          exact .written id member (same ▸ noDirectory) file isRecord
  | made free there leads => exact .made free (kept route there) (leads.of_directories kept)
  | written id member noDirectory file isRecord =>
      cases second route with
      | none same =>
          rw [← same] at file
          exact .written id member noDirectory file (isRecord.of_directories kept)
      | made free there leads => simp [free] at file
      | written other memberOther _ fileOther isRecordOther =>
          exact .written other memberOther noDirectory fileOther isRecordOther

/-- Records are written in directories, and so is whatever is made on the way to them. -/
theorem rootedAt (confined : Confined repository working ids before after)
    (rootedAt : before.RootedAt working) : after.RootedAt working := by
  have start : after.Accessible (FileTree.startOf working repository.directory) :=
    (rootedAt.accessible_startOf _).of_directories fun _ => confined.directory
  constructor
  case working => exact confined.directory rootedAt.working
  case rooted =>
    intro route name there
    cases confined (route ++ [name]) with
    | none same =>
        rw [same] at there
        exact confined.directory (rootedAt.rooted route name there)
    | made free isDirectory leads =>
        obtain ⟨front, -, reached⟩ := leads
        exact start.walk reached route (List.prefix_append route [name])
    | written id member noDirectory file isRecord =>
        obtain ⟨place, reached, same⟩ := isRecord.below
        obtain ⟨rfl, -⟩ := List.append_inj' same rfl
        exact start.walk reached route (List.prefix_refl route)

/-- Where no record was written every file is as it was. -/
theorem file_iff (confined : Confined repository working [] before after) (route : Route)
    (content : List UInt8) :
    after.get? route = some (.file content) ↔ before.get? route = some (.file content) := by
  cases confined route with
  | none same => rw [same]
  | made free there leads => simp [free, there]
  | written id member noDirectory file isRecord => simp at member

end Confined

/-! ## Writing -/

/-- Making the directory of a record. -/
theorem confined_of_directories (found : repository.path id = .ok path)
    (made : after.get? = (before.ensureDirectories working (FileTree.homeOf path)).2.get?) :
    Confined repository working [] before after := by
  have grows := FileTree.ensureDirectories_leads before working (FileTree.homeOf path)
  intro route
  cases grows route with
  | inl same => exact .none (by rw [made, same])
  | inr new =>
      rcases new with ⟨leads, free, there⟩
      refine .made free (by rw [made, there]) ((leads_of_home found leads).of_directories ?_)
      intro other isDirectory
      rw [made, isDirectory]

/-- Replacing the file of a record. -/
theorem confined_of_replace {content : List UInt8} {atomic : Bool}
    (found : repository.path id = .ok path)
    (written : before.replace working path content atomic = (.ok (), after)) :
    Confined repository working [id] before after := by
  rcases FileTree.replaced_of_replace_ok (fun _ => False) written with
    ⟨directory, name, located, -, replaced⟩
  have making : Confined repository working [] before
      (before.ensureDirectories working (FileTree.homeOf path)).2 :=
    confined_of_directories found rfl
  refine (making.mono (List.nil_subset _)).trans ?_
  intro route
  by_cases target : route = directory ++ [name]
  · subst target
    have isPath := found
    rcases (path_eq_ok_iff repository id path).mp found with ⟨safe, rfl⟩
    rcases FileTree.of_locate_eq_entry located with ⟨-, -, -, -, front, whole, reached⟩
    rw [Path.names_join repository.directory (isName_file safe)] at whole
    rcases List.append_inj' whole rfl with ⟨rfl, last⟩
    obtain rfl : id ++ extension = name := List.singleton_inj.mp last
    rw [FileTree.startOf_join (isName_file safe)] at reached
    exact .written id (List.mem_singleton.mpr rfl) replaced.noDirectory
      ⟨content, replaced.content_eq⟩
      ⟨⟨directory, reached, rfl⟩, ⟨_, directory, _, isPath, located, rfl⟩⟩
  · cases replaced.other route target with
    | inl same => exact .none same
    | inr made => exact made.1.elim

/-- The ids whose records are touched by a write for one id that ended in a given way. -/
def touchedBy (id : String) : Except StoreError Unit → List String
  | .ok () => [id]
  | .error _ => []

/-- What a write changes: the record of its node if it succeeds, and no file if it fails. -/
theorem confined_write (repository : Repository) (site : Site) (node : NodeRef)
    (actions : List Action) {result : Except StoreError Unit} {after : Site}
    (outcome : repository.write site node actions = (result, after)) :
    Confined repository site.working (touchedBy (site.graph.node node).id result) site.files
      after.files := by
  cases result with
  | ok _ =>
      obtain ⟨path, bytes, files, event, found, -, replaced, rfl⟩ := write_ok outcome
      exact confined_of_replace found replaced
  | error failure =>
      simp only [write] at outcome
      split at outcome
      · rcases Prod.mk.inj outcome with ⟨-, rfl⟩
        exact .refl _ _ _ _
      · next path found =>
          split at outcome
          · rcases Prod.mk.inj outcome with ⟨-, rfl⟩
            exact .refl _ _ _ _
          · split at outcome
            · next refused =>
                rcases Prod.mk.inj outcome with ⟨-, rfl⟩
                exact confined_of_directories found (Site.get?_of_replaceFile_error refused)
            · simp at outcome

/-- For an id without a path nothing is written. -/
theorem write_of_path_error {site : Site} {node : NodeRef} {failure : StoreError}
    (refused : repository.path (site.graph.node node).id = .error failure)
    (actions : List Action) : repository.write site node actions = (.error failure, site) := by
  simp [write, refused]

end Repository

end TraceStore
