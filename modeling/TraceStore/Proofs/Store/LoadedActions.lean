import Mathlib.Control.Monad.Basic
import TraceStore.Proofs.Repository.Failures
import TraceStore.Store

/-!
# What loading actions answers

The actions of a node are loaded from its record, and a node without a record has none.  Whether
there is a record is asked before it is read, by looking for a regular file at its path, and nothing
is read unless there is one.  So besides the absence of a record everything else that can keep the
system from giving bytes ends in no actions: a directory in the place of the record, a file in the
place of the directory of the store, a name that is too long.  `load_differs_from_reading` says
exactly when loading answers otherwise than reading.
-/

namespace TraceStore.Store

variable {store : Store} {site : Site} {node : NodeRef}

/-- The actions that a reading gives; none if it found no record. -/
def actionsOf : Except StoreError Loaded → Except StoreError (List Action)
  | .ok loaded => .ok loaded.actions
  | .error failure => if failure.isNotFound then .ok [] else .error failure

/-- Where there are bytes, loading reads. -/
theorem loadActions_of_bytes {path : String} {bytes : List UInt8}
    (found : store.repository.path (site.graph.node node).id = .ok path)
    (there : site.files.read site.working path = .ok bytes) :
    (store.loadActions site node).1 =
      actionsOf (store.repository.read site (site.graph.node node).id store.execution).1 := by
  have isFile := (FileTree.isFile_eq_true_iff site.files site.working path).mpr ⟨bytes, there⟩
  rw [loadActions, Repository.holds, found]
  simp only [Except.map, isFile]
  cases store.repository.read site (site.graph.node node).id store.execution with
  | mk result after =>
      cases result with
      | ok loaded => rfl
      | error failure => cases missing : failure.isNotFound <;> simp [actionsOf, missing]

/-- Where there are none, loading gives no actions, whatever the reason. -/
theorem loadActions_of_fault {path : String} {fault : FileFault}
    (found : store.repository.path (site.graph.node node).id = .ok path)
    (unread : site.files.read site.working path = .error fault) :
    (store.loadActions site node).1 = .ok [] := by
  have noFile : site.files.isFile site.working path = false := by
    rw [Bool.eq_false_iff, ne_eq, FileTree.isFile_eq_true_iff]
    rintro ⟨bytes, there⟩
    simp [unread] at there
  rw [loadActions, Repository.holds, found]
  simp only [Except.map, noFile]

/-- What a reading gives, loading gives. -/
theorem loadActions_of_ok {loaded : Loaded}
    (read : (store.repository.read site (site.graph.node node).id store.execution).1 = .ok loaded) :
    (store.loadActions site node).1 = .ok loaded.actions := by
  cases found : store.repository.path (site.graph.node node).id with
  | error failure => simp [Repository.read_of_path_error found] at read
  | ok path =>
      cases there : site.files.read site.working path with
      | error fault => simp [Repository.read_of_fault found there] at read
      | ok bytes => rw [loadActions_of_bytes found there, read, actionsOf]

/-- For an id without a path loading fails as reading does. -/
theorem loadActions_of_path_error {failure : StoreError}
    (refused : store.repository.path (site.graph.node node).id = .error failure) :
    (store.loadActions site node).1 = .error failure := by
  rw [loadActions, Repository.holds, refused]
  rfl

/-- What loading answers after a reading that fails. -/
theorem loadActions_of_error {failure : StoreError}
    (failed : (store.repository.read site (site.graph.node node).id store.execution).1 =
      .error failure) :
    (store.loadActions site node).1 = if failure.isOfFile then .ok [] else .error failure := by
  cases ofFile : failure.isOfFile with
  | true =>
      rcases Repository.fault_of_isOfFile failed ofFile with ⟨path, fault, found, unread, -⟩
      exact loadActions_of_fault found unread
  | false =>
      cases found : store.repository.path (site.graph.node node).id with
      | error refusal =>
          rw [Repository.read_of_path_error found] at failed
          rw [loadActions_of_path_error found, Except.error.inj failed]
          rfl
      | ok path =>
          cases there : site.files.read site.working path with
          | ok bytes =>
              have notFound : failure.isNotFound = false := by
                cases failure with
                | notFound path => simp [StoreError.isOfFile] at ofFile
                | corruptRecord _ _ | codec _ _ | unresolvedParent _ _ | backReference _
                | invalidPath _ | io _ => rfl
              simp [loadActions_of_bytes found there, failed, actionsOf, notFound]
          | error fault =>
              rw [Repository.read_of_fault found there] at failed
              obtain rfl := Except.error.inj failed
              split at ofFile <;> simp [StoreError.isOfFile] at ofFile

/-- In any surroundings: what reading gives is what loading gives; loading gives no actions exactly
after those failures of reading that tell about the file of the record, and it fails as reading does
after all others.  Of the former, one says that there is no record, and the others are all that the
system can meet at the path instead of a file. -/
theorem load_differs_from_reading (store : Store) (site : Site) (node : NodeRef) :
    let id := (site.graph.node node).id
    let reading := (store.repository.read site id store.execution).1
    let loading := (store.loadActions site node).1
    (∀ loaded, reading = .ok loaded → loading = .ok loaded.actions) ∧
    (∀ failure, reading = .error failure →
      loading = if failure.isOfFile then .ok [] else .error failure) ∧
    (loading = actionsOf reading ↔ ∀ fault, reading ≠ .error (.io fault)) ∧
    (∀ path, reading = .error (.notFound path) ↔
      store.repository.path id = .ok path ∧
        site.files.stat site.working path = .error .missing) ∧
    ∀ fault, reading = .error (.io fault) ↔ ∃ path, store.repository.path id = .ok path ∧
      ((site.files.stat site.working path = .ok .directory ∧ fault = .isDirectory) ∨
        (site.files.stat site.working path = .error fault ∧ fault ≠ .missing)) := by
  intro id reading loading
  refine ⟨?read, fun failure => loadActions_of_error, ?agree, ?notFound, ?io⟩
  case read => exact fun loaded => loadActions_of_ok
  case agree =>
    constructor
    · intro same fault failed
      have hidden : loading = .ok [] := loadActions_of_error failed
      rw [hidden, failed] at same
      simp [actionsOf, StoreError.isNotFound] at same
    · intro noFault
      cases result : reading with
      | ok loaded => exact loadActions_of_ok result
      | error failure =>
          have answered : loading = _ := loadActions_of_error result
          rw [answered, actionsOf]
          cases failure with
          | io fault => exact absurd result (noFault fault)
          | notFound _ | corruptRecord _ _ | codec _ _ | unresolvedParent _ _ | backReference _
          | invalidPath _ => rfl
  case notFound =>
    intro path
    apply (Repository.read_eq_notFound_iff store.repository site id store.execution path).trans
    rw [FileTree.read_eq_error_iff]
    simp
  case io =>
    intro fault
    apply (Repository.read_eq_io_iff store.repository site id store.execution fault).trans
    simp only [FileTree.read_eq_error_iff]
    grind

/-- A directory stands in the place of a record.  Reading the record fails, and so does a lookup of
the node, but loading its actions gives none. -/
theorem directory_in_place_of_record_is_hidden :
    let store := Store.opened 0 "d" 0 false
    let site : Site :=
      { graph := { nodes := [⟨"a", .held [], [], some 0⟩] }
        files := { entries := [(["d"], .directory), (["d", "a.json"], .directory)] } }
    store.repository.path (site.graph.node 0).id = .ok "d/a.json" ∧
      (store.repository.read site (site.graph.node 0).id store.execution).1 =
        .error (.io .isDirectory) ∧
      (store.get site (site.graph.node 0).id).1 = .error (.io .isDirectory) ∧
      (store.loadActions site 0).1 = .ok [] := by
  intro store site
  exact ⟨by decide +kernel, by decide +kernel, by decide +kernel, by decide +kernel⟩

end TraceStore.Store
