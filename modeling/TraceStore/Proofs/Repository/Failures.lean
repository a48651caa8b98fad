import TraceStore.Proofs.Repository.Records

/-!
# Why a record is not read

Reading a record fails in two ways.  Either its file gives no bytes, and then the failure tells what
the system met at the path; or the bytes are no record of a node, and then the failure tells about
them.  `StoreError.isOfFile` tells the two apart.
-/

namespace TraceStore

/-- Whether a failure tells about a file and not about the record in it. -/
def StoreError.isOfFile : StoreError → Bool
  | .notFound _ | .io _ => true
  | _ => false

namespace FileTree

/-- A regular file stands exactly where there are bytes to be read. -/
theorem isFile_eq_true_iff (tree : FileTree) (working : Route) (path : String) :
    tree.isFile working path = true ↔ ∃ bytes, tree.read working path = .ok bytes := by
  rw [isFile, read]
  cases tree.stat working path with
  | error fault => simp
  | ok entry => cases entry <;> simp

/-- Bytes are missing where a directory stands, and where the path cannot be followed. -/
theorem read_eq_error_iff (tree : FileTree) (working : Route) (path : String) (fault : FileFault) :
    tree.read working path = .error fault ↔
      (tree.stat working path = .ok .directory ∧ fault = .isDirectory) ∨
        tree.stat working path = .error fault := by
  rw [read]
  cases tree.stat working path with
  | error other => simp
  | ok entry => cases entry <;> simp [eq_comm]

end FileTree

namespace Repository

variable {repository : Repository} {site : Site} {id path : String} {execution : ExecutionRef}
  {failure : StoreError}

theorem isOfFile_wire {node : NodeRef} {actions : List Action}
    (failed : (wire site node actions execution).1 = .error failure) :
    failure.isOfFile = false := by
  rw [wire] at failed
  split at failed
  · obtain rfl := Except.error.inj failed
    rfl
  · simp at failed

theorem isOfFile_accept {bytes : List UInt8} {record : Record.Decoded}
    (failed : (accept site id path bytes record execution).1 = .error failure) :
    failure.isOfFile = false := by
  rw [accept] at failed
  split at failed
  · obtain rfl := Except.error.inj failed
    rfl
  · exact isOfFile_wire failed

/-- An id without a path is refused as it is. -/
theorem read_of_path_error (refused : repository.path id = .error failure)
    (execution : ExecutionRef) :
    repository.read site id execution = (.error failure, site) := by
  simp [read, refused]

theorem isOfFile_path (refused : repository.path id = .error failure) :
    failure.isOfFile = false := by
  rw [Repository.path] at refused
  split at refused
  · simp at refused
  · obtain rfl := Except.error.inj refused
    rfl

/-- Bytes that are no record are refused for the reason that the decoder gives. -/
theorem read_of_malformed {bytes : List UInt8} {session : Record.Session} {fault : Json.Fault}
    (found : repository.path id = .ok path)
    (there : site.files.read site.working path = .ok bytes)
    (malformed : Record.decode ⟨site.graph, {}, none⟩ bytes = (session, .error fault))
    (execution : ExecutionRef) :
    (repository.read site id execution).1 = .error (.codec path (.ofFault fault bytes)) := by
  obtain ⟨nodes, after, -⟩ := Record.decode_fresh site.graph bytes
  have clean : session.violation = none := by
    rw [malformed] at after
    rw [show session = _ from after, Record.Session.violation_withNodes]
  simp only [read, found, content, there, malformed, clean, Option.getD_none]

/-- A record without a node is refused, with what its bytes say. -/
theorem read_of_noNode {bytes : List UInt8} {session : Record.Session} {actions : List Action}
    (found : repository.path id = .ok path)
    (there : site.files.read site.working path = .ok bytes)
    (decoded : Record.decode ⟨site.graph, {}, none⟩ bytes = (session, .ok ⟨none, actions⟩))
    (execution : ExecutionRef) :
    (repository.read site id execution).1 = .error (.corruptRecord path (Text.lossy bytes)) := by
  simp only [read, found, content, there, decoded, accept]

/-- Once there are bytes, a failure tells about them. -/
theorem isOfFile_of_bytes {bytes : List UInt8} (found : repository.path id = .ok path)
    (there : site.files.read site.working path = .ok bytes)
    (failed : (repository.read site id execution).1 = .error failure) :
    failure.isOfFile = false := by
  simp only [read, found, content, there] at failed
  obtain ⟨nodes, after, -⟩ := Record.decode_fresh site.graph bytes
  cases decoded : Record.decode ⟨site.graph, {}, none⟩ bytes with
  | mk session result =>
      rw [decoded] at failed
      simp only [decoded] at after
      cases result with
      | ok record => exact isOfFile_accept failed
      | error fault =>
          obtain rfl := Except.error.inj failed
          have clean : session.violation = none := by
            rw [after, Record.Session.violation_withNodes]
          rw [clean]
          rfl

/-- Without bytes the failure is what the system says, where absence has a failure of its own. -/
theorem read_of_fault {fault : FileFault} (found : repository.path id = .ok path)
    (unread : site.files.read site.working path = .error fault) (execution : ExecutionRef) :
    repository.read site id execution =
      (.error (if fault = .missing then .notFound path else .io fault), site) := by
  simp only [read, found, content, unread]
  cases fault <;> rfl

/-- A failure that tells about the file of a record was met at the path of the record. -/
theorem fault_of_isOfFile (failed : (repository.read site id execution).1 = .error failure)
    (ofFile : failure.isOfFile = true) :
    ∃ path fault, repository.path id = .ok path ∧
      site.files.read site.working path = .error fault ∧
      failure = if fault = .missing then .notFound path else .io fault := by
  cases found : repository.path id with
  | error refusal =>
      rw [read_of_path_error found] at failed
      obtain rfl := Except.error.inj failed
      simp [isOfFile_path found] at ofFile
  | ok path =>
      cases read : site.files.read site.working path with
      | ok bytes => simp [isOfFile_of_bytes found read failed] at ofFile
      | error fault =>
          rw [read_of_fault found read] at failed
          exact ⟨path, fault, rfl, read, (Except.error.inj failed).symm⟩

theorem read_eq_io_iff (repository : Repository) (site : Site) (id : String)
    (execution : ExecutionRef) (fault : FileFault) :
    (repository.read site id execution).1 = .error (.io fault) ↔
      ∃ path, repository.path id = .ok path ∧ site.files.read site.working path = .error fault ∧
        fault ≠ .missing := by
  constructor
  · intro failed
    rcases fault_of_isOfFile failed rfl with ⟨path, met, found, unread, same⟩
    split at same
    · simp at same
    · next present =>
        obtain rfl := StoreError.io.inj same
        exact ⟨path, found, unread, present⟩
  · rintro ⟨path, found, unread, present⟩
    rw [read_of_fault found unread, if_neg present]

theorem read_eq_notFound_iff (repository : Repository) (site : Site) (id : String)
    (execution : ExecutionRef) (path : String) :
    (repository.read site id execution).1 = .error (.notFound path) ↔
      repository.path id = .ok path ∧ site.files.read site.working path = .error .missing := by
  constructor
  · intro failed
    rcases fault_of_isOfFile failed rfl with ⟨place, met, found, unread, same⟩
    split at same
    · next absent =>
        obtain rfl := StoreError.notFound.inj same
        exact ⟨found, absent ▸ unread⟩
    · simp at same
  · rintro ⟨found, unread⟩
    rw [read_of_fault found unread, if_pos rfl]

/-- A record is reported as not found only where there is no file. -/
theorem missing_of_isNotFound (failed : (repository.read site id execution).1 = .error failure)
    (notFound : failure.isNotFound = true) :
    ∃ path, repository.path id = .ok path ∧
      site.files.read site.working path = .error .missing := by
  cases failure with
  | notFound path => exact ⟨path, (read_eq_notFound_iff _ _ _ _ path).mp failed⟩
  | corruptRecord _ _ | codec _ _ | unresolvedParent _ _ | backReference _ | invalidPath _ | io _ =>
      simp [StoreError.isNotFound] at notFound

end Repository

end TraceStore
