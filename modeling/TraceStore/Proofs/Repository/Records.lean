import TraceStore.Proofs.FileTree.Replace
import TraceStore.Proofs.Graph.Waking
import TraceStore.Proofs.Record.Outline
import TraceStore.Proofs.Record.RoundTrip
import TraceStore.Repository

/-!
# Records in a repository

Distinct ids have files of distinct names, so a record that is written changes no other.
`Repository.Stored` names the bytes in the record of an id.  `write_ok` and `write_error` say all
that writing does, `read_frame` and `read_stored` what reading does: it adds nodes to the graph, and
a record that was written comes back as one node with the id and the parent ids in it.
-/

namespace TraceStore

/-! ## Refused writes -/

namespace Site

theorem replaceFile_error {site : Site} {path : String} {content : List UInt8} {atomic : Bool}
    {fault : FileFault} {after : FileTree}
    (refused : site.replaceFile path content atomic = (.error fault, after)) :
    site.files.Grows (FileTree.OnWay site.working (FileTree.homeOf path)) after := by
  have grows := FileTree.ensureDirectories_grows site.files site.working (FileTree.homeOf path)
  rw [replaceFile] at refused
  split at refused
  · exact FileTree.replace_error grows refused
  · split at refused
    · next made =>
        rcases Prod.mk.inj refused with ⟨-, rfl⟩
        rwa [made] at grows
    · next made =>
        rcases Prod.mk.inj refused with ⟨-, rfl⟩
        rwa [made] at grows

theorem replaceFile_ok {site : Site} {path : String} {content : List UInt8} {atomic : Bool}
    {after : FileTree} (written : site.replaceFile path content atomic = (.ok (), after)) :
    site.files.replace site.working path content atomic = (.ok (), after) := by
  rw [replaceFile] at written
  split at written
  · exact written
  · split at written <;> simp at written

end Site

namespace Repository

variable {repository : Repository} {site : Site} {id other path : String}

/-! ## The file of an id -/

theorem isName_file {id : String} (safe : isSafeId id = true) : Path.IsName (id ++ extension) := by
  simp only [isSafeId, Bool.and_eq_true, List.all_eq_true, decide_eq_true_eq] at safe
  constructor
  · intro empty
    have length := congrArg String.length empty
    simp [extension] at length
  · rw [String.toList_append, List.mem_append, not_or]
    exact ⟨fun slash => (safe.2 '/' slash).1.1 rfl, by decide⟩

theorem file_ne_of_length {id name : String} (short : name.length < 5) :
    id ++ extension ≠ name := by
  intro same
  have length := congrArg String.length same
  simp only [String.length_append, extension] at length
  have five : ".json".length = 5 := by decide
  omega

theorem path_eq_ok_iff (repository : Repository) (id path : String) :
    repository.path id = .ok path ↔
      isSafeId id = true ∧ path = Path.join repository.directory (id ++ extension) := by
  rw [Repository.path]
  split
  · next safe => simp [safe, eq_comm]
  · next unsafe_ => simp [unsafe_]

example : (⟨"d", true⟩ : Repository).path "a" = .ok "d/a.json" := by decide +kernel

theorem names_path (found : repository.path id = .ok path) :
    Path.names path = Path.names repository.directory ++ [id ++ extension] := by
  rcases (path_eq_ok_iff repository id path).mp found with ⟨safe, rfl⟩
  exact Path.names_join _ (isName_file safe)

/-- Distinct ids have files of distinct names. -/
theorem getLast?_names_path_ne {otherPath : String} (distinct : id ≠ other)
    (found : repository.path id = .ok path) (foundOther : repository.path other = .ok otherPath) :
    (Path.names path).getLast? ≠ (Path.names otherPath).getLast? := by
  rw [names_path found, names_path foundOther]
  simpa using distinct

/-- The bytes in the record of an id. -/
def Stored (repository : Repository) (site : Site) (id : String) (bytes : List UInt8) : Prop :=
  ∃ path, repository.path id = .ok path ∧ site.files.read site.working path = .ok bytes

theorem Stored.of_grows {within : Route → Prop} {files : FileTree} {bytes : List UInt8}
    (stored : repository.Stored site id bytes) (grows : site.files.Grows within files) :
    repository.Stored { site with files } id bytes := by
  rcases stored with ⟨path, found, there⟩
  refine ⟨path, found, ?_⟩
  rw [FileTree.read_of_grows grows (by simp [there]), there]

/-! ## Writing -/

/-- A write that fails has at most made directories. -/
theorem write_error {node : NodeRef} {actions : List Action} {failure : StoreError} {after : Site}
    (failed : repository.write site node actions = (.error failure, after)) :
    ∃ files, after = { site with files } ∧ site.files.Grows (fun _ => True) files := by
  have nothing : ∃ files, site = { site with files } ∧ site.files.Grows (fun _ => True) files :=
    ⟨site.files, rfl, .refl _ _⟩
  simp only [write] at failed
  split at failed
  · rcases Prod.mk.inj failed with ⟨-, rfl⟩
    exact nothing
  · split at failed
    · rcases Prod.mk.inj failed with ⟨-, rfl⟩
      exact nothing
    · split at failed
      · next refused =>
          rcases Prod.mk.inj failed with ⟨-, rfl⟩
          exact ⟨_, rfl, (Site.replaceFile_error refused).weaken fun _ _ => trivial⟩
      · simp at failed

/-- A write that succeeds has replaced the file of the node's id by the encoded record. -/
theorem write_ok {node : NodeRef} {actions : List Action} {after : Site}
    (written : repository.write site node actions = (.ok (), after)) :
    ∃ path bytes files event, repository.path (site.graph.node node).id = .ok path ∧
      Record.encode (site.graph.node node).id
        (site.graph.parentIds (site.graph.node node).links) actions = .ok bytes ∧
      site.files.replace site.working path bytes repository.atomic = (.ok (), files) ∧
      after = { site with files, events := site.events ++ [event] } := by
  simp only [write] at written
  split at written
  · simp at written
  · next path found =>
      split at written
      · simp at written
      · next bytes encoded =>
          split at written
          · simp at written
          · next files replaced =>
              rcases Prod.mk.inj written with ⟨-, rfl⟩
              exact ⟨path, bytes, files, _, found, encoded, Site.replaceFile_ok replaced, rfl⟩

/-- Writing a record makes the directory for it. -/
example :
    let site : Site := { graph := { nodes := [⟨"a", .held [], [], none⟩] } }
    ((⟨"d", true⟩ : Repository).write site 0 []).2.files.get? ["d"] = some .directory := by
  decide +kernel

theorem Stored.of_replace_self {bytes : List UInt8} {files : FileTree} {events : List Event}
    (found : repository.path id = .ok path)
    (replaced : site.files.replace site.working path bytes repository.atomic = (.ok (), files)) :
    repository.Stored { site with files, events } id bytes :=
  ⟨path, found, FileTree.read_replaced replaced⟩

theorem Stored.of_replace_other {bytes written : List UInt8} {files : FileTree}
    {events : List Event} (stored : repository.Stored site other bytes) (distinct : id ≠ other)
    (found : repository.path id = .ok path)
    (replaced : site.files.replace site.working path written repository.atomic = (.ok (), files)) :
    repository.Stored { site with files, events } other bytes := by
  rcases stored with ⟨otherPath, foundOther, there⟩
  exact ⟨otherPath, foundOther, FileTree.read_replaced_other replaced
    (getLast?_names_path_ne (Ne.symm distinct) foundOther found) there⟩

/-! ## Reading -/

/-- What reading a record does to its surroundings: nodes are added, and reports are made. -/
structure Reads (before after : Site) : Prop where
  frame : ∃ graph events, after = { before with graph, events }
  appends : before.graph.Appends after.graph

theorem Reads.report {before after : Site} (reads : Reads before after) (event : Event) :
    Reads before (after.report event) := by
  rcases reads with ⟨⟨graph, events, rfl⟩, appends⟩
  exact ⟨⟨graph, events ++ [event], rfl⟩, appends⟩

theorem Reads.update {before after : Site} (reads : Reads before after) {node : NodeRef}
    (new : before.graph.next ≤ node) {change : Node → Node}
    (links_eq : ∀ node, (change node).links = node.links) :
    Reads before { after with graph := after.graph.update node change } := by
  rcases reads with ⟨⟨graph, events, rfl⟩, appends⟩
  exact ⟨⟨_, _, rfl⟩, appends.update new links_eq⟩

/-- Wiring a node without execution: it gets the execution and the woken actions, and
behind them what waking has added. -/
theorem wire_eq (site : Site) {node : NodeRef} (unowned : (site.graph.node node).owner = none)
    (actions : List Action) (execution : ExecutionRef) :
    ∃ woken, woken.length = actions.length ∧
      wire site node actions execution =
        (.ok ⟨node, woken⟩,
          { site with
            graph := site.graph.update node fun it =>
              { it with owner := some execution, actions := woken ++ Action.sprouts actions }
            events := site.events ++ [loaded (site.graph.node node).id actions.length] }) ∧
      (node < site.graph.next → woken = actions.mapIdx fun position action =>
        action.remember ⟨(site.graph.node node).id, site.graph.running? execution,
          actions.length + (actions.take position).countP Action.isSeed⟩) := by
  let given := (site.graph.update node fun it => { it with owner := some execution }).update node
    (·.install actions)
  have length := Graph.length_wakeAll given node actions
  refine ⟨(given.wakeAll node actions).1, length, ?_, ?_⟩
  · simp only [wire, unowned, Option.isSome_none, Bool.false_eq_true, if_false, Graph.wakeAll_snd,
      Graph.length_wakeAll, Site.report, given, Graph.update_update]
    congr 4
    funext it
    simp [Node.install, Node.adopt, Node.replaceFirst_append (Graph.length_wakeAll _ _ _)]
  · intro there
    have sighting : given.sighting node =
        ⟨(site.graph.node node).id, site.graph.running? execution, actions.length⟩ := by
      simp only [Graph.sighting, given, Graph.update_update,
        Graph.node_update site.graph node node _ there, if_pos]
      rfl
    have stays : node < given.next := by simpa [given] using there
    rw [Graph.wakeAll_fst stays, sighting]

theorem wire_reads {before : Site} (reads : Reads before site) {node : NodeRef}
    (new : before.graph.next ≤ node) (actions : List Action) (execution : ExecutionRef) :
    Reads before (wire site node actions execution).2 ∧
      (wire site node actions execution).2.graph.next = site.graph.next ∧
      ∀ loaded, (wire site node actions execution).1 = .ok loaded → loaded.node = node := by
  cases owner : (site.graph.node node).owner with
  | some other =>
      simp only [wire, owner, Option.isSome_some, if_true]
      exact ⟨reads.report _, rfl, by simp⟩
  | none =>
      obtain ⟨woken, -, wired, -⟩ := wire_eq site owner actions execution
      rw [wired]
      refine ⟨(reads.update new (by intro node; rfl)).report _, Graph.next_update _ _ _, ?_⟩
      intro loaded given
      obtain rfl := Except.ok.inj given
      rfl

theorem accept_reads {before : Site} (reads : Reads before site) (id path : String)
    (bytes : List UInt8) {record : Record.Decoded}
    (new : ∀ node ∈ record.node, before.graph.next ≤ node ∧ node < site.graph.next)
    (execution : ExecutionRef) :
    Reads before (accept site id path bytes record execution).2 ∧
      ∀ loaded, (accept site id path bytes record execution).1 = .ok loaded →
        before.graph.next ≤ loaded.node ∧
          loaded.node < (accept site id path bytes record execution).2.graph.next := by
  rw [accept]
  split
  · exact ⟨reads.report _, by simp⟩
  · next node isNode =>
      rcases new node isNode with ⟨notOld, there⟩
      obtain ⟨reported, is, reads', same⟩ : ∃ reported,
          (if (site.graph.node node).id = id then site
            else site.report (sawOther id (site.graph.node node).id)) = reported ∧
          Reads before reported ∧ reported.graph = site.graph := by
        split
        · exact ⟨site, rfl, reads, rfl⟩
        · exact ⟨_, rfl, reads.report _, rfl⟩
      simp only [is]
      rcases wire_reads reads' notOld record.actions execution with ⟨wired, next_eq, given⟩
      refine ⟨wired, ?_⟩
      intro loaded isLoaded
      rw [given loaded isLoaded, next_eq, same]
      exact ⟨notOld, there⟩

/-- Reading adds nodes and makes reports.  A node that it gives is one of those added. -/
theorem read_frame (repository : Repository) (site : Site) (id : String)
    (execution : ExecutionRef) :
    Reads site (repository.read site id execution).2 ∧
      ∀ loaded, (repository.read site id execution).1 = .ok loaded →
        site.graph.next ≤ loaded.node ∧
          loaded.node < (repository.read site id execution).2.graph.next := by
  have nothing : Reads site site := ⟨⟨_, _, rfl⟩, .refl _⟩
  rw [read]
  split
  · exact ⟨nothing, by simp⟩
  · split
    · exact ⟨nothing, by simp⟩
    · next path _ _ bytes _ =>
        obtain ⟨nodes, after, created⟩ := Record.decode_fresh site.graph bytes
        cases decoded : Record.decode ⟨site.graph, {}, none⟩ bytes with
        | mk session result =>
            simp only [decoded] at after created
            have read : Reads site { site with graph := session.graph } :=
              ⟨⟨_, _, rfl⟩, by rw [after]; exact Record.Session.appends_withNodes nodes⟩
            cases result with
            | error fault => exact ⟨read, by simp⟩
            | ok record =>
                refine accept_reads read id path bytes ?_ execution
                intro node isNode
                obtain ⟨position, within, rfl⟩ := created record rfl node isNode
                refine ⟨Nat.le_add_right _ _, ?_⟩
                rw [after, Record.Session.next_withNodes]
                exact Nat.add_lt_add_left within _

/-- Where there is no file, nothing is read. -/
theorem read_of_missing (found : repository.path id = .ok path)
    (missing : site.files.read site.working path = .error .missing) (execution : ExecutionRef) :
    repository.read site id execution = (.error (.notFound path), site) := by
  simp [read, found, content, missing]

theorem update_add_next (graph : Graph) (node : Node) (change : Node → Node) :
    (graph.add node).update graph.next change = graph.add (change node) := by
  simp [Graph.update, Graph.add, Graph.next, Graph.modify_append_of_le]

/-- The node of a record, created just now, is wired. -/
theorem accept_created (site : Site) (id path : String) (parentIds : List String)
    (bytes : List UInt8) (actions : List Action) (execution : ExecutionRef) :
    ∃ woken node events,
      accept { site with graph := site.graph.add (.detached id (.named parentIds)) } id path bytes
          ⟨some site.graph.next, actions⟩ execution =
        (.ok ⟨site.graph.next, woken⟩, { site with graph := site.graph.add node, events }) ∧
      node.id = id ∧ node.links = .named parentIds := by
  have created : (site.graph.add (.detached id (.named parentIds))).node site.graph.next =
      .detached id (.named parentIds) := by
    simp [Graph.node, Graph.add, Graph.next]
  have sameId :
      ((site.graph.add (.detached id (.named parentIds))).node site.graph.next).id = id := by
    rw [created]
    rfl
  have unowned : ((site.graph.add (.detached id (.named parentIds))).node
      site.graph.next).owner = none := by
    rw [created]
    rfl
  obtain ⟨woken, -, wired, -⟩ := wire_eq { site with graph := site.graph.add _ } unowned actions
    execution
  refine ⟨woken, ⟨id, .named parentIds, woken ++ Action.sprouts actions, some execution⟩,
    site.events ++ [loaded id actions.length], ?_, rfl, rfl⟩
  simp only [accept, sameId, if_true, wired, update_add_next]
  rfl

/-- A record that was written is read as the next node, with the id and the parent ids in it. -/
theorem read_stored {bytes : List UInt8} {parentIds : List String} {actions : List Action}
    (stored : repository.Stored site id bytes)
    (encoded : Record.encode id parentIds actions = .ok bytes) (execution : ExecutionRef) :
    ∃ woken node events, repository.read site id execution =
        (.ok ⟨site.graph.next, woken⟩, { site with graph := site.graph.add node, events }) ∧
      node.id = id ∧ node.links = .named parentIds := by
  rcases stored with ⟨path, found, there⟩
  rw [read]
  simp only [found, content, there, Record.decode_encode encoded]
  exact accept_created site id path parentIds bytes _ execution

end Repository

end TraceStore
