import TraceStore.Event
import TraceStore.FileTree.Replace
import TraceStore.Graph

/-!
# Sites

A `Site` is what the operations of a store share with everything around it: the graph of nodes, the
file tree with the directory in which relative paths start, and the reports of what was done.  It
also knows which nodes are held from outside the store, since a cache gives up only what nobody
else holds, and which files the system refuses to write for reasons that the tree does not show,
such as a full disk.

A refusal leaves the file as it was.  That is so of every refused write that first fills a temporary
file.  A write in place may instead be stopped by a full disk once it has emptied its file; such a
fault, after which the file is not what it was, is none of the refusals here.
-/

namespace TraceStore

/-- The surroundings of a store.  The refusals among them are those that leave the file alone. -/
structure Site where
  graph : Graph := {}
  files : FileTree := {}
  /-- The directory in which relative paths start. -/
  working : Route := []
  /-- The nodes held from outside the store. -/
  held : List NodeRef := []
  /-- The paths at which the system refuses to write at present, each with its fault. -/
  refusals : List (String × FileFault) := []
  /-- The reports made so far, the oldest first. -/
  events : List Event := []
  deriving Repr, DecidableEq, Inhabited

namespace Site

/-- Adds a report. -/
def report (site : Site) (event : Event) : Site :=
  { site with events := site.events ++ [event] }

/-- Adds reports in order. -/
def reportAll (site : Site) (events : List Event) : Site :=
  { site with events := site.events ++ events }

/-- The name that reports give an execution: that of a running one, or a word for one that has
ended. -/
def executionName (site : Site) (execution : ExecutionRef) : String :=
  (site.graph.running? execution).getD "<dropped>"

/-- The fault of a write at a path that the system refuses at present. -/
def refusal? (site : Site) (path : String) : Option FileFault :=
  (site.refusals.find? (·.1 = path)).map (·.2)

/-- Replaces a file, or creates it.  A write that the system refuses has made the directory and
nothing else: in either mode, the refusals are those that leave the file alone. -/
def replaceFile (site : Site) (path : String) (content : List UInt8) (atomic : Bool) :
    Except FileFault Unit × FileTree :=
  match site.refusal? path with
  | none => site.files.replace site.working path content atomic
  | some fault =>
      match site.files.ensureDirectories site.working (FileTree.homeOf path) with
      | (.error earlier, files) => (.error earlier, files)
      | (.ok (), files) => (.error fault, files)

end Site

end TraceStore
