import TraceStore.FileTree.Basic
import TraceStore.FileTree.Path

/-!
# System calls on a file tree

The calls that records and logs are kept with, as functions of the tree: each says what it answers
and which tree it leaves.  A path is resolved name by name from the working directory or from the
root, and every name has to lead to a directory except the last, about which each call has its own
rule.  A call that is refused leaves the tree as it was.

A file that was opened once stays what it was opened as: what is added to it later goes to that file
and not to another one that has taken its place.
-/

namespace TraceStore

/-- How many bytes a name may have. -/
def longestName : Nat := 255

/-- How many bytes a path may have. -/
def longestPath : Nat := 4095

/-- Where the last name of a path leads: to an entry of a directory, or to a directory that is
named by dots or is the root. -/
inductive Target where
  | entry (directory : Route) (name : String) (slash : Bool)
  | directory (route : Route)
  deriving Repr, DecidableEq

namespace FileTree

/-- Follows names that all have to lead to directories. -/
def walk (tree : FileTree) : Route → List String → Except FileFault Route
  | here, [] => .ok here
  | here, name :: others =>
      if name = "." then walk tree here others
      else if name = ".." then walk tree here.dropLast others
      else if longestName < name.utf8ByteSize then .error .nameTooLong
      else
        match tree.get? (here ++ [name]) with
        | none => .error .missing
        | some (.file _) => .error .notDirectory
        | some .directory => walk tree (here ++ [name]) others

/-- Resolves a path up to its last name. -/
def locate (tree : FileTree) (working : Route) (path : String) : Except FileFault Target :=
  if path.toList.contains '\x00' then .error .nulByte
  else if path.isEmpty then .error .missing
  else if longestPath < path.utf8ByteSize then .error .nameTooLong
  else
    let start := if Path.isAbsolute path then [] else working
    match (Path.names path).getLast? with
    | none => .ok (.directory start)
    | some last =>
        match tree.walk start (Path.names path).dropLast with
        | .error fault => .error fault
        | .ok directory =>
            if last = "." then .ok (.directory directory)
            else if last = ".." then .ok (.directory directory.dropLast)
            else .ok (.entry directory last (Path.endsInSlash path))

/-- Looks up what a path leads to. -/
def stat (tree : FileTree) (working : Route) (path : String) : Except FileFault Entry :=
  match tree.locate working path with
  | .error fault => .error fault
  | .ok (.directory _) => .ok .directory
  | .ok (.entry directory name slash) =>
      if longestName < name.utf8ByteSize then .error .nameTooLong
      else
        match tree.get? (directory ++ [name]) with
        | none => .error .missing
        | some .directory => .ok .directory
        | some (.file content) => if slash then .error .notDirectory else .ok (.file content)

/-- Whether a path leads to a directory. -/
def isDirectory (tree : FileTree) (working : Route) (path : String) : Bool :=
  match tree.stat working path with
  | .ok .directory => true
  | _ => false

/-- Whether a path leads to a regular file. -/
def isFile (tree : FileTree) (working : Route) (path : String) : Bool :=
  match tree.stat working path with
  | .ok (.file _) => true
  | _ => false

/-- The content of the file that a path leads to. -/
def read (tree : FileTree) (working : Route) (path : String) : Except FileFault (List UInt8) :=
  match tree.stat working path with
  | .error fault => .error fault
  | .ok .directory => .error .isDirectory
  | .ok (.file content) => .ok content

/-- Opens a file for writing, creating it if it is missing, and sets its content to what `change`
makes of the old one.  The answer is where the file stands. -/
def openWrite (tree : FileTree) (working : Route) (path : String)
    (change : List UInt8 → List UInt8) : Except FileFault Route × FileTree :=
  match tree.locate working path with
  | .error fault => (.error fault, tree)
  | .ok (.directory _) => (.error .isDirectory, tree)
  | .ok (.entry directory name slash) =>
      if slash then (.error .isDirectory, tree)
      else if longestName < name.utf8ByteSize then (.error .nameTooLong, tree)
      else
        let route := directory ++ [name]
        match tree.get? route with
        | some .directory => (.error .isDirectory, tree)
        | some (.file content) => (.ok route, tree.put route (.file (change content)))
        | none => (.ok route, tree.make route (change []))

/-- Writes a file in place. -/
def overwrite (tree : FileTree) (working : Route) (path : String) (content : List UInt8) :
    Except FileFault Unit × FileTree :=
  match tree.openWrite working path fun _ => content with
  | (.error fault, written) => (.error fault, written)
  | (.ok _, written) => (.ok (), written)

/-- Makes a directory. -/
def makeDirectory (tree : FileTree) (working : Route) (path : String) :
    Except FileFault Unit × FileTree :=
  match tree.locate working path with
  | .error fault => (.error fault, tree)
  | .ok (.directory _) => (.error .exists_, tree)
  | .ok (.entry directory name _) =>
      if longestName < name.utf8ByteSize then (.error .nameTooLong, tree)
      else
        match tree.get? (directory ++ [name]) with
        | some _ => (.error .exists_, tree)
        | none => (.ok (), tree.put (directory ++ [name]) .directory)

/-- Removes a file. -/
def removeFile (tree : FileTree) (working : Route) (path : String) :
    Except FileFault Unit × FileTree :=
  match tree.locate working path with
  | .error fault => (.error fault, tree)
  | .ok (.directory _) => (.error .isDirectory, tree)
  | .ok (.entry directory name slash) =>
      if longestName < name.utf8ByteSize then (.error .nameTooLong, tree)
      else
        match tree.get? (directory ++ [name]) with
        | none => (.error .missing, tree)
        | some .directory => (.error .isDirectory, tree)
        | some (.file _) =>
            if slash then (.error .notDirectory, tree)
            else (.ok (), tree.erase (directory ++ [name]))

/-- Moves a regular file onto a path, replacing a file that stands there.  A path with a NUL byte is
no argument of a move. -/
def moveFile (tree : FileTree) (working : Route) (source : Route) (content : List UInt8)
    (path : String) : Except FileFault Unit × FileTree :=
  match tree.locate working path with
  | .error .nulByte => (.error .invalid, tree)
  | .error fault => (.error fault, tree)
  | .ok (.directory _) => (.error .busy, tree)
  | .ok (.entry directory name slash) =>
      if longestName < name.utf8ByteSize then (.error .nameTooLong, tree)
      else if slash then (.error .notDirectory, tree)
      else
        match tree.get? (directory ++ [name]) with
        | some .directory => (.error .isDirectory, tree)
        | _ => (.ok (), (tree.erase source).make (directory ++ [name]) content)

/-- Makes a directory where none is yet, and says whether there is one afterwards; otherwise the
refusal stands. -/
def ensureDirectory (tree : FileTree) (working : Route) (path : String) :
    Except FileFault Unit × FileTree :=
  match tree.makeDirectory working path with
  | (.ok (), grown) => (.ok (), grown)
  | (.error fault, _) =>
      if tree.isDirectory working path then (.ok (), tree) else (.error fault, tree)

/-- Makes a directory and the missing ones above it.  The parts of the path bound the levels. -/
def ensureLevels (tree : FileTree) (working : Route) : (levels : Nat) → String →
    Except FileFault Unit × FileTree
  | 0, _ => (.ok (), tree)
  | levels + 1, path =>
      if path.isEmpty then (.ok (), tree)
      else
        match tree.ensureDirectory working path with
        | (.error .missing, _) =>
            match Path.parent? path with
            | none => (.error (.other "failed to create whole tree"), tree)
            | some above =>
                match ensureLevels tree working levels above with
                | (.error fault, grown) => (.error fault, grown)
                | (.ok (), grown) => grown.ensureDirectory working path
        | result => result

/-- Makes a directory and the missing ones above it. -/
def ensureDirectories (tree : FileTree) (working : Route) (path : String) :
    Except FileFault Unit × FileTree :=
  tree.ensureLevels working ((Path.parts path).length + 1) path

/-! ## Open files -/

/-- A file that is kept open for lines at its end. -/
structure OpenFile where
  place : Route
  /-- How many files had been made at the place when this one was opened. -/
  made : Nat
  deriving Repr, DecidableEq, Inhabited

/-- Opens a file for lines at its end, creating it if it is missing. -/
def openAppend (tree : FileTree) (working : Route) (path : String) :
    Except FileFault OpenFile × FileTree :=
  match tree.openWrite working path fun content => content with
  | (.error fault, opened) => (.error fault, opened)
  | (.ok route, opened) => (.ok ⟨route, opened.made.count route⟩, opened)

/-- Adds to the end of an open file.  When another file or none has come into its place, the file
is out of reach and the tree stays as it is. -/
def append (tree : FileTree) (file : OpenFile) (content : List UInt8) : FileTree :=
  match tree.get? file.place with
  | some (.file before) =>
      if tree.made.count file.place = file.made then
        tree.put file.place (.file (before ++ content))
      else tree
  | _ => tree

end FileTree

end TraceStore
