/-!
# File trees

A `FileTree` is the part of a file system that records live in: directories and regular files
under a root, without links and without access restrictions.  An entry is named by the list of
names that leads to it; the root itself is always a directory.

The tree changes by `put` and `erase` only, and either leaves every other entry as it was.  It also
remembers where files were made, so that a file can be told from a later one at the same place: two
looks at a place are at the same file if no file was made there in between.
-/

namespace TraceStore

/-- Why the system refuses a file operation. -/
inductive FileFault where
  | missing
  | exists_
  | notDirectory
  | isDirectory
  | nameTooLong
  | busy
  | invalid
  /-- A path with a NUL byte never reaches the system. -/
  | nulByte
  | other (text : String)
  deriving Repr, DecidableEq, Inhabited

/-- The text of a refusal: the system's words and its number. -/
def FileFault.message : FileFault → String
  | .missing => "No such file or directory (os error 2)"
  | .exists_ => "File exists (os error 17)"
  | .notDirectory => "Not a directory (os error 20)"
  | .isDirectory => "Is a directory (os error 21)"
  | .nameTooLong => "File name too long (os error 36)"
  | .busy => "Device or resource busy (os error 16)"
  | .invalid => "Invalid argument (os error 22)"
  | .nulByte => "file name contained an unexpected NUL byte"
  | .other text => text

/-- The names that lead from the root to an entry. -/
abbrev Route := List String

/-- What stands at a place of the tree. -/
inductive Entry where
  | file (content : List UInt8)
  | directory
  deriving Repr, DecidableEq, Inhabited

/-- The entries below the root. -/
structure FileTree where
  entries : List (Route × Entry) := []
  /-- The places at which files were made, each as often as one was. -/
  made : List Route := []
  deriving Repr, DecidableEq, Inhabited

namespace FileTree

/-- The entry at a place. -/
def get? (tree : FileTree) (route : Route) : Option Entry :=
  if route = [] then some .directory else (tree.entries.find? (·.1 = route)).map (·.2)

/-- Removes the entry at a place, if there is one. -/
def erase (tree : FileTree) (route : Route) : FileTree :=
  { tree with entries := tree.entries.filter (·.1 ≠ route) }

/-- Sets the entry at a place. -/
def put (tree : FileTree) (route : Route) (entry : Entry) : FileTree :=
  { tree with entries := (tree.erase route).entries ++ [(route, entry)] }

/-- Makes a file at a place, in place of one that stands there. -/
def make (tree : FileTree) (route : Route) (content : List UInt8) : FileTree :=
  { tree.put route (.file content) with made := route :: tree.made }

@[simp] theorem get?_root (tree : FileTree) : tree.get? [] = some .directory := rfl

theorem get?_erase_self (tree : FileTree) {route : Route} (below : route ≠ []) :
    (tree.erase route).get? route = none := by
  simp [get?, erase, below]

theorem get?_erase_other (tree : FileTree) {route other : Route} (distinct : route ≠ other) :
    (tree.erase route).get? other = tree.get? other := by
  simp only [get?, erase]
  split
  · rfl
  · congr 1
    rw [List.find?_filter]
    congr 1
    funext item
    by_cases same : item.1 = other
    · simp [same, Ne.symm distinct]
    · simp [same]

theorem get?_put_self (tree : FileTree) (entry : Entry) {route : Route} (below : route ≠ []) :
    (tree.put route entry).get? route = some entry := by
  simp only [get?, put, if_neg below]
  rw [List.find?_append]
  have gone : (tree.erase route).entries.find? (·.1 = route) = none := by
    simp [erase]
  simp [gone]

theorem get?_put_other (tree : FileTree) (entry : Entry) {route other : Route}
    (distinct : route ≠ other) : (tree.put route entry).get? other = tree.get? other := by
  rw [← get?_erase_other tree distinct]
  simp only [get?, put]
  split
  · rfl
  · rw [List.find?_append]
    simp [distinct]

@[simp] theorem get?_make (tree : FileTree) (route : Route) (content : List UInt8) :
    (tree.make route content).get? = (tree.put route (.file content)).get? := rfl

/-- Whether a directory stands at a place. -/
def isDirectoryAt (tree : FileTree) (route : Route) : Bool := tree.get? route == some .directory

/-- The places below a directory, written relative to it with a slash behind directories, in
ascending order. -/
def listing (tree : FileTree) (top : Route) : List String :=
  let shown := tree.entries.filterMap fun (route, entry) =>
    if top.isPrefixOf route && route != top then
      let text := "/".intercalate (route.drop top.length)
      some (match entry with
        | .directory => text ++ "/"
        | .file _ => text)
    else none
  shown.mergeSort (· ≤ ·)

end FileTree

end TraceStore
