/-!
# Paths

A path is a text: names separated by slashes, where repeated slashes count once.  It is absolute if
it starts with a slash.  `Path.parent?` and `Path.join` work on the text alone and disregard a dot
between names; what a path leads to is decided by the tree it is used with.
-/

namespace TraceStore.Path

/-- The pieces of a text between slashes, empty ones included. -/
def segments : List Char → List (List Char)
  | [] => [[]]
  | character :: rest =>
      if character = '/' then [] :: segments rest
      else
        match segments rest with
        | [] => [[character]]
        | segment :: others => (character :: segment) :: others

/-- The names of a path, dots included. -/
def names (path : String) : List String :=
  ((segments path.toList).filter (· ≠ [])).map String.ofList

/-- Whether a path starts at the root. -/
def isAbsolute (path : String) : Bool := path.toList.head? = some '/'

/-- Whether a path ends in a slash behind a name, and so has to lead to a directory. -/
def endsInSlash (path : String) : Bool :=
  path.toList.getLast? = some '/' && !(names path).isEmpty

/-- The parts of a path: its names without dots, except a dot that opens a relative path. -/
def parts (path : String) : List String :=
  match names path with
  | "." :: others => (if isAbsolute path then [] else ["."]) ++ others.filter (· ≠ ".")
  | all => all.filter (· ≠ ".")

/-- Names with a slash between each two. -/
def joined : List String → String
  | [] => ""
  | [name] => name
  | name :: others => name ++ "/" ++ joined others

/-- The path made of given parts. -/
def ofParts (absolute : Bool) (parts : List String) : String :=
  (if absolute then "/" else "") ++ joined parts

/-- The path of the directory that holds what a path leads to; a root and an empty path have
none. -/
def parent? (path : String) : Option String :=
  match parts path with
  | [] => none
  | part :: others => some (ofParts (isAbsolute path) (part :: others).dropLast)

/-- A path behind a directory; an absolute path stands for itself. -/
def join (directory path : String) : String :=
  if isAbsolute path then path
  else if directory.isEmpty || directory.toList.getLast? = some '/' then directory ++ path
  else directory ++ "/" ++ path

/-- What is left of two lists of names behind their common beginning. -/
def diverge : List String → List String → List String × List String
  | left :: lefts, right :: rights =>
      if left = right then diverge lefts rights else (left :: lefts, right :: rights)
  | lefts, rights => (lefts, rights)

/-- A path as seen from a directory that is given by its names. -/
def relativeTo (base : List String) (path : String) : String :=
  if isAbsolute path then
    let (above, below) := diverge base (parts path)
    joined (above.map (fun _ => "..") ++ below)
  else path

end TraceStore.Path
