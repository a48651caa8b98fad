import TraceStore.FileTree.System

/-!
# Replacing a file

Records are replaced as a whole.  In atomic mode the bytes go to a fresh file in the target's
directory, which is then moved onto the target, so the target is the old record or the new one at
any moment.  In direct mode the target is written in place, for file systems that do not allow the
move.  Either way the directory is made first if it is missing.
-/

namespace TraceStore.FileTree

/-- The directory that a path is written in: the one above it, or the working directory. -/
def homeOf (path : String) : String :=
  match Path.parent? path with
  | some above => if above.isEmpty then "." else above
  | none => "."

/-- A name that no entry of the tree has. -/
def freshName (tree : FileTree) : String :=
  let longest := (tree.entries.map fun (route, _) => (route.getLastD "").length).foldl max 0
  ".tmp" ++ String.ofList (List.replicate longest 'x')

/-- The place that a path to a directory leads to. -/
def directoryAt (tree : FileTree) (working : Route) (path : String) : Except FileFault Route :=
  if path.isEmpty then .error .missing
  else tree.walk (if Path.isAbsolute path then [] else working) (Path.names path)

/-- Replaces a file, or creates it. -/
def replace (tree : FileTree) (working : Route) (path : String) (content : List UInt8)
    (atomic : Bool) : Except FileFault Unit × FileTree :=
  match tree.ensureDirectories working (homeOf path) with
  | (.error fault, grown) => (.error fault, grown)
  | (.ok (), grown) =>
      if atomic then
        match grown.directoryAt working (homeOf path) with
        | .error fault => (.error fault, grown)
        | .ok directory =>
            let temporary := directory ++ [grown.freshName]
            match (grown.put temporary (.file content)).moveFile working temporary content path with
            | (.error fault, held) => (.error fault, held.erase temporary)
            | (.ok (), replaced) => (.ok (), replaced)
      else grown.overwrite working path content

end TraceStore.FileTree
