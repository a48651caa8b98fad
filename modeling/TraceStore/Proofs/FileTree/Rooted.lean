import TraceStore.Proofs.FileTree.Growth

/-!
# Trees without gaps

In a file system whatever stands in it stands in a directory.  A tree is no more than its entries,
so that this is a property of a tree (`Rooted`), and with a working directory that is there
(`RootedAt`) it is what the calls on a tree keep.

A place is `Accessible` if the root and all below it on the way to the place are directories.
Following names leads from one such place to another, also in a tree with gaps elsewhere.
-/

namespace TraceStore.FileTree

variable {tree other : FileTree} {working here place route : Route} {names : List String}
  {name : String}

/-- Whatever stands in a tree stands in a directory. -/
def Rooted (tree : FileTree) : Prop :=
  ∀ route name, tree.get? (route ++ [name]) ≠ none → tree.get? route = some .directory

theorem Rooted.directory_of_below (rooted : tree.Rooted) {route rest : Route} (below : rest ≠ [])
    (there : tree.get? (route ++ rest) ≠ none) : tree.get? route = some .directory := by
  induction rest generalizing route with
  | nil => exact absurd rfl below
  | cons name others ih =>
      refine rooted route name ?_
      cases others with
      | nil => exact there
      | cons next later =>
          have deeper : tree.get? ((route ++ [name]) ++ next :: later) ≠ none := by
            simpa using there
          simp [ih (by simp) deeper]

/-- A place and all on the way to it are directories. -/
def Accessible (tree : FileTree) (route : Route) : Prop :=
  ∀ front, front <+: route → tree.get? front = some .directory

theorem accessible_root (tree : FileTree) : tree.Accessible [] := by
  intro front isFront
  rw [List.prefix_nil.mp isFront, get?_root]

theorem Rooted.accessible (rooted : tree.Rooted) (there : tree.get? route = some .directory) :
    tree.Accessible route := by
  rintro front ⟨rest, rfl⟩
  by_cases whole : rest = []
  · simpa [whole] using there
  · exact rooted.directory_of_below whole (by simp [there])

namespace Accessible

theorem of_directories (accessible : tree.Accessible route)
    (kept : ∀ route, tree.get? route = some .directory → other.get? route = some .directory) :
    other.Accessible route :=
  fun front isFront => kept front (accessible front isFront)

theorem of_prefix (accessible : tree.Accessible route) (above : place <+: route) :
    tree.Accessible place :=
  fun front isFront => accessible front (isFront.trans above)

theorem concat (accessible : tree.Accessible route)
    (there : tree.get? (route ++ [name]) = some .directory) :
    tree.Accessible (route ++ [name]) := by
  intro front isFront
  rcases List.prefix_concat_iff.mp isFront with rfl | above
  · exact there
  · exact accessible front above

/-- Names that all lead to directories lead to an accessible place. -/
theorem walk (accessible : tree.Accessible here) (reached : tree.walk here names = .ok place) :
    tree.Accessible place := by
  induction names generalizing here with
  | nil =>
      obtain rfl : here = place := by simpa [FileTree.walk] using reached
      exact accessible
  | cons name others ih =>
      rw [FileTree.walk] at reached
      split at reached
      · exact ih accessible reached
      split at reached
      · exact ih (accessible.of_prefix here.dropLast_prefix) reached
      split at reached
      · simp at reached
      split at reached
      · simp at reached
      · simp at reached
      · next there => exact ih (accessible.concat there) reached

end Accessible

/-- A tree without gaps, and a working directory that is there. -/
structure RootedAt (tree : FileTree) (working : Route) : Prop where
  rooted : tree.Rooted
  working : tree.get? working = some .directory

/-- Paths start at accessible places. -/
theorem RootedAt.accessible_startOf (rootedAt : tree.RootedAt working) (path : String) :
    tree.Accessible (startOf working path) := by
  rw [startOf]
  split
  · exact tree.accessible_root
  · exact rootedAt.rooted.accessible rootedAt.working

theorem rootedAt_empty : ({} : FileTree).RootedAt [] where
  rooted := fun route name there => by simp [get?] at there
  working := rfl

end TraceStore.FileTree
