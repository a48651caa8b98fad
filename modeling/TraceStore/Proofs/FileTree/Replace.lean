import TraceStore.Proofs.FileTree.Growth

/-!
# Replacing a file

A replacement either fails, and then no more has happened than that directories were made, or it
sets the content of one file and makes the directories on the way to it.  Both ways of writing do
this: the file that the atomic way uses on its way has a name of its own and is gone afterwards.

`replace_error` and `replace_ok` say so of the tree, `read_replaced` and `read_replaced_other` of
what is read afterwards: the file that was replaced has its new content, and files of another name
are as before.
-/

namespace TraceStore.FileTree

/-! ## Names that are free -/

theorem le_foldl_max (lengths : List Nat) (start : Nat) :
    start ≤ lengths.foldl max start ∧ ∀ length ∈ lengths, length ≤ lengths.foldl max start := by
  induction lengths generalizing start with
  | nil => simp
  | cons first others ih =>
      rcases ih (max start first) with ⟨above, all⟩
      refine ⟨Nat.le_trans (Nat.le_max_left _ _) above, ?_⟩
      intro length member
      cases List.mem_cons.mp member with
      | inl same =>
          rw [same]
          exact Nat.le_trans (Nat.le_max_right _ _) above
      | inr other => exact all length other

/-- Nothing stands at a fresh name, in whichever directory. -/
theorem get?_freshName (tree : FileTree) (directory : Route) :
    tree.get? (directory ++ [tree.freshName]) = none := by
  have length : tree.freshName.length =
      4 + (tree.entries.map fun item => (item.1.getLastD "").length).foldl max 0 := by
    have four : ".tmp".length = 4 := by decide
    simp only [freshName, String.length_append, four, String.length_ofList, List.length_replicate]
  rw [get?, if_neg (by simp), Option.map_eq_none_iff, List.find?_eq_none]
  intro item member same
  have route : item.1 = directory ++ [tree.freshName] := by simpa using same
  have bound := (le_foldl_max (tree.entries.map fun item => (item.1.getLastD "").length) 0).2
    (item.1.getLastD "").length (List.mem_map_of_mem member)
  rw [route, List.getLastD_concat] at bound
  omega

/-! ## What a write leaves -/

/-- A file has a new content, and on the way to it directories were made where nothing stood. -/
structure Replaced (within : Route → Prop) (before : FileTree) (target : Route)
    (content : List UInt8) (after : FileTree) : Prop where
  below : target ≠ []
  noDirectory : before.get? target ≠ some .directory
  content_eq : after.get? target = some (.file content)
  other : ∀ route ≠ target, after.get? route = before.get? route ∨
    (within route ∧ before.get? route = none ∧ after.get? route = some .directory)

namespace Replaced

variable {within : Route → Prop} {before grown after : FileTree} {target : Route}
  {content : List UInt8}

theorem of_grows (grows : Grows within before grown)
    (replaced : Replaced within grown target content after) :
    Replaced within before target content after where
  below := replaced.below
  noDirectory there := replaced.noDirectory (grows.directory there)
  content_eq := replaced.content_eq
  other route distinct := by
    cases replaced.other route distinct with
    | inl same => rw [same]; exact grows route
    | inr made =>
        cases grows route with
        | inl same => exact .inr ⟨made.1, same ▸ made.2.1, made.2.2⟩
        | inr earlier => simp [earlier.2.2] at made

theorem directory (replaced : Replaced within before target content after) {route : Route}
    (there : before.get? route = some .directory) : after.get? route = some .directory := by
  have distinct : route ≠ target := fun same => replaced.noDirectory (same ▸ there)
  cases replaced.other route distinct with
  | inl same => rw [same, there]
  | inr made => exact made.2.2

/-- Every other file keeps its content. -/
theorem file_iff (replaced : Replaced within before target content after) {route : Route}
    (distinct : route ≠ target) (bytes : List UInt8) :
    after.get? route = some (.file bytes) ↔ before.get? route = some (.file bytes) := by
  cases replaced.other route distinct with
  | inl same => rw [same]
  | inr made => simp [made.2]

end Replaced

/-! ## Writing in place -/

theorem replaced_put (within : Route → Prop) {tree after : FileTree} {route : Route}
    {content : List UInt8} (below : route ≠ []) (free : tree.get? route ≠ some .directory)
    (put_ : after.get? = (tree.put route (.file content)).get?) :
    Replaced within tree route content after where
  below := below
  noDirectory := free
  content_eq := by rw [put_, get?_put_self tree _ below]
  other _ distinct := .inl (by rw [put_, get?_put_other tree _ (Ne.symm distinct)])

theorem overwrite_ok {tree after : FileTree} {working : Route} {path : String}
    {content : List UInt8} (written : tree.overwrite working path content = (.ok (), after))
    (within : Route → Prop) :
    ∃ directory name, tree.locate working path = .ok (.entry directory name false) ∧
      name.utf8ByteSize ≤ longestName ∧
      Replaced within tree (directory ++ [name]) content after := by
  rw [overwrite, openWrite] at written
  cases located : tree.locate working path with
  | error fault => simp [located] at written
  | ok target =>
      cases target with
      | directory route => simp [located] at written
      | entry directory name slash =>
          simp only [located] at written
          cases slash with
          | true => simp at written
          | false =>
              refine ⟨directory, name, rfl, ?_⟩
              by_cases long : longestName < name.utf8ByteSize
              · simp [long] at written
              · simp only [Bool.false_eq_true, if_false, if_neg long] at written
                refine ⟨Nat.le_of_not_lt long, ?_⟩
                cases there : tree.get? (directory ++ [name]) with
                | none =>
                    obtain rfl : tree.make (directory ++ [name]) content = after := by
                      simpa [there] using written
                    exact replaced_put within (by simp) (by simp [there]) rfl
                | some entry =>
                    cases entry with
                    | directory => simp [there] at written
                    | file old =>
                        obtain rfl : tree.put (directory ++ [name]) (.file content) = after := by
                          simpa [there] using written
                        exact replaced_put within (by simp) (by simp [there]) rfl

theorem overwrite_error {tree after : FileTree} {working : Route} {path : String}
    {content : List UInt8} {fault : FileFault}
    (refused : tree.overwrite working path content = (.error fault, after)) : after = tree := by
  rw [overwrite, openWrite] at refused
  grind

/-! ## Moving a fresh file -/

theorem moveFile_error {tree after : FileTree} {working source : Route} {content : List UInt8}
    {path : String} {fault : FileFault}
    (refused : tree.moveFile working source content path = (.error fault, after)) :
    after = tree := by
  rw [moveFile] at refused
  grind

theorem moveFile_ok {tree after : FileTree} {working source : Route} {content : List UInt8}
    {path : String} (moved : tree.moveFile working source content path = (.ok (), after)) :
    ∃ directory name, tree.locate working path = .ok (.entry directory name false) ∧
      name.utf8ByteSize ≤ longestName ∧ tree.get? (directory ++ [name]) ≠ some .directory ∧
      after = (tree.erase source).make (directory ++ [name]) content := by
  rw [moveFile] at moved
  cases located : tree.locate working path with
  | error fault => cases fault <;> simp [located] at moved
  | ok target =>
      cases target with
      | directory route => simp [located] at moved
      | entry directory name slash =>
          simp only [located] at moved
          by_cases long : longestName < name.utf8ByteSize
          · simp [long] at moved
          · rw [if_neg long] at moved
            cases slash with
            | true => simp at moved
            | false =>
                refine ⟨directory, name, rfl, Nat.le_of_not_lt long, ?_⟩
                simp only [Bool.false_eq_true, if_false] at moved
                split at moved
                · simp at moved
                · next notDirectory =>
                    obtain rfl :
                        (tree.erase source).make (directory ++ [name]) content = after := by
                      simpa using moved
                    exact ⟨notDirectory, rfl⟩

/-- A path that can be followed leads to the same target in every tree that has the same
directories. -/
theorem locate_of_directories {tree other : FileTree}
    (kept : ∀ route, tree.get? route = some .directory → other.get? route = some .directory)
    {working : Route} {path : String} {target : Target}
    (located : tree.locate working path = .ok target) :
    other.locate working path = .ok target := by
  rw [locate] at located ⊢
  split at located
  · simp at located
  · next noNul =>
      rw [if_neg noNul]
      split at located
      · simp at located
      · next nonempty =>
          rw [if_neg nonempty]
          split at located
          · simp at located
          · next fits =>
              rw [if_neg fits]
              cases last : (Path.names path).getLast? with
              | none => simpa [last] using located
              | some name =>
                  simp only [last] at located ⊢
                  split at located
                  · simp at located
                  · next reached => simpa [walk_of_directories kept reached] using located

/-- A fresh file that cannot be moved is taken away again. -/
theorem get?_erase_put (tree : FileTree) {route : Route} (below : route ≠ [])
    (free : tree.get? route = none) (entry : Entry) :
    ((tree.put route entry).erase route).get? = tree.get? := by
  funext other
  by_cases same : route = other
  · subst same
    rw [get?_erase_self _ below, free]
  · rw [get?_erase_other _ same, get?_put_other _ _ same]

/-! ## Replacing -/

/-- A replacement that fails has left the tree as making the directory left it. -/
theorem get?_of_replace_error {tree after : FileTree} {working : Route} {path : String}
    {content : List UInt8} {atomic : Bool} {fault : FileFault}
    (refused : tree.replace working path content atomic = (.error fault, after)) :
    after.get? = (tree.ensureDirectories working (homeOf path)).2.get? := by
  rw [replace] at refused
  split at refused
  · next made =>
      rcases Prod.mk.inj refused with ⟨-, rfl⟩
      rw [made]
  · next grown made =>
      rw [made]
      split at refused
      · split at refused
        · rcases Prod.mk.inj refused with ⟨-, rfl⟩
          rfl
        · next directory _ =>
            simp only at refused
            split at refused
            · next held moved =>
                rcases Prod.mk.inj refused with ⟨-, rfl⟩
                rw [moveFile_error moved]
                exact get?_erase_put grown (by simp) (get?_freshName grown directory) _
            · simp at refused
      · rw [overwrite_error refused]

/-- A replacement that succeeds has made the directory, and has then replaced the file that its path
leads to. -/
theorem replaced_of_replace_ok {tree after : FileTree} {working : Route} {path : String}
    {content : List UInt8} {atomic : Bool} (within : Route → Prop)
    (written : tree.replace working path content atomic = (.ok (), after)) :
    ∃ directory name, after.locate working path = .ok (.entry directory name false) ∧
      name.utf8ByteSize ≤ longestName ∧
      Replaced within (tree.ensureDirectories working (homeOf path)).2 (directory ++ [name]) content
        after := by
  suffices ∃ directory name, (tree.ensureDirectories working (homeOf path)).2.locate working path =
        .ok (.entry directory name false) ∧ name.utf8ByteSize ≤ longestName ∧
      Replaced within (tree.ensureDirectories working (homeOf path)).2 (directory ++ [name]) content
        after by
    rcases this with ⟨directory, name, located, fits, replaced⟩
    exact ⟨directory, name, locate_of_directories (fun _ => replaced.directory) located, fits,
      replaced⟩
  rw [replace] at written
  split at written
  · simp at written
  · next grown made =>
      rw [made]
      split at written
      · split at written
        · simp at written
        · next home _ =>
            have free := get?_freshName grown home
            simp only at written
            split at written
            · simp at written
            · next moved =>
                rcases Prod.mk.inj written with ⟨-, rfl⟩
                rcases moveFile_ok moved with ⟨directory, name, located, fits, notDirectory, rfl⟩
                have without (route : Route) (distinct : home ++ [grown.freshName] ≠ route) :=
                  get?_put_other grown (.file content) distinct
                refine ⟨directory, name, locate_of_directories ?_ located,
                  fits, replaced_put _ (by simp) ?_ ?_⟩
                · intro route there
                  by_cases same : home ++ [grown.freshName] = route
                  · rw [← same, get?_put_self grown _ (by simp)] at there
                    simp at there
                  · rwa [without route same] at there
                · intro there
                  by_cases same : home ++ [grown.freshName] = directory ++ [name]
                  · rw [← same, free] at there
                    simp at there
                  · exact notDirectory (by rwa [without _ same])
                · rw [get?_make]
                  funext route
                  by_cases target : directory ++ [name] = route
                  · rw [← target, get?_put_self _ _ (by simp), get?_put_self _ _ (by simp)]
                  · rw [get?_put_other _ _ target, get?_put_other _ _ target,
                      get?_erase_put grown (by simp) free]
      · exact overwrite_ok written within

/-- A replacement that fails has done no more than making the directory. -/
theorem replace_error {tree after : FileTree} {working : Route} {path : String}
    {content : List UInt8} {atomic : Bool} {fault : FileFault} {within : Route → Prop}
    (grows : Grows within tree (tree.ensureDirectories working (homeOf path)).2)
    (refused : tree.replace working path content atomic = (.error fault, after)) :
    Grows within tree after := by
  intro route
  rw [get?_of_replace_error refused]
  exact grows route

/-- A replacement that succeeds has made the directory, and has replaced the file that its path
leads to. -/
theorem replace_ok {tree after : FileTree} {working : Route} {path : String}
    {content : List UInt8} {atomic : Bool} {within : Route → Prop}
    (grows : Grows within tree (tree.ensureDirectories working (homeOf path)).2)
    (written : tree.replace working path content atomic = (.ok (), after)) :
    ∃ directory name, after.locate working path = .ok (.entry directory name false) ∧
      name.utf8ByteSize ≤ longestName ∧
      Replaced within tree (directory ++ [name]) content after := by
  rcases replaced_of_replace_ok within written with ⟨directory, name, located, fits, replaced⟩
  exact ⟨directory, name, located, fits, replaced.of_grows grows⟩

/-! ## Reading afterwards -/

theorem read_eq_ok_iff (tree : FileTree) (working : Route) (path : String) (bytes : List UInt8) :
    tree.read working path = .ok bytes ↔
      ∃ directory name, tree.locate working path = .ok (.entry directory name false) ∧
        name.utf8ByteSize ≤ longestName ∧
        tree.get? (directory ++ [name]) = some (.file bytes) := by
  rw [read, stat]
  constructor
  · intro found
    cases located : tree.locate working path with
    | error fault => simp [located] at found
    | ok target =>
        cases target with
        | directory route => simp [located] at found
        | entry directory name slash =>
            simp only [located] at found
            by_cases long : longestName < name.utf8ByteSize
            · simp [long] at found
            · rw [if_neg long] at found
              split at found
              · simp at found
              · simp at found
              · next content seen =>
                  obtain rfl : content = bytes := by simpa using found
                  split at seen
                  · simp at seen
                  · simp at seen
                  · next there =>
                      cases slash with
                      | true => simp at seen
                      | false =>
                          simp only [Bool.false_eq_true, if_false, Except.ok.injEq,
                            Entry.file.injEq] at seen
                          exact ⟨directory, name, rfl, Nat.le_of_not_lt long, seen ▸ there⟩
  · rintro ⟨directory, name, located, fits, there⟩
    simp [located, Nat.not_lt_of_le fits, there]

/-- What was written is read. -/
theorem read_replaced {tree after : FileTree} {working : Route} {path : String}
    {content : List UInt8} {atomic : Bool}
    (written : tree.replace working path content atomic = (.ok (), after)) :
    after.read working path = .ok content := by
  obtain ⟨directory, name, located, fits, replaced⟩ :=
    replace_ok (ensureDirectories_grows _ _ _) written
  exact (read_eq_ok_iff after working path content).mpr
    ⟨directory, name, located, fits, replaced.content_eq⟩

/-- The last name of a path that leads to an entry is the name of that entry. -/
theorem getLast?_names {tree : FileTree} {working directory : Route} {path name : String}
    {slash : Bool} (located : tree.locate working path = .ok (.entry directory name slash)) :
    (Path.names path).getLast? = some name := by
  rcases of_locate_eq_entry located with ⟨-, -, -, -, front, whole, -⟩
  simp [whole]

/-- A file of another name is read as before. -/
theorem read_replaced_other {tree after : FileTree} {working : Route} {path other : String}
    {content bytes : List UInt8} {atomic : Bool}
    (written : tree.replace working path content atomic = (.ok (), after))
    (distinct : (Path.names other).getLast? ≠ (Path.names path).getLast?)
    (there : tree.read working other = .ok bytes) : after.read working other = .ok bytes := by
  obtain ⟨directory, name, located, -, replaced⟩ :=
    replace_ok (ensureDirectories_grows _ _ _) written
  rcases (read_eq_ok_iff tree working other bytes).mp there with ⟨place, file, found, fits, held⟩
  have elsewhere : place ++ [file] ≠ directory ++ [name] := by
    intro same
    rw [getLast?_names located, getLast?_names found] at distinct
    exact distinct (congrArg some (List.append_inj_right' same rfl |> List.singleton_inj.mp))
  exact (read_eq_ok_iff after working other bytes).mpr
    ⟨place, file, locate_of_directories (fun _ => replaced.directory) found, fits,
      (replaced.file_iff elsewhere bytes).mpr held⟩

end TraceStore.FileTree
