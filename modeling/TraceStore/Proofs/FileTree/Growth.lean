import TraceStore.Proofs.FileTree.Path

/-!
# Making directories

`FileTree.Grows` says that directories were made where nothing stood, and that all else is as it
was.  A tree that grows answers every look-up as before, unless the answer was that something is
missing: `read_of_grows`.

Directories are made on the way to a path.  As long as the path does not step back, the places on
the way are the beginnings of one route: `ensureDirectories_grows`.
-/

namespace TraceStore

/-! ## The names that lead on -/

namespace Path

/-- The names of a path without dots. -/
def steps (path : String) : List String := (names path).filter (· ≠ ".")

/-- The parts of a path are its steps, behind a dot that opened a relative path. -/
theorem parts_eq_append (path : String) :
    ∃ lead, (lead = [] ∨ lead = ["."]) ∧ parts path = lead ++ steps path := by
  rw [parts, steps]
  split
  · next others whole =>
      refine ⟨if isAbsolute path then [] else ["."], by split <;> simp, ?_⟩
      simp [whole]
  · exact ⟨[], .inl rfl, rfl⟩

theorem isName_of_mem_parts {path part : String} (member : part ∈ parts path) : IsName part := by
  rcases parts_eq_append path with ⟨lead, isLead, whole⟩
  rw [whole] at member
  cases List.mem_append.mp member with
  | inl first =>
      cases isLead with
      | inl none => simp [none] at first
      | inr dot =>
          obtain rfl : part = "." := by simpa [dot] using first
          exact ⟨by decide, by decide⟩
  | inr step => exact isName_of_mem_names (List.mem_filter.mp step).1

theorem isAbsolute_ofParts (absolute : Bool) {parts : List String}
    (all : ∀ part ∈ parts, IsName part) : isAbsolute (ofParts absolute parts) = absolute := by
  cases absolute with
  | true => simp [isAbsolute, ofParts]
  | false =>
      cases parts with
      | nil => simp [isAbsolute, ofParts, joined]
      | cons part others =>
          have first := isAbsolute_of_isName (all part (by simp))
          obtain ⟨nonempty, -⟩ := all part (by simp)
          cases letters : part.toList with
          | nil => exact absurd (by simpa using letters) nonempty
          | cons letter rest =>
              cases others with
              | nil => simpa [isAbsolute, ofParts, joined, letters] using first
              | cons other others => simpa [isAbsolute, ofParts, joined, letters] using first

/-- What a path and the path of the directory above it have in common. -/
structure Above (above path : String) : Prop where
  steps_eq : steps above = (steps path).dropLast
  isAbsolute_eq : isAbsolute above = isAbsolute path
  back : ".." ∈ names above → ".." ∈ names path

theorem above_of_parent? {path above : String} (parent : parent? path = some above) :
    Above above path := by
  rcases parts_eq_append path with ⟨lead, isLead, whole⟩
  have all : ∀ part ∈ (parts path).dropLast, IsName part := fun part member =>
    isName_of_mem_parts (List.dropLast_subset _ member)
  obtain rfl : ofParts (isAbsolute path) (parts path).dropLast = above := by
    rw [parent?] at parent
    split at parent
    · simp at parent
    · next found => simpa [found] using parent
  have noDots : lead.filter (· ≠ ".") = [] := by
    cases isLead with
    | inl none => simp [none]
    | inr dot => simp [dot]
  refine ⟨?_, isAbsolute_ofParts _ all, ?_⟩
  · rw [steps, names_ofParts _ all, whole]
    cases List.eq_nil_or_concat (steps path) with
    | inl none =>
        rw [none, List.append_nil]
        cases isLead with
        | inl none => simp [none]
        | inr dot => simp [dot]
    | inr some =>
        rcases some with ⟨front, last, split_⟩
        have idle : ∀ name ∈ front, name ≠ "." := fun name member => by
          have isStep : name ∈ steps path := by simp [split_, member]
          exact of_decide_eq_true (List.mem_filter.mp isStep).2
        rw [split_, List.concat_eq_append, ← List.append_assoc, List.dropLast_concat,
          List.dropLast_concat, List.filter_append, noDots, List.nil_append]
        exact List.filter_eq_self.mpr fun name member => decide_eq_true (idle name member)
  · intro member
    rw [names_ofParts _ all, whole] at member
    cases List.mem_append.mp (List.dropLast_subset _ member) with
    | inl first =>
        cases isLead with
        | inl none => simp [none] at first
        | inr dot => simp [dot] at first
    | inr step => exact (List.mem_filter.mp step).1

/-- The directory that a path is written in. -/
theorem above_homeOf {path : String} (leads : steps path ≠ []) :
    Above (FileTree.homeOf path) path := by
  rcases parts_eq_append path with ⟨lead, isLead, whole⟩
  rw [FileTree.homeOf]
  split
  · next above parent =>
      have found := above_of_parent? parent
      split
      · next empty =>
          obtain rfl : above = "" := by simpa using empty
          exact ⟨by simpa [steps] using found.steps_eq,
            by simpa [isAbsolute] using found.isAbsolute_eq, by simp⟩
      · exact found
  · next none =>
      rw [parent?] at none
      split at none
      · next empty => simp [empty] at whole; exact absurd whole.2 leads
      · simp at none

end Path

namespace FileTree

/-! ## Growing -/

/-- Directories were made where nothing stood, all at places of a kind. -/
def Grows (within : Route → Prop) (before after : FileTree) : Prop :=
  ∀ route, after.get? route = before.get? route ∨
    (within route ∧ before.get? route = none ∧ after.get? route = some .directory)

variable {within : Route → Prop} {before between after : FileTree}

namespace Grows

@[refl] theorem refl (within : Route → Prop) (tree : FileTree) : Grows within tree tree :=
  fun _ => .inl rfl

theorem trans (first : Grows within before between) (second : Grows within between after) :
    Grows within before after := by
  intro route
  cases first route with
  | inl same =>
      cases second route with
      | inl again => exact .inl (again.trans same)
      | inr made => exact .inr ⟨made.1, same ▸ made.2.1, made.2.2⟩
  | inr made =>
      cases second route with
      | inl again => exact .inr ⟨made.1, made.2.1, again.trans made.2.2⟩
      | inr twice => simp [made.2.2] at twice

theorem weaken {wider : Route → Prop} (grows : Grows within before after)
    (more : ∀ route, within route → wider route) : Grows wider before after :=
  fun route => (grows route).imp_right fun made => ⟨more route made.1, made.2⟩

theorem directory (grows : Grows within before after) {route : Route}
    (there : before.get? route = some .directory) : after.get? route = some .directory := by
  cases grows route with
  | inl same => rw [same, there]
  | inr made => exact made.2.2

theorem file_iff (grows : Grows within before after) (route : Route) (content : List UInt8) :
    after.get? route = some (.file content) ↔ before.get? route = some (.file content) := by
  cases grows route with
  | inl same => rw [same]
  | inr made => simp [made.2]

end Grows

/-- A directory made where nothing stood. -/
theorem grows_put (tree : FileTree) {route : Route} (below : route ≠ []) (holds : within route)
    (free : tree.get? route = none) : Grows within tree (tree.put route .directory) := by
  intro other
  by_cases same : route = other
  · subst same
    exact .inr ⟨holds, free, get?_put_self tree .directory below⟩
  · exact .inl (get?_put_other tree .directory same)

/-! ## Looking up in a tree that has grown -/

/-- Names lead to the same place in every tree that has the same directories. -/
theorem walk_of_directories {tree other : FileTree}
    (kept : ∀ route, tree.get? route = some .directory → other.get? route = some .directory)
    {here route : Route} {names : List String} (reached : tree.walk here names = .ok route) :
    other.walk here names = .ok route := by
  induction names generalizing here with
  | nil => exact reached
  | cons name others ih =>
      rw [walk] at reached ⊢
      split at reached
      · next dot => rw [if_pos dot]; exact ih reached
      · next noDot =>
          rw [if_neg noDot]
          split at reached
          · next back => rw [if_pos back]; exact ih reached
          · next noBack =>
              rw [if_neg noBack]
              split at reached
              · simp at reached
              · next fits =>
                  rw [if_neg fits]
                  split at reached
                  · simp at reached
                  · simp at reached
                  · next found =>
                      simp only [kept _ found]
                      exact ih reached

theorem walk_of_grows (grows : Grows within before after) {here : Route} {names : List String}
    (found : before.walk here names ≠ .error .missing) :
    after.walk here names = before.walk here names := by
  induction names generalizing here with
  | nil => rfl
  | cons name others ih =>
      rw [walk] at found
      rw [walk, walk]
      split at found
      · next dot => rw [if_pos dot, if_pos dot]; exact ih found
      · next noDot =>
          rw [if_neg noDot, if_neg noDot]
          split at found
          · next back => rw [if_pos back, if_pos back]; exact ih found
          · next noBack =>
              rw [if_neg noBack, if_neg noBack]
              split at found
              · next long => rw [if_pos long, if_pos long]
              · next fits =>
                  rw [if_neg fits, if_neg fits]
                  split at found
                  · simp at found
                  · next content there =>
                      simp only [(grows.file_iff _ content).mpr there]
                  · next there =>
                      simp only [grows.directory there]
                      exact ih found

theorem locate_of_grows (grows : Grows within before after) {working : Route} {path : String}
    (found : before.locate working path ≠ .error .missing) :
    after.locate working path = before.locate working path := by
  rw [locate] at found
  rw [locate, locate]
  split at found
  · next nul => rw [if_pos nul, if_pos nul]
  · next noNul =>
      rw [if_neg noNul, if_neg noNul]
      split at found
      · next empty => rw [if_pos empty, if_pos empty]
      · next nonempty =>
          rw [if_neg nonempty, if_neg nonempty]
          split at found
          · next long => rw [if_pos long, if_pos long]
          · next fits =>
              rw [if_neg fits, if_neg fits]
              cases last : (Path.names path).getLast? with
              | none => rfl
              | some name =>
                  simp only [last] at found ⊢
                  rw [walk_of_grows grows]
                  intro missing
                  simp [missing] at found

theorem stat_of_grows (grows : Grows within before after) {working : Route} {path : String}
    (found : before.stat working path ≠ .error .missing) :
    after.stat working path = before.stat working path := by
  have located : before.locate working path ≠ .error .missing := by
    intro missing
    simp [stat, missing] at found
  rw [stat] at found
  rw [stat, stat, locate_of_grows grows located]
  cases place : before.locate working path with
  | error fault => rfl
  | ok target =>
      cases target with
      | directory route => rfl
      | entry directory name slash =>
          simp only [place] at found ⊢
          split
          · rfl
          · next fits =>
              rw [if_neg fits] at found
              cases there : before.get? (directory ++ [name]) with
              | none => simp [there] at found
              | some entry =>
                  cases entry with
                  | directory => simp only [grows.directory there]
                  | file content => simp only [(grows.file_iff _ content).mpr there]

/-- What was found is found in a tree that has grown. -/
theorem read_of_grows (grows : Grows within before after) {working : Route} {path : String}
    (found : before.read working path ≠ .error .missing) :
    after.read working path = before.read working path := by
  have seen : before.stat working path ≠ .error .missing := by
    intro missing
    simp [read, missing] at found
  rw [read, read, stat_of_grows grows seen]

/-! ## Where a path leads -/

/-- Where a path starts. -/
def startOf (working : Route) (path : String) : Route :=
  if Path.isAbsolute path then [] else working

theorem walk_append (tree : FileTree) (here : Route) (front back : List String) :
    tree.walk here (front ++ back) =
      (tree.walk here front).bind fun there => tree.walk there back := by
  induction front generalizing here with
  | nil => rfl
  | cons name others ih =>
      rw [List.cons_append, walk, walk]
      split
      · exact ih here
      · split
        · exact ih here.dropLast
        · split
          · rfl
          · split
            · rfl
            · rfl
            · exact ih (here ++ [name])

/-- Dots between names lead nowhere else. -/
theorem walk_filter (tree : FileTree) (here : Route) (names : List String) :
    tree.walk here (names.filter (· ≠ ".")) = tree.walk here names := by
  induction names generalizing here with
  | nil => rfl
  | cons name others ih =>
      rw [walk]
      split
      · next dot => simpa [dot] using ih here
      · next noDot =>
          have kept : (name :: others).filter (· ≠ ".") = name :: others.filter (· ≠ ".") := by
            simp [noDot]
          rw [kept, walk, if_neg noDot, ih here.dropLast]
          simp only [ih (here ++ [name])]

/-- A path that the system looks at. -/
structure Admissible (path : String) : Prop where
  noNul : '\x00' ∉ path.toList
  nonempty : path ≠ ""
  fits : path.utf8ByteSize ≤ longestPath

/-- Without steps back, names lead to the place that they spell out. -/
theorem walk_eq_append {tree : FileTree} {here route : Route} {names : List String}
    (reached : tree.walk here names = .ok route) (onward : ".." ∉ names) :
    route = here ++ names.filter (· ≠ ".") := by
  induction names generalizing here with
  | nil => simpa [walk, eq_comm] using reached
  | cons name others ih =>
      simp only [List.mem_cons, not_or] at onward
      rw [walk] at reached
      split at reached
      · next dot => simpa [dot] using ih reached onward.2
      · next noDot =>
          rw [if_neg (Ne.symm onward.1)] at reached
          split at reached
          · simp at reached
          · split at reached
            · simp at reached
            · simp at reached
            · simpa [noDot] using ih reached onward.2

/-- A path leads where its last name leads from the directory that the names before it lead to. -/
theorem locate_eq (tree : FileTree) (working : Route) {path : String} (admissible : Admissible path)
    {front : List String} {name : String} (whole : Path.names path = front ++ [name]) :
    tree.locate working path =
      (tree.walk (startOf working path) front).map fun directory =>
        if name = "." then .directory directory
        else if name = ".." then .directory directory.dropLast
        else .entry directory name (Path.endsInSlash path) := by
  rcases admissible with ⟨noNul, nonempty, fits⟩
  rw [locate, if_neg (by simpa using noNul), if_neg (by simpa using nonempty),
    if_neg (Nat.not_lt_of_le fits)]
  simp only [whole, List.getLast?_concat, List.dropLast_concat, startOf]
  split
  · next failed => rw [failed]; rfl
  · next found =>
      rw [found, Except.map]
      split
      · rfl
      · split <;> rfl

/-- A path whose last name is no dot leads to an entry of the directory that the names before it
lead to. -/
theorem locate_eq_entry {tree : FileTree} {working : Route} {path : String}
    (admissible : Admissible path) {front : List String} {name : String}
    (whole : Path.names path = front ++ [name]) (noDot : name ≠ ".") (noBack : name ≠ "..") :
    tree.locate working path =
      (tree.walk (startOf working path) front).map fun directory =>
        .entry directory name (Path.endsInSlash path) := by
  simp only [locate_eq tree working admissible whole, if_neg noDot, if_neg noBack]

theorem of_locate_eq_entry {tree : FileTree} {working : Route} {path : String}
    {directory : Route} {name : String} {slash : Bool}
    (located : tree.locate working path = .ok (.entry directory name slash)) :
    Admissible path ∧ name ≠ "." ∧ name ≠ ".." ∧ slash = Path.endsInSlash path ∧
      ∃ front, Path.names path = front ++ [name] ∧
        tree.walk (startOf working path) front = .ok directory := by
  rw [locate] at located
  split at located
  · simp at located
  · next noNul =>
      split at located
      · simp at located
      · next nonempty =>
          split at located
          · simp at located
          · next fits =>
              have admissible : Admissible path :=
                ⟨by simpa using noNul, by simpa using nonempty, Nat.le_of_not_lt fits⟩
              simp only at located
              split at located
              · simp at located
              · next last found =>
                  rcases List.getLast?_eq_some_iff.mp found with ⟨front, whole⟩
                  rw [whole, List.dropLast_concat] at located
                  split at located
                  · simp at located
                  · next place reached =>
                      split at located
                      · simp at located
                      · next noDot =>
                          split at located
                          · simp at located
                          · next noBack =>
                              obtain ⟨rfl, rfl, rfl⟩ :
                                  place = directory ∧ last = name ∧
                                    Path.endsInSlash path = slash := by
                                simpa using located
                              exact ⟨admissible, noDot, noBack, rfl, front, whole, reached⟩

/-! ## Directories on the way -/

/-- A place that the names of a path lead to, or some at its beginning, dots aside. -/
def Leads (tree : FileTree) (working : Route) (path : String) (route : Route) : Prop :=
  ∃ front, front <+: Path.steps path ∧ tree.walk (startOf working path) front = .ok route

namespace Leads

variable {tree other : FileTree} {working route : Route} {path above : String}

theorem of_directories (leads : Leads tree working path route)
    (kept : ∀ route, tree.get? route = some .directory → other.get? route = some .directory) :
    Leads other working path route := by
  rcases leads with ⟨front, beginning, reached⟩
  exact ⟨front, beginning, walk_of_directories kept reached⟩

theorem of_above (leads : Leads tree working above route) (isAbove : Path.Above above path) :
    Leads tree working path route := by
  rcases leads with ⟨front, beginning, reached⟩
  rw [isAbove.steps_eq] at beginning
  rw [startOf, isAbove.isAbsolute_eq, ← startOf] at reached
  exact ⟨front, beginning.trans (List.dropLast_prefix _), reached⟩

end Leads

theorem makeDirectory_grows (tree : FileTree) (working : Route) (path : String) :
    Grows (Leads (tree.makeDirectory working path).2 working path) tree
      (tree.makeDirectory working path).2 := by
  rw [makeDirectory]
  split
  · exact .refl _ _
  · exact .refl _ _
  · next directory name slash located =>
      rcases of_locate_eq_entry located with ⟨-, noDot, noBack, -, front, whole, reached⟩
      split
      · exact .refl _ _
      · next short =>
          split
          · exact .refl _ _
          · next free =>
              have grows : Grows (fun _ => True) tree (tree.put (directory ++ [name]) .directory) :=
                grows_put tree (by simp) trivial free
              have made : (tree.put (directory ++ [name]) .directory).get? (directory ++ [name]) =
                  some .directory := get?_put_self tree .directory (by simp)
              refine grows_put tree (by simp) ⟨Path.steps path, List.prefix_rfl, ?_⟩ free
              have walked := walk_of_directories (fun _ => grows.directory) reached
              rw [Path.steps, walk_filter, whole, walk_append, walked]
              simp [Except.bind, walk, noDot, noBack, short, made]

theorem ensureDirectory_grows (tree : FileTree) (working : Route) (path : String) :
    Grows (Leads (tree.ensureDirectory working path).2 working path) tree
      (tree.ensureDirectory working path).2 := by
  have made := makeDirectory_grows tree working path
  rw [ensureDirectory]
  split
  · next result => rwa [result] at made
  · split <;> exact .refl _ _

theorem ensureLevels_grows (tree : FileTree) (working : Route) (levels : Nat) (path : String) :
    Grows (Leads (tree.ensureLevels working levels path).2 working path) tree
      (tree.ensureLevels working levels path).2 := by
  induction levels generalizing path with
  | zero => exact .refl _ _
  | succ levels ih =>
      rw [ensureLevels]
      split
      · exact .refl _ _
      · split
        · split
          · exact .refl _ _
          · next above parent =>
              have isAbove := Path.above_of_parent? parent
              have first := ih above
              split
              · next result =>
                  rw [result] at first
                  exact first.weaken fun route leads => leads.of_above isAbove
              · next grown result =>
                  rw [result] at first
                  have second := ensureDirectory_grows grown working path
                  refine Grows.trans ?_ second
                  exact first.weaken fun route leads =>
                    (leads.of_above isAbove).of_directories fun _ => second.directory
        · exact ensureDirectory_grows tree working path

/-- Making a directory and the missing ones above it makes nothing else. -/
theorem ensureDirectories_leads (tree : FileTree) (working : Route) (path : String) :
    Grows (Leads (tree.ensureDirectories working path).2 working path) tree
      (tree.ensureDirectories working path).2 :=
  ensureLevels_grows tree working _ path

/-- A place on the way that a path takes.  Nothing is said of a path that steps back. -/
def OnWay (working : Route) (path : String) (route : Route) : Prop :=
  ".." ∉ Path.names path → route <+: startOf working path ++ Path.steps path

theorem Leads.onWay {tree : FileTree} {working route : Route} {path : String}
    (leads : Leads tree working path route) : OnWay working path route := by
  rcases leads with ⟨front, beginning, reached⟩
  intro onward
  have isStep : ∀ name ∈ front, name ∈ Path.names path ∧ name ≠ "." := by
    intro name member
    simpa [Path.steps] using beginning.subset member
  have same : front.filter (· ≠ ".") = front :=
    List.filter_eq_self.mpr fun name member => decide_eq_true (isStep name member).2
  rw [walk_eq_append reached fun back => onward (isStep ".." back).1, same]
  exact (List.prefix_append_right_inj _).mpr beginning

/-- The directories that are made stand on the way. -/
theorem ensureDirectories_grows (tree : FileTree) (working : Route) (path : String) :
    Grows (OnWay working path) tree (tree.ensureDirectories working path).2 :=
  (ensureDirectories_leads tree working path).weaken fun _ leads => leads.onWay

end FileTree

end TraceStore
