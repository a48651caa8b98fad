import TraceStore.FileTree.Replace

/-!
# The names in a path

A path is taken apart at its slashes.  These are the laws of that: parts that are put together with
slashes are found again, a file behind a directory adds its name to the names of the directory, and
the directory that a path is written in has the names of the path but the last, dots aside.
-/

namespace TraceStore.Path

/-! ## Taking apart -/

/-- A text that can stand between slashes. -/
def IsName (name : String) : Prop := name ≠ "" ∧ '/' ∉ name.toList

theorem segments_slash (rest : List Char) : segments ('/' :: rest) = [] :: segments rest := rfl

/-- Any other character opens the first piece of what follows. -/
theorem segments_cons {character : Char} (other : character ≠ '/') (rest : List Char) :
    segments (character :: rest) =
      (character :: (segments rest).headD []) :: (segments rest).tail := by
  refine (if_neg other).trans ?_
  cases segments rest <;> rfl

theorem segments_ne_nil (characters : List Char) : segments characters ≠ [] := by
  cases characters with
  | nil => exact List.cons_ne_nil _ _
  | cons character rest =>
      by_cases slash : character = '/'
      · rw [slash, segments_slash]
        exact List.cons_ne_nil _ _
      · rw [segments_cons slash]
        exact List.cons_ne_nil _ _

theorem segments_append_slash (left right : List Char) :
    segments (left ++ '/' :: right) = segments left ++ segments right := by
  induction left with
  | nil => rfl
  | cons character left ih =>
      rw [List.cons_append]
      by_cases slash : character = '/'
      · rw [slash, segments_slash, segments_slash, ih, List.cons_append]
      · rw [segments_cons slash, segments_cons slash, ih]
        cases parts : segments left with
        | nil => exact absurd parts (segments_ne_nil left)
        | cons segment others => rfl

theorem segments_of_no_slash {characters : List Char} (plain : '/' ∉ characters) :
    segments characters = [characters] := by
  induction characters with
  | nil => rfl
  | cons character rest ih =>
      rw [segments_cons (Ne.symm (List.ne_of_not_mem_cons plain)),
        ih (List.not_mem_of_not_mem_cons plain)]
      rfl

theorem no_slash_of_mem_segments {characters segment : List Char}
    (member : segment ∈ segments characters) : '/' ∉ segment := by
  induction characters generalizing segment with
  | nil =>
      obtain rfl := List.mem_singleton.mp member
      exact List.not_mem_nil
  | cons character rest ih =>
      by_cases slash : character = '/'
      · rw [slash, segments_slash] at member
        rcases List.mem_cons.mp member with rfl | later
        · exact List.not_mem_nil
        · exact ih later
      · rw [segments_cons slash] at member
        cases parts : segments rest with
        | nil => exact absurd parts (segments_ne_nil rest)
        | cons first others =>
            rw [parts] at ih member
            rcases List.mem_cons.mp member with rfl | later
            · exact List.not_mem_cons_of_ne_of_not_mem (Ne.symm slash) (ih List.mem_cons_self)
            · exact ih (List.mem_cons_of_mem _ later)

theorem isName_of_mem_names {path name : String} (member : name ∈ names path) : IsName name := by
  rcases List.mem_map.mp member with ⟨segment, found, rfl⟩
  rcases List.mem_filter.mp found with ⟨found, nonempty⟩
  constructor
  · intro empty
    have none : segment = [] := by simpa using congrArg String.toList empty
    simp [none] at nonempty
  · simpa using no_slash_of_mem_segments found

@[simp] theorem names_empty : names "" = [] := rfl

theorem names_append_slash (left right : String) :
    names (left ++ "/" ++ right) = names left ++ names right := by
  simp [names, segments_append_slash]

theorem names_slash_append (path : String) : names ("/" ++ path) = names path := by
  simpa using names_append_slash "" path

theorem names_of_isName {name : String} (isName : IsName name) : names name = [name] := by
  rcases isName with ⟨nonempty, plain⟩
  have some : name.toList ≠ [] := by simpa using nonempty
  simp [names, segments_of_no_slash plain, some]

@[simp] theorem names_dot : names "." = ["."] :=
  names_of_isName ⟨by decide, by decide⟩

/-! ## Putting together -/

theorem names_joined {parts : List String} (all : ∀ part ∈ parts, IsName part) :
    names (joined parts) = parts := by
  induction parts using joined.induct with
  | case1 => exact names_empty
  | case2 name => exact names_of_isName (all name (by simp))
  | case3 name others _ ih =>
      have rest := ih fun part member => all part (by simp [member])
      rw [joined, names_append_slash, names_of_isName (all name (by simp)), rest]
      · rfl
      · assumption

@[simp] theorem names_ofParts (absolute : Bool) {parts : List String}
    (all : ∀ part ∈ parts, IsName part) : names (ofParts absolute parts) = parts := by
  cases absolute with
  | false => simpa [ofParts] using names_joined all
  | true => simpa [ofParts, names_slash_append] using names_joined all

theorem isAbsolute_of_isName {name : String} (isName : IsName name) : isAbsolute name = false := by
  cases letters : name.toList with
  | nil => simp [isAbsolute, letters]
  | cons first rest =>
      have plain := isName.2
      simp only [letters, List.mem_cons, not_or] at plain
      simp [isAbsolute, letters, Ne.symm plain.1]

/-- A file behind a directory, written out. -/
theorem join_of_isName (directory : String) {file : String} (isName : IsName file) :
    join directory file =
      if directory = "" ∨ directory.toList.getLast? = some '/' then directory ++ file
      else directory ++ "/" ++ file := by
  simp [join, isAbsolute_of_isName isName]

theorem names_join (directory : String) {file : String} (isName : IsName file) :
    names (join directory file) = names directory ++ [file] := by
  rw [join_of_isName directory isName]
  split
  · next closed =>
      cases closed with
      | inl empty => simp [empty, names_of_isName isName]
      | inr slash =>
          rcases List.getLast?_eq_some_iff.mp slash with ⟨front, whole⟩
          have split_ : directory = String.ofList front ++ "/" ++ "" := by
            apply String.toList_inj.mp
            simp [whole]
          rw [split_, String.append_assoc, String.empty_append, names_append_slash,
            names_append_slash, names_empty, List.append_nil, names_of_isName isName]
  · rw [names_append_slash, names_of_isName isName]

theorem isAbsolute_join (directory : String) {file : String} (isName : IsName file) :
    isAbsolute (join directory file) = isAbsolute directory := by
  have plain := isAbsolute_of_isName isName
  rw [join_of_isName directory isName]
  cases letters : directory.toList with
  | nil =>
      obtain rfl : directory = "" := by simpa using letters
      simpa [isAbsolute] using plain
  | cons first rest => split <;> simp [isAbsolute, letters]

end TraceStore.Path
