import TraceStore.Toml.Moment

/-!
# TOML documents

A document is a sequence of lines: a key with a value, the header of a table, the header of one
more table of a list, or nothing but blanks and a comment.  Keys go to the table opened last, which
takes its place in the document when the next one is opened.  At the end the tables that stand for
dates and times give way to these; a document that stands for one itself is no table.
-/

namespace TraceStore.Toml

/-! ## Values -/

/-- The elements of a list up to its closing bracket. -/
def readElements (element : Reader Value) : (rounds : Nat) → (seen : List Value) → Reader Value
  | 0, _, _ => none
  | rounds + 1, seen, text =>
      match skipGaps (text.length + 1) text with
      | ']' :: rest => some (.list seen.reverse, rest)
      | text =>
          match element text with
          | none => none
          | some (value, rest) =>
              match skipGaps (rest.length + 1) rest with
              | ']' :: rest => some (.list (value :: seen).reverse, rest)
              | ',' :: rest => readElements element rounds (value :: seen) rest
              | _ => none

/-- A key and its value. -/
def readPair (element : Reader Value) : Reader ((List String × String) × Value) := fun text => do
  let (key, rest) ← readKey text
  let (_, rest) ← expect '=' rest
  let (value, rest) ← element (skipBlanks rest)
  return ((key, value), rest)

/-- The members of a table in braces up to the closing one; there is at least one. -/
def readBraces (element : Reader Value) : (rounds : Nat) → Members → Reader Value
  | 0, _, _ => none
  | rounds + 1, members, text =>
      match readPair element text with
      | none => none
      | some (((path, key), value), rest) =>
          match insert path key value members with
          | none => none
          | some members =>
              match skipBlanks rest with
              | '}' :: rest => some (.table .braces members, rest)
              | ',' :: rest => readBraces element rounds members rest
              | _ => none

/-- A number, a date or a time. -/
def readNumeral : Reader Value := fun text =>
  (readMoment text).map (fun (value, rest) => (Value.moment value, rest)) <|>
  (readReal text).map (fun (value, rest) => (Value.real value, rest)) <|>
  (readNamedReal text).map (fun (value, rest) => (Value.real value, rest)) <|>
  (readInteger text).map (fun (value, rest) => (Value.integer value, rest))

/-- The value at the front of a text.  `element` reads the values inside brackets; it is absent at
the nesting limit. -/
def readShape (element : Option (Reader Value)) : Reader Value
  | '[' :: rest => do readElements (← element) (rest.length + 1) [] rest
  | '{' :: rest => do
      let element ← element
      match skipBlanks rest with
      | '}' :: rest => some (.table .braces [], rest)
      | _ => readBraces element (rest.length + 1) [] rest
  | 't' :: 'r' :: 'u' :: 'e' :: rest => some (.boolean true, rest)
  | 'f' :: 'a' :: 'l' :: 's' :: 'e' :: rest => some (.boolean false, rest)
  | text =>
      match text.head? with
      | none => none
      | some first =>
          if first = '"' || first = '\'' then
            (readString text).map fun (value, rest) => (.text value, rest)
          else readNumeral text

/-- Reads any value, with `budget` levels of nesting left. -/
def readValue : (budget : Nat) → Reader Value
  | 0 => readShape none
  | budget + 1 => readShape (some (readValue budget))

/-! ## Lines -/

/-- A document as read so far: the tables that are complete, and the one that is open. -/
structure Draft where
  root : Members := []
  /-- The path of the open table; empty for the document itself. -/
  path : List String := []
  /-- Whether the open table is one of a list. -/
  listed : Bool := false
  open_ : Members := []
  deriving Repr, Inhabited

/-- Changes the table above the last key of a path, which headers lead to. -/
def above (path : List String) (change : String → Members → Option Members) (root : Members) :
    Option Members :=
  match path.getLast? with
  | none => none
  | some key => within false (fun _ => change key) path.dropLast false root

/-- Puts the open table into its place. -/
def Draft.close (draft : Draft) : Option Members :=
  if draft.path.isEmpty then some draft.open_
  else
    above draft.path
      (fun key members =>
        if draft.listed then
          match find? members key with
          | none => some (members ++ [(key, .tables [draft.open_])])
          | some (.tables all) => some (set key (.tables (all ++ [draft.open_])) members)
          | some _ => none
        else
          match find? members key with
          | none => some (members ++ [(key, .table .header draft.open_)])
          | some _ => none)
      draft.root

/-- Opens a table.  One that exists may be opened only if just headers below it imply it so far. -/
def Draft.openTable (draft : Draft) (path : List String) : Option Draft := do
  let root ← draft.close
  let key ← path.getLast?
  let existing ← match reach path.dropLast root with
    | some (.table .impliedByHeader members) => some members
    | some _ => none
    | none => some []
  let root ← above path (fun _ members => some (members.filter (·.1 ≠ key))) root
  return ⟨root, path, false, existing⟩
where
  /-- The value that stands at the end of a path already. -/
  reach : List String → Members → Option Value
    | [], members => path.getLast?.bind (find? members)
    | key :: rest, members =>
        match find? members key with
        | some (.table _ inner) => reach rest inner
        | some (.tables all) => all.getLast?.bind (reach rest)
        | _ => none

/-- Opens one more table of a list. -/
def Draft.openListed (draft : Draft) (path : List String) : Option Draft := do
  let root ← draft.close
  let root ← above path
    (fun key members =>
      match find? members key with
      | none => some (members ++ [(key, .tables [])])
      | some (.tables _) => some members
      | some _ => none)
    root
  return ⟨root, path, true, []⟩

/-- A header behind its opening bracket. -/
def readHeader (draft : Draft) : Reader Draft
  | '[' :: rest => do
      let ((path, key), rest) ← readKey rest
      let (_, rest) ← expect ']' rest
      let (_, rest) ← expect ']' rest
      return (← draft.openListed (path ++ [key]), ← endLine? rest)
  | rest => do
      let ((path, key), rest) ← readKey rest
      let (_, rest) ← expect ']' rest
      return (← draft.openTable (path ++ [key]), ← endLine? rest)

/-- A line. -/
def readLine (draft : Draft) : Reader Draft
  | '[' :: rest => readHeader draft rest
  | '#' :: rest => (endLine? ('#' :: rest)).map (draft, ·)
  | '\n' :: rest => some (draft, rest)
  | '\r' :: rest => (newline? ('\r' :: rest)).map (draft, ·)
  | text => do
      let (((path, key), value), rest) ← readPair (readValue nestingLimit) text
      let members ← insert path key value draft.open_
      return ({ draft with open_ := members }, ← endLine? rest)

/-- The lines of a document.  Every line consumes, so the length bounds the rounds. -/
def readLines : (rounds : Nat) → Draft → List Char → Option Draft
  | 0, _, _ => none
  | rounds + 1, draft, text =>
      match skipBlanks text with
      | [] => some draft
      | text =>
          match readLine draft text with
          | none => none
          | some (draft, rest) => readLines rounds draft rest

/-- The members of a document. -/
def readDocument (text : String) : Option Members := do
  let text := text.toList
  let text := if text.head? = some '\ufeff' then text.drop 1 else text
  match ← settleTable .header (← (← readLines (text.length + 1) {} text).close) with
  | .table _ members => return members
  | _ => none

end TraceStore.Toml
