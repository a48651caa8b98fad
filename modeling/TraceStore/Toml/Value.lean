import TraceStore.Decimal.Double

/-!
# TOML values

The values of a TOML document.  A table remembers how it came about, because that decides what may
still be added to it: a table opened by a header of its own, one that only headers of tables below
it imply, one that dotted keys imply, and one written in braces, which is complete.

`within` is the one way to reach into tables: it follows keys, makes the tables that are missing on
the way, and refuses to enter a table that the rules close.
-/

namespace TraceStore.Toml

/-- How a table came about. -/
inductive Origin where
  | header
  | impliedByHeader
  | impliedByKey
  | braces
  deriving Repr, DecidableEq, Inhabited

/-- A value of a document. -/
inductive Value where
  | text (value : String)
  | integer (value : Int)
  | real (value : Double)
  | boolean (value : Bool)
  /-- A date or a time, in its standard form. -/
  | moment (text : String)
  | list (elements : List Value)
  | table (origin : Origin) (members : List (String × Value))
  /-- Tables that were opened one after the other under the same header. -/
  | tables (all : List (List (String × Value)))
  deriving Repr, Inhabited

/-- The members of a table. -/
abbrev Members := List (String × Value)

/-- The value under a key. -/
def find? (members : Members) (key : String) : Option Value :=
  (members.find? (·.1 = key)).map (·.2)

/-- Sets the value under a key, in place of one that is there. -/
def set (key : String) (value : Value) : Members → Members
  | [] => [(key, value)]
  | (other, kept) :: rest =>
      if other = key then (key, value) :: rest else (other, kept) :: set key value rest

/-- Changes the members of the table that a path of keys leads to.  A path of a dotted key enters
only tables that dotted keys or headers imply; a path of a header enters also tables with headers
of their own, and the last of several tables under one header.  The change is told whether the
table is one that dotted keys imply. -/
def within (dotted : Bool) (change : Bool → Members → Option Members) :
    List String → (byKey : Bool) → Members → Option Members
  | [], byKey, members => change byKey members
  | key :: path, _, members =>
      match find? members key with
      | none =>
          (within dotted change path dotted []).map fun inner =>
            members ++ [(key, .table (if dotted then .impliedByKey else .impliedByHeader) inner)]
      | some (.table origin inner) =>
          let enter := (within dotted change path (origin = .impliedByKey) inner).map fun inner =>
            set key (.table origin inner) members
          match origin with
          | .braces => none
          | .header => if dotted then none else enter
          | .impliedByHeader | .impliedByKey => enter
      | some (.tables all) =>
          match all.getLast? with
          | none => none
          | some last =>
              (within dotted change path false last).map fun inner =>
                set key (.tables (all.dropLast ++ [inner])) members
      | some _ => none

/-- Adds a value under a dotted key.  A key is given once, and dotted keys do not extend tables
that they did not make. -/
def insert (path : List String) (key : String) (value : Value) (members : Members) :
    Option Members :=
  within true
    (fun byKey members =>
      if byKey == path.isEmpty || (find? members key).isSome then none
      else some (members ++ [(key, value)]))
    path false members

end TraceStore.Toml
