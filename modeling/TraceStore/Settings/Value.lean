import TraceStore.Settings.Basic
import TraceStore.Settings.KeyPath
import TraceStore.Text.Lowercase

/-!
# Layers of settings

Before settings have types they are values of a tree, collected from layers: the usual values, a
file, the environment.  A value remembers the layer it comes from, for messages.

A layer is put on top of the tree leaf by leaf.  A table is merged into what stands in its place,
key by key; anything else replaces what stands there.  Names of settings are in lower case.
-/

namespace TraceStore

/-- A value without parts. -/
inductive Leaf where
  | nothing
  | boolean (value : Bool)
  | integer (value : Int)
  | real (value : Double)
  | text (value : String)
  deriving Repr, DecidableEq, Inhabited

/-- A value of the tree, with the name of the layer it comes from. -/
inductive Setting where
  | leaf (value : Leaf) (layer : Option String)
  | list (elements : List Setting) (layer : Option String)
  | table (members : List (String × Setting)) (layer : Option String)
  deriving Repr, Inhabited

namespace Setting

/-- A table without members. -/
def empty : Setting := .table [] none

/-- A place without a value. -/
def missing : Setting := .leaf .nothing none

/-- The value under a key of a table. -/
def get? (key : String) : Setting → Option Setting
  | .table members _ => (members.find? (·.1 = key)).map (·.2)
  | _ => none

/-- A table as it is, or an empty one in place of anything else. -/
def asTable : Setting → Setting
  | .table members layer => .table members layer
  | _ => empty

/-- Sets the value under a key.  What is no table becomes one. -/
def put (setting : Setting) (key : String) (value : Setting) : Setting :=
  match setting with
  | .table members layer => .table (assign key value members) layer
  | _ => .table [(key, value)] none

mutual

/-- Puts a value on top of what stands under a name. -/
def place (name : String) : Setting → Setting → Setting
  | .table members _, below =>
      let key := Text.lowered name
      (asTable below).put key (placeAll members ((below.get? key).getD empty))
  | .leaf value layer, below => (asTable below).put (Text.lowered name) (.leaf value layer)
  | .list elements layer, below => (asTable below).put (Text.lowered name) (.list elements layer)

/-- Puts the members of a table on top of another value.  Without members nothing changes. -/
def placeAll : List (String × Setting) → Setting → Setting
  | [], below => below
  | (name, value) :: others, below => placeAll others (place name value below)

end

/-! ## Placing by path -/

/-- The elements of a list; anything else has none. -/
def elements : Setting → List Setting
  | .list elements _ => elements
  | _ => []

/-- The layer of a list; anything else makes a new list. -/
def listLayer : Setting → Option String
  | .list _ layer => layer
  | _ => none

/-- The index that a position in a list stands for; one in front of the list stands for its first
element. -/
def indexOf (position : Int) (length : Nat) : Nat :=
  if 0 ≤ position then position.toNat else length - position.natAbs

/-- Changes an element of a list, which is made long enough. -/
def changeElement (position : Int) (change : Setting → Setting) (below : Setting) : Setting :=
  let index := indexOf position below.elements.length
  let long := below.elements ++ List.replicate (index + 1 - below.elements.length) missing
  .list (long.modify index change) below.listLayer

/-- Changes the value under a name of a table, which is made where it is missing. -/
def changeMember (name : String) (change : Setting → Setting) (below : Setting) : Setting :=
  let table := asTable below
  let key := Text.lowered name
  table.put key (change ((table.get? key).getD missing))

/-- Puts a value on top of what the steps of a path lead to. -/
def placeBelow (value : Setting) : List KeyStep → Setting → Setting
  | [], _ => value
  | [.child name], below => place name value (asTable below)
  | [.element position], below => changeElement position (fun _ => value) below
  | .child name :: steps, below => changeMember name (placeBelow value steps) below
  | .element position :: steps, below => changeElement position (placeBelow value steps) below

/-- Puts a value on top of what a path leads to. -/
def placeAt (path : KeyPath) (value : Setting) (root : Setting) : Setting :=
  match path.steps with
  | [] => place path.first value root
  | steps => changeMember path.first (placeBelow value steps) root

/-- Puts a value on top of the tree under a name that may be a path.  One that is no path is taken
as it is. -/
def placeNamed (name : String) (value : Setting) (root : Setting) : Setting :=
  match KeyPath.ofText? name with
  | some path => placeAt path value root
  | none => place name value root

/-- Puts a layer on top of the tree. -/
def overlay (layer : List (String × Setting)) (root : Setting) : Setting :=
  layer.foldl (fun root (name, value) => placeNamed name value root) root

/-- The members of a table; anything else has none. -/
def members : Setting → List (String × Setting)
  | .table members _ => members
  | _ => []

/-- Several layers as one, later ones on top of earlier ones. -/
def merged (layers : List (List (String × Setting))) : List (String × Setting) :=
  (layers.foldl (fun tree layer => tree.overlay layer) empty).members

end Setting

end TraceStore
