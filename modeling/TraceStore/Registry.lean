import TraceStore.Graph

/-!
# Registries and the resolution of links

While a document is read, a `Registry` records the nodes met so far, each under an id.  A node is
looked up by identity: two nodes with equal ids are different nodes.  A node that is recorded again
takes the newer id, and stays on the list a second time.

`Registry.resolve` replaces held predecessors by the ids they are recorded under.  It changes
nothing unless it knows them all.
-/

namespace TraceStore

/-- The nodes recorded so far with the ids they were recorded under, in order. -/
structure Registry where
  entries : List (NodeRef × String) := []
  deriving Repr, DecidableEq, Inhabited

namespace Registry

/-- Records a node under an id. -/
def record (registry : Registry) (ref : NodeRef) (id : String) : Registry :=
  ⟨registry.entries ++ [(ref, id)]⟩

/-- The id under which a node was recorded last. -/
def idOf? (registry : Registry) (ref : NodeRef) : Option String :=
  (registry.entries.reverse.find? (·.1 = ref)).map (·.2)

/-- The node recorded at a position, counted from zero. -/
def at? (registry : Registry) (position : Nat) : Option NodeRef :=
  registry.entries[position]?.map (·.1)

/-- How many times a node was recorded. -/
def size (registry : Registry) : Nat := registry.entries.length

/-- The nodes that the registry keeps alive. -/
def keeps (registry : Registry) : List NodeRef := registry.entries.map (·.1)

@[simp] theorem size_record (registry : Registry) (ref : NodeRef) (id : String) :
    (registry.record ref id).size = registry.size + 1 := by
  simp [size, record]

theorem idOf?_record (registry : Registry) (ref other : NodeRef) (id : String) :
    (registry.record ref id).idOf? other =
      if ref = other then some id else registry.idOf? other := by
  simp only [idOf?, record, List.reverse_append, List.reverse_cons, List.reverse_nil,
    List.nil_append, List.singleton_append, List.find?_cons]
  by_cases same : ref = other <;> simp [same]

/-- The ids under which nodes are recorded, or the position of the first that is not. -/
def idsOf (registry : Registry) : (position : Nat) → List NodeRef → Except Nat (List String)
  | _, [] => .ok []
  | position, parent :: others =>
      match registry.idOf? parent with
      | none => .error position
      | some id => (registry.idsOf (position + 1) others).map (id :: ·)

/-- Replaces held predecessors by their recorded ids, or gives the position of the first that has
none.  Links that are ids already stay as they are. -/
def resolve (registry : Registry) : Links → Except Nat Links
  | .named ids => .ok (.named ids)
  | .held parents => (registry.idsOf 0 parents).map .named

end Registry

end TraceStore
