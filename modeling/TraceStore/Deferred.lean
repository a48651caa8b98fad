import TraceStore.Graph

/-!
# Deferred writes

The buffer of nodes whose write was put off, by id and in ascending order of ids, next to the set
of ids that are *exempt* from being written when their actions are saved.  Deferring a node enters
both.  After that the two change independently: writing a node out takes it from the buffer only,
and releasing an id ends its exemption only.
-/

namespace TraceStore

/-- Nodes that wait to be written, and the ids that are exempt from immediate writes. -/
structure Deferred where
  pending : List (String × NodeRef) := []
  exempt : List String := []
  deriving Repr, DecidableEq, Inhabited

namespace Deferred

/-- Enters a node into a list in ascending order of ids, in place of a node under the same id. -/
def enter (id : String) (node : NodeRef) : List (String × NodeRef) → List (String × NodeRef)
  | [] => [(id, node)]
  | (other, kept) :: rest =>
      if id < other then (id, node) :: (other, kept) :: rest
      else if id = other then (id, node) :: rest
      else (other, kept) :: enter id node rest

/-- Buffers a node without a change of the exemptions. -/
def replace (deferred : Deferred) (id : String) (node : NodeRef) : Deferred :=
  { deferred with pending := enter id node deferred.pending }

/-- Buffers a node and exempts its id. -/
def defer (deferred : Deferred) (id : String) (node : NodeRef) : Deferred :=
  { deferred.replace id node with
    exempt := if deferred.exempt.contains id then deferred.exempt else deferred.exempt ++ [id] }

/-- The buffered node of an id. -/
def get? (deferred : Deferred) (id : String) : Option NodeRef :=
  (deferred.pending.find? (·.1 = id)).map (·.2)

/-- Whether a node is buffered under an id. -/
def contains (deferred : Deferred) (id : String) : Bool := (deferred.get? id).isSome

/-- Takes the node of an id from the buffer. -/
def remove (deferred : Deferred) (id : String) : Deferred :=
  { deferred with pending := deferred.pending.filter (·.1 ≠ id) }

/-- Whether an id is exempt. -/
def isExempt (deferred : Deferred) (id : String) : Bool := deferred.exempt.contains id

/-- Ends the exemption of an id. -/
def release (deferred : Deferred) (id : String) : Deferred :=
  { deferred with exempt := deferred.exempt.filter (· ≠ id) }

/-- Empties the buffer. -/
def clear (deferred : Deferred) : Deferred := { deferred with pending := [] }

/-- The buffered ids, in ascending order. -/
def ids (deferred : Deferred) : List String := deferred.pending.map (·.1)

/-- The buffered nodes, in ascending order of ids. -/
def nodes (deferred : Deferred) : List NodeRef := deferred.pending.map (·.2)

/-- How many nodes are buffered. -/
def size (deferred : Deferred) : Nat := deferred.pending.length

/-- Whether no node is buffered. -/
def isEmpty (deferred : Deferred) : Bool := deferred.pending.isEmpty

end Deferred

end TraceStore
