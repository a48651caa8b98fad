import Mathlib.Algebra.GroupWithZero.Nat
import TraceStore.Proofs.Cache.Bookkeeping

/-!
# Callers that share a cache

Several callers may ask a cache for the same id at once.  They share the slot of the id, which is
found by one access to the map or made by another one, and whose lock lets one caller at a time look
inside; who finds it empty runs its loader, puts the node in and releases the lock, and only then
runs a pass over a cache that has grown past its capacity.

A `Flight` has a `Point` for each caller, and every access to something shared is a step of its own,
so any order of such steps is a list of turns.  Slots are known by their identity here, because a
caller keeps the slot that it was given even if the map were to drop it.

Three things hold of every step whatever the callers are at: it brings one caller nearer to its end
(`Advances`), it respects the locks (`Guarded`), and somebody can make one until all have returned
(`Guarded.exists_step`).
-/

namespace TraceStore.Cache

/-! ## Callers -/

/-- Where a caller stands: what it does next, and the slot that it keeps. -/
inductive Point where
  /-- Looks for the slot in the map. -/
  | entering
  /-- Has found no slot, and makes one if there is still none. -/
  | creating
  /-- Takes the lock of the slot. -/
  | waiting (cell : Nat)
  /-- Looks at the content of the slot. -/
  | looking (cell : Nat)
  /-- Has found nothing, and runs its loader. -/
  | loading (cell : Nat)
  /-- Puts the loaded node into the slot. -/
  | storing (cell : Nat) (node : NodeRef)
  /-- Releases the lock after that. -/
  | publishing (cell : Nat) (node : NodeRef)
  /-- Compares the number of entries with the capacity. -/
  | measuring (cell : Nat) (node : NodeRef)
  /-- Runs a pass over the cache. -/
  | sweeping (cell : Nat) (node : NodeRef)
  /-- Has found a node, and releases the lock. -/
  | leaving (cell : Nat) (node : NodeRef)
  | returned (node : NodeRef)
  deriving Repr, DecidableEq, Inhabited

namespace Point

/-- The slot that a caller keeps alive. -/
def cell? : Point → Option Nat
  | .entering | .creating | .returned _ => none
  | .waiting cell | .looking cell | .loading cell => some cell
  | .storing cell _ | .publishing cell _ | .measuring cell _ | .sweeping cell _ | .leaving cell _ =>
      some cell

/-- The slot whose lock a caller has. -/
def lock? : Point → Option Nat
  | .looking cell | .loading cell | .storing cell _ | .publishing cell _ | .leaving cell _ =>
      some cell
  | _ => none

/-- Whether a caller has looked into its slot. -/
def hasLooked : Point → Bool
  | .entering | .creating | .waiting _ | .looking _ => false
  | _ => true

/-- How many steps a caller has ahead of it, at most. -/
def ahead : Point → Nat
  | .entering => 9
  | .creating => 8
  | .waiting _ => 7
  | .looking _ => 6
  | .loading _ => 5
  | .storing _ _ => 4
  | .publishing _ _ => 3
  | .measuring _ _ => 2
  | .sweeping _ _ | .leaving _ _ => 1
  | .returned _ => 0

end Point

/-- What callers share of a slot: its content, and who has its lock. -/
structure Cell where
  content : Option NodeRef := none
  owner : Option Nat := none
  deriving Repr, DecidableEq, Inhabited

/-- The slot as the cache shows it. -/
def Cell.slot (cell : Cell) : Slot :=
  match cell.content with
  | none => .loading
  | some node => .filled node

/-- Callers of one id and the cache that they share. -/
structure Flight where
  /-- The cache without the slot of the id. -/
  rest : Cache
  /-- The slots that were made for the id. -/
  cells : List Cell := []
  /-- The slot that the map has for the id. -/
  current : Option Nat := none
  callers : List Point
  /-- The callers whose loaders have run, in order. -/
  ran : List Nat := []
  deriving Repr, DecidableEq, Inhabited

/-- The turn of a caller, and what is around the cache at that moment. -/
structure Turn where
  caller : Nat
  around : Surroundings := default
  deriving Repr, DecidableEq, Inhabited

namespace Flight

/-- Callers that have done nothing yet, of an id that the cache has no slot for. -/
def start (cache : Cache) (count : Nat) : Flight where
  rest := cache
  callers := List.replicate count .entering

/-- The slot of a given identity. -/
def cell (flight : Flight) (which : Nat) : Cell := flight.cells[which]?.getD default

/-- The cache, with the slot of the id. -/
def cache (flight : Flight) (id : String) : Cache :=
  match flight.current with
  | none => flight.rest
  | some which => flight.rest.setSlot id (flight.cell which).slot

/-- A caller goes on to its next point. -/
def goto (flight : Flight) (caller : Nat) (point : Point) : Flight :=
  { flight with callers := flight.callers.set caller point }

/-- Changes a slot, for all who keep it. -/
def change (flight : Flight) (which : Nat) (change : Cell → Cell) : Flight :=
  { flight with cells := flight.cells.modify which change }

/-- Gives the lock of a slot to a caller, or takes it back. -/
def lock (flight : Flight) (which : Nat) (owner : Option Nat) : Flight :=
  flight.change which fun cell => { cell with owner }

/-- Puts a new slot into the map. -/
def make (flight : Flight) : Flight :=
  { flight with cells := flight.cells ++ [default], current := some flight.cells.length }

/-- Whether somebody keeps the slot that the map has for the id. -/
def isHeld (flight : Flight) : Bool :=
  flight.callers.any fun point => point.cell?.isSome && point.cell? = flight.current

/-- A pass over the cache.  The slot of the id is in use while somebody keeps it. -/
def sweep (flight : Flight) (id : String) (around : Surroundings) : Flight :=
  let used := if flight.isHeld then some id else none
  let (_, after) := (flight.cache id).reclaim around.graph around.outside used
  { flight with
    rest := { after with slots := without after.slots id }
    current := if (after.slot? id).isSome then flight.current else none }

variable (id : String) (loader : Nat → NodeRef)

/-- What a caller does at a point.  It can do nothing while somebody else has the lock that it
waits for, and has nothing to do once it has returned. -/
def advance (flight : Flight) (me : Nat) (around : Surroundings) : Point → Option Flight
  | .entering =>
      match flight.current with
      | none => some (flight.goto me .creating)
      | some which => some (flight.goto me (.waiting which))
  | .creating =>
      match flight.current with
      | none => some (flight.make.goto me (.waiting flight.cells.length))
      | some which => some (flight.goto me (.waiting which))
  | .waiting which =>
      match (flight.cell which).owner with
      | none => some ((flight.lock which (some me)).goto me (.looking which))
      | some _ => none
  | .looking which =>
      match (flight.cell which).content with
      | none =>
          let rest := { flight.rest with loads := flight.rest.loads + 1 }
          some ({ flight with rest }.goto me (.loading which))
      | some node =>
          let rest := { flight.rest with hits := flight.rest.hits + 1 }
          some ({ flight with rest }.goto me (.leaving which node))
  | .loading which =>
      some ({ flight with ran := flight.ran ++ [me] }.goto me (.storing which (loader me)))
  | .storing which node =>
      let filled := flight.change which fun cell => { cell with content := some node }
      some (filled.goto me (.publishing which node))
  | .publishing which node => some ((flight.lock which none).goto me (.measuring which node))
  | .measuring which node =>
      if 0 < flight.rest.capacity && flight.rest.capacity < (flight.cache id).size then
        some (flight.goto me (.sweeping which node))
      else some (flight.goto me (.returned node))
  | .sweeping _ node => some ((flight.sweep id around).goto me (.returned node))
  | .leaving which node => some ((flight.lock which none).goto me (.returned node))
  | .returned _ => none

/-- One step, of the caller whose turn it is. -/
def step (flight : Flight) (turn : Turn) : Option Flight :=
  flight.callers[turn.caller]?.bind (flight.advance id loader turn.caller turn.around)

/-- Steps one after the other.  There is no result if one of them cannot be made. -/
def run (flight : Flight) : List Turn → Option Flight
  | [] => some flight
  | turn :: later => (flight.step id loader turn).bind fun next => next.run later

/-- Whether all callers have returned. -/
def isOver (flight : Flight) : Bool := flight.callers.all fun point => point.ahead = 0

variable {id loader} {flight next : Flight} {me other which : Nat} {point after : Point}
  {around : Surroundings} {turn : Turn}

/-! ## What every step does -/

theorem getElem?_set_caller {callers : List Point} (there : callers[me]? = some point)
    (after : Point) (other : Nat) :
    (callers.set me after)[other]? = if me = other then some after else callers[other]? := by
  have inside : me < callers.length := (List.getElem?_eq_some_iff.mp there).1
  rw [List.getElem?_set, if_pos inside]

/-- A sum over all callers changes as its part for the caller that goes on. -/
theorem sum_set_caller {callers : List Point} (there : callers[me]? = some point)
    (after : Point) (weight : Point → Nat) :
    ((callers.set me after).map weight).sum + weight point =
      (callers.map weight).sum + weight after := by
  induction callers generalizing me with
  | nil => simp at there
  | cons first callers ih =>
      cases me with
      | zero =>
          obtain rfl : first = point := by simpa using there
          simp only [List.set_cons_zero, List.map_cons, List.sum_cons]
          omega
      | succ me =>
          have rest := ih (by simpa using there)
          simp only [List.set_cons_succ, List.map_cons, List.sum_cons]
          omega

/-- A step brings one caller nearer to its end, and is counted when the caller looks into its
slot. -/
structure Advances (flight next : Flight) (me : Nat) (point after : Point) : Prop where
  callers : next.callers = flight.callers.set me after
  ahead : after.ahead < point.ahead
  requests : next.rest.hits + next.rest.loads + point.hasLooked.toNat =
    flight.rest.hits + flight.rest.loads + after.hasLooked.toNat

theorem rest_hits_sweep (flight : Flight) (id : String) (around : Surroundings) :
    (flight.sweep id around).rest.hits = flight.rest.hits := by
  rw [sweep, cache]
  cases flight.current <;> rfl

theorem rest_loads_sweep (flight : Flight) (id : String) (around : Surroundings) :
    (flight.sweep id around).rest.loads = flight.rest.loads := by
  rw [sweep, cache]
  cases flight.current <;> rfl

theorem advances_of_advance (taken : flight.advance id loader me around point = some next) :
    ∃ after, Advances flight next me point after := by
  cases point with
  | entering =>
      simp only [advance] at taken
      split at taken <;> cases taken
      · exact ⟨.creating, rfl, by simp [Point.ahead], rfl⟩
      · next which _ => exact ⟨.waiting which, rfl, by simp [Point.ahead], rfl⟩
  | creating =>
      simp only [advance] at taken
      split at taken <;> cases taken
      · exact ⟨.waiting flight.cells.length, rfl, by simp [Point.ahead], rfl⟩
      · next which _ => exact ⟨.waiting which, rfl, by simp [Point.ahead], rfl⟩
  | waiting which =>
      simp only [advance] at taken
      split at taken <;> cases taken
      exact ⟨.looking which, rfl, by simp [Point.ahead], rfl⟩
  | looking which =>
      simp only [advance] at taken
      split at taken <;> cases taken
      · exact ⟨.loading which, rfl, by simp [Point.ahead], rfl⟩
      · next node _ =>
          refine ⟨.leaving which node, rfl, by simp [Point.ahead], ?_⟩
          simp only [goto, Point.hasLooked, Bool.toNat_false, Bool.toNat_true]
          omega
  | loading which =>
      cases taken
      exact ⟨.storing which (loader me), rfl, by simp [Point.ahead], rfl⟩
  | storing which node =>
      cases taken
      exact ⟨.publishing which node, rfl, by simp [Point.ahead], rfl⟩
  | publishing which node =>
      cases taken
      exact ⟨.measuring which node, rfl, by simp [Point.ahead], rfl⟩
  | measuring which node =>
      simp only [advance] at taken
      split at taken <;> cases taken
      · exact ⟨.sweeping which node, rfl, by simp [Point.ahead], rfl⟩
      · exact ⟨.returned node, rfl, by simp [Point.ahead], rfl⟩
  | sweeping which node =>
      cases taken
      refine ⟨.returned node, rfl, by simp [Point.ahead], ?_⟩
      simp [goto, rest_hits_sweep, rest_loads_sweep, Point.hasLooked]
  | leaving which node =>
      cases taken
      exact ⟨.returned node, rfl, by simp [Point.ahead], rfl⟩
  | returned node => cases taken

/-! ## Locks -/

theorem callers_change (flight : Flight) (which : Nat) (change : Cell → Cell) :
    (flight.change which change).callers = flight.callers := rfl

theorem callers_make (flight : Flight) : flight.make.callers = flight.callers := rfl

@[simp] theorem length_change (flight : Flight) (which : Nat) (change : Cell → Cell) :
    (flight.change which change).cells.length = flight.cells.length := by
  simp [Flight.change]

@[simp] theorem length_make (flight : Flight) :
    flight.make.cells.length = flight.cells.length + 1 := by
  simp [make]

theorem cell_change (inside : which < flight.cells.length) (change : Cell → Cell) (other : Nat) :
    (flight.change which change).cell other =
      if which = other then change (flight.cell other) else flight.cell other := by
  simp only [cell, Flight.change, List.getElem?_modify]
  split
  · next same =>
      subst same
      simp [List.getElem?_eq_getElem inside]
  · simp

@[simp] theorem cell_make (flight : Flight) (which : Nat) :
    flight.make.cell which = flight.cell which := by
  simp only [cell, make, List.getElem?_append]
  split
  · rfl
  · next outside =>
      rw [List.getElem?_eq_none (Nat.not_lt.mp outside)]
      cases which - flight.cells.length <;> rfl

theorem current_of_sweep (isCurrent : (flight.sweep id around).current = some which) :
    flight.current = some which :=
  (Option.ite_none_right_eq_some.mp isCurrent).2

/-- Slots that are kept were made, and who has a lock is at a point at which it should. -/
structure Guarded (flight : Flight) : Prop where
  made : ∀ which, flight.current = some which → which < flight.cells.length
  kept : ∀ (me : Nat) (point : Point) which, flight.callers[me]? = some point →
    point.cell? = some which → which < flight.cells.length
  owner_iff : ∀ (me which : Nat), (flight.cell which).owner = some me ↔
    ∃ point, flight.callers[me]? = some point ∧ point.lock? = some which

theorem guarded_start (cache : Cache) (count : Nat) : (start cache count).Guarded where
  made := by simp [start]
  kept me point which there isCell := by
    obtain ⟨-, rfl⟩ : me < count ∧ Point.entering = point := by
      simpa [start, List.getElem?_replicate] using there
    cases isCell
  owner_iff me which := by
    have free : (default : Cell).owner = none := rfl
    simp [start, cell, List.getElem?_replicate, Point.lock?, free]

namespace Guarded

variable (guarded : flight.Guarded)

include guarded

theorem owner_of (there : flight.callers[me]? = some point) (which : Nat) :
    (flight.cell which).owner = some me ↔ point.lock? = some which := by
  rw [guarded.owner_iff]
  simp [there]

/-- At most one caller has the lock of a slot. -/
theorem exclusive {first second : Point} (isFirst : flight.callers[me]? = some first)
    (isSecond : flight.callers[other]? = some second) (firstHas : first.lock? = some which)
    (secondHas : second.lock? = some which) : me = other := by
  rw [← guarded.owner_of isFirst] at firstHas
  rw [← guarded.owner_of isSecond] at secondHas
  simpa [firstHas] using secondHas

/-- A caller goes on after a change of what is shared. -/
theorem goto {shared : Flight} (there : flight.callers[me]? = some point)
    (callers : shared.callers = flight.callers)
    (longer : flight.cells.length ≤ shared.cells.length)
    (made : ∀ which, shared.current = some which → which < shared.cells.length)
    (kept : ∀ which, after.cell? = some which → which < shared.cells.length)
    (owner : ∀ other which, (shared.cell which).owner = some other ↔
      if me = other then after.lock? = some which else (flight.cell which).owner = some other) :
    (shared.goto me after).Guarded := by
  have look (other : Nat) := getElem?_set_caller there after other
  rw [← callers] at look
  constructor
  case made => exact made
  case kept =>
    intro other still which isStill isCell
    rw [Flight.goto, look] at isStill
    split at isStill
    · cases isStill
      exact kept which isCell
    · rw [callers] at isStill
      exact Nat.lt_of_lt_of_le (guarded.kept _ _ _ isStill isCell) longer
  case owner_iff =>
    intro other which
    apply (owner other which).trans
    rw [Flight.goto, look]
    split
    · simp
    · rw [callers]
      exact guarded.owner_iff other which

/-- A caller goes on and keeps the locks that it has. -/
theorem goto_same {shared : Flight} (there : flight.callers[me]? = some point)
    (callers : shared.callers = flight.callers)
    (longer : flight.cells.length ≤ shared.cells.length)
    (made : ∀ which, shared.current = some which → which < shared.cells.length)
    (kept : ∀ which, after.cell? = some which → which < shared.cells.length)
    (owner : ∀ which, (shared.cell which).owner = (flight.cell which).owner)
    (lock : after.lock? = point.lock?) : (shared.goto me after).Guarded := by
  apply guarded.goto there callers longer made kept
  intro other which
  rw [owner]
  split
  · next same =>
      subst same
      rw [lock, guarded.owner_of there]
  · rfl

/-- A caller takes a lock that is free. -/
theorem goto_locked (there : flight.callers[me]? = some (.waiting which))
    (free : (flight.cell which).owner = none) :
    ((flight.lock which (some me)).goto me (.looking which)).Guarded := by
  have inside := guarded.kept me _ which there rfl
  rw [lock]
  apply guarded.goto there (callers_change ..) (length_change ..).ge
  case made =>
    rw [length_change]
    exact guarded.made
  case kept =>
    rintro cell ⟨⟩
    simpa using inside
  case owner =>
    intro other cell
    rw [cell_change inside]
    by_cases same : which = cell
    · subst same
      simp [free, Point.lock?]
    · have notMine := guarded.owner_of there cell
      by_cases mine : me = other
      · subst mine
        simpa [same, Point.lock?] using notMine
      · simp [same, mine]

/-- A caller releases the lock that it has. -/
theorem goto_released (there : flight.callers[me]? = some point) (has : point.lock? = some which)
    (isCell : point.cell? = some which) (kept : ∀ cell, after.cell? = some cell → cell = which)
    (released : after.lock? = none) : ((flight.lock which none).goto me after).Guarded := by
  have inside := guarded.kept me _ which there isCell
  rw [lock]
  apply guarded.goto there (callers_change ..) (length_change ..).ge
  case made =>
    rw [length_change]
    exact guarded.made
  case kept =>
    intro cell isCell
    simpa [kept cell isCell] using inside
  case owner =>
    intro other cell
    rw [cell_change inside]
    by_cases same : which = cell
    · subst same
      have mine := (guarded.owner_of there which).mpr has
      simp [mine, released]
    · have notMine := guarded.owner_of there cell
      by_cases mine : me = other
      · subst mine
        simpa [same, has, released] using notMine
      · simp [same, mine]

theorem advance (there : flight.callers[me]? = some point)
    (taken : flight.advance id loader me around point = some next) : next.Guarded := by
  have inside : ∀ which, point.cell? = some which → which < flight.cells.length :=
    fun which => guarded.kept me point which there
  cases point with
  | entering =>
      simp only [Flight.advance] at taken
      split at taken <;> cases taken
      · exact guarded.goto_same there rfl le_rfl guarded.made (by simp [Point.cell?])
          (fun _ => rfl) rfl
      · next which isCurrent =>
          refine guarded.goto_same there rfl le_rfl guarded.made ?_ (fun _ => rfl) rfl
          rintro cell ⟨⟩
          exact guarded.made which isCurrent
  | creating =>
      simp only [Flight.advance] at taken
      split at taken <;> cases taken
      · refine guarded.goto_same there (callers_make flight) (by simp) ?_ ?_ (by simp) rfl
        · rintro which ⟨⟩
          simp
        · rintro which ⟨⟩
          simp
      · next which isCurrent =>
          refine guarded.goto_same there rfl le_rfl guarded.made ?_ (fun _ => rfl) rfl
          rintro cell ⟨⟩
          exact guarded.made which isCurrent
  | waiting which =>
      simp only [Flight.advance] at taken
      split at taken <;> cases taken
      next free => exact guarded.goto_locked there free
  | looking which =>
      simp only [Flight.advance] at taken
      split at taken <;> cases taken
      · exact guarded.goto_same there rfl le_rfl guarded.made inside (fun _ => rfl) rfl
      · exact guarded.goto_same there rfl le_rfl guarded.made inside (fun _ => rfl) rfl
  | loading which =>
      cases taken
      exact guarded.goto_same there rfl le_rfl guarded.made inside (fun _ => rfl) rfl
  | storing which node =>
      cases taken
      refine guarded.goto_same there (callers_change ..) (length_change ..).ge ?_ ?_ ?_ rfl
      · rw [length_change]
        exact guarded.made
      · rw [length_change]
        exact inside
      · intro cell
        rw [cell_change (inside which rfl)]
        split <;> rfl
  | publishing which node =>
      cases taken
      exact guarded.goto_released there rfl rfl (by simp [Point.cell?, eq_comm]) rfl
  | measuring which node =>
      simp only [Flight.advance] at taken
      split at taken <;> cases taken
      · exact guarded.goto_same there rfl le_rfl guarded.made inside (fun _ => rfl) rfl
      · exact guarded.goto_same there rfl le_rfl guarded.made (by simp [Point.cell?])
          (fun _ => rfl) rfl
  | sweeping which node =>
      cases taken
      refine guarded.goto_same there rfl le_rfl ?_ (by simp [Point.cell?]) (fun _ => rfl) rfl
      intro cell isCurrent
      exact guarded.made cell (current_of_sweep isCurrent)
  | leaving which node =>
      cases taken
      exact guarded.goto_released there rfl rfl (by simp [Point.cell?]) rfl
  | returned node => cases taken

end Guarded

/-! ## Going on -/

/-- Only a caller that waits for a lock of somebody else, or has returned, cannot go on. -/
theorem isSome_advance (flight : Flight) (me : Nat) (around : Surroundings) (point : Point) :
    (flight.advance id loader me around point).isSome = true ∨ point.ahead = 0 ∨
      ∃ which owner, point = .waiting which ∧ (flight.cell which).owner = some owner := by
  cases point with
  | entering =>
      left
      simp only [advance]
      split <;> rfl
  | creating =>
      left
      simp only [advance]
      split <;> rfl
  | waiting which =>
      cases free : (flight.cell which).owner with
      | none => simp [advance, free]
      | some owner => exact .inr (.inr ⟨which, owner, rfl, free⟩)
  | looking which =>
      left
      simp only [advance]
      split <;> rfl
  | measuring which node =>
      left
      simp only [advance]
      split <;> rfl
  | loading | storing | publishing | sweeping | leaving => exact .inl rfl
  | returned node => exact .inr (.inl rfl)

/-- Who has a lock can go on. -/
theorem isSome_advance_of_lock (flight : Flight) (me : Nat) (around : Surroundings)
    (has : point.lock? = some which) :
    (flight.advance id loader me around point).isSome = true := by
  rcases isSome_advance flight me around point with goesOn | isReturned | ⟨cell, owner, rfl, -⟩
  · exact goesOn
  · cases point <;> simp [Point.ahead, Point.lock?] at isReturned has
  · cases has

/-- As long as somebody has not returned, somebody can go on. -/
theorem Guarded.exists_step (guarded : flight.Guarded) (goesOn : flight.isOver = false) :
    ∃ caller, ∀ around, (flight.step id loader ⟨caller, around⟩).isSome = true := by
  obtain ⟨point, member, isAhead⟩ : ∃ point ∈ flight.callers, point.ahead ≠ 0 := by
    simpa [isOver] using goesOn
  obtain ⟨me, there⟩ := List.mem_iff_getElem?.mp member
  by_cases blocked : ∃ which owner, point = .waiting which ∧
      (flight.cell which).owner = some owner
  · -- the caller that has the lock is not at a lock itself
    obtain ⟨which, owner, -, isOwner⟩ := blocked
    obtain ⟨holding, isHolder, has⟩ := (guarded.owner_iff owner which).mp isOwner
    refine ⟨owner, fun around => ?_⟩
    simpa [step, isHolder] using isSome_advance_of_lock flight owner around has
  · refine ⟨me, fun around => ?_⟩
    have canAdvance := ((isSome_advance flight me around point).resolve_right
      (by simp only [isAhead, blocked, or_self, not_false_eq_true]) :
        (flight.advance id loader me around point).isSome = true)
    simpa [step, there] using canAdvance

end Flight

end TraceStore.Cache
