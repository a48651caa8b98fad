import TraceStore.Proofs.Cache.Callers
import TraceStore.Proofs.Cache.LoneLoad

/-!
# One load for all callers

Callers of an id that a cache has no slot for run through a common course, however their steps
interleave: nobody has a slot yet, then all have the same one, then one of them finds it empty and
loads the node while the others wait, and then the node is there for all.  `Flight.Course` says what
is shared in each of these, and where the callers may be.

So callers together make of the cache what one of them would have made of it alone, apart from the
hits of the others.
-/

namespace TraceStore.Cache.Flight

variable {cache : Cache} {id : String} {loader : Nat → NodeRef} {count : Nat}
  {flight next : Flight} {me other which : Nat} {point after : Point} {around : Surroundings}
  {turn : Turn}

/-! ## The course of a flight -/

/-- What holds of each caller and the point at which it stands. -/
def Everyone (callers : List Point) (holds : Nat → Point → Prop) : Prop :=
  ∀ me point, callers[me]? = some point → holds me point

/-- Where a caller may be that does not load the node, by the content of the slot. -/
inductive Follows (content : Option NodeRef) : Point → Prop where
  | entering : Follows content .entering
  | creating : Follows content .creating
  | waiting : Follows content (.waiting 0)
  | looking {node : NodeRef} (found : content = some node) : Follows content (.looking 0)
  | leaving {node : NodeRef} (found : content = some node) : Follows content (.leaving 0 node)
  | returned {node : NodeRef} (found : content = some node) : Follows content (.returned node)

theorem Follows.of_none {content : Option NodeRef} (follows : Follows none point) :
    Follows content point := by
  cases follows with
  | entering => exact .entering
  | creating => exact .creating
  | waiting => exact .waiting
  | looking found => cases found
  | leaving found => cases found
  | returned found => cases found

/-- The caller that loads the node: where it is, what the slot contains, what the rest of the cache
is, and whose loaders have run. -/
inductive Leads (cache : Cache) (id : String) (node : NodeRef) (me : Nat) :
    Point → Option NodeRef → Cache → List Nat → Prop where
  | loading : Leads cache id node me (.loading 0) none { cache with loads := cache.loads + 1 } []
  | storing :
      Leads cache id node me (.storing 0 node) none { cache with loads := cache.loads + 1 } [me]
  | publishing {hits : Nat} : Leads cache id node me (.publishing 0 node) (some node)
      { cache with hits, loads := cache.loads + 1 } [me]
  | measuring {hits : Nat} : Leads cache id node me (.measuring 0 node) (some node)
      { cache with hits, loads := cache.loads + 1 } [me]
  | sweeping {hits : Nat} (isFull : cache.isFull = true) :
      Leads cache id node me (.sweeping 0 node) (some node)
        { cache with hits, loads := cache.loads + 1 } [me]
  | returned {rest : Cache} (around : Surroundings)
      (landed : rest.setSlot id (.filled node) =
        { alone cache id around node with hits := rest.hits }) :
      Leads cache id node me (.returned node) (some node) rest [me]

/-- What callers of an id have done so far, if the cache had no slot for it: nothing, or they have
made its slot, or one of them loads the node or has loaded it. -/
inductive Course (cache : Cache) (id : String) (loader : Nat → NodeRef) : Flight → Prop where
  | before {callers : List Point}
      (early : Everyone callers fun _ point => point = .entering ∨ point = .creating) :
      Course cache id loader { rest := cache, callers }
  | made {callers : List Point} {owner : Option Nat}
      (early : Everyone callers fun _ point => Follows none point ∨ point = .looking 0) :
      Course cache id loader
        { rest := cache, cells := [⟨none, owner⟩], current := some 0, callers }
  | led {callers : List Point} {owner : Option Nat} {content : Option NodeRef} {rest : Cache}
      {ran : List Nat} {winner : Nat} {point : Point} (there : callers[winner]? = some point)
      (leads : Leads cache id (loader winner) winner point content rest ran)
      (others : Everyone callers fun me point => winner ≠ me → Follows content point) :
      Course cache id loader
        { rest, cells := [⟨content, owner⟩], current := some 0, callers, ran }

/-! ### The pass of the caller that loads -/

theorem isHeld_of_cell (there : flight.callers[me]? = some point)
    (isCell : point.cell? = some which) (isCurrent : flight.current = some which) :
    flight.isHeld = true :=
  List.any_eq_true.mpr ⟨point, List.mem_of_getElem? there, by simp [isCell, isCurrent]⟩

/-- A pass leaves the slot of the id in the map while somebody keeps it. -/
theorem sweep_of_isHeld (isCurrent : flight.current = some which) (isHeld : flight.isHeld = true)
    (around : Surroundings) :
    let after := ((flight.rest.setSlot id (flight.cell which).slot).reclaim
      around.graph around.outside (some id)).2
    flight.sweep id around =
      { flight with rest := { after with slots := without after.slots id } } := by
  have isLast := (reclaim_setSlot flight.rest id around.graph around.outside
    (flight.cell which).slot).1
  simp only [sweep, Flight.cache, isCurrent, isHeld, if_true, isLast, Option.isSome_some]

theorem Leads.hit {node : NodeRef} {content : Option NodeRef} {rest : Cache} {ran : List Nat}
    (leads : Leads cache id node me point content rest ran) (filled : content.isSome = true) :
    Leads cache id node me point content { rest with hits := rest.hits + 1 } ran := by
  cases leads with
  | loading => cases filled
  | storing => cases filled
  | publishing => exact .publishing
  | measuring => exact .measuring
  | sweeping isFull => exact .sweeping isFull
  | returned around landed =>
      exact .returned around (congrArg (fun it => { it with hits := it.hits + 1 }) landed)

/-- A caller goes on, and the others are where they were. -/
theorem Everyone.set {callers : List Point} {before holds : Nat → Point → Prop}
    (every : Everyone callers before) (there : callers[me]? = some point) (mine : holds me after)
    (others : ∀ other still, callers[other]? = some still → me ≠ other → before other still →
      holds other still) : Everyone (callers.set me after) holds := by
  intro other still isStill
  rw [getElem?_set_caller there] at isStill
  split at isStill
  · next same =>
      subst same
      cases isStill
      exact mine
  · next apart => exact others other still isStill apart (every other still isStill)

/-! ### Steps -/

namespace Course

variable {callers : List Point} {owner : Option Nat} {content : Option NodeRef} {rest : Cache}
  {ran : List Nat} {winner : Nat}

theorem advance_before
    (early : Everyone callers fun _ point => point = .entering ∨ point = .creating)
    (there : callers[me]? = some point)
    (taken : advance id loader { rest := cache, callers } me around point = some next) :
    Course cache id loader next := by
  rcases early me point there with rfl | rfl
  · cases taken
    exact .before (early.set there (.inr rfl) fun _ _ _ _ same => same)
  · cases taken
    have late : Everyone (callers.set me (.waiting 0)) fun _ point =>
        Follows none point ∨ point = .looking 0 := by
      refine early.set there (.inl .waiting) ?_
      rintro other still - - (rfl | rfl)
      · exact .inl .entering
      · exact .inl .creating
    exact .made late

theorem advance_made
    (early : Everyone callers fun _ point => Follows none point ∨ point = .looking 0)
    (guarded : Guarded { rest := cache, cells := [⟨none, owner⟩], current := some 0, callers })
    (there : callers[me]? = some point)
    (taken : advance id loader
      { rest := cache, cells := [⟨none, owner⟩], current := some 0, callers } me around point =
        some next) : Course cache id loader next := by
  rcases early me point there with follows | rfl
  · cases follows with
    | entering =>
        cases taken
        exact .made (early.set there (.inl .waiting) fun _ _ _ _ same => same)
    | creating =>
        cases taken
        exact .made (early.set there (.inl .waiting) fun _ _ _ _ same => same)
    | waiting =>
        cases owner with
        | none =>
            cases taken
            exact .made (early.set there (.inr rfl) fun _ _ _ _ same => same)
        | some owner => cases taken
    | looking found => cases found
    | leaving found => cases found
    | returned found => cases found
  · cases taken
    have others : Everyone (callers.set me (.loading 0)) fun other point =>
        me ≠ other → Follows none point := by
      refine early.set there (fun apart => absurd rfl apart) ?_
      rintro other still isStill apart (follows | rfl) -
      · exact follows
      · -- nobody else is looking, since one caller has the lock
        exact absurd (guarded.exclusive there isStill rfl rfl) apart
    exact .led ((getElem?_set_caller there _ me).trans (if_pos rfl)) .loading others

/-- A step of the caller that loads the node. -/
theorem advance_winner (absent : cache.slot? id = none)
    (leads : Leads cache id (loader me) me point content rest ran)
    (others : Everyone callers fun other point => me ≠ other → Follows content point)
    (there : callers[me]? = some point)
    (taken : advance id loader
      { rest, cells := [⟨content, owner⟩], current := some 0, callers, ran } me around point =
        some next) : Course cache id loader next := by
  have mine (after : Point) : (callers.set me after)[me]? = some after :=
    (getElem?_set_caller there after me).trans (if_pos rfl)
  have stay (after : Point) :
      Everyone (callers.set me after) fun other point => me ≠ other → Follows content point :=
    others.set there (fun apart => absurd rfl apart) fun _ _ _ _ follows => follows
  cases leads with
  | loading =>
      cases taken
      exact .led (mine _) .storing (stay _)
  | storing =>
      cases taken
      refine .led (mine _) .publishing ?_
      intro other still isStill apart
      exact (stay _ other still isStill apart).of_none
  | publishing =>
      cases taken
      exact .led (mine _) .measuring (stay _)
  | measuring =>
      simp only [advance] at taken
      split at taken <;> cases taken
      · next outgrows =>
          have isFull := (outgrows_eq_isFull absent _).symm.trans outgrows
          exact .led (mine _) (.sweeping isFull) (stay _)
      · next stays =>
          have fits := (outgrows_eq_isFull absent _).symm.trans (Bool.eq_false_iff.mpr stays)
          refine .led (mine _) (.returned around ?_) (stay _)
          rw [alone_of_not_isFull absent fits]
          rfl
  | sweeping isFull =>
      cases taken
      -- the slot is in use, by this caller
      rw [sweep_of_isHeld rfl (isHeld_of_cell there rfl rfl)]
      refine .led (mine _) (.returned around ?_) (stay _)
      rw [alone_of_isFull absent isFull]
      exact (reclaim_setSlot _ id around.graph around.outside _).2
  | returned landed => cases taken

/-- A step of a caller that does not load the node. -/
theorem advance_other (isFirst : callers[winner]? = some point)
    (leads : Leads cache id (loader winner) winner point content rest ran)
    (others : Everyone callers fun other point => winner ≠ other → Follows content point)
    (guarded : Guarded { rest, cells := [⟨content, owner⟩], current := some 0, callers, ran })
    {own : Point} (there : callers[me]? = some own) (apart : winner ≠ me)
    (taken : advance id loader
      { rest, cells := [⟨content, owner⟩], current := some 0, callers, ran } me around own =
        some next) : Course cache id loader next := by
  have first (after : Point) : (callers.set me after)[winner]? = some point :=
    (getElem?_set_caller there after winner).trans ((if_neg apart.symm).trans isFirst)
  have stay {after : Point} (mine : Follows content after) :
      Everyone (callers.set me after) fun other point => winner ≠ other → Follows content point :=
    others.set there (fun _ => mine) fun _ _ _ _ follows => follows
  cases others me own there apart with
  | entering =>
      cases taken
      exact .led (first _) leads (stay .waiting)
  | creating =>
      cases taken
      exact .led (first _) leads (stay .waiting)
  | waiting =>
      cases owner with
      | some owner => cases taken
      | none =>
          cases taken
          refine .led (first _) leads (stay ?_)
          cases content with
          | some node => exact .looking rfl
          | none =>
              -- the caller that loads would have the lock
              have has : point.lock? = some 0 := by cases leads <;> rfl
              cases (guarded.owner_of isFirst 0).mpr has
  | looking found =>
      subst found
      cases taken
      exact .led (first _) (leads.hit rfl) (stay (.leaving rfl))
  | leaving found =>
      subst found
      cases taken
      exact .led (first _) leads (stay (.returned rfl))
  | returned found => cases taken

/-- A step keeps to the course. -/
theorem advance (course : Course cache id loader flight) (absent : cache.slot? id = none)
    (guarded : flight.Guarded) (there : flight.callers[me]? = some point)
    (taken : flight.advance id loader me around point = some next) :
    Course cache id loader next := by
  cases course with
  | before early => exact advance_before early there taken
  | made early => exact advance_made early guarded there taken
  | @led _ _ _ _ _ winner leading isFirst leads others =>
      by_cases same : winner = me
      · subst same
        obtain rfl : leading = point := Option.some.inj (isFirst.symm.trans there)
        exact advance_winner absent leads others there taken
      · exact advance_other isFirst leads others guarded there same taken

end Course

/-! ## Runs -/

/-- What holds of callers of an id after any steps: where they are in their course, who has the
lock, and that whoever has looked was counted. -/
structure Sound (cache : Cache) (id : String) (loader : Nat → NodeRef) (count : Nat)
    (flight : Flight) : Prop where
  course : Course cache id loader flight
  guarded : flight.Guarded
  length : flight.callers.length = count
  requests : flight.rest.hits + flight.rest.loads =
    cache.hits + cache.loads + (flight.callers.map fun point => point.hasLooked.toNat).sum

theorem sound_start (cache : Cache) (id : String) (loader : Nat → NodeRef) (count : Nat) :
    Sound cache id loader count (start cache count) where
  course := .before fun me point there => by
    have isStart := List.mem_of_getElem? there
    exact .inl (List.eq_of_mem_replicate isStart)
  guarded := guarded_start cache count
  length := List.length_replicate
  requests := by simp [start, Point.hasLooked]

theorem exists_of_step (taken : flight.step id loader turn = some next) :
    ∃ point, flight.callers[turn.caller]? = some point ∧
      flight.advance id loader turn.caller turn.around point = some next :=
  Option.bind_eq_some_iff.mp taken

theorem returned_of_isOver (isOver : flight.isOver = true)
    (there : flight.callers[me]? = some point) : ∃ node, point = .returned node := by
  have isLast := List.all_eq_true.mp isOver point (List.mem_of_getElem? there)
  cases point with
  | returned node => exact ⟨node, rfl⟩
  | _ => simp [Point.ahead] at isLast

/-- Once all callers have returned, one of them has loaded the node, and all have it. -/
theorem Course.landed (course : Course cache id loader flight) (isOver : flight.isOver = true)
    (isSome : 0 < flight.callers.length) :
    ∃ winner around, winner < flight.callers.length ∧ flight.ran = [winner] ∧
      (∀ point ∈ flight.callers, point = .returned (loader winner)) ∧
      flight.cache id =
        { alone cache id around (loader winner) with hits := flight.rest.hits } := by
  have isFirst := List.getElem?_eq_getElem isSome
  cases course with
  | before early =>
      obtain ⟨node, isReturned⟩ := returned_of_isOver isOver isFirst
      rcases early 0 _ isFirst with isEarly | isEarly <;> simp [isReturned] at isEarly
  | made early =>
      obtain ⟨node, isReturned⟩ := returned_of_isOver isOver isFirst
      rcases early 0 _ isFirst with isEarly | isEarly
      · rw [isReturned] at isEarly
        cases isEarly with
        | returned found => cases found
      · simp [isReturned] at isEarly
  | @led _ _ _ _ _ winner _ there leads others =>
      obtain ⟨node, rfl⟩ := returned_of_isOver isOver there
      cases leads with
      | returned around landed =>
          refine ⟨winner, around, (List.getElem?_eq_some_iff.mp there).1, rfl, ?_, landed⟩
          intro point member
          obtain ⟨me, isThere⟩ := List.mem_iff_getElem?.mp member
          obtain ⟨node, rfl⟩ := returned_of_isOver isOver isThere
          by_cases same : winner = me
          · subst same
            exact Option.some.inj (isThere.symm.trans there)
          · cases others me _ isThere same with
            | returned found => rw [Option.some.inj found]

theorem loads_cache (flight : Flight) (id : String) :
    (flight.cache id).loads = flight.rest.loads := by
  rw [Flight.cache]
  split <;> rfl

namespace Sound

variable (sound : Sound cache id loader count flight)

include sound

theorem step (absent : cache.slot? id = none) (taken : flight.step id loader turn = some next) :
    Sound cache id loader count next := by
  obtain ⟨point, there, advanced⟩ := exists_of_step taken
  obtain ⟨after, advances⟩ := advances_of_advance advanced
  constructor
  case course => exact sound.course.advance absent sound.guarded there advanced
  case guarded => exact sound.guarded.advance there advanced
  case length => rw [advances.callers, List.length_set, sound.length]
  case requests =>
    have looked := sum_set_caller there after fun point => point.hasLooked.toNat
    have counted := advances.requests
    have before := sound.requests
    rw [advances.callers]
    omega

/-- No caller makes more steps than it has ahead of it. -/
theorem run (absent : cache.slot? id = none) {turns : List Turn} {last : Flight}
    (taken : flight.run id loader turns = some last) :
    Sound cache id loader count last ∧
      turns.length + (last.callers.map Point.ahead).sum ≤ (flight.callers.map Point.ahead).sum := by
  induction turns generalizing flight with
  | nil =>
      cases taken
      exact ⟨sound, (Nat.zero_add _).le⟩
  | cons turn later ih =>
      obtain ⟨next, first, rest⟩ := Option.bind_eq_some_iff.mp taken
      obtain ⟨point, there, advanced⟩ := exists_of_step first
      obtain ⟨after, advances⟩ := advances_of_advance advanced
      obtain ⟨soundLast, bound⟩ := ih (sound.step absent first) rest
      have shorter := sum_set_caller there after Point.ahead
      have nearer := advances.ahead
      rw [← advances.callers] at shorter
      refine ⟨soundLast, ?_⟩
      rw [List.length_cons]
      omega

/-- In the end all callers but the one that has loaded the node have been counted as hits. -/
theorem hits_eq (absent : cache.slot? id = none) (isSome : 0 < count) {winner : Nat}
    {around : Surroundings}
    (returned : ∀ point ∈ flight.callers, point = .returned (loader winner))
    (landed : flight.cache id =
      { alone cache id around (loader winner) with hits := flight.rest.hits }) :
    flight.rest.hits = cache.hits + (count - 1) := by
  have looked : (flight.callers.map fun point => point.hasLooked.toNat).sum = count := by
    rw [← sound.length, List.eq_replicate_of_mem returned]
    simp [Point.hasLooked]
  have loads : flight.rest.loads = cache.loads + 1 := by
    rw [← (counters_alone absent around (loader winner)).1, ← loads_cache flight id, landed]
  have requests := sound.requests
  omega

end Sound

/-- Two callers that both find no slot, one of which waits while the other one loads. -/
def meeting : List Turn :=
  [0, 1, 0, 1, 0, 0, 0, 0, 0, 1, 1, 0, 1].map fun caller => { caller }

/-- What callers of an id make of a cache without a slot for it, however their steps interleave:
somebody can go on until all have returned, after at most nine steps each.  Then one loader has run,
its node was given to all, and the cache is as that caller alone would have left it, apart from the
hits of the others.  The one new entry is there; the number of entries has grown by it, less those
that the pass of that caller has reclaimed if the cache has outgrown its capacity. -/
theorem single_flight (cache : Cache) (id : String) (loader : Nat → NodeRef) {count : Nat}
    (isSome : 0 < count) (absent : cache.slot? id = none) {turns : List Turn} {flight : Flight}
    (taken : (start cache count).run id loader turns = some flight) :
    turns.length ≤ 9 * count ∧
    (flight.isOver = false →
      ∃ caller, ∀ around, (flight.step id loader ⟨caller, around⟩).isSome = true) ∧
    (flight.isOver = true → ∃ winner around,
      let final := flight.cache id
      winner < count ∧ flight.ran = [winner] ∧
      flight.callers = List.replicate count (.returned (loader winner)) ∧
      final = { alone cache id around (loader winner) with hits := cache.hits + (count - 1) } ∧
      final.loads = cache.loads + 1 ∧
      final.hits = cache.hits + (count - 1) ∧
      final.size + final.reclaimed = cache.size + cache.reclaimed + 1 ∧
      (cache.isFull = false → final.size = cache.size + 1) ∧
      final.peek id = some (loader winner) ∧
      (around.graph.Acyclic → ∀ slot ∈ cache.slots, slot ∈ final.slots ∨
        Unreached around.graph around.outside (some id) final.slots slot)) := by
  obtain ⟨sound, bound⟩ := (sound_start cache id loader count).run absent taken
  refine ⟨?steps, sound.guarded.exists_step, ?finished⟩
  case steps =>
    have ahead : ((start cache count).callers.map Point.ahead).sum = 9 * count := by
      simp [start, Point.ahead, Nat.mul_comm]
    omega
  case finished =>
    intro isOver
    obtain ⟨winner, around, inside, ran, returned, landed⟩ :=
      sound.course.landed isOver (sound.length ▸ isSome)
    have hits := sound.hits_eq absent isSome returned landed
    obtain ⟨loads, entries⟩ := counters_alone absent around (loader winner)
    rw [hits] at landed
    rw [sound.length] at inside
    refine ⟨winner, around, inside, ran, ?_, landed, ?_⟩
    · rw [List.eq_replicate_of_mem returned, sound.length]
    · rw [landed]
      refine ⟨loads, rfl, entries, ?_, peek_alone absent around _, ?_⟩
      · intro fits
        rw [alone_of_not_isFull absent fits]
        exact size_setSlot_of_absent absent _
      · intro acyclic slot member
        exact mem_alone_or_unreached absent acyclic (loader winner) member

theorem single_flight_meeting :
    let cache : Cache := { capacity := 2, slots := [("1", .filled 0)] }
    0 < 2 ∧ cache.slot? "7" = none ∧
    ∃ flight winner around,
      (start cache 2).run "7" (fun caller => 1 + caller) meeting = some flight ∧
      flight.isOver = true ∧ winner < 2 ∧
      flight.callers = [.returned (1 + winner), .returned (1 + winner)] ∧
      flight.cache "7" = { alone cache "7" around (1 + winner) with hits := 1 } := by
  intro cache
  have isSome : 0 < 2 := by decide
  have absent : cache.slot? "7" = none := by decide
  obtain ⟨flight, taken, isOver⟩ : ∃ flight,
      (start cache 2).run "7" (fun caller => 1 + caller) meeting = some flight ∧
        flight.isOver = true := ⟨_, rfl, by decide⟩
  obtain ⟨winner, around, inside, -, callers, final, -⟩ :=
    (single_flight cache "7" (fun caller => 1 + caller) isSome absent taken).2.2 isOver
  exact ⟨isSome, absent, flight, winner, around, taken, isOver, inside, callers, final⟩

/-- A cache that is full gains no entry if its pass drops another one. -/
theorem full_cache_gains_no_entry :
    let cache : Cache := { capacity := 1, slots := [("1", .filled 0)] }
    let graph : Graph := { nodes := [.detached "1" (.named []), .detached "7" (.named [])] }
    let turns := meeting ++ [{ caller := 0, around := ⟨graph, [1]⟩ }]
    cache.slot? "7" = none ∧
    ∃ flight, (start cache 2).run "7" (fun _ => 1) turns = some flight ∧ flight.isOver = true ∧
      (flight.cache "7").size ≠ cache.size + 1 :=
  ⟨by decide, _, rfl, by decide, by decide⟩

end TraceStore.Cache.Flight
