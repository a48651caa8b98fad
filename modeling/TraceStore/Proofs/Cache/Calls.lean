import TraceStore.Proofs.Cache.Bookkeeping

/-!
# Calls of a cache

`Account` follows a cache move by move.  `counters_run` says what its counters count: the requests,
the insertions without an entry and the loads with a node among the moves that are made.

A caller does not make moves but calls.  A call for a node that is not there runs its loader, which
makes calls itself; so a call is a sequence of moves in which loads lie inside each other, and at
its end the loads run that ran before.  `books_are_exact` puts this together with the conservation
law.
-/

namespace TraceStore

namespace Cache

/-! ## Counters -/

/-- Whether a move asks for a node. -/
def Move.asks : Move → Bool
  | .ask _ => true
  | _ => false

/-- Whether a move ends a load with a node. -/
def Move.loads : Move → Bool
  | .finish _ (some _) => true
  | _ => false

namespace Account

variable {account : Account} {move : Move}

/-- Whether a move inserts a node for whose id there is no slot. -/
def enters (account : Account) : Move → Bool
  | .insert around node => (account.cache.slot? (around.graph.node node).id).isNone
  | _ => false

/-- The moves among given ones that are made, each with the account in which it is made. -/
def made : Account → List Move → List (Account × Move)
  | _, [] => []
  | account, move :: moves =>
      if account.permits move then (account, move) :: made (account.step move) moves
      else made account moves

@[simp] theorem made_nil (account : Account) : account.made [] = [] := rfl

theorem made_cons (account : Account) (move : Move) (moves : List Move) :
    account.made (move :: moves) =
      if account.permits move then (account, move) :: (account.step move).made moves
      else account.made moves := rfl

/-- Each counter goes up by one with the moves that it counts, and with no other. -/
theorem counters_step (isPermitted : account.permits move = true) :
    (account.step move).asked = account.asked + (if move.asks then 1 else 0) ∧
    (account.step move).entered = account.entered + (if account.enters move then 1 else 0) ∧
    (account.step move).loaded = account.loaded + (if move.loads then 1 else 0) := by
  cases move with
  | insert around node =>
      rw [step, if_pos isPermitted]
      refine ⟨rfl, ?_, rfl⟩
      simp only [enters]
      exact (apply_ite (account.entered + ·) _ 1 0).symm
  | peek id =>
      rw [step, if_pos isPermitted]
      exact ⟨rfl, rfl, rfl⟩
  | reclaim around => exact ⟨rfl, rfl, rfl⟩
  | ask id =>
      rw [step, if_pos isPermitted]
      exact ⟨rfl, rfl, rfl⟩
  | finish around found =>
      cases innermost : account.running with
      | nil => simp [permits, innermost] at isPermitted
      | cons id outer =>
          simp only [step, permits, innermost, List.isEmpty_cons, Bool.not_false, if_true]
          cases found <;> exact ⟨rfl, rfl, rfl⟩

/-- After a run the counters have counted the requests, the insertions without an entry and the
loads with a node among the moves that were made. -/
theorem counters_run (account : Account) (moves : List Move) :
    (account.run moves).asked = account.asked + (account.made moves).countP (·.2.asks) ∧
    (account.run moves).entered =
      account.entered + (account.made moves).countP (fun made => made.1.enters made.2) ∧
    (account.run moves).loaded = account.loaded + (account.made moves).countP (·.2.loads) := by
  induction moves generalizing account with
  | nil => exact ⟨rfl, rfl, rfl⟩
  | cons move moves ih =>
      have later := ih (account.step move)
      rw [made_cons]
      split
      · next isPermitted =>
          obtain ⟨asked, entered, loaded⟩ := counters_step isPermitted
          rw [asked, entered, loaded] at later
          simp only [List.countP_cons]
          obtain ⟨asked, entered, loaded⟩ := later
          refine ⟨asked.trans ?_, entered.trans ?_, loaded.trans ?_⟩ <;> omega
      · next refused =>
          rw [step_of_not_permits refused] at later
          rw [run, List.foldl_cons, step_of_not_permits refused]
          exact later

/-! ## Loaders that use the cache -/

/-- Who asks for a node finds it or begins its load. -/
theorem running_ask (account : Account) (id : String) :
    (account.step (.ask id)).running = account.running ∨
      (account.step (.ask id)).running = id :: account.running := by
  rw [step]
  split
  · simp only
    split
    · exact .inr rfl
    · exact .inl rfl
  · exact .inl rfl

/-- The load that ends is the innermost one. -/
theorem running_finish {id : String} {outer : List String}
    (innermost : account.running = id :: outer) (around : Surroundings) (found : Option NodeRef) :
    (account.step (.finish around found)).running = outer := by
  simp only [step, permits, innermost, List.isEmpty_cons, Bool.not_false, if_true]
  cases found <;> rfl

/-- A running load goes on through every move but its own end. -/
theorem mem_running_step {id : String} (isRunning : id ∈ account.running) (move : Move)
    (goesOn : (∃ around found, move = .finish around found) → account.running.head? ≠ some id) :
    id ∈ (account.step move).running := by
  by_cases isPermitted : account.permits move = true
  case neg =>
    rw [step_of_not_permits isPermitted]
    exact isRunning
  case pos =>
    cases move with
    | insert around node => rwa [step, if_pos isPermitted]
    | peek other => rwa [step, if_pos isPermitted]
    | reclaim around => exact isRunning
    | ask other =>
        cases running_ask account other with
        | inl same => rwa [same]
        | inr begun =>
            rw [begun]
            exact List.mem_cons_of_mem other isRunning
    | finish around found =>
        have apart := goesOn ⟨around, found, rfl⟩
        cases innermost : account.running with
        | nil => simp [innermost] at isRunning
        | cons first outer =>
            rw [running_finish innermost]
            rw [innermost] at isRunning apart
            cases isRunning with
            | head => exact absurd rfl apart
            | tail _ isOuter => exact isOuter

end Account

/-- A call of the cache.  The loader of a node makes calls itself before it gives the node. -/
inductive Call where
  | insert (around : Surroundings) (node : NodeRef)
  | peek (id : String)
  | reclaim (around : Surroundings)
  | load (id : String) (loader : List Call) (around : Surroundings) (found : Option NodeRef)

namespace Account

mutual

/-- Makes a call.  A loader is run only if the node is not there. -/
def call (account : Account) : Call → Account
  | .insert around node => account.step (.insert around node)
  | .peek id => account.step (.peek id)
  | .reclaim around => account.step (.reclaim around)
  | .load id loader around found =>
      let asked := account.step (.ask id)
      if asked.running = account.running then asked
      else (asked.calls loader).step (.finish around found)

/-- Makes calls one after the other. -/
def calls (account : Account) : List Call → Account
  | [] => account
  | first :: others => (account.call first).calls others

end

/-- A call is a sequence of moves, at the end of which the loads run that ran before. -/
structure Returns (before after : Account) : Prop where
  moves : ∃ moves, after = before.run moves
  running : after.running = before.running

theorem Returns.refl (account : Account) : Returns account account := ⟨⟨[], rfl⟩, rfl⟩

theorem Returns.trans {first second third : Account} (left : Returns first second)
    (right : Returns second third) : Returns first third := by
  rcases left.moves with ⟨earlier, rfl⟩
  rcases right.moves with ⟨later, rfl⟩
  refine ⟨⟨earlier ++ later, ?_⟩, right.running.trans left.running⟩
  simp [run]

theorem returns_step (account : Account) (move : Move)
    (same : (account.step move).running = account.running) :
    Returns account (account.step move) := ⟨⟨[move], rfl⟩, same⟩

mutual

theorem returns_call (account : Account) : (made : Call) → Returns account (account.call made)
  | .insert around node => by
      rw [call]
      apply returns_step
      rw [step]
      split <;> rfl
  | .peek id => by
      rw [call]
      apply returns_step
      rw [step]
      split <;> rfl
  | .reclaim around => by
      rw [call]
      apply returns_step
      rw [step]
      split <;> rfl
  | .load id loader around found => by
      rw [call]
      split
      · next same => exact returns_step account (.ask id) same
      · next misses =>
          have inside := returns_calls (account.step (.ask id)) loader
          rcases inside.moves with ⟨moves, isRun⟩
          have begun := (running_ask account id).resolve_left misses
          constructor
          case moves =>
            refine ⟨.ask id :: moves ++ [.finish around found], ?_⟩
            simp [run, isRun]
          case running =>
            exact running_finish (inside.running.trans begun) around found

theorem returns_calls (account : Account) :
    (made : List Call) → Returns account (account.calls made)
  | [] => .refl account
  | first :: others => by
      rw [calls]
      exact (returns_call account first).trans (returns_calls (account.call first) others)

end

/-- The books of a cache after any moves, the calls of running loaders included, and after any
calls.  While no load runs every slot has a node; every entry that was entered or loaded is there or
was reclaimed; every request was a hit or began a load.  Each running load has one slot without a
node, and keeps it through every move but its own end. -/
theorem books_are_exact (capacity : Nat) (moves : List Move) :
    let account := (opened capacity).run moves
    (account.running = [] →
      (∀ slot ∈ account.cache.slots, ∃ node, slot.2 = .filled node) ∧
      account.cache.size + account.cache.reclaimed = account.entered + account.loaded) ∧
    account.cache.hits + account.cache.loads = account.asked ∧
    account.cache.size + account.cache.reclaimed =
      account.entered + account.loaded + account.running.length ∧
    ((account.cache.slots.filter (·.2 = .loading)).map (·.1)).Perm account.running ∧
    (∀ id ∈ account.running, ∀ move,
      ((∃ around found, move = .finish around found) → account.running.head? ≠ some id) →
      (account.step move).cache.slot? id = some .loading) ∧
    ∀ made, Returns account (account.calls made) := by
  intro account
  have balanced : account.Balanced := (balanced_opened capacity).run moves
  refine ⟨?idle, balanced.requests, balanced.entries, balanced.perm_running, ?running, ?calls⟩
  case idle =>
    intro idle
    have entries := balanced.entries
    rw [idle] at entries
    exact ⟨fun slot member => balanced.filled_of_idle idle member, entries⟩
  case running =>
    intro id isRunning move goesOn
    exact ((balanced.step move).loading id).mpr (mem_running_step isRunning move goesOn)
  case calls =>
    intro made
    exact returns_calls account made

/-- While `a` is loaded its loader loads `b`.  The load of `b` grows the cache past its capacity,
and the pass drops `c` but not the slot of `a`; the end of the load of `a` drops `b`. -/
theorem books_of_nested_load :
    let graph := ((({} : Graph).add (.detached "a" (.named []))).add
      (.detached "b" (.named []))).add (.detached "c" (.named []))
    let around : Surroundings := ⟨graph, []⟩
    let inside : List Move := [.insert around 2, .ask "a", .ask "b", .finish around (some 1)]
    let during := (opened 1).run inside
    let after := (opened 1).run (inside ++ [.finish around (some 0)])
    during.running = ["a"] ∧ during.cache.reclaimed = 1 ∧
      (during.step (.reclaim around)).cache.slot? "a" = some .loading ∧
      during.cache.size + during.cache.reclaimed = during.entered + during.loaded + 1 ∧
      after = (opened 1).calls
        [.insert around 2, .load "a" [.load "b" [] around (some 1)] around (some 0)] ∧
      after.cache.reclaimed = 2 ∧ (∀ slot ∈ after.cache.slots, ∃ node, slot.2 = .filled node) ∧
      after.cache.size + after.cache.reclaimed = after.entered + after.loaded ∧
      after.cache.hits + after.cache.loads = after.asked := by
  intro graph around inside during after
  have isRunning : during.running = ["a"] := by rfl
  have idle : after.running = [] := by rfl
  obtain ⟨-, -, entries, -, goesOn, -⟩ := books_are_exact 1 inside
  obtain ⟨books, requests, -⟩ := books_are_exact 1 (inside ++ [.finish around (some 0)])
  have stays := goesOn "a" (by decide) (.reclaim around) nofun
  exact ⟨isRunning, by decide, stays, entries, rfl, by decide, (books idle).1, (books idle).2,
    requests⟩

end Account

end Cache

end TraceStore
