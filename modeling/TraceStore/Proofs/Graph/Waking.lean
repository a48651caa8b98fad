import TraceStore.Proofs.Graph.Growth

/-!
# Waking the actions of a node

Actions are woken one after the other, and what one of them adds to the node is there when the next
is woken.  `wakeAll_snd` says what the loop leaves on the node, and `wakeAll_fst` what each action
has seen: the node with what the seeds in front of the action have added.
-/

namespace TraceStore

/-! ## What waking adds -/

namespace Action

/-- Whether an action adds to its node when it is woken. -/
def isSeed : Action → Bool
  | .seed _ => true
  | _ => false

/-- What actions add to their node when they are woken in order: a label for each seed. -/
def sprouts (actions : List Action) : List Action :=
  actions.filterMap fun
    | .seed text => some (.label ("leaf:" ++ text))
    | _ => none

theorem length_growth (action : Action) :
    action.growth.length = if action.isSeed then 1 else 0 := by
  cases action <;> rfl

theorem sprouts_cons (action : Action) (others : List Action) :
    sprouts (action :: others) = action.growth ++ sprouts others := by
  cases action <;> rfl

end Action

namespace Node

theorem foldl_attach (node : Node) (actions : List Action) :
    actions.foldl attach node = { node with actions := node.actions ++ actions } := by
  induction actions generalizing node with
  | nil => simp
  | cons action others ih => simp [ih, attach]

/-- As many actions as there were in front are replaced by others, and what was added stays. -/
theorem replaceFirst_append {actions replacements : List Action}
    (length : replacements.length = actions.length) (added : List Action) :
    replaceFirst (actions ++ added) replacements = replacements ++ added := by
  induction actions generalizing replacements with
  | nil =>
      obtain rfl := List.eq_nil_of_length_eq_zero length
      cases added <;> rfl
  | cons action others ih =>
      cases replacements with
      | nil => simp at length
      | cons replacement later =>
          have shorter : later.length = others.length := by simpa using length
          simp [replaceFirst, ih shorter]

end Node

/-! ## Waking in order -/

namespace Graph

variable {graph : Graph} {ref : NodeRef}

theorem update_id (graph : Graph) (ref : NodeRef) : graph.update ref id = graph := by
  simp [update]

theorem update_update (graph : Graph) (ref : NodeRef) (first second : Node → Node) :
    (graph.update ref first).update ref second = graph.update ref (second ∘ first) := by
  simp [update, List.modify_modify_eq]

/-- A change of a node comes to what it makes of the node that is there. -/
theorem update_congr {first second : Node → Node}
    (same : first (graph.node ref) = second (graph.node ref)) :
    graph.update ref first = graph.update ref second := by
  suffices graph.nodes.modify ref first = graph.nodes.modify ref second by rw [update, update, this]
  apply List.ext_getElem?
  intro position
  rw [List.getElem?_modify, List.getElem?_modify]
  split
  · next isRef =>
      subst isRef
      cases found : graph.nodes[ref]? with
      | none => rfl
      | some there =>
          rw [node, found, Option.getD_some] at same
          simp [same]
  · rfl

/-- Waking an action attaches what it adds behind the actions of the node. -/
theorem wake_snd (graph : Graph) (ref : NodeRef) (action : Action) :
    (graph.wake ref action).2 = graph.update ref fun node =>
      { node with actions := node.actions ++ action.growth } := by
  simp only [wake, Node.foldl_attach]

/-- An action sees its node the same after another was woken, with what that one has added. -/
theorem sighting_wake (old : ref < graph.next) (action : Action) :
    (graph.wake ref action).2.sighting ref =
      { graph.sighting ref with
        actions := (graph.sighting ref).actions + action.growth.length } := by
  rw [wake_snd]
  simp only [sighting, node_update graph ref ref _ old, if_pos, List.length_append]
  rfl

theorem wakeAll_snd (graph : Graph) (ref : NodeRef) (actions : List Action) :
    (graph.wakeAll ref actions).2 = graph.update ref fun node =>
      { node with actions := node.actions ++ Action.sprouts actions } := by
  induction actions generalizing graph with
  | nil =>
      have nothing : (fun node : Node => { node with actions := node.actions ++ [] }) = id := by
        funext node
        simp
      rw [wakeAll, Action.sprouts, List.filterMap_nil, nothing, update_id]
  | cons action others ih =>
      simp only [wakeAll, ih, wake_snd, update_update, Action.sprouts_cons]
      congr 1
      funext node
      simp

@[simp] theorem length_wakeAll (graph : Graph) (ref : NodeRef) (actions : List Action) :
    (graph.wakeAll ref actions).1.length = actions.length := by
  induction actions generalizing graph with
  | nil => rfl
  | cons action others ih => simp [wakeAll, ih]

/-- Each action is offered the sighting of the first one, with one more action for every seed in
between. -/
theorem wakeAll_fst (old : ref < graph.next) (actions : List Action) :
    (graph.wakeAll ref actions).1 = actions.mapIdx fun position action =>
      action.remember { graph.sighting ref with
        actions := (graph.sighting ref).actions +
          (actions.take position).countP Action.isSeed } := by
  induction actions generalizing graph with
  | nil => rfl
  | cons action others ih =>
      have there : ref < (graph.wake ref action).2.next := by
        rw [wake_snd, next_update]
        exact old
      rw [wakeAll, List.mapIdx_cons]
      simp only [ih there, sighting_wake old, List.take_succ_cons, List.countP_cons,
        Action.length_growth]
      congr 2
      funext position other
      congr 2
      omega

end Graph

end TraceStore
