import Assemblix.Execution.DagSchedulerCascade

/-
What the removal of the back edges is for: the part of the graph that can be reached has no cycle
of forward edges and loses no node, and the recursion of `_propagate_dead` ends from any state.
-/

namespace Assemblix.DagScheduler

open Library

variable {α : Type}

/-! ### The recursion and how deep it goes -/

/-- `_maybe_fire`, where the nested call may go too deep. -/
def maybeFireWithin (plan : Plan) (propagate : String → Progress α → Option (Progress α))
    (node : String) (progress : Progress α) : Option (Progress α) :=
  let forwardIn := plan.forwardIn node
  if forwardIn = [] then some progress
  else
    let tokens := progress.state.tokens node
    if tokens.size < forwardIn.length then some progress
    else
      let consumed := progress.state.setTokens node Dict.empty
      let live := liveSources plan node tokens
      if live ≠ [] then
        some
          { state := consumed, ready := progress.ready ++ [⟨node, mergeOutputs consumed live⟩] }
      else propagate node { progress with state := consumed }

def deliverWithin (plan : Plan) (propagate : String → Progress α → Option (Progress α))
    (ref : EdgeRef) (status : Token) (progress : Progress α) : Option (Progress α) :=
  maybeFireWithin plan propagate ref.target
    { progress with state := progress.state.putToken ref status }

/-- `_propagate_dead` on a stack of so many calls. -/
def propagateDeadWithin (plan : Plan) : Nat → String → Progress α → Option (Progress α)
  | 0, _, _ => none
  | calls + 1, node, progress =>
      if node ∈ progress.state.dead then some progress
      else
        (plan.out node).foldlM
          (fun current ref =>
            if plan.isBack ref then some current
            else deliverWithin plan (propagateDeadWithin plan calls) ref .dead current)
          { progress with state := progress.state.markDead node }

def Suffices (plan : Plan) (calls fuel : Nat) : Prop :=
  ∀ (node : String) (progress : Progress α), node ∈ nodeIds plan.nodes →
    undead plan progress.state.dead ≤ fuel →
      propagateDeadWithin plan calls node progress = some (propagateDead plan fuel node progress)

theorem deliverWithin_eq {plan : Plan} {calls fuel : Nat}
    (enough : Suffices (α := α) plan calls fuel) {ref : EdgeRef}
    (known : ref.target ∈ nodeIds plan.nodes) (status : Token) {progress : Progress α}
    (bound : undead plan progress.state.dead ≤ fuel) :
    deliverWithin plan (propagateDeadWithin plan calls) ref status progress =
      some (deliver plan (propagateDead plan fuel) ref status progress) := by
  unfold deliverWithin deliver maybeFireWithin maybeFire
  dsimp only
  split
  · rfl
  · split
    · rfl
    · split
      · rfl
      · exact enough ref.target _ known bound

theorem propagateEdges_eq {plan : Plan} {calls fuel : Nat}
    (enough : Suffices (α := α) plan calls fuel) (refs : List EdgeRef)
    (known : ∀ ref ∈ refs, ref ∈ plan.edges) (progress : Progress α)
    (bound : undead plan progress.state.dead ≤ fuel) :
    refs.foldlM (fun current ref =>
        if plan.isBack ref then some current
        else deliverWithin plan (propagateDeadWithin plan calls) ref .dead current) progress =
      some (refs.foldl (fun current ref =>
        if plan.isBack ref then current
        else deliver plan (propagateDead plan fuel) ref .dead current) progress) := by
  induction refs generalizing progress with
  | nil => rfl
  | cons ref rest ih =>
      have later := fun other member => known other (List.mem_cons_of_mem ref member)
      have here := known ref List.mem_cons_self
      rw [List.foldlM_cons, List.foldl_cons]
      cases back : plan.isBack ref with
      | true => exact ih later progress bound
      | false =>
          have forward : ref ∉ plan.backEdges := by
            intro member
            rw [(plan.isBack_iff ref).mpr member] at back
            cases back
          have gated : ref ∈ plan.forwardIn ref.target :=
            (plan.mem_forwardIn _ _).mpr ⟨here, rfl, forward⟩
          have grows := deliver_dead_subset plan fuel .dead gated bound
          have delivered := deliverWithin_eq enough (plan.targets ref here) .dead bound
          simp only [Bool.false_eq_true, if_false, delivered]
          exact ih later _ (Nat.le_trans (undead_anti plan grows) bound)

theorem suffices_succ (plan : Plan) (fuel : Nat) : Suffices (α := α) plan (fuel + 1) fuel := by
  induction fuel with
  | zero =>
      intro node progress known bound
      have dead : node ∈ progress.state.dead := by
        by_contra alive
        have positive := undead_pos plan progress.state.dead node known alive
        omega
      rw [propagateDeadWithin, if_pos dead]
      rfl
  | succ fuel ih =>
      intro node progress known bound
      by_cases dead : node ∈ progress.state.dead
      · rw [propagateDeadWithin, propagateDead, if_pos dead, if_pos dead]
      · rw [propagateDeadWithin, propagateDead, if_neg dead, if_neg dead]
        refine propagateEdges_eq ih (plan.out node) ?_ _ ?_
        · intro ref outgoing
          exact ((plan.mem_out node ref).mp outgoing).1
        · have fewer := undead_mark_lt plan progress.state.dead node known dead
          change undead plan (progress.state.dead ++ [node]) ≤ fuel
          omega

/-! ### The forward edges -/

def Leads (nodes : List WorkflowNode) (edges : List Edge) : String → String → Prop :=
  Relation.ReflTransGen fun source target =>
    target ∈ nodeIds nodes ∧ ∃ edge ∈ edges, edge.source = source ∧ edge.target = target

theorem Leads.reaches {nodes : List WorkflowNode} {edges : List Edge}
    {startNodeId source target : String}
    (path : Leads nodes edges source target) :
    (plan nodes edges startNodeId).graph.Reaches source target := by
  induction path with
  | refl => exact .refl
  | tail _ drawn ih =>
      obtain ⟨known, edge, listed, rfl, rfl⟩ := drawn
      by_cases loop : edge.target = edge.source
      · rw [loop]
        exact ih
      · rw [← edgeRefs_edge edges] at listed
        obtain ⟨ref, referred, rfl⟩ := List.mem_map.mp listed
        refine ih.tail ⟨ref, ?_, rfl⟩
        exact ((plan nodes edges startNodeId).mem_out _ _).mpr
          ⟨(mem_validEdges nodes edges ref).mpr ⟨referred, known, loop⟩, rfl⟩

theorem Plan.no_forward_cycle (plan : Plan) {node : String}
    (reached : plan.graph.Reaches plan.start node) :
    ¬ Relation.TransGen (plan.graph.AdjacentOff plan.backEdges) node node := by
  intro cycle
  obtain ⟨rank, descends⟩ := plan.classified.descending
  have lower : ∀ last, Relation.TransGen (plan.graph.AdjacentOff plan.backEdges) node last →
      plan.graph.Reaches plan.start last ∧ rank last < rank node := by
    intro last path
    induction path with
    | single adjacent =>
        obtain ⟨edge, outgoing, off, rfl⟩ := adjacent
        exact ⟨reached.tail ⟨edge, outgoing, rfl⟩, descends node reached edge outgoing off⟩
    | tail _ adjacent ih =>
        obtain ⟨edge, outgoing, off, rfl⟩ := adjacent
        exact ⟨ih.1.tail ⟨edge, outgoing, rfl⟩,
          Nat.lt_trans (descends _ ih.1 edge outgoing off) ih.2⟩
  exact Nat.lt_irrefl _ (lower node cycle).2

/-- Without its back edges the graph that can be reached is acyclic and keeps its nodes, and from
any state the death of a node is passed on by a recursion that ends. -/
theorem back_edges_removed (nodes : List WorkflowNode) (edges : List Edge) (startNodeId : String) :
    (∀ node, Leads nodes edges startNodeId node →
      ¬ Relation.TransGen ((plan nodes edges startNodeId).graph.AdjacentOff
          (plan nodes edges startNodeId).backEdges) node node ∧
        (plan nodes edges startNodeId).graph.ReachesOff (plan nodes edges startNodeId).backEdges
          startNodeId node) ∧
    ∀ (node : String) (progress : Progress α), node ∈ nodeIds nodes →
      propagateDeadWithin (plan nodes edges startNodeId) (nodes.length + 1) node progress =
        some (propagateDead (plan nodes edges startNodeId)
          (depth (plan nodes edges startNodeId)) node progress) := by
  refine ⟨fun node path => ⟨Plan.no_forward_cycle _ path.reaches, ?_⟩, fun node progress known => ?_⟩
  · exact (plan nodes edges startNodeId).classified.spanning node path.reaches
  · exact suffices_succ _ _ node progress known (undead_le_depth _ _)

/-! Two cycles through one node, one of them drawn twice. -/

def loopNodes : List WorkflowNode :=
  [⟨"start", "start"⟩, ⟨"A", "agent"⟩, ⟨"B", "agent"⟩, ⟨"C", "agent"⟩]

def loopEdges : List Edge :=
  [⟨"start", "A", none⟩, ⟨"A", "B", none⟩, ⟨"B", "A", none⟩, ⟨"B", "A", none⟩, ⟨"B", "C", none⟩,
    ⟨"C", "A", none⟩, ⟨"A", "A", none⟩]

theorem loops_removed :
    Leads loopNodes loopEdges "start" "B" ∧
      ¬ Relation.TransGen ((plan loopNodes loopEdges "start").graph.AdjacentOff
          (plan loopNodes loopEdges "start").backEdges) "B" "B" ∧
      propagateDeadWithin (plan loopNodes loopEdges "start") 5 "B"
          (⟨State.initial, []⟩ : Progress Nat) =
        some (propagateDead (plan loopNodes loopEdges "start")
          (depth (plan loopNodes loopEdges "start")) "B" ⟨State.initial, []⟩) := by
  have first : Leads loopNodes loopEdges "start" "A" :=
    .single ⟨by decide, ⟨"start", "A", none⟩, by decide, rfl, rfl⟩
  have path := first.tail ⟨by decide, ⟨"A", "B", none⟩, by decide, rfl, rfl⟩
  have removed := @back_edges_removed Nat loopNodes loopEdges "start"
  exact ⟨path, (removed.1 "B" path).1, removed.2 "B" _ (by decide)⟩

end Assemblix.DagScheduler
