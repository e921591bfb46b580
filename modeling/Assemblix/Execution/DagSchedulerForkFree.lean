import Assemblix.Execution.DagSchedulerCascade
import Assemblix.Execution.GraphNavigator

/-
The scheduler against the navigator on graphs without forks.

With a single node in flight one edge is followed at a time. Following a back edge
reactivates its target; following a forward edge sends one live token and rejects the
other branches. The live token arrives as soon as every other forward edge into its
target holds a token. A target recorded dead earlier has lost the tokens of that wave,
and this is the only way in which the two traversals come apart.
-/

namespace Assemblix.DagScheduler

open Library

variable {α : Type}

/-! ### Graphs without forks -/

structure Roles where
  isEnd : String → Bool
  isRouter : String → Bool
  selectable : String → Int → Prop

def Roles.Allows (roles : Roles) (node : String) : Option Int → Prop
  | none => roles.isRouter node = false
  | some index => roles.isRouter node = true ∧ roles.selectable node index

structure ForkFree (roles : Roles) (nodes : List WorkflowNode) (edges : List Edge)
    (startNodeId : String) : Prop where
  start : startNodeId ∈ nodeIds nodes
  reachable : ∀ node ∈ nodeIds nodes,
    (plan nodes edges startNodeId).graph.Reaches startNodeId node
  plain : ∀ node ∈ nodeIds nodes, roles.isEnd node = false → roles.isRouter node = false →
    ∃ ref, (plan nodes edges startNodeId).out node = [ref]
  router : ∀ node ∈ nodeIds nodes, roles.isRouter node = true → ∀ index,
    roles.selectable node index →
      ∃ ref, selectedEdges (plan nodes edges startNodeId) node index = [ref]
  loops : ∀ node, (plan nodes edges startNodeId).graph.OnCycle node →
    ((plan nodes edges startNodeId).forwardIn node).length ≤ 1

def followedEdges (plan : Plan) (node : String) : Option Int → List EdgeRef
  | none => plan.out node
  | some index => selectedEdges plan node index

def asideEdges (plan : Plan) (node : String) : Option Int → List EdgeRef
  | none => []
  | some index => rejectedEdges plan node index

/-- For every sequence of branches and outputs, each completion returns the navigator's next
node with the output as its input. -/
def Agrees (roles : Roles) (nodes : List WorkflowNode) (edges : List Edge) (startNodeId : String) :
    State α → String → List (Option Int × Dict String α) → Prop
  | _, _, [] => True
  | state, node, (branch, output) :: rest =>
      roles.isEnd node = false → roles.Allows node branch →
        ∃ next, GraphNavigator.findNextNode edges nodes node branch = some next ∧
          (complete (plan nodes edges startNodeId) state node output branch false).2.ready =
            [⟨next, output⟩] ∧
          Agrees roles nodes edges startNodeId
            (complete (plan nodes edges startNodeId) state node output branch false).1 next rest

/-! ### When the live token arrives -/

inductive Orphaned (plan : Plan) : String → Prop
  | missing {node : String} : node ∉ nodeIds plan.nodes → Orphaned plan node
  | behind {ref : EdgeRef} : Orphaned plan ref.source → ref ∈ plan.forwardIn ref.target →
      ref.target ≠ plan.start → Orphaned plan ref.target

/-- Edges that lie on a branch the completion rejects: they leave the node itself, or a node
that is not recorded dead and waits for rejected edges only. -/
inductive Rejected (plan : Plan) (state : State α) (node : String) (branch : Option Int) :
    EdgeRef → Prop
  | aside {ref : EdgeRef} : ref ∈ asideEdges plan node branch → Rejected plan state node branch ref
  | fallen {ref : EdgeRef} : ref.source ∉ state.dead → ref ∈ plan.forwardOut ref.source →
      plan.forwardIn ref.source ≠ [] →
      (∀ earlier ∈ plan.forwardIn ref.source, earlier ∉ (state.tokens ref.source).keys →
        Rejected plan state node branch earlier) →
      Rejected plan state node branch ref

/-- The edge loops back, or its target has neither been recorded dead nor lies behind a missing
source, or what the target still waits for lies on a rejected branch. -/
def Unblocked (plan : Plan) (state : State α) (node : String) (branch : Option Int)
    (ref : EdgeRef) : Prop :=
  ref ∈ plan.backEdges ∨
  (ref.target ∉ state.dead ∧ ¬ Orphaned plan ref.target) ∨
  ∀ other ∈ plan.forwardIn ref.target, other ≠ ref →
    other ∉ (state.tokens ref.target).keys → Rejected plan state node branch other

def Guarded (roles : Roles) (nodes : List WorkflowNode) (edges : List Edge) (startNodeId : String) :
    State α → String → List (Option Int × Dict String α) → Prop
  | _, _, [] => True
  | state, node, (branch, output) :: rest =>
      roles.isEnd node = false → roles.Allows node branch →
        (∀ ref ∈ followedEdges (plan nodes edges startNodeId) node branch,
          Unblocked (plan nodes edges startNodeId) state node branch ref) ∧
        ∀ next, GraphNavigator.findNextNode edges nodes node branch = some next →
          Guarded roles nodes edges startNodeId
            (complete (plan nodes edges startNodeId) state node output branch false).1 next rest

/-! ### The navigator reads the same edges -/

private theorem findNextNode_filter (nodes : List WorkflowNode) (edges : List Edge) (node : String)
    (accepts : Edge → Bool) (ref : EdgeRef)
    (only : (validEdges nodes edges).filter
      (fun other => decide (other.source = node) && accepts other.edge) = [ref]) :
    (edges.find? (fun edge => decide (edge.source = node) && accepts edge &&
      validTarget nodes edge)).map Edge.target = some ref.target := by
  have merged : (edgeRefs edges).filter (fun other => decide (other.edge.source = node) &&
      accepts other.edge && validTarget nodes other.edge) = [ref] := by
    rw [← only, validEdges, List.filter_filter]
    rfl
  have found : (edgeRefs edges).find? (fun other => decide (other.edge.source = node) &&
      accepts other.edge && validTarget nodes other.edge) = some ref := by
    rw [← List.head?_filter, merged]
    rfl
  conv_lhs => rw [← edgeRefs_edge edges]
  rw [List.find?_map]
  have sameTest : ((fun edge => decide (edge.source = node) && accepts edge &&
      validTarget nodes edge) ∘ EdgeRef.edge) =
      (fun other : EdgeRef => decide (other.edge.source = node) &&
        accepts other.edge && validTarget nodes other.edge) := rfl
  rw [sameTest, found]
  rfl

theorem findNextNode_eq (nodes : List WorkflowNode) (edges : List Edge) (startNodeId node : String)
    (branch : Option Int) (ref : EdgeRef)
    (only : followedEdges (plan nodes edges startNodeId) node branch = [ref]) :
    GraphNavigator.findNextNode edges nodes node branch = some ref.target := by
  cases branch with
  | none =>
      have found := findNextNode_filter nodes edges node (fun _ => true) ref (by
        simpa [followedEdges, Plan.out, outEdges, plan] using only)
      simpa [GraphNavigator.findNextNode] using found
  | some index =>
      have found := findNextNode_filter nodes edges node
        (fun edge => decide (edge.sourceHandle = some (sourceHandleOf node index))) ref (by
          rw [← only, followedEdges, selectedEdges, Plan.out, outEdges, List.filter_filter]
          apply List.filter_congr
          intro other _
          exact Bool.and_comm _ _)
      exact found

/-! ### The signals of one step -/

theorem completionSignals_back (plan : Plan) (node : String) (branch : Option Int) (ref : EdgeRef)
    (only : followedEdges plan node branch = [ref]) (back : ref ∈ plan.backEdges) :
    completionSignals plan node branch = [.reactivate ref] := by
  have isBack := (plan.isBack_iff ref).mpr back
  cases branch with
  | none =>
      change (plan.out node).map (followSignal plan) = _
      rw [show plan.out node = [ref] from only]
      simp [followSignal, isBack]
  | some index =>
      have selected : selectedEdges plan node index = [ref] := only
      simp [completionSignals, selected, followSignal, isBack]

theorem completionSignals_forward (plan : Plan) (node : String) (branch : Option Int)
    (ref : EdgeRef) (only : followedEdges plan node branch = [ref])
    (forward : ref ∉ plan.backEdges) :
    completionSignals plan node branch =
      .token ref .live :: (asideEdges plan node branch).map (fun other => .token other .dead) := by
  have notBack : plan.isBack ref = false := by simp [Plan.isBack, forward]
  cases branch with
  | none =>
      change (plan.out node).map (followSignal plan) = _
      rw [show plan.out node = [ref] from only]
      simp [followSignal, notBack, asideEdges]
  | some index =>
      have selected : selectedEdges plan node index = [ref] := only
      simp [completionSignals, selected, followSignal, notBack, asideEdges]

theorem mem_asideEdges (plan : Plan) (node : String) (branch : Option Int) (ref : EdgeRef)
    (only : followedEdges plan node branch = [ref]) (other : EdgeRef) :
    other ∈ asideEdges plan node branch ↔ other ∈ plan.forwardOut node ∧ other ≠ ref := by
  cases branch with
  | none =>
      constructor
      · intro member
        cases member
      · intro both
        obtain ⟨known, source, _⟩ := (plan.mem_forwardOut _ _).mp both.1
        have outgoing := (plan.mem_out _ _).mpr ⟨known, source⟩
        rw [show plan.out node = [ref] from only] at outgoing
        exact absurd (List.mem_singleton.mp outgoing) both.2
  | some index =>
      have selected : selectedEdges plan node index = [ref] := only
      simp only [asideEdges, rejectedEdges, List.mem_filter, selected, List.mem_singleton,
        decide_eq_true_eq, ne_eq]

/-! ### One live token -/

theorem liveSources_eq_singleton (plan : Plan) (node : String) (tokens : Dict EdgeRef Token)
    (only : EdgeRef) (incoming : only ∈ plan.forwardIn node)
    (exactly : ∀ ref, tokens.lookup ref = some .live ↔ ref = only) :
    liveSources plan node tokens = [only] := by
  have sameTest : ∀ ref ∈ plan.forwardIn node,
      decide (tokens.lookup ref = some .live) = decide (ref = only) := by
    intro ref _
    rw [decide_eq_decide]
    exact exactly ref
  rw [liveSources, List.filter_congr sameTest, List.filter_eq,
    List.count_eq_one_of_mem (plan.forwardIn_nodup node) incoming]
  rfl

/-- The step that follows a forward edge: the state before it, a height that forward edges
increase, and the edge. -/
structure Crossing (α : Type) where
  plan : Plan
  state : State α
  node : String
  branch : Option Int
  output : Dict String α
  ref : EdgeRef
  height : String → Nat
  climbs : ∀ other ∈ plan.edges, other ∉ plan.backEdges →
    plan.graph.Reaches plan.start other.source → height other.source < height other.target
  gated : ref ∈ plan.forwardIn ref.target
  source : ref.source = node
  reached : plan.graph.Reaches plan.start node

/-- What holds while dead tokens are delivered after the live one. `sent` lists the edges
delivered in this step so far, `pending` those still to be delivered. -/
structure Surge (crossing : Crossing α) (sent pending : List EdgeRef) (progress : Progress α) :
    Prop where
  within : ∀ node, (progress.state.tokens node).keys ⊆ crossing.plan.forwardIn node
  missing : ∀ node, crossing.plan.forwardIn node ≠ [] →
    ∃ ref ∈ crossing.plan.forwardIn node, ref ∉ (progress.state.tokens node).keys
  single : ∀ node ref, (progress.state.tokens node).lookup ref = some .live → ref = crossing.ref
  outputs : progress.state.nodeOutputs crossing.node = some crossing.output
  ahead : ∀ ref ∈ pending, ref ∈ crossing.plan.edges ∧ ref ∉ crossing.plan.backEdges ∧
    crossing.plan.graph.Reaches crossing.plan.start ref.source ∧
      crossing.height crossing.node ≤ crossing.height ref.source ∧ ref ≠ crossing.ref
  grows : crossing.state.dead ⊆ progress.state.dead
  fallen : ∀ node ∈ progress.state.dead, node ∈ crossing.state.dead ∨
    (crossing.height crossing.node < crossing.height node ∧
      ∀ ref ∈ crossing.plan.forwardOut node, ref ∈ sent ∨ ref ∈ pending)
  kept : ∀ node, node ≠ crossing.ref.target → node ∉ progress.state.dead →
    ∀ ref ∈ crossing.plan.forwardIn node,
      ref ∈ (crossing.state.tokens node).keys ∨ ref ∈ sent →
        ref ∈ (progress.state.tokens node).keys
  explained : ∀ ref, ref ∈ sent ∨ ref ∈ pending → ref = crossing.ref ∨
    Rejected crossing.plan crossing.state crossing.node crossing.branch ref
  sourced : ∀ node, ∀ ref ∈ (progress.state.tokens node).keys,
    ref ∈ (crossing.state.tokens node).keys ∨ ref ∈ sent
  first : crossing.ref ∈ sent
  arrival :
    (progress.ready = [] ∧
      (progress.state.tokens crossing.ref.target).lookup crossing.ref = some .live ∧
      ∀ ref ∈ crossing.plan.forwardIn crossing.ref.target,
        ref ∈ (crossing.state.tokens crossing.ref.target).keys ∨ ref ∈ sent →
          ref ∈ (progress.state.tokens crossing.ref.target).keys) ∨
    (progress.ready = [⟨crossing.ref.target, crossing.output⟩] ∧
      crossing.ref ∉ (progress.state.tokens crossing.ref.target).keys ∧
      ∀ ref ∈ crossing.plan.forwardIn crossing.ref.target,
        ref ∈ (crossing.state.tokens crossing.ref.target).keys ∨ ref ∈ sent)

section DeadTokens

variable {crossing : Crossing α} {sent pending : List EdgeRef} {ref : EdgeRef}
variable {progress : Progress α}

namespace Surge

section

variable (surge : Surge crossing sent (ref :: pending) progress)
include surge

theorem gated : ref ∈ crossing.plan.forwardIn ref.target := by
  obtain ⟨known, forward, _⟩ := surge.ahead ref List.mem_cons_self
  exact (crossing.plan.mem_forwardIn _ _).mpr ⟨known, rfl, forward⟩

theorem other : ref ≠ crossing.ref :=
  (surge.ahead ref List.mem_cons_self).2.2.2.2

private theorem shift {other : EdgeRef} (mentioned : other ∈ ref :: sent ∨ other ∈ pending) :
    other = crossing.ref ∨
      Rejected crossing.plan crossing.state crossing.node crossing.branch other := by
  apply surge.explained
  rcases mentioned with inSent | later
  · rcases List.mem_cons.mp inSent with same | before
    · rw [same]
      exact Or.inr List.mem_cons_self
    · exact Or.inl before
  · exact Or.inr (List.mem_cons_of_mem _ later)

private theorem fallen_shift (node : String) (dead : node ∈ progress.state.dead) :
    node ∈ crossing.state.dead ∨
      (crossing.height crossing.node < crossing.height node ∧
        ∀ other ∈ crossing.plan.forwardOut node, other ∈ ref :: sent ∨ other ∈ pending) := by
  rcases surge.fallen node dead with before | ⟨above, covered⟩
  · exact Or.inl before
  · refine Or.inr ⟨above, ?_⟩
    intro other outgoing
    rcases covered other outgoing with inSent | inPending
    · exact Or.inl (List.mem_cons_of_mem _ inSent)
    · rcases List.mem_cons.mp inPending with same | later
      · rw [same]
        exact Or.inl List.mem_cons_self
      · exact Or.inr later

theorem wait (short : ((progress.state.tokens ref.target).set ref .dead).size <
      (crossing.plan.forwardIn ref.target).length) :
    Surge crossing (ref :: sent) pending
      { progress with state := progress.state.putToken ref .dead } where
  within := by
    intro node other member
    rcases (mem_keys_putToken _ _ _ _ _).mp member with ⟨rfl, rfl⟩ | old
    · exact surge.gated
    · exact surge.within node old
  missing := by
    intro node nonempty
    by_cases same : node = ref.target
    · subst same
      obtain ⟨other, incoming, absent⟩ :=
        exists_missing _ _ (crossing.plan.forwardIn_nodup ref.target) short
      refine ⟨other, incoming, ?_⟩
      rw [State.putToken, State.setTokens_self]
      exact (Dict.lookup_eq_none _ _).mp absent
    · obtain ⟨other, incoming, absent⟩ := surge.missing node nonempty
      refine ⟨other, incoming, ?_⟩
      rw [State.putToken, State.setTokens_of_ne _ _ same]
      exact absent
  single := by
    intro node other live
    by_cases same : node = ref.target
    · subst same
      rw [State.putToken, State.setTokens_self, Dict.lookup_set] at live
      split at live
      · cases live
      · exact surge.single _ _ live
    · rw [State.putToken, State.setTokens_of_ne _ _ same] at live
      exact surge.single _ _ live
  outputs := surge.outputs
  ahead := fun other member => surge.ahead other (List.mem_cons_of_mem _ member)
  grows := surge.grows
  fallen := surge.fallen_shift
  kept := by
    intro node different alive other incoming present
    apply (mem_keys_putToken _ _ _ _ _).mpr
    rcases present with before | inSent
    · exact Or.inr (surge.kept node different alive other incoming (Or.inl before))
    · rcases List.mem_cons.mp inSent with same | earlier
      · subst same
        exact Or.inl ⟨((crossing.plan.mem_forwardIn _ _).mp incoming).2.1.symm, rfl⟩
      · exact Or.inr (surge.kept node different alive other incoming (Or.inr earlier))
  explained := fun _ => surge.shift
  sourced := by
    intro node other member
    rcases (mem_keys_putToken _ _ _ _ _).mp member with ⟨_, rfl⟩ | old
    · exact Or.inr List.mem_cons_self
    · exact (surge.sourced node other old).imp id (List.mem_cons_of_mem _)
  first := List.mem_cons_of_mem _ surge.first
  arrival := by
    rcases surge.arrival with ⟨waiting, live, held⟩ | ⟨arrived, absent, full⟩
    · refine Or.inl ⟨waiting, ?_, ?_⟩
      · by_cases same : crossing.ref.target = ref.target
        · simp only [State.putToken, same, State.setTokens_self]
          rw [Dict.lookup_set_of_ne _ _ surge.other, ← same]
          exact live
        · simp only [State.putToken, State.setTokens_of_ne _ _ same]
          exact live
      · intro other incoming present
        apply (mem_keys_putToken _ _ _ _ _).mpr
        rcases present with before | inSent
        · exact Or.inr (held other incoming (Or.inl before))
        · rcases List.mem_cons.mp inSent with same | earlier
          · subst same
            exact Or.inl ⟨((crossing.plan.mem_forwardIn _ _).mp incoming).2.1.symm, rfl⟩
          · exact Or.inr (held other incoming (Or.inr earlier))
    · refine Or.inr ⟨arrived, ?_, ?_⟩
      · intro member
        rcases (mem_keys_putToken _ _ _ _ _).mp member with ⟨_, same⟩ | old
        · exact surge.other same.symm
        · exact absent old
      · intro other incoming
        exact (full other incoming).imp id (List.mem_cons_of_mem _)

private theorem full_sourced (full : (crossing.plan.forwardIn ref.target).length ≤
      ((progress.state.tokens ref.target).set ref .dead).size) (other : EdgeRef)
    (incoming : other ∈ crossing.plan.forwardIn ref.target) :
    other = ref ∨ other ∈ (progress.state.tokens ref.target).keys := by
  have present := present_of_full _ _
    (keys_set_subset _ _ ref .dead (surge.within ref.target) surge.gated) full other incoming
  have member : other ∈ ((progress.state.tokens ref.target).set ref .dead).keys := by
    by_contra absent
    exact present ((Dict.lookup_eq_none _ _).mpr absent)
  exact (Dict.mem_keys_set _ _ _ _).mp member

private theorem alive_target (alive : liveSources crossing.plan ref.target
      ((progress.state.tokens ref.target).set ref .dead) ≠ []) :
    ref.target = crossing.ref.target ∧
      (progress.state.tokens ref.target).lookup crossing.ref = some .live := by
  obtain ⟨other, member⟩ := List.exists_mem_of_ne_nil _ alive
  obtain ⟨incoming, live⟩ := List.mem_filter.mp member
  have carried := of_decide_eq_true live
  rw [Dict.lookup_set] at carried
  split at carried
  · cases carried
  · have same := surge.single _ _ carried
    subst same
    exact ⟨((crossing.plan.mem_forwardIn _ _).mp incoming).2.1.symm, carried⟩

private theorem consumed_missing (node : String) (nonempty : crossing.plan.forwardIn node ≠ []) :
    ∃ other ∈ crossing.plan.forwardIn node,
      other ∉ ((progress.state.setTokens ref.target Dict.empty).tokens node).keys := by
  by_cases same : node = ref.target
  · refine ⟨ref, same ▸ surge.gated, ?_⟩
    intro member
    exact ((mem_keys_consumed _ _ _ _).mp member).1 same
  · obtain ⟨other, incoming, absent⟩ := surge.missing node nonempty
    refine ⟨other, incoming, ?_⟩
    intro member
    exact absent ((mem_keys_consumed _ _ _ _).mp member).2

private theorem consumed_single (node : String) (other : EdgeRef)
    (carried : ((progress.state.setTokens ref.target Dict.empty).tokens node).lookup other =
      some .live) : other = crossing.ref := by
  by_cases same : node = ref.target
  · subst same
    rw [State.setTokens_self] at carried
    cases carried
  · rw [State.setTokens_of_ne _ _ same] at carried
    exact surge.single _ _ carried

private theorem consumed_kept {node : String} (different : node ≠ ref.target)
    (apart : node ≠ crossing.ref.target) (alive : node ∉ progress.state.dead) {other : EdgeRef}
    (incoming : other ∈ crossing.plan.forwardIn node)
    (present : other ∈ (crossing.state.tokens node).keys ∨ other ∈ ref :: sent) :
    other ∈ ((progress.state.setTokens ref.target Dict.empty).tokens node).keys := by
  apply (mem_keys_consumed _ _ _ _).mpr
  refine ⟨different, surge.kept node apart alive other incoming ?_⟩
  refine present.imp id ?_
  intro inSent
  rcases List.mem_cons.mp inSent with same | earlier
  · subst same
    exact absurd ((crossing.plan.mem_forwardIn _ _).mp incoming).2.1.symm different
  · exact earlier

private theorem consumed_sourced (node : String) (other : EdgeRef)
    (member : other ∈ ((progress.state.setTokens ref.target Dict.empty).tokens node).keys) :
    other ∈ (crossing.state.tokens node).keys ∨ other ∈ ref :: sent :=
  (surge.sourced node other ((mem_keys_consumed _ _ _ _).mp member).2).imp id
    (List.mem_cons_of_mem _)

section

variable (full : (crossing.plan.forwardIn ref.target).length ≤
  ((progress.state.tokens ref.target).set ref .dead).size)
include full

theorem fire (alive : liveSources crossing.plan ref.target
      ((progress.state.tokens ref.target).set ref .dead) ≠ []) :
    Surge crossing (ref :: sent) pending
      { state := progress.state.setTokens ref.target Dict.empty
        ready := progress.ready ++ [⟨ref.target, mergeOutputs progress.state
          (liveSources crossing.plan ref.target
            ((progress.state.tokens ref.target).set ref .dead))⟩] } := by
  obtain ⟨sameTarget, live⟩ := surge.alive_target alive
  have held : crossing.ref ∈ (progress.state.tokens ref.target).keys :=
    (Dict.mem_keys _ _).mpr ⟨_, live⟩
  have waiting : progress.ready = [] := by
    rcases surge.arrival with ⟨waiting, _⟩ | ⟨_, absent, _⟩
    · exact waiting
    · rw [← sameTarget] at absent
      exact absurd held absent
  have onlyLive : liveSources crossing.plan ref.target
      ((progress.state.tokens ref.target).set ref .dead) = [crossing.ref] := by
    apply liveSources_eq_singleton crossing.plan ref.target _ _ (surge.within ref.target held)
    intro other
    rw [Dict.lookup_set]
    constructor
    · intro carried
      split at carried
      · cases carried
      · exact surge.single _ _ carried
    · intro same
      rw [same, if_neg surge.other]
      exact live
  have merged : mergeOutputs progress.state [crossing.ref] = crossing.output := by
    simp only [mergeOutputs, List.foldl_cons, List.foldl_nil, crossing.source, surge.outputs,
      Option.getD_some]
    exact Dict.empty_merge _
  rw [onlyLive, merged, waiting, List.nil_append]
  constructor
  case within =>
    intro node other member
    exact surge.within node ((mem_keys_consumed _ _ _ _).mp member).2
  case missing => exact surge.consumed_missing
  case single => exact surge.consumed_single
  case outputs => exact surge.outputs
  case ahead => exact fun other member => surge.ahead other (List.mem_cons_of_mem _ member)
  case grows => exact surge.grows
  case fallen => exact surge.fallen_shift
  case kept =>
    intro node different alive other incoming present
    have elsewhere : node ≠ ref.target := sameTarget ▸ different
    exact surge.consumed_kept elsewhere different alive incoming present
  case explained => exact fun _ => surge.shift
  case sourced => exact surge.consumed_sourced
  case first => exact List.mem_cons_of_mem _ surge.first
  case arrival =>
    rw [sameTarget]
    refine Or.inr ⟨rfl, ?_, ?_⟩
    · intro member
      exact ((mem_keys_consumed _ _ _ _).mp member).1 rfl
    · intro other incoming
      rw [← sameTarget] at incoming ⊢
      rcases surge.full_sourced full other incoming with same | present
      · rw [same]
        exact Or.inr List.mem_cons_self
      · exact (surge.sourced _ _ present).imp id (List.mem_cons_of_mem _)

private theorem pruned_target (pruned : liveSources crossing.plan ref.target
      ((progress.state.tokens ref.target).set ref .dead) = []) :
    ref.target ≠ crossing.ref.target := by
  intro same
  have incoming : crossing.ref ∈ crossing.plan.forwardIn ref.target := by
    rw [same]
    exact crossing.gated
  rcases surge.arrival with ⟨_, live, _⟩ | ⟨_, absent, _⟩
  · have carried : crossing.ref ∈ liveSources crossing.plan ref.target
        ((progress.state.tokens ref.target).set ref .dead) := by
      apply List.mem_filter.mpr
      refine ⟨incoming, decide_eq_true ?_⟩
      rw [Dict.lookup_set_of_ne _ _ surge.other, same]
      exact live
    rw [pruned] at carried
    cases carried
  · rcases surge.full_sourced full crossing.ref incoming with equal | present
    · exact surge.other equal.symm
    · rw [same] at present
      exact absent present

private theorem fallen_rejected (different : ref.target ≠ crossing.ref.target)
    (alive : ref.target ∉ progress.state.dead) {other : EdgeRef}
    (outgoing : other ∈ crossing.plan.forwardOut ref.target) :
    Rejected crossing.plan crossing.state crossing.node crossing.branch other := by
  obtain ⟨_, source, _⟩ := (crossing.plan.mem_forwardOut _ _).mp outgoing
  rw [← source] at outgoing alive full different
  apply Rejected.fallen
  · exact fun before => alive (surge.grows before)
  · exact outgoing
  · rw [source]
    exact List.ne_nil_of_mem surge.gated
  · intro earlier incoming unheld
    rw [source] at incoming unheld full different
    have sentEarlier : earlier = crossing.ref ∨
        Rejected crossing.plan crossing.state crossing.node crossing.branch earlier := by
      rcases surge.full_sourced full earlier incoming with same | present
      · apply surge.shift
        rw [same]
        exact Or.inl List.mem_cons_self
      · rcases surge.sourced _ _ present with before | inSent
        · exact absurd before unheld
        · exact surge.shift (Or.inl (List.mem_cons_of_mem _ inSent))
    rcases sentEarlier with same | rejected
    · rw [same] at incoming
      exact absurd ((crossing.plan.mem_forwardIn _ _).mp incoming).2.1.symm different
    · exact rejected

end

private theorem fallen_ahead {other : EdgeRef}
    (outgoing : other ∈ crossing.plan.forwardOut ref.target) :
    other ∈ crossing.plan.edges ∧ other ∉ crossing.plan.backEdges ∧
      crossing.plan.graph.Reaches crossing.plan.start other.source ∧
        crossing.height crossing.node ≤ crossing.height other.source ∧ other ≠ crossing.ref := by
  obtain ⟨known, forward, path, above, _⟩ := surge.ahead ref List.mem_cons_self
  have higher := crossing.climbs ref known forward path
  obtain ⟨outKnown, source, outForward⟩ := (crossing.plan.mem_forwardOut _ _).mp outgoing
  refine ⟨outKnown, outForward, ?_, ?_, ?_⟩
  · rw [source]
    exact Relation.ReflTransGen.tail path
      ⟨ref, (crossing.plan.mem_out _ _).mpr ⟨known, rfl⟩, rfl⟩
  · rw [source]
    omega
  · intro same
    have atNode := crossing.source
    rw [← same, source] at atNode
    rw [atNode] at higher
    omega

/-- A saturated target without a live token loses its tokens and is dead from then on; its own
edges come next if it was not dead before. -/
theorem die (full : (crossing.plan.forwardIn ref.target).length ≤
      ((progress.state.tokens ref.target).set ref .dead).size)
    (pruned : liveSources crossing.plan ref.target
      ((progress.state.tokens ref.target).set ref .dead) = []) (dead : List String)
    (fallen : List EdgeRef)
    (includes : ∀ node, node ∈ dead ↔ node ∈ progress.state.dead ∨ node = ref.target)
    (cause : fallen = [] ∧ ref.target ∈ progress.state.dead ∨
      fallen = crossing.plan.forwardOut ref.target ∧ ref.target ∉ progress.state.dead) :
    Surge crossing (ref :: sent) (fallen ++ pending)
      { progress with
        state := { progress.state.setTokens ref.target Dict.empty with dead := dead } } := by
  have different := surge.pruned_target full pruned
  obtain ⟨known, forward, path, above, _⟩ := surge.ahead ref List.mem_cons_self
  have higher := crossing.climbs ref known forward path
  have outward : ∀ other ∈ fallen, other ∈ crossing.plan.forwardOut ref.target ∧
      ref.target ∉ progress.state.dead := by
    intro other member
    rcases cause with ⟨none, _⟩ | ⟨all, alive⟩
    · rw [none] at member
      cases member
    · rw [all] at member
      exact ⟨member, alive⟩
  constructor
  case within =>
    intro node other member
    exact surge.within node ((mem_keys_consumed _ _ _ _).mp member).2
  case missing => exact surge.consumed_missing
  case single => exact surge.consumed_single
  case outputs => exact surge.outputs
  case ahead =>
    intro other member
    rcases List.mem_append.mp member with new | later
    · obtain ⟨outgoing, _⟩ := outward other new
      exact surge.fallen_ahead outgoing
    · exact surge.ahead other (List.mem_cons_of_mem _ later)
  case grows => exact fun node member => (includes node).mpr (Or.inl (surge.grows member))
  case fallen =>
    have older : ∀ node ∈ progress.state.dead, node ∈ crossing.state.dead ∨
        (crossing.height crossing.node < crossing.height node ∧
          ∀ other ∈ crossing.plan.forwardOut node, other ∈ ref :: sent ∨
            other ∈ fallen ++ pending) := by
      intro node old
      rcases surge.fallen_shift node old with before | ⟨filled, covered⟩
      · exact Or.inl before
      · refine Or.inr ⟨filled, ?_⟩
        intro other outgoing
        exact (covered other outgoing).imp id (List.mem_append_right _)
    intro node member
    rcases (includes node).mp member with old | same
    · exact older node old
    · subst same
      rcases cause with ⟨_, old⟩ | ⟨all, _⟩
      · exact older _ old
      · refine Or.inr ⟨by omega, ?_⟩
        intro other outgoing
        rw [all]
        exact Or.inr (List.mem_append_left _ outgoing)
  case kept =>
    intro node apart alive other incoming present
    have living : node ∉ progress.state.dead ∧ node ≠ ref.target := by
      constructor
      · exact fun member => alive ((includes node).mpr (Or.inl member))
      · exact fun same => alive ((includes node).mpr (Or.inr same))
    exact surge.consumed_kept living.2 apart living.1 incoming present
  case explained =>
    intro other mentioned
    rcases mentioned with inSent | inPending
    · exact surge.shift (Or.inl inSent)
    · rcases List.mem_append.mp inPending with new | later
      · obtain ⟨outgoing, alive⟩ := outward other new
        exact Or.inr (surge.fallen_rejected full different alive outgoing)
      · exact surge.shift (Or.inr later)
  case sourced => exact surge.consumed_sourced
  case first => exact List.mem_cons_of_mem _ surge.first
  case arrival =>
    have elsewhere : crossing.ref.target ≠ ref.target := fun same => different same.symm
    have kept := State.setTokens_of_ne progress.state
      (Dict.empty : Dict EdgeRef Token) elsewhere
    have unsent : ∀ other ∈ crossing.plan.forwardIn crossing.ref.target, other ∈ ref :: sent →
        other ∈ sent := by
      intro other incoming inSent
      rcases List.mem_cons.mp inSent with same | earlier
      · subst same
        exact absurd ((crossing.plan.mem_forwardIn _ _).mp incoming).2.1 different
      · exact earlier
    change (progress.ready = [] ∧
      ((progress.state.setTokens ref.target Dict.empty).tokens crossing.ref.target).lookup _ = _ ∧
      ∀ other ∈ _, _ → other ∈
        ((progress.state.setTokens ref.target Dict.empty).tokens crossing.ref.target).keys) ∨
      (_ ∧ _ ∉ ((progress.state.setTokens ref.target Dict.empty).tokens crossing.ref.target).keys ∧ _)
    rw [kept]
    rcases surge.arrival with ⟨waiting, live, held⟩ | ⟨arrived, absent, filled⟩
    · refine Or.inl ⟨waiting, live, ?_⟩
      intro other incoming present
      exact held other incoming (present.imp id (unsent other incoming))
    · refine Or.inr ⟨arrived, absent, ?_⟩
      intro other incoming
      exact (filled other incoming).imp id (List.mem_cons_of_mem _)

theorem settled {after : Progress α} (settled : Settled crossing.plan ref .dead progress after) :
    ∃ fallen : List EdgeRef,
      fallout crossing.plan ref.target progress.state.dead after.state.dead =
        fallen.map (fun other => Signal.token other .dead) ∧
      Surge crossing (ref :: sent) (fallen ++ pending) after := by
  have quiet := fallout_of_subset crossing.plan ref.target progress.state.dead progress.state.dead
    (List.Subset.refl _)
  cases settled with
  | waiting short => exact ⟨[], quiet, surge.wait short⟩
  | fires full alive => exact ⟨[], quiet, surge.fire full alive⟩
  | dies full pruned =>
      by_cases dead : ref.target ∈ progress.state.dead
      · have unchanged : kill ref.target
            { progress with state := progress.state.setTokens ref.target Dict.empty } =
            { progress with state := progress.state.setTokens ref.target Dict.empty } := if_pos dead
        rw [unchanged]
        refine ⟨[], quiet, ?_⟩
        apply surge.die full pruned progress.state.dead [] _ (Or.inl ⟨rfl, dead⟩)
        intro node
        constructor
        · exact Or.inl
        · rintro (old | same)
          · exact old
          · rw [same]
            exact dead
      · have killed : kill ref.target
            { progress with state := progress.state.setTokens ref.target Dict.empty } =
            { progress with
              state := (progress.state.setTokens ref.target Dict.empty).markDead ref.target } :=
          if_neg dead
        rw [killed]
        refine ⟨crossing.plan.forwardOut ref.target, ?_, ?_⟩
        · apply if_pos
          exact ⟨List.mem_append_right _ List.mem_cons_self, dead⟩
        · apply surge.die full pruned (progress.state.dead ++ [ref.target]) _ _
            (Or.inr ⟨rfl, dead⟩)
          intro node
          rw [List.mem_append, List.mem_singleton]

end

theorem cascade {output : Dict String α} {agenda : List Signal} {last : Progress α}
    (cascade : Cascade crossing.plan output agenda progress last)
    (same : agenda = pending.map (fun other => Signal.token other .dead))
    (surge : Surge crossing sent pending progress) :
    ∃ delivered, sent ⊆ delivered ∧ pending ⊆ delivered ∧ Surge crossing delivered [] last := by
  induction cascade generalizing sent pending with
  | done progress =>
      cases pending with
      | nil => exact ⟨sent, List.Subset.refl _, List.nil_subset _, surge⟩
      | cons ref rest => cases same
  | token _ ih =>
      cases pending with
      | nil => cases same
      | cons ref pending =>
          rw [List.map_cons] at same
          injection same with first rest
          injection first with sameRef sameStatus
          subst sameRef
          subst sameStatus
          obtain ⟨fallen, equal, next⟩ := surge.settled
            (settle_settled crossing.plan _ _ _ surge.gated)
          obtain ⟨delivered, before, after, final⟩ := ih (by rw [equal, rest, List.map_append]) next
          refine ⟨delivered, ?_, ?_, final⟩
          · exact fun other member => before (List.mem_cons_of_mem _ member)
          · intro other member
            rcases List.mem_cons.mp member with same | later
            · rw [same]
              exact before List.mem_cons_self
            · exact after (List.mem_append_right _ later)
  | reactivate _ _ =>
      cases pending with
      | nil => cases same
      | cons ref pending => cases same

end Surge

end DeadTokens

/-! ### Between two steps -/

def OnlyVia (plan : Plan) (node next : String) : Prop :=
  ∃ ref ∈ plan.forwardOut node, ref.target = next ∧ plan.forwardIn next = [ref]

def Chain (plan : Plan) : String → String → Prop := Relation.ReflTransGen (OnlyVia plan)

/-- What holds before the node at `position` completes. `visited` lists the nodes that have
completed and `sent` the edges that have ever carried a token. -/
structure Steady (plan : Plan) (position : String) (visited : List String) (sent : List EdgeRef)
    (state : State α) : Prop where
  within : ∀ node, (state.tokens node).keys ⊆ plan.forwardIn node
  missing : ∀ node, plan.forwardIn node ≠ [] →
    ∃ ref ∈ plan.forwardIn node, ref ∉ (state.tokens node).keys
  quiet : ∀ node ref, (state.tokens node).lookup ref ≠ some .live
  known : position ∈ nodeIds plan.nodes
  begun : plan.start ∈ visited ∨ position = plan.start
  spent : ∀ node ∈ state.dead, ∀ ref ∈ plan.forwardOut node, ref ∈ sent
  chained : ∀ node ∈ state.dead, ∀ ref ∈ plan.forwardOut node,
    plan.forwardIn ref.target = [ref] → ref.target ∈ state.dead
  held : ∀ node, node ∉ state.dead → node ∉ visited → node ≠ position →
    ∀ ref ∈ plan.forwardIn node, ref ∈ sent → ref ∈ (state.tokens node).keys
  trail : ∀ node ∈ visited, plan.graph.Reaches node position
  unsent : ∀ node ∈ visited, ∀ ref ∈ plan.forwardOut node, ref ∉ sent → Chain plan position node

theorem Steady.initial (plan : Plan) (known : plan.start ∈ nodeIds plan.nodes) :
    Steady plan plan.start [] [] (State.initial : State α) where
  within := fun _ => List.nil_subset _
  missing := by
    intro node nonempty
    obtain ⟨ref, member⟩ := List.exists_mem_of_ne_nil _ nonempty
    exact ⟨ref, member, List.not_mem_nil⟩
  quiet := fun _ _ impossible => by cases impossible
  known := known
  begun := Or.inr rfl
  spent := fun _ member => absurd member List.not_mem_nil
  chained := fun _ member => absurd member List.not_mem_nil
  held := fun _ _ _ _ _ _ member => absurd member List.not_mem_nil
  trail := fun _ member => absurd member List.not_mem_nil
  unsent := fun _ member => absurd member List.not_mem_nil

/-! ### The live token leaves -/

section Launch

variable {crossing : Crossing α} {visited : List String}

section

variable (only : followedEdges crossing.plan crossing.node crossing.branch = [crossing.ref])
include only

private theorem aside_ahead : ∀ ref ∈ asideEdges crossing.plan crossing.node crossing.branch,
    ref ∈ crossing.plan.edges ∧ ref ∉ crossing.plan.backEdges ∧
      crossing.plan.graph.Reaches crossing.plan.start ref.source ∧
        crossing.height crossing.node ≤ crossing.height ref.source ∧ ref ≠ crossing.ref := by
  intro ref member
  obtain ⟨outgoing, different⟩ := (mem_asideEdges _ _ _ _ only ref).mp member
  obtain ⟨known, source, forward⟩ := (crossing.plan.mem_forwardOut _ _).mp outgoing
  rw [source]
  exact ⟨known, forward, crossing.reached, Nat.le_refl _, different⟩

private theorem Surge.launch_of {progress : Progress α}
    (sameDead : progress.state.dead = crossing.state.dead)
    (outputs : progress.state.nodeOutputs crossing.node = some crossing.output)
    (within : ∀ node, (progress.state.tokens node).keys ⊆ crossing.plan.forwardIn node)
    (missing : ∀ node, crossing.plan.forwardIn node ≠ [] →
      ∃ ref ∈ crossing.plan.forwardIn node, ref ∉ (progress.state.tokens node).keys)
    (single : ∀ node ref, (progress.state.tokens node).lookup ref = some .live →
      ref = crossing.ref) (elsewhere : ∀ node, node ≠ crossing.ref.target →
      progress.state.tokens node = crossing.state.tokens node)
    (sourced : ∀ ref ∈ (progress.state.tokens crossing.ref.target).keys,
      ref ∈ (crossing.state.tokens crossing.ref.target).keys ∨ ref = crossing.ref)
    (arrival :
      (progress.ready = [] ∧
        (progress.state.tokens crossing.ref.target).lookup crossing.ref = some .live ∧
        ∀ ref ∈ (crossing.state.tokens crossing.ref.target).keys,
          ref ∈ (progress.state.tokens crossing.ref.target).keys) ∨
      (progress.ready = [⟨crossing.ref.target, crossing.output⟩] ∧
        crossing.ref ∉ (progress.state.tokens crossing.ref.target).keys ∧
        ∀ ref ∈ crossing.plan.forwardIn crossing.ref.target,
          ref ∈ (crossing.state.tokens crossing.ref.target).keys ∨ ref = crossing.ref)) :
    Surge crossing [crossing.ref] (asideEdges crossing.plan crossing.node crossing.branch)
      progress where
  within := within
  missing := missing
  single := single
  outputs := outputs
  ahead := aside_ahead only
  grows := by
    rw [sameDead]
    exact List.Subset.refl _
  fallen := by
    intro node member
    rw [sameDead] at member
    exact Or.inl member
  kept := by
    intro node different _ ref incoming present
    rw [elsewhere node different]
    rcases present with before | inSent
    · exact before
    · rw [List.mem_singleton.mp inSent] at incoming
      exact absurd ((crossing.plan.mem_forwardIn _ _).mp incoming).2.1.symm different
  explained := by
    intro ref mentioned
    rcases mentioned with inSent | inPending
    · exact Or.inl (List.mem_singleton.mp inSent)
    · exact Or.inr (Rejected.aside inPending)
  sourced := by
    intro node ref member
    by_cases same : node = crossing.ref.target
    · rw [same] at member ⊢
      exact (sourced ref member).imp id List.mem_singleton.mpr
    · rw [elsewhere node same] at member
      exact Or.inl member
  first := List.mem_singleton.mpr rfl
  arrival := by
    rcases arrival with ⟨waiting, live, held⟩ | ⟨arrived, absent, full⟩
    · refine Or.inl ⟨waiting, live, ?_⟩
      intro ref _ present
      rcases present with before | inSent
      · exact held ref before
      · rw [List.mem_singleton.mp inSent]
        exact (Dict.mem_keys _ _).mpr ⟨_, live⟩
    · refine Or.inr ⟨arrived, absent, ?_⟩
      intro ref incoming
      exact (full ref incoming).imp id List.mem_singleton.mpr

/-- The live token waits at the target or makes it ready; nothing dies. -/
theorem Surge.launch {sent : List EdgeRef} {after : Progress α}
    (steady : Steady crossing.plan crossing.node visited sent crossing.state)
    (settled : Settled crossing.plan crossing.ref .live
      ⟨crossing.state.recordOutput crossing.node crossing.output, []⟩ after) :
    after.state.dead = crossing.state.dead ∧
      Surge crossing [crossing.ref] (asideEdges crossing.plan crossing.node crossing.branch)
        after := by
  have recorded : (crossing.state.recordOutput crossing.node crossing.output).nodeOutputs
      crossing.node = some crossing.output := if_pos rfl
  have liveAt : ∀ ref, ((crossing.state.tokens crossing.ref.target).set crossing.ref
      .live).lookup ref = some .live ↔ ref = crossing.ref := by
    intro ref
    rw [Dict.lookup_set]
    constructor
    · intro live
      split at live
      case isTrue same => exact same.symm
      case isFalse => exact absurd live (steady.quiet _ _)
    · intro same
      exact if_pos same.symm
  have onlyLive := liveSources_eq_singleton crossing.plan crossing.ref.target
    ((crossing.state.tokens crossing.ref.target).set crossing.ref .live) crossing.ref crossing.gated
    liveAt
  cases settled with
  | waiting short =>
      refine ⟨rfl, Surge.launch_of only rfl recorded ?_ ?_ ?_ ?_ ?_ ?_⟩
      · intro node ref member
        rcases (mem_keys_putToken _ _ _ _ _).mp member with ⟨rfl, rfl⟩ | old
        · exact crossing.gated
        · exact steady.within node old
      · intro node nonempty
        by_cases same : node = crossing.ref.target
        · subst same
          obtain ⟨ref, incoming, absent⟩ :=
            exists_missing _ _ (crossing.plan.forwardIn_nodup _) short
          refine ⟨ref, incoming, ?_⟩
          rw [State.putToken, State.setTokens_self]
          exact (Dict.lookup_eq_none _ _).mp absent
        · obtain ⟨ref, incoming, absent⟩ := steady.missing node nonempty
          refine ⟨ref, incoming, ?_⟩
          rw [State.putToken, State.setTokens_of_ne _ _ same]
          exact absent
      · intro node ref live
        by_cases same : node = crossing.ref.target
        · subst same
          rw [State.putToken, State.setTokens_self] at live
          exact (liveAt ref).mp live
        · rw [State.putToken, State.setTokens_of_ne _ _ same] at live
          exact absurd live (steady.quiet _ _)
      · intro node different
        rw [State.putToken, State.setTokens_of_ne _ _ different]
        rfl
      · intro ref member
        rcases (mem_keys_putToken _ _ _ _ _).mp member with ⟨_, same⟩ | old
        · exact Or.inr same
        · exact Or.inl old
      · refine Or.inl ⟨rfl, ?_, ?_⟩
        · rw [State.putToken, State.setTokens_self]
          exact (liveAt crossing.ref).mpr rfl
        · intro ref before
          exact (mem_keys_putToken _ _ _ _ _).mpr (Or.inr before)
  | fires full alive =>
      have merged : mergeOutputs (crossing.state.recordOutput crossing.node crossing.output)
          [crossing.ref] = crossing.output := by
        simp only [mergeOutputs, List.foldl_cons, List.foldl_nil, crossing.source, recorded,
          Option.getD_some]
        exact Dict.empty_merge _
      refine ⟨rfl, Surge.launch_of only rfl recorded ?_ ?_ ?_ ?_ ?_ ?_⟩
      · intro node ref member
        exact steady.within node ((mem_keys_consumed _ _ _ _).mp member).2
      · intro node nonempty
        by_cases same : node = crossing.ref.target
        · refine ⟨crossing.ref, same ▸ crossing.gated, ?_⟩
          intro member
          exact ((mem_keys_consumed _ _ _ _).mp member).1 same
        · obtain ⟨ref, incoming, absent⟩ := steady.missing node nonempty
          refine ⟨ref, incoming, ?_⟩
          intro member
          exact absent ((mem_keys_consumed _ _ _ _).mp member).2
      · intro node ref live
        by_cases same : node = crossing.ref.target
        · subst same
          rw [State.setTokens_self] at live
          cases live
        · rw [State.setTokens_of_ne _ _ same] at live
          exact absurd live (steady.quiet _ _)
      · intro node different
        rw [State.setTokens_of_ne _ _ different]
        rfl
      · intro ref member
        exact absurd rfl ((mem_keys_consumed _ _ _ _).mp member).1
      · refine Or.inr ⟨?_, ?_, ?_⟩
        · change [] ++ [ReadyNode.mk crossing.ref.target (mergeOutputs _ (liveSources crossing.plan
            crossing.ref.target ((crossing.state.tokens crossing.ref.target).set crossing.ref
              .live)))] = _
          rw [onlyLive, merged]
          rfl
        · intro member
          exact ((mem_keys_consumed _ _ _ _).mp member).1 rfl
        · intro ref incoming
          have present := present_of_full _ _
            (keys_set_subset _ _ crossing.ref .live (steady.within _) crossing.gated) full ref
            incoming
          have member : ref ∈ ((crossing.state.tokens crossing.ref.target).set crossing.ref
              .live).keys := by
            by_contra absent
            exact present ((Dict.lookup_eq_none _ _).mpr absent)
          exact ((Dict.mem_keys_set _ _ _ _).mp member).symm
  | dies full pruned =>
      change liveSources crossing.plan crossing.ref.target
        ((crossing.state.tokens crossing.ref.target).set crossing.ref .live) = [] at pruned
      rw [onlyLive] at pruned
      cases pruned

end

end Launch

/-! ### After the last dead token -/

section Settled

variable {crossing : Crossing α} {visited : List String} {sent delivered : List EdgeRef}
variable {progress : Progress α}

theorem completeProgress_surge (crossing : Crossing α)
    (only : followedEdges crossing.plan crossing.node crossing.branch = [crossing.ref])
    (steady : Steady crossing.plan crossing.node visited sent crossing.state) :
    ∃ delivered, asideEdges crossing.plan crossing.node crossing.branch ⊆ delivered ∧
      Surge crossing delivered [] (completeProgress crossing.plan crossing.state crossing.node
        crossing.output crossing.branch) := by
  have forward := ((crossing.plan.mem_forwardIn _ _).mp crossing.gated).2.2
  have run := completeProgress_cascade crossing.plan crossing.state crossing.node crossing.output
    crossing.branch
  rw [completionSignals_forward _ _ _ _ only forward] at run
  cases run with
  | token rest =>
      obtain ⟨sameDead, surge⟩ := Surge.launch only steady
        (settle_settled crossing.plan crossing.ref .live _ crossing.gated)
      rw [fallout_of_subset _ _ _ _ (by rw [sameDead]; exact List.Subset.refl _),
        List.nil_append] at rest
      obtain ⟨delivered, _, covered, final⟩ := surge.cascade rest rfl
      exact ⟨delivered, covered, final⟩

private theorem Crossing.ne_of_above {node : String}
    (above : crossing.height crossing.node < crossing.height node) {ref : EdgeRef}
    (outgoing : ref ∈ crossing.plan.forwardOut node) : ref ≠ crossing.ref := by
  intro same
  have source := ((crossing.plan.mem_forwardOut _ _).mp outgoing).2.1
  rw [same, crossing.source] at source
  rw [source] at above
  exact Nat.lt_irrefl _ above

private theorem reaches_of_ref {plan : Plan} {ref : EdgeRef} (known : ref ∈ plan.edges) :
    plan.graph.Adjacent ref.source ref.target :=
  ⟨ref, (plan.mem_out _ _).mpr ⟨known, rfl⟩, rfl⟩

theorem Chain.reaches {plan : Plan} {node last : String} (chain : Chain plan node last) :
    plan.graph.Reaches node last := by
  induction chain with
  | refl => exact Relation.ReflTransGen.refl
  | tail _ via ih =>
      obtain ⟨ref, outgoing, rfl, _⟩ := via
      obtain ⟨known, source, _⟩ := (plan.mem_forwardOut _ _).mp outgoing
      rw [← source] at ih
      exact Relation.ReflTransGen.tail ih (reaches_of_ref known)

private theorem not_orphaned_known {plan : Plan} {node : String} (rooted : ¬ Orphaned plan node) :
    node ∈ nodeIds plan.nodes := by
  by_contra missing
  exact rooted (Orphaned.missing missing)

private theorem Crossing.target_ne_start : crossing.ref.target ≠ crossing.plan.start := by
  intro same
  obtain ⟨known, _, forward⟩ := (crossing.plan.mem_forwardIn _ _).mp crossing.gated
  have higher := crossing.climbs crossing.ref known forward
    (by rw [crossing.source]; exact crossing.reached)
  rw [crossing.source, same] at higher
  have below : ∀ node, crossing.plan.graph.ReachesOff crossing.plan.backEdges crossing.plan.start
      node → crossing.height crossing.plan.start ≤ crossing.height node := by
    intro node path
    induction path with
    | refl => exact Nat.le_refl _
    | tail before step ih =>
        obtain ⟨ref, outgoing, off, rfl⟩ := step
        obtain ⟨inEdges, source⟩ := (crossing.plan.mem_out _ _).mp outgoing
        have upward := crossing.climbs ref inEdges off
          (by rw [source]; exact Multigraph.ReachesOff.reaches before)
        rw [source] at upward
        exact Nat.le_trans ih (Nat.le_of_lt upward)
  have bound := below crossing.node
    (crossing.plan.classified.spanning crossing.node crossing.reached)
  omega

variable (surge : Surge crossing delivered [] progress)
include surge

private theorem Surge.only_way_dead {ref : EdgeRef}
    (inDelivered : ref ∈ delivered) (different : ref ≠ crossing.ref)
    (onlyWay : crossing.plan.forwardIn ref.target = [ref]) :
    ref.target ∈ progress.state.dead := by
  by_contra alive
  have apart : ref.target ≠ crossing.ref.target := by
    intro same
    have incoming := crossing.gated
    rw [← same, onlyWay] at incoming
    exact different (List.mem_singleton.mp incoming).symm
  have incoming : ref ∈ crossing.plan.forwardIn ref.target := by
    rw [onlyWay]
    exact List.mem_singleton.mpr rfl
  have held := surge.kept ref.target apart alive ref incoming (Or.inr inDelivered)
  obtain ⟨other, member, absent⟩ := surge.missing ref.target (List.ne_nil_of_mem incoming)
  rw [onlyWay] at member
  rw [List.mem_singleton.mp member] at absent
  exact absent held

theorem Surge.unblocked_of_arrived
    (arrived : progress.ready = [⟨crossing.ref.target, crossing.output⟩]) :
    Unblocked crossing.plan crossing.state crossing.node crossing.branch crossing.ref := by
  rcases surge.arrival with ⟨waiting, _, _⟩ | ⟨_, _, full⟩
  · rw [waiting] at arrived
    cases arrived
  · refine Or.inr (Or.inr ?_)
    intro other incoming different unheld
    rcases full other incoming with before | now
    · exact absurd before unheld
    · rcases surge.explained other (Or.inl now) with same | rejected
      · exact absurd same different
      · exact rejected

section Aside

variable (aside : asideEdges crossing.plan crossing.node crossing.branch ⊆ delivered)
include aside

private theorem Surge.rejected_delivered {ref : EdgeRef}
    (rejected : Rejected crossing.plan crossing.state crossing.node crossing.branch ref) :
    ref ∈ delivered ∨ crossing.plan.graph.Reaches crossing.ref.target ref.source := by
  induction rejected with
  | aside member => exact Or.inl (aside member)
  | @fallen ref alive outgoing nonempty _ ih =>
      by_cases notTarget : ref.source = crossing.ref.target
      · rw [notTarget]
        exact Or.inr Relation.ReflTransGen.refl
      · by_cases dead : ref.source ∈ progress.state.dead
        · rcases surge.fallen _ dead with before | ⟨_, covered⟩
          · exact absurd before alive
          · rcases covered ref outgoing with inDelivered | impossible
            · exact Or.inl inDelivered
            · cases impossible
        · obtain ⟨earlier, incoming, absent⟩ := surge.missing ref.source nonempty
          have unheld : earlier ∉ (crossing.state.tokens ref.source).keys := by
            intro before
            exact absent (surge.kept _ notTarget dead earlier incoming (Or.inl before))
          rcases ih earlier incoming unheld with inDelivered | path
          · exact absurd (surge.kept _ notTarget dead earlier incoming (Or.inr inDelivered)) absent
          · obtain ⟨known, atTarget, _⟩ := (crossing.plan.mem_forwardIn _ _).mp incoming
            right
            rw [← atTarget]
            exact Relation.ReflTransGen.tail path (reaches_of_ref known)

private theorem Surge.own_sent
    (only : followedEdges crossing.plan crossing.node crossing.branch = [crossing.ref])
    (ref : EdgeRef) (outgoing : ref ∈ crossing.plan.forwardOut crossing.node) :
    ref ∈ delivered := by
  by_cases same : ref = crossing.ref
  · rw [same]
    exact surge.first
  · exact aside ((mem_asideEdges _ _ _ _ only ref).mpr ⟨outgoing, same⟩)

end Aside

variable (steady : Steady crossing.plan crossing.node visited sent crossing.state)
include steady

private theorem Surge.spent (node : String) (dead : node ∈ progress.state.dead) (ref : EdgeRef)
    (outgoing : ref ∈ crossing.plan.forwardOut node) : ref ∈ sent ++ delivered := by
  rcases surge.fallen node dead with before | ⟨_, covered⟩
  · exact List.mem_append_left _ (steady.spent node before ref outgoing)
  · rcases covered ref outgoing with inDelivered | impossible
    · exact List.mem_append_right _ inDelivered
    · cases impossible

private theorem Surge.chained (node : String) (dead : node ∈ progress.state.dead) (ref : EdgeRef)
    (outgoing : ref ∈ crossing.plan.forwardOut node)
    (onlyWay : crossing.plan.forwardIn ref.target = [ref]) :
    ref.target ∈ progress.state.dead := by
  rcases surge.fallen node dead with before | ⟨above, covered⟩
  · exact surge.grows (steady.chained node before ref outgoing onlyWay)
  · rcases covered ref outgoing with inDelivered | impossible
    · exact surge.only_way_dead inDelivered (crossing.ne_of_above above outgoing) onlyWay
    · cases impossible

private theorem Surge.chain_dead {node last : String} (dead : node ∈ progress.state.dead)
    (chain : Chain crossing.plan node last) : last ∈ progress.state.dead := by
  induction chain with
  | refl => exact dead
  | tail _ via ih =>
      obtain ⟨ref, outgoing, rfl, onlyWay⟩ := via
      exact surge.chained steady _ ih ref outgoing onlyWay

variable
  (only : followedEdges crossing.plan crossing.node crossing.branch = [crossing.ref])
  (aside : asideEdges crossing.plan crossing.node crossing.branch ⊆ delivered)
include only aside

/-- An edge of a completed node that was never sent lies ahead on the branch taken: on any other
branch the nodes up to it have just died. -/
private theorem Surge.unsent
    (node : String) (completed : node ∈ crossing.node :: visited) (ref : EdgeRef)
    (outgoing : ref ∈ crossing.plan.forwardOut node) (fresh : ref ∉ sent ++ delivered) :
    Chain crossing.plan crossing.ref.target node := by
  have unsent : ref ∉ sent := fun member => fresh (List.mem_append_left _ member)
  have undelivered : ref ∉ delivered := fun member => fresh (List.mem_append_right _ member)
  have elsewhere : node ≠ crossing.node := by
    intro same
    rw [same] at outgoing
    exact undelivered (surge.own_sent aside only ref outgoing)
  rcases List.mem_cons.mp completed with same | before
  · exact absurd same elsewhere
  · have chain := steady.unsent node before ref outgoing unsent
    rcases Relation.ReflTransGen.cases_head chain with same | ⟨next, via, rest⟩
    · exact absurd same.symm elsewhere
    · obtain ⟨step, leaving, rfl, onlyWay⟩ := via
      by_cases taken : step = crossing.ref
      · rw [← taken]
        exact rest
      · have dead := surge.only_way_dead (surge.own_sent aside only step leaving) taken onlyWay
        exact absurd (surge.spent steady node (surge.chain_dead steady dead rest) ref outgoing) fresh

private theorem Surge.all_sent (reachable : ∀ node ∈ nodeIds crossing.plan.nodes,
      crossing.plan.graph.Reaches crossing.plan.start node)
    (node : String) (rooted : ¬ Orphaned crossing.plan node)
    (behind : ¬ crossing.plan.graph.Reaches crossing.ref.target node) (ref : EdgeRef)
    (outgoing : ref ∈ crossing.plan.forwardOut node) : ref ∈ sent ++ delivered := by
  induction level : crossing.height node using Nat.strong_induction_on generalizing node ref with
  | _ level ih =>
      by_cases dead : node ∈ progress.state.dead
      · exact surge.spent steady node dead ref outgoing
      · by_cases completed : node ∈ crossing.node :: visited
        · by_contra fresh
          exact behind (surge.unsent steady only aside node completed ref outgoing fresh).reaches
        · rw [List.mem_cons, not_or] at completed
          have notTarget : node ≠ crossing.ref.target := by
            intro same
            rw [same] at behind
            exact behind Relation.ReflTransGen.refl
          have notStart : node ≠ crossing.plan.start := by
            intro same
            rcases steady.begun with before | atStart
            · exact completed.2 (same ▸ before)
            · exact completed.1 (same.trans atStart.symm)
          obtain ⟨earlier, incoming, absent⟩ := surge.missing node
            (Plan.exists_forwardIn _ (reachable node (not_orphaned_known rooted)) notStart)
          obtain ⟨known, atTarget, forward⟩ := (crossing.plan.mem_forwardIn _ _).mp incoming
          have sourceRooted : ¬ Orphaned crossing.plan earlier.source := by
            intro orphaned
            apply rooted
            rw [← atTarget]
            apply Orphaned.behind orphaned
            · rw [atTarget]
              exact incoming
            · rw [atTarget]
              exact notStart
          have sourceBehind :
              ¬ crossing.plan.graph.Reaches crossing.ref.target earlier.source := by
            intro path
            apply behind
            rw [← atTarget]
            exact Relation.ReflTransGen.tail path (reaches_of_ref known)
          have lower := crossing.climbs earlier known forward
            (reachable _ (not_orphaned_known sourceRooted))
          rw [atTarget, level] at lower
          have carried := ih _ lower earlier.source sourceRooted sourceBehind earlier
            ((crossing.plan.mem_forwardOut _ _).mpr ⟨known, rfl, forward⟩) rfl
          exfalso
          apply absent
          apply surge.kept node notTarget dead earlier incoming
          rcases List.mem_append.mp carried with before | now
          · exact Or.inl (steady.held node (fun member => dead (surge.grows member)) completed.2
              completed.1 earlier incoming before)
          · exact Or.inr now

/-- An unblocked edge hands its target over at once. -/
theorem Surge.arrives (reachable : ∀ node ∈ nodeIds crossing.plan.nodes,
      crossing.plan.graph.Reaches crossing.plan.start node)
    (loops : ∀ node, crossing.plan.graph.OnCycle node →
      (crossing.plan.forwardIn node).length ≤ 1)
    (unblocked : Unblocked crossing.plan crossing.state crossing.node crossing.branch
      crossing.ref) :
    progress.ready = [⟨crossing.ref.target, crossing.output⟩] := by
  obtain ⟨refKnown, _, forward⟩ := (crossing.plan.mem_forwardIn _ _).mp crossing.gated
  have step : crossing.plan.graph.Adjacent crossing.node crossing.ref.target := by
    rw [← crossing.source]
    exact reaches_of_ref refKnown
  rcases surge.arrival with ⟨_, live, held⟩ | ⟨arrived, _, _⟩
  · exfalso
    -- the target still waits for another edge, so it is a merge and lies on no cycle
    obtain ⟨other, incoming, absent⟩ := surge.missing crossing.ref.target
      (List.ne_nil_of_mem crossing.gated)
    have different : other ≠ crossing.ref := by
      intro same
      rw [same] at absent
      exact absent ((Dict.mem_keys _ _).mpr ⟨_, live⟩)
    obtain ⟨known, atTarget, otherForward⟩ := (crossing.plan.mem_forwardIn _ _).mp incoming
    have offCycle : ¬ crossing.plan.graph.OnCycle crossing.ref.target := by
      intro cycle
      have short := loops _ cycle
      have pair : [other, crossing.ref].Nodup := by
        simpa using different
      have within : [other, crossing.ref] ⊆ crossing.plan.forwardIn crossing.ref.target := by
        intro edge member
        rcases List.mem_cons.mp member with same | member
        · rw [same]
          exact incoming
        · rw [List.mem_singleton.mp member]
          exact crossing.gated
      have long := (List.subperm_of_subset pair within).length_le
      simp only [List.length_cons, List.length_nil] at long
      omega
    have behind : ¬ crossing.plan.graph.Reaches crossing.ref.target other.source := by
      intro path
      apply offCycle
      have last := reaches_of_ref known
      rw [atTarget] at last
      exact Relation.TransGen.tail' path last
    have unheld : other ∉ (crossing.state.tokens crossing.ref.target).keys :=
      fun before => absent (held other incoming (Or.inl before))
    have undelivered : other ∉ delivered :=
      fun now => absent (held other incoming (Or.inr now))
    rcases unblocked with back | ⟨alive, rooted⟩ | rejected
    · exact forward back
    · have sourceRooted : ¬ Orphaned crossing.plan other.source := by
        intro orphaned
        apply rooted
        rw [← atTarget]
        apply Orphaned.behind orphaned
        · rw [atTarget]
          exact incoming
        · rw [atTarget]
          exact Crossing.target_ne_start
      have carried := surge.all_sent steady only aside reachable other.source sourceRooted behind
        other ((crossing.plan.mem_forwardOut _ _).mpr ⟨known, rfl, otherForward⟩)
      rcases List.mem_append.mp carried with before | now
      · apply unheld
        apply steady.held crossing.ref.target alive _ _ other incoming before
        · intro completed
          exact offCycle (Relation.TransGen.tail' (steady.trail _ completed) step)
        · intro same
          apply offCycle
          rw [same]
          rw [same] at step
          exact Relation.TransGen.single step
      · exact undelivered now
    · rcases surge.rejected_delivered aside (rejected other incoming different unheld) with
        now | path
      · exact undelivered now
      · exact behind path
  · exact arrived

theorem Surge.steadies (arrived : progress.ready = [⟨crossing.ref.target, crossing.output⟩]) :
    Steady crossing.plan crossing.ref.target (crossing.node :: visited) (sent ++ delivered)
      progress.state where
  within := surge.within
  missing := surge.missing
  quiet := by
    intro node ref live
    have same := surge.single node ref live
    subst same
    have present := (Dict.mem_keys _ _).mpr ⟨_, live⟩
    have atTarget := ((crossing.plan.mem_forwardIn _ _).mp (surge.within node present)).2.1
    subst atTarget
    rcases surge.arrival with ⟨waiting, _, _⟩ | ⟨_, absent, _⟩
    · rw [waiting] at arrived
      cases arrived
    · exact absent present
  known := crossing.plan.targets _ ((crossing.plan.mem_forwardIn _ _).mp crossing.gated).1
  begun := by
    left
    rcases steady.begun with before | atStart
    · exact List.mem_cons_of_mem _ before
    · rw [← atStart]
      exact List.mem_cons_self
  spent := surge.spent steady
  chained := surge.chained steady
  held := by
    intro node alive uncompleted different ref incoming member
    rw [List.mem_cons, not_or] at uncompleted
    apply surge.kept node different alive ref incoming
    rcases List.mem_append.mp member with before | now
    · exact Or.inl (steady.held node (fun dead => alive (surge.grows dead)) uncompleted.2
        uncompleted.1 ref incoming before)
    · exact Or.inr now
  trail := by
    intro node completed
    have step : crossing.plan.graph.Adjacent crossing.node crossing.ref.target := by
      rw [← crossing.source]
      exact reaches_of_ref ((crossing.plan.mem_forwardIn _ _).mp crossing.gated).1
    rcases List.mem_cons.mp completed with same | before
    · rw [same]
      exact Relation.ReflTransGen.single step
    · exact Relation.ReflTransGen.tail (steady.trail node before) step
  unsent := surge.unsent steady only aside

end Settled

/-! ### Following a back edge -/

theorem back_chain (plan : Plan) (loops : ∀ node, plan.graph.OnCycle node →
    (plan.forwardIn node).length ≤ 1) {ref : EdgeRef} (back : ref ∈ plan.backEdges) :
    Chain plan ref.target ref.source := by
  have around := (plan.classified.closing ref back).2.2
  change plan.graph.ReachesOff plan.backEdges ref.target ref.source at around
  have general : ∀ node, plan.graph.Reaches ref.target node →
      plan.graph.ReachesOff plan.backEdges node ref.source → Chain plan node ref.source := by
    intro node above below
    induction below using Relation.ReflTransGen.head_induction_on with
    | refl => exact Relation.ReflTransGen.refl
    | head step rest ih =>
        obtain ⟨edge, outgoing, off, rfl⟩ := step
        obtain ⟨known, source⟩ := (plan.mem_out _ _).mp outgoing
        have further := Relation.ReflTransGen.tail above ⟨edge, outgoing, rfl⟩
        have cycle := plan.classified.onCycle back further
          (Multigraph.ReachesOff.reaches rest)
        have incoming := (plan.mem_forwardIn edge.target edge).mpr ⟨known, rfl, off⟩
        apply Relation.ReflTransGen.head _ (ih further)
        refine ⟨edge, (plan.mem_forwardOut _ _).mpr ⟨known, source, off⟩, rfl, ?_⟩
        have short := loops edge.target cycle
        cases ways : plan.forwardIn edge.target with
        | nil =>
            rw [ways] at incoming
            cases incoming
        | cons first rest =>
            rw [ways] at short incoming
            have empty : rest = [] := List.eq_nil_of_length_eq_zero (by
              simp only [List.length_cons] at short
              omega)
            rw [empty] at incoming
            change plan.forwardIn edge.target = [edge]
            rw [ways, empty, List.mem_singleton.mp incoming]
  exact general ref.target Relation.ReflTransGen.refl around

theorem Steady.loop {plan : Plan} {visited : List String} {sent : List EdgeRef} {state : State α}
    {ref : EdgeRef} (steady : Steady plan ref.source visited sent state)
    (loops : ∀ node, plan.graph.OnCycle node → (plan.forwardIn node).length ≤ 1)
    (back : ref ∈ plan.backEdges) (output : Dict String α) :
    Steady plan ref.target (ref.source :: visited) sent (state.recordOutput ref.source output) := by
  have known := ((plan.mem_out _ _).mp (plan.classified.closing ref back).1).1
  have around := back_chain plan loops back
  exact
    { steady with
      known := plan.targets ref known
      begun := by
        left
        rcases steady.begun with before | atStart
        · exact List.mem_cons_of_mem _ before
        · rw [← atStart]
          exact List.mem_cons_self
      spent := steady.spent
      chained := steady.chained
      held := by
        intro node alive uncompleted _ edge incoming member
        rw [List.mem_cons, not_or] at uncompleted
        exact steady.held node alive uncompleted.2 uncompleted.1 edge incoming member
      trail := by
        intro node completed
        rcases List.mem_cons.mp completed with same | before
        · rw [same]
          exact Relation.ReflTransGen.single (reaches_of_ref known)
        · exact Relation.ReflTransGen.tail (steady.trail node before) (reaches_of_ref known)
      unsent := by
        intro node completed edge outgoing fresh
        rcases List.mem_cons.mp completed with same | before
        · rw [same]
          exact around
        · exact Relation.ReflTransGen.trans around (steady.unsent node before edge outgoing fresh) }

/-! ### Whole runs -/

/-- One step: the scheduler returns the target of the followed edge exactly when that edge is
unblocked, and then the next step starts from a steady state again. -/
theorem Steady.step {plan : Plan} {node : String} {visited : List String} {sent : List EdgeRef}
    {state : State α} (steady : Steady plan node visited sent state)
    (reachable : ∀ node ∈ nodeIds plan.nodes, plan.graph.Reaches plan.start node)
    (loops : ∀ node, plan.graph.OnCycle node → (plan.forwardIn node).length ≤ 1)
    (branch : Option Int) (output : Dict String α) (ref : EdgeRef)
    (only : followedEdges plan node branch = [ref]) :
    (Unblocked plan state node branch ref ↔
      (complete plan state node output branch false).2.ready = [⟨ref.target, output⟩]) ∧
    ((complete plan state node output branch false).2.ready = [⟨ref.target, output⟩] →
      ∃ visited sent, Steady plan ref.target visited sent
        (complete plan state node output branch false).1) := by
  obtain ⟨sameState, sameReady⟩ := complete_eq plan state node output branch
  rw [sameState, sameReady]
  have outgoing : ref ∈ plan.out node := by
    have member : ref ∈ followedEdges plan node branch := by
      rw [only]
      exact List.mem_singleton.mpr rfl
    cases branch with
    | none => exact member
    | some index => exact (List.mem_filter.mp member).1
  obtain ⟨known, source⟩ := (plan.mem_out _ _).mp outgoing
  by_cases back : ref ∈ plan.backEdges
  · have run := completeProgress_cascade plan state node output branch
    rw [completionSignals_back plan node branch ref only back] at run
    cases run with
    | reactivate rest =>
        generalize completeProgress plan state node output branch = final at rest ⊢
        cases rest with
        | done _ =>
            refine ⟨⟨fun _ => rfl, fun _ => Or.inl back⟩, ?_⟩
            intro _
            subst source
            exact ⟨_, _, steady.loop loops back output⟩
  · obtain ⟨height, climbs⟩ := plan.exists_height
    let crossing : Crossing α :=
      { plan := plan
        state := state
        node := node
        branch := branch
        output := output
        ref := ref
        height := height
        climbs := climbs
        gated := (plan.mem_forwardIn _ _).mpr ⟨known, rfl, back⟩
        source := source
        reached := reachable node steady.known }
    obtain ⟨delivered, aside, surge⟩ := completeProgress_surge crossing only steady
    constructor
    · constructor
      · exact surge.arrives steady only aside reachable loops
      · exact surge.unblocked_of_arrived
    · intro arrived
      exact ⟨_, _, surge.steadies steady only aside arrived⟩

private theorem ForkFree.only {roles : Roles} {nodes : List WorkflowNode} {edges : List Edge}
    {startNodeId : String} (forkFree : ForkFree roles nodes edges startNodeId) {node : String}
    (known : node ∈ nodeIds nodes) {branch : Option Int} (running : roles.isEnd node = false)
    (allowed : roles.Allows node branch) :
    ∃ ref, followedEdges (plan nodes edges startNodeId) node branch = [ref] := by
  cases branch with
  | none => exact forkFree.plain node known running allowed
  | some index => exact forkFree.router node known allowed.1 index allowed.2

private theorem agrees_iff_guarded {roles : Roles} {nodes : List WorkflowNode} {edges : List Edge}
    {startNodeId : String} (forkFree : ForkFree roles nodes edges startNodeId)
    (choices : List (Option Int × Dict String α)) (state : State α) (node : String)
    (visited : List String) (sent : List EdgeRef)
    (steady : Steady (plan nodes edges startNodeId) node visited sent state) :
    Agrees roles nodes edges startNodeId state node choices ↔
      Guarded roles nodes edges startNodeId state node choices := by
  induction choices generalizing state node visited sent with
  | nil => exact Iff.rfl
  | cons choice rest ih =>
      obtain ⟨branch, output⟩ := choice
      simp only [Agrees, Guarded]
      apply forall_congr'
      intro running
      apply forall_congr'
      intro allowed
      obtain ⟨ref, only⟩ := forkFree.only steady.known running allowed
      have navigated := findNextNode_eq nodes edges startNodeId node branch ref only
      obtain ⟨arrives, continues⟩ := steady.step forkFree.reachable forkFree.loops branch output ref
        only
      constructor
      · rintro ⟨next, found, ready, later⟩
        have same : next = ref.target := Option.some.inj (found.symm.trans navigated)
        subst same
        obtain ⟨_, _, steadyNext⟩ := continues ready
        constructor
        · intro other member
          rw [only] at member
          rw [List.mem_singleton.mp member]
          exact arrives.mpr ready
        · intro next foundNext
          have sameNext : next = ref.target := Option.some.inj (foundNext.symm.trans navigated)
          rw [sameNext]
          exact (ih _ _ _ _ steadyNext).mp later
      · rintro ⟨unblocked, later⟩
        have ready := arrives.mp (unblocked ref (by rw [only]; exact List.mem_singleton.mpr rfl))
        obtain ⟨_, _, steadyNext⟩ := continues ready
        exact ⟨ref.target, navigated, ready, (ih _ _ _ _ steadyNext).mpr (later _ navigated)⟩

/-- On a graph without forks the scheduler follows the navigator through a whole sequence of
branch choices exactly when every step follows an unblocked edge. -/
theorem complete_agrees_iff_unblocked (roles : Roles) (nodes : List WorkflowNode)
    (edges : List Edge) (startNodeId : String)
    (forkFree : ForkFree roles nodes edges startNodeId)
    (choices : List (Option Int × Dict String α)) :
    Agrees roles nodes edges startNodeId State.initial startNodeId choices ↔
      Guarded roles nodes edges startNodeId State.initial startNodeId choices :=
  agrees_iff_guarded forkFree choices State.initial startNodeId [] []
    (Steady.initial (plan nodes edges startNodeId) forkFree.start)

/-! A loop with two ways out that meet in `M`. Taking `R1 → R2`, looping back and leaving by
`R1 → X1` makes `M` dead before `X1` completes. -/

def twoExitsNodes : List WorkflowNode :=
  [⟨"start", "start"⟩, ⟨"H", "agent"⟩, ⟨"R1", "condition"⟩, ⟨"R2", "condition"⟩, ⟨"X1", "agent"⟩,
    ⟨"X2", "agent"⟩, ⟨"M", "agent"⟩, ⟨"end", "end"⟩]

def twoExitsEdges : List Edge :=
  [⟨"start", "H", none⟩, ⟨"H", "R1", none⟩, ⟨"R1", "X1", some "source_R1_0"⟩,
    ⟨"R1", "R2", some "source_R1_1"⟩, ⟨"R2", "H", some "source_R2_0"⟩,
    ⟨"R2", "X2", some "source_R2_1"⟩, ⟨"X1", "M", none⟩, ⟨"X2", "M", none⟩, ⟨"M", "end", none⟩]

def twoExitsRoles : Roles where
  isEnd := fun node => decide (node = "end")
  isRouter := fun node => decide (node = "R1" ∨ node = "R2")
  selectable := fun _ index => index = 0 ∨ index = 1

def twoExitsChoices : List (Option Int × Dict String Nat) :=
  [(none, Dict.empty), (none, Dict.empty), (some 1, Dict.empty), (some 0, Dict.empty),
    (none, Dict.empty), (some 0, Dict.empty), (none, Dict.empty)]

private theorem twoExits_adjacent (ref : EdgeRef)
    (member : ref ∈ validEdges twoExitsNodes twoExitsEdges) :
    (plan twoExitsNodes twoExitsEdges "start").graph.Adjacent ref.source ref.target :=
  ⟨ref, (Plan.mem_out _ _ _).mpr ⟨member, rfl⟩, rfl⟩

private theorem twoExits_reaches (node : String) (known : node ∈ nodeIds twoExitsNodes) :
    (plan twoExitsNodes twoExitsEdges "start").graph.Reaches "start" node := by
  have toH := Relation.ReflTransGen.tail Relation.ReflTransGen.refl
    (twoExits_adjacent ⟨0, ⟨"start", "H", none⟩⟩ (by decide))
  have toR1 := Relation.ReflTransGen.tail toH
    (twoExits_adjacent ⟨1, ⟨"H", "R1", none⟩⟩ (by decide))
  have toX1 := Relation.ReflTransGen.tail toR1
    (twoExits_adjacent ⟨2, ⟨"R1", "X1", some "source_R1_0"⟩⟩ (by decide))
  have toR2 := Relation.ReflTransGen.tail toR1
    (twoExits_adjacent ⟨3, ⟨"R1", "R2", some "source_R1_1"⟩⟩ (by decide))
  have toX2 := Relation.ReflTransGen.tail toR2
    (twoExits_adjacent ⟨5, ⟨"R2", "X2", some "source_R2_1"⟩⟩ (by decide))
  have toM := Relation.ReflTransGen.tail toX1
    (twoExits_adjacent ⟨6, ⟨"X1", "M", none⟩⟩ (by decide))
  have toEnd := Relation.ReflTransGen.tail toM
    (twoExits_adjacent ⟨8, ⟨"M", "end", none⟩⟩ (by decide))
  simp only [nodeIds, twoExitsNodes, List.map_cons, List.map_nil, List.mem_cons,
    List.not_mem_nil, or_false] at known
  rcases known with rfl | rfl | rfl | rfl | rfl | rfl | rfl | rfl
  · exact Relation.ReflTransGen.refl
  · exact toH
  · exact toR1
  · exact toR2
  · exact toX1
  · exact toX2
  · exact toM
  · exact toEnd

private theorem twoExits_merge_offCycle :
    ¬ (plan twoExitsNodes twoExitsEdges "start").graph.OnCycle "M" := by
  have afterM : ∀ ref ∈ (plan twoExitsNodes twoExitsEdges "start").out "M", ref.target = "end" := by
    decide
  have afterEnd : (plan twoExitsNodes twoExitsEdges "start").out "end" = [] := by decide
  intro cycle
  obtain ⟨next, ⟨ref, outgoing, atTarget⟩, rest⟩ := Relation.TransGen.head'_iff.mp cycle
  have atEnd : next = "end" := atTarget.symm.trans (afterM ref outgoing)
  subst atEnd
  rcases Relation.ReflTransGen.cases_head rest with same | ⟨_, ⟨other, leaving, _⟩, _⟩
  · exact absurd same (by decide)
  · change other ∈ (plan twoExitsNodes twoExitsEdges "start").out "end" at leaving
    rw [afterEnd] at leaving
    cases leaving

theorem twoExits_forkFree : ForkFree twoExitsRoles twoExitsNodes twoExitsEdges "start" where
  start := by decide
  reachable := twoExits_reaches
  plain := by
    intro node known running plain
    apply List.length_eq_one_iff.mp
    have single : ∀ node ∈ nodeIds twoExitsNodes, twoExitsRoles.isEnd node = false →
        twoExitsRoles.isRouter node = false →
          ((plan twoExitsNodes twoExitsEdges "start").out node).length = 1 := by decide
    exact single node known running plain
  router := by
    intro node known router index selectable
    apply List.length_eq_one_iff.mp
    have single : ∀ node ∈ nodeIds twoExitsNodes, twoExitsRoles.isRouter node = true →
        ∀ index ∈ [(0 : Int), 1],
          (selectedEdges (plan twoExitsNodes twoExitsEdges "start") node index).length = 1 := by
      decide
    apply single node known router index
    rcases selectable with rfl | rfl <;> decide
  loops := by
    intro node cycle
    have merges : ∀ node ∈ nodeIds twoExitsNodes, node = "M" ∨
        ((plan twoExitsNodes twoExitsEdges "start").forwardIn node).length ≤ 1 := by decide
    cases ways : (plan twoExitsNodes twoExitsEdges "start").forwardIn node with
    | nil => exact Nat.zero_le _
    | cons first rest =>
        have incoming : first ∈ (plan twoExitsNodes twoExitsEdges "start").forwardIn node := by
          rw [ways]
          exact List.mem_cons_self
        obtain ⟨member, atTarget, _⟩ := (Plan.mem_forwardIn _ _ _).mp incoming
        have known := (plan twoExitsNodes twoExitsEdges "start").targets first member
        rw [atTarget] at known
        rw [← ways]
        rcases merges node known with same | short
        · rw [same] at cycle
          exact absurd cycle twoExits_merge_offCycle
        · exact short

theorem complete_agrees_iff_unblocked_twoExits :
    Agrees twoExitsRoles twoExitsNodes twoExitsEdges "start" State.initial "start"
        twoExitsChoices ↔
      Guarded twoExitsRoles twoExitsNodes twoExitsEdges "start" State.initial "start"
        twoExitsChoices :=
  complete_agrees_iff_unblocked twoExitsRoles twoExitsNodes twoExitsEdges "start"
    twoExits_forkFree twoExitsChoices

private theorem Agrees.step {roles : Roles} {nodes : List WorkflowNode} {edges : List Edge}
    {startNodeId node next : String} {state : State α} {branch : Option Int}
    {output : Dict String α} {rest : List (Option Int × Dict String α)}
    (agrees : Agrees roles nodes edges startNodeId state node ((branch, output) :: rest))
    (running : roles.isEnd node = false) (allowed : roles.Allows node branch)
    (found : GraphNavigator.findNextNode edges nodes node branch = some next) :
    (complete (plan nodes edges startNodeId) state node output branch false).2.ready =
        [⟨next, output⟩] ∧
      Agrees roles nodes edges startNodeId
        (complete (plan nodes edges startNodeId) state node output branch false).1 next rest := by
  obtain ⟨other, otherFound, ready, later⟩ := agrees running allowed
  have same : other = next := Option.some.inj (otherFound.symm.trans found)
  subst same
  exact ⟨ready, later⟩

/-- The completion of `X1` returns nothing, and the run stops short of `M`. -/
theorem complete_twoExits_stops :
    ForkFree twoExitsRoles twoExitsNodes twoExitsEdges "start" ∧
      ¬ Agrees twoExitsRoles twoExitsNodes twoExitsEdges "start" State.initial "start"
        twoExitsChoices := by
  refine ⟨twoExits_forkFree, ?_⟩
  intro agrees
  have atH := (agrees.step rfl rfl (show _ = some "H" by decide)).2
  have atR1 := (atH.step rfl rfl (show _ = some "R1" by decide)).2
  have atR2 := (atR1.step rfl ⟨rfl, Or.inr rfl⟩ (show _ = some "R2" by decide)).2
  have again := (atR2.step rfl ⟨rfl, Or.inl rfl⟩ (show _ = some "H" by decide)).2
  have atR1Again := (again.step rfl rfl (show _ = some "R1" by decide)).2
  have atX1 := (atR1Again.step rfl ⟨rfl, Or.inl rfl⟩ (show _ = some "X1" by decide)).2
  have ready := (atX1.step rfl rfl (show _ = some "M" by decide)).1
  have lost := congrArg List.length ready
  revert lost
  decide

end Assemblix.DagScheduler
