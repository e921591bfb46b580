import Assemblix.Execution.DagSchedulerForkFree

/-
One node in flight.

Where every completion follows at most one edge and no live token waits anywhere, a
completion makes at most one node ready: the target of the followed edge, with the output
as its input. Either it is ready at once or the live token waits at a merge, and then only
the death of the merge's other edges can release it.
-/

namespace Assemblix.DagScheduler

open Library

variable {α : Type}

def Unparked (state : State α) : Prop :=
  ∀ node ref, (state.tokens node).lookup ref ≠ some .live

theorem Unparked.initial : Unparked (State.initial : State α) := by
  intro node ref live
  cases live

theorem Unparked.recordOutput {state : State α} (unparked : Unparked state) (node : String)
    (output : Dict String α) : Unparked (state.recordOutput node output) :=
  unparked

structure Waiting (ref : EdgeRef) (output : Dict String α) (progress : Progress α) : Prop where
  quiet : progress.ready = []
  alone : ∀ node other, (progress.state.tokens node).lookup other = some .live →
    node = ref.target ∧ other = ref
  carried : progress.state.nodeOutputs ref.source = some output

/-- These nodes are ready and no live token waits. -/
structure Calm (ready : List (ReadyNode α)) (progress : Progress α) : Prop where
  ready : progress.ready = ready
  unparked : Unparked progress.state

def DeadSignals (plan : Plan) (agenda : List Signal) : Prop :=
  ∀ signal ∈ agenda, ∃ ref ∈ plan.forwardIn ref.target, signal = .token ref .dead

theorem lookup_putToken (state : State α) (ref other : EdgeRef) (status : Token) (node : String) :
    ((state.putToken ref status).tokens node).lookup other =
      if node = ref.target ∧ ref = other then some status
      else (state.tokens node).lookup other := by
  by_cases same : node = ref.target
  · subst same
    simp [State.putToken, Dict.lookup_set]
  · rw [State.putToken, State.setTokens_of_ne _ _ same, if_neg (fun both => same both.1)]

theorem lookup_consumed (state : State α) (node other : String) (ref : EdgeRef) :
    ((state.setTokens node Dict.empty).tokens other).lookup ref =
      if other = node then none else (state.tokens other).lookup ref := by
  by_cases same : other = node
  · subst same
    simp
  · rw [State.setTokens_of_ne _ _ same, if_neg same]

@[simp] theorem kill_tokens (node : String) (progress : Progress α) :
    (kill node progress).state.tokens = progress.state.tokens := by
  unfold kill
  split <;> rfl

@[simp] theorem kill_nodeOutputs (node : String) (progress : Progress α) :
    (kill node progress).state.nodeOutputs = progress.state.nodeOutputs := by
  unfold kill
  split <;> rfl

@[simp] theorem kill_ready (node : String) (progress : Progress α) :
    (kill node progress).ready = progress.ready := by
  unfold kill
  split <;> rfl

theorem mergeOutputs_single (plan : Plan) (state : State α) (tokens : Dict EdgeRef Token)
    (ref : EdgeRef) (output : Dict String α) (gated : ref ∈ plan.forwardIn ref.target)
    (exactly : ∀ other, tokens.lookup other = some .live ↔ other = ref)
    (carried : state.nodeOutputs ref.source = some output) :
    mergeOutputs state (liveSources plan ref.target tokens) = output := by
  rw [liveSources_eq_singleton plan ref.target tokens ref gated exactly]
  simp only [mergeOutputs, List.foldl_cons, List.foldl_nil, carried, Option.getD_some]
  exact Dict.empty_merge output

theorem exists_live (plan : Plan) (node : String) (tokens : Dict EdgeRef Token)
    (alive : liveSources plan node tokens ≠ []) :
    ∃ ref ∈ plan.forwardIn node, tokens.lookup ref = some .live := by
  obtain ⟨ref, member⟩ := List.exists_mem_of_ne_nil _ alive
  have parts := List.mem_filter.mp member
  exact ⟨ref, parts.1, of_decide_eq_true parts.2⟩

/-! ### The live token -/

theorem settle_live (plan : Plan) (ref : EdgeRef) (output : Dict String α)
    (progress : Progress α) (gated : ref ∈ plan.forwardIn ref.target)
    (quiet : progress.ready = []) (unparked : Unparked progress.state)
    (carried : progress.state.nodeOutputs ref.source = some output) :
    Waiting ref output (settle plan ref .live progress) ∨
      Calm [⟨ref.target, output⟩] (settle plan ref .live progress) := by
  have exactly : ∀ other,
      ((progress.state.tokens ref.target).set ref .live).lookup other = some .live ↔
        other = ref := by
    intro other
    rw [Dict.lookup_set]
    by_cases same : ref = other
    · simp [same]
    · rw [if_neg same]
      exact ⟨fun live => absurd live (unparked _ _), fun equal => absurd equal.symm same⟩
  have settled := settle_settled plan ref .live progress gated
  generalize settle plan ref .live progress = after at settled ⊢
  cases settled with
  | waiting missing =>
      apply Or.inl
      constructor
      · exact quiet
      · intro node other live
        rw [lookup_putToken] at live
        by_cases here : node = ref.target ∧ ref = other
        · exact ⟨here.1, here.2.symm⟩
        · rw [if_neg here] at live
          exact absurd live (unparked node other)
      · exact carried
  | fires full alive =>
      apply Or.inr
      constructor
      · rw [mergeOutputs_single plan progress.state _ ref output gated exactly carried, quiet]
        rfl
      · intro node other live
        rw [lookup_consumed] at live
        split at live
        · cases live
        · exact unparked node other live
  | dies full pruned =>
      have live : ref ∈ liveSources plan ref.target
          ((progress.state.tokens ref.target).set ref .live) := by
        apply List.mem_filter.mpr
        exact ⟨gated, decide_eq_true ((exactly ref).mpr rfl)⟩
      rw [pruned] at live
      cases live

/-! ### Dead tokens -/

theorem Waiting.settle_dead {plan : Plan} {ref : EdgeRef} {output : Dict String α}
    {progress : Progress α} (waiting : Waiting ref output progress)
    (gated : ref ∈ plan.forwardIn ref.target) (other : EdgeRef)
    (incoming : other ∈ plan.forwardIn other.target) :
    Waiting ref output (settle plan other .dead progress) ∨
      Calm [⟨ref.target, output⟩] (settle plan other .dead progress) := by
  have lives : ∀ target candidate,
      ((progress.state.tokens target).set other .dead).lookup candidate = some .live →
        target = ref.target ∧ candidate = ref := by
    intro target candidate live
    rw [Dict.lookup_set] at live
    split at live
    · cases live
    · exact waiting.alone target candidate live
  have consumed : ∀ node candidate,
      ((progress.state.setTokens other.target Dict.empty).tokens node).lookup candidate =
        some .live → node ≠ other.target ∧ node = ref.target ∧ candidate = ref := by
    intro node candidate live
    rw [lookup_consumed] at live
    split at live
    case isTrue => cases live
    case isFalse different => exact ⟨different, waiting.alone node candidate live⟩
  have settled := settle_settled plan other .dead progress incoming
  generalize settle plan other .dead progress = after at settled ⊢
  cases settled with
  | waiting missing =>
      apply Or.inl
      constructor
      · exact waiting.quiet
      · intro node candidate live
        rw [lookup_putToken] at live
        split at live
        · cases live
        · exact waiting.alone node candidate live
      · exact waiting.carried
  | fires full alive =>
      apply Or.inr
      obtain ⟨source, _, live⟩ := exists_live plan other.target _ alive
      obtain ⟨here, rfl⟩ := lives other.target source live
      have exactly : ∀ candidate,
          ((progress.state.tokens other.target).set other .dead).lookup candidate = some .live ↔
            candidate = source :=
        fun candidate => ⟨fun found => (lives _ _ found).2, fun equal => equal ▸ live⟩
      constructor
      · rw [here] at exactly ⊢
        rw [mergeOutputs_single plan progress.state _ source output gated exactly waiting.carried,
          waiting.quiet]
        rfl
      · intro node candidate found
        have parts := consumed node candidate found
        exact parts.1 (parts.2.1.trans here.symm)
  | dies full pruned =>
      apply Or.inl
      constructor
      · rw [kill_ready]
        exact waiting.quiet
      · intro node candidate live
        rw [kill_tokens] at live
        exact (consumed node candidate live).2
      · rw [kill_nodeOutputs]
        exact waiting.carried

theorem Calm.settle_dead {plan : Plan} {ready : List (ReadyNode α)} {progress : Progress α}
    (calm : Calm ready progress) (other : EdgeRef)
    (incoming : other ∈ plan.forwardIn other.target) :
    Calm ready (settle plan other .dead progress) := by
  have settled := settle_settled plan other .dead progress incoming
  generalize settle plan other .dead progress = after at settled ⊢
  cases settled with
  | waiting missing =>
      constructor
      · exact calm.ready
      · intro node candidate live
        rw [lookup_putToken] at live
        split at live
        · cases live
        · exact calm.unparked node candidate live
  | fires full alive =>
      obtain ⟨source, _, live⟩ := exists_live plan other.target _ alive
      rw [Dict.lookup_set] at live
      split at live
      · cases live
      · exact absurd live (calm.unparked _ _)
  | dies full pruned =>
      constructor
      · rw [kill_ready]
        exact calm.ready
      · intro node candidate live
        rw [kill_tokens, lookup_consumed] at live
        split at live
        · cases live
        · exact calm.unparked node candidate live

theorem DeadSignals.fallout (plan : Plan) (node : String) (before after : List String)
    {rest : List Signal} (dead : DeadSignals plan rest) :
    DeadSignals plan (fallout plan node before after ++ rest) := by
  intro signal member
  rcases List.mem_append.mp member with fallen | later
  · unfold DagScheduler.fallout at fallen
    split at fallen
    · obtain ⟨ref, outgoing, rfl⟩ := List.mem_map.mp fallen
      have parts := (plan.mem_forwardOut _ _).mp outgoing
      exact ⟨ref, (plan.mem_forwardIn _ _).mpr ⟨parts.1, rfl, parts.2.2⟩, rfl⟩
    · cases fallen
  · exact dead signal later

/-- What every dead token keeps holds when they have all been delivered. -/
theorem Cascade.dead_invariant {plan : Plan} {agenda : List Signal} {output : Dict String α}
    {first last : Progress α} (cascade : Cascade plan output agenda first last)
    (dead : DeadSignals plan agenda) (kept : Progress α → Prop)
    (preserved : ∀ other, other ∈ plan.forwardIn other.target → ∀ progress,
      kept progress → kept (settle plan other .dead progress))
    (before : kept first) : kept last := by
  induction cascade with
  | done progress => exact before
  | @token other status rest progress last _ ih =>
      obtain ⟨target, incoming, same⟩ := dead _ List.mem_cons_self
      cases same
      have later : DeadSignals plan rest :=
        fun signal member => dead signal (List.mem_cons_of_mem _ member)
      apply ih (later.fallout plan _ _ _)
      exact preserved other incoming progress before
  | @reactivate other rest progress last _ ih =>
      obtain ⟨target, incoming, same⟩ := dead _ List.mem_cons_self
      cases same

theorem rejectedEdges_dead (plan : Plan) (node : String) (index : Int) :
    DeadSignals plan ((rejectedEdges plan node index).map (fun other => .token other .dead)) := by
  intro signal member
  obtain ⟨ref, aside, rfl⟩ := List.mem_map.mp member
  have parts := (plan.mem_forwardOut _ _).mp (List.mem_filter.mp aside).1
  exact ⟨ref, (plan.mem_forwardIn _ _).mpr ⟨parts.1, rfl, parts.2.2⟩, rfl⟩

theorem asideEdges_dead (plan : Plan) (node : String) (branch : Option Int) :
    DeadSignals plan ((asideEdges plan node branch).map (fun other => .token other .dead)) := by
  cases branch with
  | none =>
      intro signal member
      cases member
  | some index => exact rejectedEdges_dead plan node index

theorem followed_outgoing (plan : Plan) (node : String) (branch : Option Int) (ref : EdgeRef)
    (followed : ref ∈ followedEdges plan node branch) : ref ∈ plan.out node := by
  cases branch with
  | none => exact followed
  | some index => exact (List.mem_filter.mp followed).1

/-! ### A completion -/

theorem completeProgress_single (plan : Plan) (state : State α) (unparked : Unparked state)
    (node : String) (output : Dict String α) (branch : Option Int) (ref : EdgeRef)
    (only : followedEdges plan node branch = [ref]) :
    (completeProgress plan state node output branch).ready = [] ∨
      Calm [⟨ref.target, output⟩] (completeProgress plan state node output branch) := by
  have cascade := completeProgress_cascade plan state node output branch
  have outgoing := followed_outgoing plan node branch ref (by rw [only]; exact List.mem_cons_self)
  have parts := (plan.mem_out _ _).mp outgoing
  by_cases back : ref ∈ plan.backEdges
  · apply Or.inr
    rw [completionSignals_back plan node branch ref only back] at cascade
    generalize completeProgress plan state node output branch = last at cascade ⊢
    cases cascade with
    | reactivate rest =>
        cases rest
        constructor
        · rfl
        · exact unparked.recordOutput node output
  · rw [completionSignals_forward plan node branch ref only back] at cascade
    have gated := (plan.mem_forwardIn ref.target ref).mpr ⟨parts.1, rfl, back⟩
    generalize completeProgress plan state node output branch = last at cascade ⊢
    cases cascade with
    | token rest =>
        have settled := settle_live plan ref output ⟨state.recordOutput node output, []⟩ gated rfl
          (unparked.recordOutput node output) (by rw [parts.2]; exact if_pos rfl)
        have both := rest.dead_invariant ((asideEdges_dead plan node branch).fallout plan _ _ _)
          (fun progress => Waiting ref output progress ∨ Calm [⟨ref.target, output⟩] progress)
          (by
            intro other incoming progress before
            rcases before with waiting | calm
            · exact waiting.settle_dead gated other incoming
            · exact .inr (calm.settle_dead other incoming))
          settled
        rcases both with waiting | calm
        · exact .inl waiting.quiet
        · exact .inr calm

theorem completeProgress_leaf (plan : Plan) (state : State α) (unparked : Unparked state)
    (node : String) (output : Dict String α) (branch : Option Int)
    (leaf : followedEdges plan node branch = []) :
    (completeProgress plan state node output branch).ready = [] := by
  have cascade := completeProgress_cascade plan state node output branch
  have dead : DeadSignals plan (completionSignals plan node branch) := by
    cases branch with
    | none =>
        change plan.out node = [] at leaf
        intro signal member
        simp [completionSignals, leaf] at member
    | some index =>
        change selectedEdges plan node index = [] at leaf
        simpa [completionSignals, leaf] using rejectedEdges_dead plan node index
  have calm := cascade.dead_invariant dead (Calm [])
    (fun other incoming progress before => before.settle_dead other incoming)
    ⟨rfl, unparked.recordOutput node output⟩
  exact calm.ready

/-- With at most one edge to follow, a completion makes the navigator's next node ready or
nothing at all. -/
theorem complete_single (nodes : List WorkflowNode) (edges : List Edge) (startNodeId : String)
    (state : State α) (unparked : Unparked state) (node : String) (output : Dict String α)
    (branch : Option Int)
    (few : (followedEdges (plan nodes edges startNodeId) node branch).length ≤ 1) :
    let completed := complete (plan nodes edges startNodeId) state node output branch false
    completed.2.ready = [] ∨
      ∃ next, GraphNavigator.findNextNode edges nodes node branch = some next ∧
        completed.2.ready = [⟨next, output⟩] ∧ Unparked completed.1 := by
  intro completed
  obtain ⟨sameState, sameReady⟩ :=
    complete_eq (plan nodes edges startNodeId) state node output branch
  cases followed : followedEdges (plan nodes edges startNodeId) node branch with
  | nil =>
      apply Or.inl
      exact sameReady.trans (completeProgress_leaf _ state unparked node output branch followed)
  | cons ref rest =>
      have single : rest = [] := by
        rw [followed, List.length_cons] at few
        exact List.eq_nil_of_length_eq_zero (by omega)
      subst single
      rcases completeProgress_single _ state unparked node output branch ref followed with
        quiet | calm
      · exact .inl (sameReady.trans quiet)
      · apply Or.inr
        exists ref.target
        constructor
        · exact findNextNode_eq nodes edges startNodeId node branch ref followed
        constructor
        · exact sameReady.trans calm.ready
        · change Unparked (complete (plan nodes edges startNodeId) state node output branch false).1
          rw [sameState]
          exact calm.unparked

end Assemblix.DagScheduler
