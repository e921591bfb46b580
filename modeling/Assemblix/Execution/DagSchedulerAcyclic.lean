import Assemblix.Library.Run
import Assemblix.Execution.DagSchedulerCascade

/-
Complete runs of the scheduler on acyclic graphs.

The drive holds the scheduler together with the nodes in flight and the log of every
node returned as ready. A step completes any node in flight. Between two deliveries the
tokens at a node that is still open are determined by which nodes are resolved and
which deliveries are pending, so the log does not depend on the order of completion.
-/

namespace Assemblix.DagScheduler

open Library

variable {α : Type}

/-! ### Driving the scheduler -/

/-- What a run of one workflow is determined by, the order of completion apart. -/
structure Behaviour (α : Type) where
  branch : String → Option Int
  output : String → Dict String α → Dict String α
  terminal : String → Bool

structure Drive (α : Type) where
  state : State α
  inFlight : List (ReadyNode α)
  fired : List (ReadyNode α)
  completed : List String

def Drive.initial (plan : Plan) : Drive α :=
  { state := State.initial
    inFlight := start plan
    fired := start plan
    completed := [] }

def Drive.finish (plan : Plan) (behaviour : Behaviour α) (drive : Drive α) (position : Nat)
    (node : ReadyNode α) : Drive α :=
  let outcome := complete plan drive.state node.nodeId
    (behaviour.output node.nodeId node.inputData) (behaviour.branch node.nodeId)
    (behaviour.terminal node.nodeId)
  { state := outcome.1
    inFlight := drive.inFlight.eraseIdx position ++ outcome.2.ready
    fired := drive.fired ++ outcome.2.ready
    completed := drive.completed ++ [node.nodeId] }

def Drive.Step (plan : Plan) (behaviour : Behaviour α) (drive : Drive α) (position : Nat)
    (next : Drive α) : Prop :=
  ∃ node, drive.inFlight[position]? = some node ∧
    next = drive.finish plan behaviour position node

/-- The edge carries the output of its source: any edge of a plain node, the edges on the
chosen handle of a router. -/
def chosen (branch : String → Option Int) (ref : EdgeRef) : Bool :=
  match branch ref.source with
  | none => true
  | some index => decide (ref.edge.sourceHandle = some (sourceHandleOf ref.source index))

/-- The least relation closed under: the source is the start node or the target of a live
edge, and the edge is chosen. -/
inductive LiveEdge (plan : Plan) (branch : String → Option Int) : EdgeRef → Prop
  | first {ref : EdgeRef} : ref ∈ plan.edges → ref.source = plan.start →
      chosen branch ref = true → LiveEdge plan branch ref
  | next {earlier ref : EdgeRef} : LiveEdge plan branch earlier → ref ∈ plan.edges →
      ref.source = earlier.target → chosen branch ref = true → LiveEdge plan branch ref

theorem LiveEdge.known {plan : Plan} {branch : String → Option Int} {ref : EdgeRef}
    (live : LiveEdge plan branch ref) : ref ∈ plan.edges := by
  cases live with
  | first known _ _ => exact known
  | next _ known _ _ => exact known

def Resolved (completed dead : List String) (node : String) : Prop :=
  node ∈ completed ∨ node ∈ dead

instance (completed dead : List String) (node : String) :
    Decidable (Resolved completed dead node) :=
  inferInstanceAs (Decidable (_ ∨ _))

/-! ### What the tokens stand for -/

def verdict (branch : String → Option Int) (completed : List String) (ref : EdgeRef) : Token :=
  if ref.source ∈ completed ∧ chosen branch ref = true then .live else .dead

def delivered (branch : String → Option Int) (completed dead : List String)
    (pending : List EdgeRef) (ref : EdgeRef) : Option Token :=
  if ref ∉ pending ∧ Resolved completed dead ref.source then some (verdict branch completed ref)
  else none

def loggedIds (log : List (ReadyNode α)) : List String := log.map ReadyNode.nodeId

def liveIn (plan : Plan) (branch : String → Option Int) (completed dead : List String)
    (pending : List EdgeRef) (node : String) : List EdgeRef :=
  (plan.forwardIn node).filter
    (fun ref => decide (delivered branch completed dead pending ref = some .live))

/-- The invariant between two deliveries. -/
structure Wave (plan : Plan) (behaviour : Behaviour α) (completed : List String)
    (log : List (ReadyNode α)) (pending : List EdgeRef) (state : State α) : Prop where
  distinctPending : pending.Nodup
  pendingResolved : ∀ ref ∈ pending,
    ref ∈ plan.edges ∧ Resolved completed state.dead ref.source
  tokenKeys : ∀ node, (state.tokens node).keys ⊆ plan.forwardIn node
  waiting : ∀ node, node ∉ loggedIds log → node ∉ state.dead → ∀ ref ∈ plan.forwardIn node,
    (state.tokens node).lookup ref =
      delivered behaviour.branch completed state.dead pending ref
  unsaturated : ∀ node, node ∉ loggedIds log → node ∉ state.dead → plan.forwardIn node ≠ [] →
    ∃ ref ∈ plan.forwardIn node,
      delivered behaviour.branch completed state.dead pending ref = none
  closed : ∀ node, node ∈ loggedIds log ∨ node ∈ state.dead → ∀ ref ∈ plan.forwardIn node,
    delivered behaviour.branch completed state.dead pending ref ≠ none
  starved : ∀ node ∈ state.dead, plan.forwardIn node ≠ [] ∧
    liveIn plan behaviour.branch completed state.dead pending node = []
  apart : ∀ node ∈ loggedIds log, node ∉ state.dead
  once : (loggedIds log).Nodup
  started : plan.start ∈ loggedIds log
  ran : completed ⊆ loggedIds log
  fed : ∀ entry ∈ log, entry = ⟨plan.start, Dict.empty⟩ ∨
    (liveIn plan behaviour.branch completed state.dead pending entry.nodeId ≠ [] ∧
      entry.inputData = mergeOutputs state
        (liveIn plan behaviour.branch completed state.dead pending entry.nodeId))
  recorded : ∀ entry ∈ log, entry.nodeId ∈ completed →
    state.nodeOutputs entry.nodeId = some (behaviour.output entry.nodeId entry.inputData)

/-! ### One delivery -/

section Delivery

variable {branch : String → Option Int} {completed dead : List String}

theorem delivered_pending {pending : List EdgeRef} {ref : EdgeRef} (member : ref ∈ pending) :
    delivered branch completed dead pending ref = none :=
  if_neg (fun both => both.1 member)

theorem delivered_eq_some {pending : List EdgeRef} {ref : EdgeRef} {status : Token}
    (found : delivered branch completed dead pending ref = some status) :
    ref ∉ pending ∧ Resolved completed dead ref.source ∧
      status = verdict branch completed ref := by
  unfold delivered at found
  split at found
  case isTrue both => exact ⟨both.1, both.2, (Option.some.inj found).symm⟩
  case isFalse => cases found

theorem delivered_live {pending : List EdgeRef} {ref : EdgeRef}
    (found : delivered branch completed dead pending ref = some .live) :
    ref.source ∈ completed ∧ chosen branch ref = true := by
  have live := (delivered_eq_some found).2.2
  unfold verdict at live
  split at live
  case isTrue both => exact both
  case isFalse => cases live

theorem delivered_cons {pending : List EdgeRef} {ref : EdgeRef} (fresh : ref ∉ pending)
    (resolved : Resolved completed dead ref.source) (other : EdgeRef) :
    delivered branch completed dead pending other =
      if ref = other then some (verdict branch completed other)
      else delivered branch completed dead (ref :: pending) other := by
  by_cases same : ref = other
  · subst same
    rw [if_pos rfl]
    exact if_pos ⟨fresh, resolved⟩
  · have swapped : ¬ other = ref := fun equal => same equal.symm
    simp only [delivered, List.mem_cons, swapped, same, false_or, if_false]

theorem delivered_cons_of_ne {pending : List EdgeRef} {ref : EdgeRef} (fresh : ref ∉ pending)
    (resolved : Resolved completed dead ref.source) {other : EdgeRef} (different : ref ≠ other) :
    delivered branch completed dead pending other =
      delivered branch completed dead (ref :: pending) other := by
  rw [delivered_cons fresh resolved, if_neg different]

theorem delivered_mono {pending : List EdgeRef} {ref : EdgeRef} (fresh : ref ∉ pending)
    (resolved : Resolved completed dead ref.source) {other : EdgeRef}
    (present : delivered branch completed dead (ref :: pending) other ≠ none) :
    delivered branch completed dead pending other =
      delivered branch completed dead (ref :: pending) other := by
  apply delivered_cons_of_ne fresh resolved
  intro same
  subst same
  exact present (delivered_pending List.mem_cons_self)

theorem delivered_die (plan : Plan) (noBack : plan.backEdges = []) {pending : List EdgeRef}
    {node : String} (unfinished : node ∉ completed) (alive : node ∉ dead) {ref : EdgeRef}
    (known : ref ∈ plan.edges) :
    delivered branch completed (dead ++ [node]) (plan.forwardOut node ++ pending) ref =
      delivered branch completed dead pending ref := by
  by_cases same : ref.source = node
  · have outgoing : ref ∈ plan.forwardOut node := by
      apply (plan.mem_forwardOut _ _).mpr
      refine ⟨known, same, ?_⟩
      rw [noBack]
      exact List.not_mem_nil
    rw [delivered_pending (List.mem_append_left _ outgoing)]
    symm
    apply if_neg
    intro both
    rw [same] at both
    exact both.2.elim unfinished alive
  · have elsewhere : ref ∉ plan.forwardOut node :=
      fun member => same ((plan.mem_forwardOut _ _).mp member).2.1
    apply if_congr _ rfl rfl
    simp only [Resolved, List.mem_append, List.mem_singleton, elsewhere, same, false_or, or_false]

theorem liveIn_congr (plan : Plan) {earlier later : List String} {waiting pending : List EdgeRef}
    {finished : List String} {node : String}
    (same : ∀ ref ∈ plan.forwardIn node,
      delivered branch completed earlier waiting ref =
        delivered branch finished later pending ref) :
    liveIn plan branch completed earlier waiting node =
      liveIn plan branch finished later pending node := by
  apply List.filter_congr
  intro ref member
  rw [same ref member]

end Delivery

section Settling

variable {plan : Plan} {behaviour : Behaviour α} {completed : List String}
variable {log : List (ReadyNode α)} {pending : List EdgeRef} {ref : EdgeRef} {state : State α}

namespace Wave

section

variable (wave : Wave plan behaviour completed log (ref :: pending) state)
include wave

theorem fresh : ref ∉ pending :=
  (List.nodup_cons.mp wave.distinctPending).1

theorem resolved : Resolved completed state.dead ref.source :=
  (wave.pendingResolved ref List.mem_cons_self).2

section

variable (noBack : plan.backEdges = [])
include noBack

theorem gated : ref ∈ plan.forwardIn ref.target := by
  apply (plan.mem_forwardIn _ _).mpr
  refine ⟨(wave.pendingResolved ref List.mem_cons_self).1, rfl, ?_⟩
  rw [noBack]
  exact List.not_mem_nil

theorem targetOpen : ref.target ∉ loggedIds log ∧ ref.target ∉ state.dead := by
  have undelivered := wave.closed ref.target
  constructor
  · intro member
    exact undelivered (Or.inl member) ref (wave.gated noBack) (delivered_pending List.mem_cons_self)
  · intro member
    exact undelivered (Or.inr member) ref (wave.gated noBack) (delivered_pending List.mem_cons_self)

theorem lookup_put (other : EdgeRef) (member : other ∈ plan.forwardIn ref.target) :
    ((state.tokens ref.target).set ref (verdict behaviour.branch completed ref)).lookup other =
      delivered behaviour.branch completed state.dead pending other := by
  obtain ⟨unfired, alive⟩ := wave.targetOpen noBack
  rw [Dict.lookup_set, delivered_cons wave.fresh wave.resolved]
  by_cases same : ref = other
  · subst same
    rw [if_pos rfl, if_pos rfl]
  · rw [if_neg same, if_neg same]
    exact wave.waiting ref.target unfired alive other member

theorem liveSources_eq :
    liveSources plan ref.target
        ((state.tokens ref.target).set ref (verdict behaviour.branch completed ref)) =
      liveIn plan behaviour.branch completed state.dead pending ref.target := by
  apply List.filter_congr
  intro other member
  rw [wave.lookup_put noBack other member]

theorem allDelivered (full : (plan.forwardIn ref.target).length ≤
      ((state.tokens ref.target).set ref (verdict behaviour.branch completed ref)).size) :
    ∀ other ∈ plan.forwardIn ref.target,
      delivered behaviour.branch completed state.dead pending other ≠ none := by
  intro other member
  rw [← wave.lookup_put noBack other member]
  exact present_of_full _ _ (keys_set_subset _ _ _ _ (wave.tokenKeys _) (wave.gated noBack)) full
    other member

end

private theorem elsewhere {node : String} (different : node ≠ ref.target) {other : EdgeRef}
    (member : other ∈ plan.forwardIn node) :
    delivered behaviour.branch completed state.dead pending other =
      delivered behaviour.branch completed state.dead (ref :: pending) other := by
  apply delivered_cons_of_ne wave.fresh wave.resolved
  intro same
  subst same
  exact different ((plan.mem_forwardIn _ _).mp member).2.1.symm

private theorem liveIn_kept {node : String} (shut : node ∈ loggedIds log ∨ node ∈ state.dead) :
    liveIn plan behaviour.branch completed state.dead pending node =
      liveIn plan behaviour.branch completed state.dead (ref :: pending) node := by
  apply liveIn_congr
  intro other member
  exact delivered_mono wave.fresh wave.resolved (wave.closed node shut other member)

/-- Delivering to a node that stays open. -/
theorem wait (noBack : plan.backEdges = []) (missing : ((state.tokens ref.target).set ref
      (verdict behaviour.branch completed ref)).size < (plan.forwardIn ref.target).length) :
    Wave plan behaviour completed log pending
      (state.putToken ref (verdict behaviour.branch completed ref)) where
  distinctPending := (List.nodup_cons.mp wave.distinctPending).2
  pendingResolved := fun other member =>
    wave.pendingResolved other (List.mem_cons_of_mem _ member)
  tokenKeys := by
    intro node
    by_cases same : node = ref.target
    · subst same
      rw [State.putToken, State.setTokens_self]
      exact keys_set_subset _ _ _ _ (wave.tokenKeys _) (wave.gated noBack)
    · rw [State.putToken, State.setTokens_of_ne _ _ same]
      exact wave.tokenKeys node
  waiting := by
    intro node unfired alive other member
    by_cases same : node = ref.target
    · subst same
      rw [State.putToken, State.setTokens_self]
      exact wave.lookup_put noBack other member
    · rw [State.putToken, State.setTokens_of_ne _ _ same, State.setTokens_dead,
        wave.elsewhere same member]
      exact wave.waiting node unfired alive other member
  unsaturated := by
    intro node unfired alive nonempty
    by_cases same : node = ref.target
    · subst same
      obtain ⟨other, member, absent⟩ :=
        exists_missing _ _ (plan.forwardIn_nodup ref.target) missing
      rw [wave.lookup_put noBack other member] at absent
      exact ⟨other, member, absent⟩
    · obtain ⟨other, member, absent⟩ := wave.unsaturated node unfired alive nonempty
      refine ⟨other, member, ?_⟩
      rw [State.putToken, State.setTokens_dead, wave.elsewhere same member]
      exact absent
  closed := by
    intro node shut other member
    have present := wave.closed node shut other member
    rw [State.putToken, State.setTokens_dead, delivered_mono wave.fresh wave.resolved present]
    exact present
  starved := by
    intro node dead
    obtain ⟨nonempty, silent⟩ := wave.starved node dead
    exact ⟨nonempty, (wave.liveIn_kept (Or.inr dead)).trans silent⟩
  apart := wave.apart
  once := wave.once
  started := wave.started
  ran := wave.ran
  fed := by
    intro entry member
    rw [State.putToken, State.setTokens_dead, wave.liveIn_kept (Or.inl (List.mem_map_of_mem member))]
    exact wave.fed entry member
  recorded := wave.recorded

section

variable (noBack : plan.backEdges = [])
  (full : (plan.forwardIn ref.target).length ≤
    ((state.tokens ref.target).set ref (verdict behaviour.branch completed ref)).size)
include noBack full

theorem fire (alive : liveIn plan behaviour.branch completed state.dead pending ref.target ≠ []) :
    Wave plan behaviour completed
      (log ++ [⟨ref.target, mergeOutputs state
        (liveIn plan behaviour.branch completed state.dead pending ref.target)⟩]) pending
      (state.setTokens ref.target Dict.empty) where
  distinctPending := (List.nodup_cons.mp wave.distinctPending).2
  pendingResolved := fun other member =>
    wave.pendingResolved other (List.mem_cons_of_mem _ member)
  tokenKeys := by
    intro node
    by_cases same : node = ref.target
    · subst same
      rw [State.setTokens_self]
      exact List.nil_subset _
    · rw [State.setTokens_of_ne _ _ same]
      exact wave.tokenKeys node
  waiting := by
    intro node unfired living other member
    simp only [loggedIds, List.map_append, List.map_cons, List.map_nil, List.mem_append,
      List.mem_singleton, not_or] at unfired
    rw [State.setTokens_of_ne _ _ unfired.2, State.setTokens_dead, wave.elsewhere unfired.2 member]
    exact wave.waiting node unfired.1 living other member
  unsaturated := by
    intro node unfired living nonempty
    simp only [loggedIds, List.map_append, List.map_cons, List.map_nil, List.mem_append,
      List.mem_singleton, not_or] at unfired
    obtain ⟨other, member, absent⟩ := wave.unsaturated node unfired.1 living nonempty
    refine ⟨other, member, ?_⟩
    rw [State.setTokens_dead, wave.elsewhere unfired.2 member]
    exact absent
  closed := by
    intro node shut other member
    by_cases same : node = ref.target
    · subst same
      exact wave.allDelivered noBack full other member
    · have before : node ∈ loggedIds log ∨ node ∈ state.dead := by
        simpa [loggedIds, same] using shut
      have present := wave.closed node before other member
      rw [State.setTokens_dead, delivered_mono wave.fresh wave.resolved present]
      exact present
  starved := by
    intro node dead
    obtain ⟨nonempty, silent⟩ := wave.starved node dead
    exact ⟨nonempty, (wave.liveIn_kept (Or.inr dead)).trans silent⟩
  apart := by
    intro node member
    simp only [loggedIds, List.map_append, List.map_cons, List.map_nil, List.mem_append,
      List.mem_singleton] at member
    rcases member with old | same
    · exact wave.apart node old
    · rw [same]
      exact (wave.targetOpen noBack).2
  once := by
    have extended := wave.once.concat (wave.targetOpen noBack).1
    rw [List.concat_eq_append] at extended
    rw [loggedIds, List.map_append]
    exact extended
  started := by
    rw [loggedIds, List.map_append]
    exact List.mem_append_left _ wave.started
  ran := by
    rw [loggedIds, List.map_append]
    exact fun node member => List.mem_append_left _ (wave.ran member)
  fed := by
    intro entry member
    rcases List.mem_append.mp member with old | new
    · rw [State.setTokens_dead, wave.liveIn_kept (Or.inl (List.mem_map_of_mem old))]
      exact wave.fed entry old
    · rw [List.mem_singleton.mp new]
      exact Or.inr ⟨alive, rfl⟩
  recorded := by
    intro entry member finished
    rcases List.mem_append.mp member with old | new
    · exact wave.recorded entry old finished
    · rw [List.mem_singleton.mp new] at finished
      exact absurd (wave.ran finished) (wave.targetOpen noBack).1

theorem die (silent : liveIn plan behaviour.branch completed state.dead pending ref.target = []) :
    Wave plan behaviour completed log (plan.forwardOut ref.target ++ pending)
      ((state.setTokens ref.target Dict.empty).markDead ref.target) := by
  obtain ⟨unfired, alive⟩ := wave.targetOpen noBack
  have unfinished : ref.target ∉ completed := fun member => unfired (wave.ran member)
  have dies : ∀ node, ∀ other ∈ plan.forwardIn node,
      delivered behaviour.branch completed (state.dead ++ [ref.target])
        (plan.forwardOut ref.target ++ pending) other =
      delivered behaviour.branch completed state.dead pending other := by
    intro node other member
    exact delivered_die plan noBack unfinished alive ((plan.mem_forwardIn _ _).mp member).1
  have liveKept : ∀ node,
      liveIn plan behaviour.branch completed (state.dead ++ [ref.target])
        (plan.forwardOut ref.target ++ pending) node =
      liveIn plan behaviour.branch completed state.dead pending node :=
    fun node => liveIn_congr plan (dies node)
  constructor
  case distinctPending =>
    apply (plan.forwardOut_nodup _).append (List.nodup_cons.mp wave.distinctPending).2
    intro other outgoing member
    have resolved := (wave.pendingResolved other (List.mem_cons_of_mem _ member)).2
    rw [((plan.mem_forwardOut _ _).mp outgoing).2.1] at resolved
    exact resolved.elim unfinished alive
  case pendingResolved =>
    intro other member
    rcases List.mem_append.mp member with outgoing | old
    · obtain ⟨known, source, _⟩ := (plan.mem_forwardOut _ _).mp outgoing
      refine ⟨known, Or.inr ?_⟩
      rw [source]
      exact List.mem_append_right _ List.mem_cons_self
    · obtain ⟨known, resolved⟩ := wave.pendingResolved other (List.mem_cons_of_mem _ old)
      exact ⟨known, resolved.imp id (fun dead => List.mem_append_left _ dead)⟩
  case tokenKeys =>
    intro node
    by_cases same : node = ref.target
    · subst same
      simp only [State.markDead, State.setTokens_self]
      exact List.nil_subset _
    · simp only [State.markDead, State.setTokens_of_ne _ _ same]
      exact wave.tokenKeys node
  case waiting =>
    intro node unlogged living other member
    simp only [State.markDead, State.setTokens_dead, List.mem_append, List.mem_singleton,
      not_or] at living
    simp only [State.markDead, State.setTokens_of_ne _ _ living.2, State.setTokens_dead]
    rw [dies node other member, wave.elsewhere living.2 member]
    exact wave.waiting node unlogged living.1 other member
  case unsaturated =>
    intro node unlogged living nonempty
    simp only [State.markDead, State.setTokens_dead, List.mem_append, List.mem_singleton,
      not_or] at living
    obtain ⟨other, member, absent⟩ := wave.unsaturated node unlogged living.1 nonempty
    refine ⟨other, member, ?_⟩
    simp only [State.markDead, State.setTokens_dead]
    rw [dies node other member, wave.elsewhere living.2 member]
    exact absent
  case closed =>
    intro node shut other member
    simp only [State.markDead, State.setTokens_dead] at shut ⊢
    rw [dies node other member]
    by_cases same : node = ref.target
    · subst same
      exact wave.allDelivered noBack full other member
    · have before : node ∈ loggedIds log ∨ node ∈ state.dead := by
        simpa [same] using shut
      have present := wave.closed node before other member
      rw [delivered_mono wave.fresh wave.resolved present]
      exact present
  case starved =>
    intro node dead
    simp only [State.markDead, State.setTokens_dead] at dead ⊢
    rw [liveKept]
    rcases List.mem_append.mp dead with old | new
    · obtain ⟨nonempty, quiet⟩ := wave.starved node old
      exact ⟨nonempty, (wave.liveIn_kept (Or.inr old)).trans quiet⟩
    · rw [List.mem_singleton.mp new]
      exact ⟨List.ne_nil_of_mem (wave.gated noBack), silent⟩
  case apart =>
    intro node member
    simp only [State.markDead, State.setTokens_dead, List.mem_append, List.mem_singleton, not_or]
    refine ⟨wave.apart node member, ?_⟩
    intro same
    rw [same] at member
    exact unfired member
  case once => exact wave.once
  case started => exact wave.started
  case ran => exact wave.ran
  case fed =>
    intro entry member
    simp only [State.markDead, State.setTokens_dead]
    rw [liveKept, wave.liveIn_kept (Or.inl (List.mem_map_of_mem member))]
    exact wave.fed entry member
  case recorded => exact wave.recorded

end

end

end Wave

end Settling

/-! ### One completion -/

def signalOf (branch : String → Option Int) (completed : List String) (ref : EdgeRef) : Signal :=
  .token ref (verdict branch completed ref)

private theorem map_signalOf_dead (branch : String → Option Int) {completed : List String}
    (refs : List EdgeRef) (unfinished : ∀ ref ∈ refs, ref.source ∉ completed) :
    refs.map (fun ref => Signal.token ref .dead) = refs.map (signalOf branch completed) := by
  apply List.map_congr_left
  intro ref member
  rw [signalOf, verdict, if_neg (fun both => unfinished ref member both.1)]

theorem Wave.settled {plan : Plan} {behaviour : Behaviour α} {completed : List String}
    {log : List (ReadyNode α)} {pending : List EdgeRef} {ref : EdgeRef}
    {progress after : Progress α} (noBack : plan.backEdges = [])
    (wave : Wave plan behaviour completed (log ++ progress.ready) (ref :: pending) progress.state)
    (settled : Settled plan ref (verdict behaviour.branch completed ref) progress after) :
    ∃ fallen : List EdgeRef,
      fallout plan ref.target progress.state.dead after.state.dead =
        fallen.map (signalOf behaviour.branch completed) ∧
      Wave plan behaviour completed (log ++ after.ready) (fallen ++ pending) after.state := by
  obtain ⟨unfired, alive⟩ := wave.targetOpen noBack
  have quiet := fallout_of_subset plan ref.target progress.state.dead progress.state.dead
    (List.Subset.refl _)
  cases settled with
  | waiting missing => exact ⟨[], quiet, wave.wait noBack missing⟩
  | fires full awake =>
      rw [wave.liveSources_eq noBack] at awake ⊢
      refine ⟨[], quiet, ?_⟩
      rw [← List.append_assoc]
      exact wave.fire noBack full awake
  | dies full pruned =>
      rw [wave.liveSources_eq noBack] at pruned
      refine ⟨plan.forwardOut ref.target, ?_, ?_⟩
      · have fallen := fallout_kill plan ref.target
          { progress with state := progress.state.setTokens ref.target Dict.empty }
        refine (fallen.trans (if_neg alive)).trans ?_
        apply map_signalOf_dead
        intro other outgoing
        rw [((plan.mem_forwardOut _ _).mp outgoing).2.1]
        exact fun member => unfired (wave.ran member)
      · have killed : kill ref.target
            { progress with state := progress.state.setTokens ref.target Dict.empty } =
            { progress with
              state := (progress.state.setTokens ref.target Dict.empty).markDead ref.target } :=
          if_neg alive
        rw [killed]
        exact wave.die noBack full pruned

theorem Wave.cascade {plan : Plan} {behaviour : Behaviour α} {completed : List String}
    {log : List (ReadyNode α)} {output : Dict String α} {agenda : List Signal}
    {progress last : Progress α} (noBack : plan.backEdges = [])
    (cascade : Cascade plan output agenda progress last) (pending : List EdgeRef)
    (same : agenda = pending.map (signalOf behaviour.branch completed))
    (wave : Wave plan behaviour completed (log ++ progress.ready) pending progress.state) :
    Wave plan behaviour completed (log ++ last.ready) [] last.state := by
  induction cascade generalizing pending with
  | done progress =>
      cases pending with
      | nil => exact wave
      | cons ref rest => cases same
  | token _ ih =>
      cases pending with
      | nil => cases same
      | cons ref pending =>
          rw [List.map_cons, signalOf] at same
          injection same with first rest
          injection first with sameRef sameStatus
          subst sameRef
          subst sameStatus
          obtain ⟨fallen, equal, next⟩ := wave.settled noBack
            (settle_settled plan _ _ _ (wave.gated noBack))
          apply ih (fallen ++ pending) _ next
          rw [equal, rest, List.map_append]
  | reactivate _ _ =>
      cases pending with
      | nil => cases same
      | cons ref pending => cases same

def completionEdges (plan : Plan) (node : String) : Option Int → List EdgeRef
  | none => plan.out node
  | some index => selectedEdges plan node index ++ rejectedEdges plan node index

theorem completionEdges_perm (plan : Plan) (noBack : plan.backEdges = []) (node : String)
    (branchIndex : Option Int) :
    (completionEdges plan node branchIndex).Perm (plan.out node) := by
  cases branchIndex with
  | none => exact List.Perm.refl _
  | some index =>
      have forward : plan.forwardOut node = plan.out node := by
        simp [Plan.forwardOut, Plan.isBack, noBack]
      have split := List.filter_append_perm
        (fun ref : EdgeRef =>
          decide (ref.edge.sourceHandle = some (sourceHandleOf node index))) (plan.out node)
      apply List.Perm.trans _ split
      apply List.Perm.append_left
      rw [rejectedEdges, forward]
      apply List.Perm.of_eq
      apply List.filter_congr
      intro ref outgoing
      simp [selectedEdges, outgoing]

theorem completionSignals_eq (plan : Plan) (noBack : plan.backEdges = [])
    (branch : String → Option Int) (completed : List String) (node : String) :
    completionSignals plan node (branch node) =
      (completionEdges plan node (branch node)).map
        (signalOf branch (completed ++ [node])) := by
  have forward : ∀ ref, followSignal plan ref = Signal.token ref .live := by
    intro ref
    simp [followSignal, Plan.isBack, noBack]
  have finished : node ∈ completed ++ [node] := List.mem_append_right _ List.mem_cons_self
  cases choice : branch node with
  | none =>
      apply List.map_congr_left
      intro ref outgoing
      have source := ((plan.mem_out _ _).mp outgoing).2
      simp [forward, signalOf, verdict, chosen, source, choice]
  | some index =>
      have noneBack : (selectedEdges plan node index).any plan.isBack = false := by
        simp [Plan.isBack, noBack]
      simp only [completionSignals, completionEdges, noneBack, Bool.false_eq_true, if_false,
        List.map_append]
      apply congrArg₂
      · apply List.map_congr_left
        intro ref member
        obtain ⟨outgoing, handle⟩ := List.mem_filter.mp member
        have source := ((plan.mem_out _ _).mp outgoing).2
        have onHandle := of_decide_eq_true handle
        simp [forward, signalOf, verdict, chosen, source, choice, onHandle]
      · apply List.map_congr_left
        intro ref member
        obtain ⟨outgoing, aside⟩ := List.mem_filter.mp member
        obtain ⟨known, source, _⟩ := (plan.mem_forwardOut _ _).mp outgoing
        have offHandle : ref.edge.sourceHandle ≠ some (sourceHandleOf node index) := by
          intro onHandle
          exact of_decide_eq_true aside
            (List.mem_filter.mpr ⟨(plan.mem_out _ _).mpr ⟨known, source⟩, decide_eq_true onHandle⟩)
        simp [signalOf, verdict, chosen, source, choice, offHandle]

theorem mergeOutputs_recordOutput (state : State α) (node : String) (output : Dict String α)
    (refs : List EdgeRef) (elsewhere : ∀ ref ∈ refs, ref.source ≠ node) :
    mergeOutputs (state.recordOutput node output) refs = mergeOutputs state refs := by
  unfold mergeOutputs
  apply List.foldl_ext
  intro merged ref member
  simp only [State.recordOutput, if_neg (elsewhere ref member)]

theorem delivered_record (plan : Plan) (branch : String → Option Int) {completed dead : List String}
    {edges : List EdgeRef} {node : String} (own : edges.Perm (plan.out node))
    (unfinished : node ∉ completed) (alive : node ∉ dead) {ref : EdgeRef}
    (known : ref ∈ plan.edges) :
    delivered branch (completed ++ [node]) dead edges ref =
      delivered branch completed dead [] ref := by
  by_cases same : ref.source = node
  · have outgoing : ref ∈ edges := own.mem_iff.mpr ((plan.mem_out _ _).mpr ⟨known, same⟩)
    rw [delivered_pending outgoing]
    symm
    apply if_neg
    intro both
    rw [same] at both
    exact both.2.elim unfinished alive
  · have elsewhere : ref ∉ edges :=
      fun member => same ((plan.mem_out _ _).mp (own.mem_iff.mp member)).2
    simp only [delivered, verdict]
    apply if_congr
    · simp only [Resolved, List.mem_append, List.mem_singleton, elsewhere, same, or_false,
        List.not_mem_nil]
    · simp only [List.mem_append, List.mem_singleton, same, or_false]
    · rfl

theorem Wave.record {plan : Plan} {behaviour : Behaviour α} {completed : List String}
    {log : List (ReadyNode α)} {state : State α} {edges : List EdgeRef} {entry : ReadyNode α}
    (wave : Wave plan behaviour completed log [] state)
    (own : edges.Perm (plan.out entry.nodeId)) (logged : entry ∈ log)
    (unfinished : entry.nodeId ∉ completed) :
    Wave plan behaviour (completed ++ [entry.nodeId]) log edges
      (state.recordOutput entry.nodeId (behaviour.output entry.nodeId entry.inputData)) := by
  have listed : entry.nodeId ∈ loggedIds log := List.mem_map_of_mem logged
  have alive := wave.apart entry.nodeId listed
  have kept : ∀ node, ∀ ref ∈ plan.forwardIn node,
      delivered behaviour.branch (completed ++ [entry.nodeId]) state.dead edges ref =
        delivered behaviour.branch completed state.dead [] ref := by
    intro node ref member
    exact delivered_record plan behaviour.branch own unfinished alive
      ((plan.mem_forwardIn _ _).mp member).1
  have liveKept : ∀ node,
      liveIn plan behaviour.branch (completed ++ [entry.nodeId]) state.dead edges node =
        liveIn plan behaviour.branch completed state.dead [] node :=
    fun node => liveIn_congr plan (kept node)
  constructor
  case distinctPending =>
    apply own.nodup_iff.mpr
    exact plan.graph.distinct entry.nodeId
  case pendingResolved =>
    intro ref member
    obtain ⟨known, source⟩ := (plan.mem_out _ _).mp (own.mem_iff.mp member)
    refine ⟨known, Or.inl ?_⟩
    rw [source]
    exact List.mem_append_right _ List.mem_cons_self
  case tokenKeys => exact wave.tokenKeys
  case waiting =>
    intro node unlogged living ref member
    change _ = delivered behaviour.branch (completed ++ [entry.nodeId]) state.dead edges ref
    rw [kept node ref member]
    exact wave.waiting node unlogged living ref member
  case unsaturated =>
    intro node unlogged living nonempty
    obtain ⟨ref, member, absent⟩ := wave.unsaturated node unlogged living nonempty
    exact ⟨ref, member, (kept node ref member).trans absent⟩
  case closed =>
    intro node shut ref member absent
    exact wave.closed node shut ref member ((kept node ref member).symm.trans absent)
  case starved =>
    intro node dead
    obtain ⟨nonempty, silent⟩ := wave.starved node dead
    exact ⟨nonempty, (liveKept node).trans silent⟩
  case apart => exact wave.apart
  case once => exact wave.once
  case started => exact wave.started
  case ran =>
    intro node member
    rcases List.mem_append.mp member with old | new
    · exact wave.ran old
    · rw [List.mem_singleton.mp new]
      exact listed
  case fed =>
    intro other member
    change _ ∨ liveIn plan behaviour.branch (completed ++ [entry.nodeId]) state.dead edges
      other.nodeId ≠ [] ∧ other.inputData = mergeOutputs _
        (liveIn plan behaviour.branch (completed ++ [entry.nodeId]) state.dead edges other.nodeId)
    rw [liveKept, mergeOutputs_recordOutput]
    · exact wave.fed other member
    · intro ref live same
      have source := (delivered_live (of_decide_eq_true (List.mem_filter.mp live).2)).1
      rw [same] at source
      exact unfinished source
  case recorded =>
    intro other member finished
    by_cases same : other.nodeId = entry.nodeId
    · have equal : other = entry := List.inj_on_of_nodup_map wave.once member logged same
      subst equal
      exact if_pos rfl
    · have before : other.nodeId ∈ completed := by
        simpa [same] using finished
      exact (if_neg same).trans (wave.recorded other member before)

/-! ### Runs -/

/-- What every reachable drive satisfies: the wave is settled, and each logged node is either
in flight or completed, once. -/
structure Drive.Sound (plan : Plan) (behaviour : Behaviour α) (drive : Drive α) : Prop where
  wave : Wave plan behaviour drive.completed drive.fired [] drive.state
  logged : drive.inFlight ⊆ drive.fired
  balance : (loggedIds drive.inFlight ++ drive.completed).Perm (loggedIds drive.fired)

theorem Drive.initial_sound (plan : Plan) (behaviour : Behaviour α)
    (rootFree : plan.forwardIn plan.start = []) :
    (Drive.initial plan : Drive α).Sound plan behaviour := by
  have undelivered : ∀ ref, delivered behaviour.branch [] [] [] ref = none := by
    intro ref
    apply if_neg
    intro both
    exact both.2.elim List.not_mem_nil List.not_mem_nil
  refine ⟨?_, List.Subset.refl _, List.Perm.refl _⟩
  constructor
  case distinctPending => exact List.nodup_nil
  case pendingResolved => exact fun _ member => absurd member List.not_mem_nil
  case tokenKeys => exact fun _ => List.nil_subset _
  case waiting => exact fun _ _ _ ref _ => (undelivered ref).symm
  case unsaturated =>
    intro node _ _ nonempty
    obtain ⟨ref, member⟩ := List.exists_mem_of_ne_nil _ nonempty
    exact ⟨ref, member, undelivered ref⟩
  case closed =>
    intro node shut ref member
    rcases shut with logged | dead
    · rw [List.mem_singleton.mp logged] at member
      change ref ∈ plan.forwardIn plan.start at member
      rw [rootFree] at member
      cases member
    · cases dead
  case starved => exact fun _ member => absurd member List.not_mem_nil
  case apart => exact fun _ _ => List.not_mem_nil
  case once => exact List.nodup_singleton _
  case started => exact List.mem_cons_self
  case ran => exact List.nil_subset _
  case fed =>
    intro entry member
    exact Or.inl (List.mem_singleton.mp member)
  case recorded => exact fun _ _ finished => absurd finished List.not_mem_nil

theorem complete_of_sink (plan : Plan) (state : State α) (node : String) (output : Dict String α)
    (branchIndex : Option Int) (isTerminal : Bool)
    (sink : isTerminal = true → plan.out node = []) :
    complete plan state node output branchIndex isTerminal =
      complete plan state node output branchIndex false := by
  cases isTerminal with
  | false => rfl
  | true => simp [complete, sink rfl]

theorem Drive.Sound.step {plan : Plan} {behaviour : Behaviour α} {drive next : Drive α}
    {position : Nat} (noBack : plan.backEdges = [])
    (sinks : ∀ node, behaviour.terminal node = true → plan.out node = [])
    (sound : drive.Sound plan behaviour) (taken : drive.Step plan behaviour position next) :
    next.Sound plan behaviour := by
  obtain ⟨entry, found, rfl⟩ := taken
  have inFlight : entry ∈ drive.inFlight := List.mem_of_getElem? found
  have logged := sound.logged inFlight
  have distinct := sound.balance.nodup_iff.mpr sound.wave.once
  have unfinished : entry.nodeId ∉ drive.completed := by
    intro member
    exact (List.nodup_append.mp distinct).2.2 _ (List.mem_map_of_mem inFlight) _ member rfl
  obtain ⟨bound, atPosition⟩ := List.getElem?_eq_some_iff.mp found
  have apart : (entry :: drive.inFlight.eraseIdx position).Perm drive.inFlight := by
    rw [← atPosition]
    exact List.getElem_cons_eraseIdx_perm bound
  have recorded := sound.wave.record
    (completionEdges_perm plan noBack entry.nodeId (behaviour.branch entry.nodeId)) logged unfinished
  rw [← List.append_nil drive.fired] at recorded
  have settled := Wave.cascade noBack
    (completeProgress_cascade plan drive.state entry.nodeId
      (behaviour.output entry.nodeId entry.inputData) (behaviour.branch entry.nodeId))
    _ (completionSignals_eq plan noBack behaviour.branch drive.completed entry.nodeId) recorded
  obtain ⟨sameState, sameReady⟩ := complete_eq plan drive.state entry.nodeId
    (behaviour.output entry.nodeId entry.inputData) (behaviour.branch entry.nodeId)
  unfold Drive.finish
  rw [complete_of_sink _ _ _ _ _ _ (sinks entry.nodeId)]
  simp only [sameState, sameReady]
  refine ⟨settled, ?_, ?_⟩
  · intro other member
    rcases List.mem_append.mp member with rest | new
    · exact List.mem_append_left _ (sound.logged ((List.eraseIdx_subset) rest))
    · exact List.mem_append_right _ new
  · have ids := apart.map ReadyNode.nodeId
    have before := sound.balance
    rw [List.perm_iff_count] at ids before ⊢
    intro node
    have sameIds := ids node
    have sameBefore := before node
    simp only [loggedIds, List.map_append, List.map_cons, List.count_append, List.count_cons,
      List.count_nil] at sameIds sameBefore ⊢
    omega

/-! ### Acyclic graphs -/

/-- Nothing is in flight: every node returned as ready has completed. -/
structure Settling (plan : Plan) (behaviour : Behaviour α) (drive : Drive α) : Prop where
  wave : Wave plan behaviour drive.completed drive.fired [] drive.state
  idle : loggedIds drive.fired ⊆ drive.completed

theorem Drive.Sound.settling {plan : Plan} {behaviour : Behaviour α} {drive : Drive α}
    (sound : drive.Sound plan behaviour) (quiescent : drive.inFlight = []) :
    Settling plan behaviour drive := by
  refine ⟨sound.wave, ?_⟩
  have balance := sound.balance
  rw [quiescent] at balance
  exact balance.symm.subset

section Quiescence

variable {plan : Plan} {behaviour : Behaviour α} {drive : Drive α}

theorem delivered_of_resolved {branch : String → Option Int} {completed dead : List String}
    {ref : EdgeRef} (resolved : Resolved completed dead ref.source) :
    delivered branch completed dead [] ref = some (verdict branch completed ref) :=
  if_pos ⟨List.not_mem_nil, resolved⟩

private theorem forward_of_edge (noBack : plan.backEdges = []) {ref : EdgeRef}
    (member : ref ∈ plan.edges) : ref ∈ plan.forwardIn ref.target := by
  apply (plan.mem_forwardIn _ _).mpr
  refine ⟨member, rfl, ?_⟩
  rw [noBack]
  exact List.not_mem_nil

private theorem reaches_target {ref : EdgeRef} (member : ref ∈ plan.edges)
    (path : plan.graph.Reaches plan.start ref.source) :
    plan.graph.Reaches plan.start ref.target :=
  Relation.ReflTransGen.tail path ⟨ref, (plan.mem_out _ _).mpr ⟨member, rfl⟩, rfl⟩

private theorem exists_height_acyclic (noBack : plan.backEdges = [])
    (sources : ∀ ref ∈ plan.edges, plan.graph.Reaches plan.start ref.source) :
    ∃ height : String → Nat, ∀ ref ∈ plan.edges, height ref.source < height ref.target := by
  obtain ⟨height, climbs⟩ := plan.exists_height
  refine ⟨height, ?_⟩
  intro ref member
  apply climbs ref member _ (sources ref member)
  rw [noBack]
  exact List.not_mem_nil

theorem Settling.resolved (settling : Settling plan behaviour drive)
    (noBack : plan.backEdges = [])
    (sources : ∀ ref ∈ plan.edges, plan.graph.Reaches plan.start ref.source)
    (node : String) (path : plan.graph.Reaches plan.start node) :
    Resolved drive.completed drive.state.dead node := by
  obtain ⟨height, climbs⟩ := exists_height_acyclic noBack sources
  induction level : height node using Nat.strong_induction_on generalizing node with
  | _ level ih =>
      by_cases logged : node ∈ loggedIds drive.fired
      · exact Or.inl (settling.idle logged)
      · by_cases dead : node ∈ drive.state.dead
        · exact Or.inr dead
        · have different : node ≠ plan.start := by
            intro same
            rw [same] at logged
            exact logged settling.wave.started
          obtain ⟨ref, member, absent⟩ := settling.wave.unsaturated node logged dead
            (plan.exists_forwardIn path different)
          obtain ⟨known, atTarget, _⟩ := (plan.mem_forwardIn _ _).mp member
          have lower := climbs ref known
          rw [atTarget, level] at lower
          have earlier := ih (height ref.source) lower ref.source (sources ref known) rfl
          rw [delivered_of_resolved earlier] at absent
          cases absent

theorem Wave.liveEdge {completed : List String} {log : List (ReadyNode α)} {state : State α}
    (wave : Wave plan behaviour completed log [] state) (noBack : plan.backEdges = [])
    (sources : ∀ ref ∈ plan.edges, plan.graph.Reaches plan.start ref.source)
    (ref : EdgeRef) (member : ref ∈ plan.edges)
    (live : delivered behaviour.branch completed state.dead [] ref = some .live) :
    LiveEdge plan behaviour.branch ref := by
  obtain ⟨height, climbs⟩ := exists_height_acyclic noBack sources
  induction level : height ref.source using Nat.strong_induction_on generalizing ref with
  | _ level ih =>
      obtain ⟨finished, picked⟩ := delivered_live live
      obtain ⟨entry, logged, same⟩ := List.mem_map.mp (wave.ran finished)
      rcases wave.fed entry logged with first | ⟨fed, _⟩
      · rw [first] at same
        exact LiveEdge.first member same.symm picked
      · obtain ⟨earlier, present⟩ := List.exists_mem_of_ne_nil _ fed
        obtain ⟨incoming, carried⟩ := List.mem_filter.mp present
        obtain ⟨known, atTarget, _⟩ := (plan.mem_forwardIn _ _).mp incoming
        have lower := climbs earlier known
        rw [atTarget, same, level] at lower
        exact LiveEdge.next (ih _ lower earlier known (of_decide_eq_true carried) rfl) member
          (same.symm.trans atTarget.symm) picked

section

variable (settling : Settling plan behaviour drive) (noBack : plan.backEdges = [])
  (sources : ∀ ref ∈ plan.edges, plan.graph.Reaches plan.start ref.source)
include settling noBack sources

private theorem Settling.target_fired {ref : EdgeRef} (member : ref ∈ plan.edges)
    (live : delivered behaviour.branch drive.completed drive.state.dead [] ref = some .live) :
    ref.target ∈ drive.completed := by
  rcases settling.resolved noBack sources ref.target
    (reaches_target member (sources ref member)) with finished | dead
  · exact finished
  · have silent := (settling.wave.starved ref.target dead).2
    have carried : ref ∈ liveIn plan behaviour.branch drive.completed drive.state.dead []
        ref.target :=
      List.mem_filter.mpr ⟨forward_of_edge noBack member, decide_eq_true live⟩
    rw [silent] at carried
    cases carried

theorem Settling.delivered_live_iff (ref : EdgeRef) (member : ref ∈ plan.edges) :
    delivered behaviour.branch drive.completed drive.state.dead [] ref = some .live ↔
      LiveEdge plan behaviour.branch ref := by
  constructor
  · exact settling.wave.liveEdge noBack sources ref member
  · intro live
    clear member
    have carries : ∀ {edge : EdgeRef}, edge.source ∈ drive.completed →
        chosen behaviour.branch edge = true →
        delivered behaviour.branch drive.completed drive.state.dead [] edge = some .live := by
      intro edge finished picked
      rw [delivered_of_resolved (Or.inl finished), verdict, if_pos ⟨finished, picked⟩]
    induction live with
    | first _ atStart picked =>
        apply carries _ picked
        rw [atStart]
        exact settling.idle settling.wave.started
    | next earlier _ atTarget picked ih =>
        apply carries _ picked
        rw [atTarget]
        exact settling.target_fired noBack sources earlier.known ih

theorem Settling.fired_iff (node : String) :
    node ∈ loggedIds drive.fired ↔
      node = plan.start ∨ ∃ ref ∈ inEdges plan.edges node, LiveEdge plan behaviour.branch ref := by
  constructor
  · intro logged
    obtain ⟨entry, member, rfl⟩ := List.mem_map.mp logged
    rcases settling.wave.fed entry member with first | ⟨fed, _⟩
    · rw [first]
      exact Or.inl rfl
    · obtain ⟨ref, present⟩ := List.exists_mem_of_ne_nil _ fed
      obtain ⟨incoming, carried⟩ := List.mem_filter.mp present
      obtain ⟨known, atTarget, _⟩ := (plan.mem_forwardIn _ _).mp incoming
      refine Or.inr ⟨ref, List.mem_filter.mpr ⟨known, decide_eq_true atTarget⟩, ?_⟩
      exact settling.wave.liveEdge noBack sources ref known (of_decide_eq_true carried)
  · rintro (same | ⟨ref, incoming, live⟩)
    · rw [same]
      exact settling.wave.started
    · obtain ⟨known, atTarget⟩ := List.mem_filter.mp incoming
      rw [← of_decide_eq_true atTarget]
      apply settling.wave.ran
      apply settling.target_fired noBack sources known
      exact (settling.delivered_live_iff noBack sources ref known).mpr live

end

theorem Settling.fired_subset {other : Drive α} (settling : Settling plan behaviour drive)
    (settled : Settling plan behaviour other) (noBack : plan.backEdges = [])
    (rootFree : plan.forwardIn plan.start = [])
    (sources : ∀ ref ∈ plan.edges, plan.graph.Reaches plan.start ref.source)
    (entry : ReadyNode α) (member : entry ∈ drive.fired) : entry ∈ other.fired := by
  obtain ⟨height, climbs⟩ := exists_height_acyclic noBack sources
  have sameLive : ∀ node,
      liveIn plan behaviour.branch drive.completed drive.state.dead [] node =
        liveIn plan behaviour.branch other.completed other.state.dead [] node := by
    intro node
    apply List.filter_congr
    intro ref incoming
    have known := ((plan.mem_forwardIn _ _).mp incoming).1
    rw [decide_eq_decide, settling.delivered_live_iff noBack sources ref known,
      settled.delivered_live_iff noBack sources ref known]
  have atRoot : ∀ completed dead,
      liveIn plan behaviour.branch completed dead [] plan.start = [] := by
    intro completed dead
    rw [liveIn, rootFree, List.filter_nil]
  induction level : height entry.nodeId using Nat.strong_induction_on generalizing entry with
  | _ level ih =>
      have logged : entry.nodeId ∈ loggedIds other.fired :=
        (settled.fired_iff noBack sources _).mpr
          ((settling.fired_iff noBack sources _).mp (List.mem_map_of_mem member))
      obtain ⟨twin, twinMember, sameId⟩ := List.mem_map.mp logged
      rcases settling.wave.fed entry member with first | ⟨fed, input⟩
      · rcases settled.wave.fed twin twinMember with twinFirst | ⟨twinFed, _⟩
        · rw [first, ← twinFirst]
          exact twinMember
        · rw [sameId, first] at twinFed
          exact absurd (atRoot _ _) twinFed
      · rcases settled.wave.fed twin twinMember with twinFirst | ⟨_, twinInput⟩
        · rw [← sameId, twinFirst] at fed
          exact absurd (atRoot _ _) fed
        · have sameInput : entry.inputData = twin.inputData := by
            rw [input, twinInput, sameId, ← sameLive]
            apply List.foldl_ext
            intro merged ref present
            obtain ⟨incoming, carried⟩ := List.mem_filter.mp present
            obtain ⟨known, atTarget, _⟩ := (plan.mem_forwardIn _ _).mp incoming
            have finished := (delivered_live (of_decide_eq_true carried)).1
            obtain ⟨feeder, feederMember, feederId⟩ :=
              List.mem_map.mp (settling.wave.ran finished)
            have lower := climbs ref known
            rw [atTarget, level, ← feederId] at lower
            have twinFeeder := ih _ lower feeder feederMember rfl
            have here := settling.wave.recorded feeder feederMember (by rw [feederId]; exact finished)
            have there := settled.wave.recorded feeder twinFeeder
              (settled.idle (List.mem_map_of_mem twinFeeder))
            rw [← feederId, here, there]
          have same : entry = twin := by
            cases entry
            cases twin
            cases sameId
            cases sameInput
            rfl
          rw [same]
          exact twinMember

end Quiescence

/-- Firing on an acyclic graph: at most once, after every predecessor is resolved, exactly
along the live edges, and with inputs that no completion order changes. `sinks` is what `complete`
asks of `is_terminal`: a node that ends the run has no successors. -/
theorem complete_acyclic_runs (nodes : List WorkflowNode) (edges : List Edge)
    (startNodeId : String) (behaviour : Behaviour α)
    (acyclic : ∀ node, ¬ (plan nodes edges startNodeId).graph.OnCycle node)
    (reachable : ∀ node ∈ nodeIds nodes,
      (plan nodes edges startNodeId).graph.Reaches startNodeId node)
    (sources : ∀ ref ∈ validEdges nodes edges,
      (plan nodes edges startNodeId).graph.Reaches startNodeId ref.source)
    (sinks : ∀ node, behaviour.terminal node = true →
      (plan nodes edges startNodeId).out node = []) :
    (∀ labels drive,
      Run (Drive.Step (plan nodes edges startNodeId) behaviour)
        (Drive.initial (plan nodes edges startNodeId)) labels drive →
      (loggedIds drive.fired).Nodup ∧
      (∀ entry ∈ drive.fired, ∀ ref ∈ (plan nodes edges startNodeId).forwardIn entry.nodeId,
        Resolved drive.completed drive.state.dead ref.source) ∧
      (drive.inFlight = [] → ∀ node ∈ nodeIds nodes,
        Xor (node ∈ drive.completed) (node ∈ drive.state.dead) ∧
        (node ∈ loggedIds drive.fired ↔ node = startNodeId ∨
          ∃ ref ∈ inEdges (validEdges nodes edges) node,
            LiveEdge (plan nodes edges startNodeId) behaviour.branch ref))) ∧
    (∀ labels drive otherLabels other,
      Run (Drive.Step (plan nodes edges startNodeId) behaviour)
        (Drive.initial (plan nodes edges startNodeId)) labels drive →
      Run (Drive.Step (plan nodes edges startNodeId) behaviour)
        (Drive.initial (plan nodes edges startNodeId)) otherLabels other →
      drive.inFlight = [] → other.inFlight = [] →
      ∀ entry, entry ∈ drive.fired ↔ entry ∈ other.fired) := by
  have noBack : (plan nodes edges startNodeId).backEdges = [] :=
    (plan nodes edges startNodeId).classified.back_eq_nil (fun node _ => acyclic node)
  have rootFree : (plan nodes edges startNodeId).forwardIn startNodeId = [] := by
    apply List.eq_nil_iff_forall_not_mem.mpr
    intro ref incoming
    obtain ⟨known, atTarget, _⟩ := (Plan.mem_forwardIn _ _ _).mp incoming
    apply acyclic startNodeId
    exact Relation.TransGen.tail' (sources ref known)
      ⟨ref, (Plan.mem_out _ _ _).mpr ⟨known, rfl⟩, atTarget⟩
  have sound : ∀ labels drive,
      Run (Drive.Step (plan nodes edges startNodeId) behaviour)
        (Drive.initial (plan nodes edges startNodeId)) labels drive →
      drive.Sound (plan nodes edges startNodeId) behaviour := by
    intro labels drive run
    exact run.invariant _ _ (Drive.initial_sound _ behaviour rootFree)
      (fun _ _ _ kept taken => kept.step noBack sinks taken)
  constructor
  · intro labels drive run
    have kept := sound labels drive run
    refine ⟨kept.wave.once, ?_, ?_⟩
    · intro entry member ref incoming
      have present := kept.wave.closed entry.nodeId (Or.inl (List.mem_map_of_mem member)) ref
        incoming
      obtain ⟨status, found⟩ := Option.ne_none_iff_exists'.mp present
      exact (delivered_eq_some found).2.1
    · intro quiescent node known
      have settling := kept.settling quiescent
      refine ⟨?_, settling.fired_iff noBack sources node⟩
      rcases settling.resolved noBack sources node (reachable node known) with finished | dead
      · exact Or.inl ⟨finished, kept.wave.apart node (kept.wave.ran finished)⟩
      · exact Or.inr ⟨dead, fun finished => kept.wave.apart node (kept.wave.ran finished) dead⟩
  · intro labels drive otherLabels other run otherRun quiescent otherQuiescent entry
    have settling := (sound labels drive run).settling quiescent
    have settled := (sound otherLabels other otherRun).settling otherQuiescent
    exact ⟨settling.fired_subset settled noBack rootFree sources entry,
      settled.fired_subset settling noBack rootFree sources entry⟩

/-! A router behind a fork, joined again: `B` is pruned, `J` waits for both. -/

def prunedJoinNodes : List WorkflowNode :=
  [⟨"start", "start"⟩, ⟨"A", "agent"⟩, ⟨"C", "condition"⟩, ⟨"B", "agent"⟩, ⟨"J", "end"⟩]

def prunedJoinEdges : List Edge :=
  [⟨"start", "A", none⟩, ⟨"start", "C", none⟩, ⟨"C", "B", some "source_C_0"⟩,
    ⟨"C", "J", some "source_C_1"⟩, ⟨"A", "J", none⟩, ⟨"B", "J", none⟩]

def prunedJoinBehaviour : Behaviour Nat where
  branch := fun node => if node = "C" then some 1 else none
  output := fun node input => input.set node 0
  terminal := fun node => decide (node = "J")

private def prunedJoinHeight (node : String) : Nat :=
  if node = "start" then 0 else if node = "J" then 3 else if node = "B" then 2 else 1

private theorem prunedJoin_adjacent (ref : EdgeRef)
    (member : ref ∈ validEdges prunedJoinNodes prunedJoinEdges) :
    (plan prunedJoinNodes prunedJoinEdges "start").graph.Adjacent ref.source ref.target :=
  ⟨ref, (Plan.mem_out _ _ _).mpr ⟨member, rfl⟩, rfl⟩

private theorem prunedJoin_reaches (node : String)
    (known : node ∈ nodeIds prunedJoinNodes) :
    (plan prunedJoinNodes prunedJoinEdges "start").graph.Reaches "start" node := by
  have toA := Relation.ReflTransGen.tail Relation.ReflTransGen.refl
    (prunedJoin_adjacent ⟨0, ⟨"start", "A", none⟩⟩ (by decide))
  have toC := Relation.ReflTransGen.tail Relation.ReflTransGen.refl
    (prunedJoin_adjacent ⟨1, ⟨"start", "C", none⟩⟩ (by decide))
  have toB := Relation.ReflTransGen.tail toC
    (prunedJoin_adjacent ⟨2, ⟨"C", "B", some "source_C_0"⟩⟩ (by decide))
  have toJ := Relation.ReflTransGen.tail toA
    (prunedJoin_adjacent ⟨4, ⟨"A", "J", none⟩⟩ (by decide))
  simp only [nodeIds, prunedJoinNodes, List.map_cons, List.map_nil, List.mem_cons,
    List.not_mem_nil, or_false] at known
  rcases known with rfl | rfl | rfl | rfl | rfl
  · exact Relation.ReflTransGen.refl
  · exact toA
  · exact toC
  · exact toB
  · exact toJ

theorem complete_acyclic_runs_prunedJoin :
    (∀ labels drive,
      Run (Drive.Step (plan prunedJoinNodes prunedJoinEdges "start") prunedJoinBehaviour)
        (Drive.initial (plan prunedJoinNodes prunedJoinEdges "start")) labels drive →
      drive.inFlight = [] → ∀ node ∈ nodeIds prunedJoinNodes,
        Xor (node ∈ drive.completed) (node ∈ drive.state.dead)) ∧
    (∀ labels drive otherLabels other,
      Run (Drive.Step (plan prunedJoinNodes prunedJoinEdges "start") prunedJoinBehaviour)
        (Drive.initial (plan prunedJoinNodes prunedJoinEdges "start")) labels drive →
      Run (Drive.Step (plan prunedJoinNodes prunedJoinEdges "start") prunedJoinBehaviour)
        (Drive.initial (plan prunedJoinNodes prunedJoinEdges "start")) otherLabels other →
      drive.inFlight = [] → other.inFlight = [] →
      ∀ entry, entry ∈ drive.fired ↔ entry ∈ other.fired) := by
  have runs := complete_acyclic_runs prunedJoinNodes prunedJoinEdges "start" prunedJoinBehaviour
    (by
      apply Multigraph.not_onCycle_of_height prunedJoinHeight
      intro node ref outgoing
      obtain ⟨known, source⟩ := (Plan.mem_out _ _ _).mp outgoing
      rw [← source]
      have climbs : ∀ ref ∈ validEdges prunedJoinNodes prunedJoinEdges,
          prunedJoinHeight ref.source < prunedJoinHeight ref.target := by decide
      exact climbs ref known)
    prunedJoin_reaches
    (by
      intro ref known
      have sources : ∀ ref ∈ validEdges prunedJoinNodes prunedJoinEdges,
          ref.source ∈ nodeIds prunedJoinNodes := by decide
      exact prunedJoin_reaches _ (sources ref known))
    (by
      intro node terminal
      have atEnd := of_decide_eq_true terminal
      subst atEnd
      decide)
  refine ⟨?_, runs.2⟩
  intro labels drive run quiescent node known
  exact ((runs.1 labels drive run).2.2 quiescent node known).1

end Assemblix.DagScheduler
