import Assemblix.Execution.DagSchedulerCopy

/-
Runs in which every node sends its output along every edge.

Such a run kills no node, so a forward edge has carried a live token exactly when its source is
completed. Where every edge leaves a node that can be reached, any node is fired once all below
it are completed; a node with a forward edge whose source cannot be reached is never fired before
something behind it loops back.
-/

namespace Assemblix.DagScheduler

open Library

variable {α : Type}

def plainCompletion (position : Nat) : Completion α := ⟨position, Dict.empty, none, false⟩

theorem complete_plain (plan : Plan) (state : State α) (node : String) :
    (complete plan state node Dict.empty none false).1 =
        ((plan.out node).foldl (fun current ref => follow plan Dict.empty ref current)
          ⟨state.recordOutput node Dict.empty, []⟩).state ∧
      (complete plan state node Dict.empty none false).2.ready =
        ((plan.out node).foldl (fun current ref => follow plan Dict.empty ref current)
          ⟨state.recordOutput node Dict.empty, []⟩).ready :=
  complete_eq plan state node Dict.empty none

theorem send_live (plan : Plan) (ref : EdgeRef) (progress : Progress α)
    (gated : ref ∈ plan.forwardIn ref.target) :
    (((progress.state.tokens ref.target).set ref .live).size < (plan.forwardIn ref.target).length ∧
      send plan ref .live progress =
        { progress with state := progress.state.putToken ref .live }) ∨
    ((plan.forwardIn ref.target).length ≤ ((progress.state.tokens ref.target).set ref .live).size ∧
      ∃ input, send plan ref .live progress =
        { state := progress.state.setTokens ref.target Dict.empty
          ready := progress.ready ++ [⟨ref.target, input⟩] }) := by
  rcases deliver_cases plan (propagateDead plan (depth plan)) ref .live progress gated with
    ⟨short, equal⟩ | ⟨full, _, equal⟩ | ⟨_, pruned, _⟩
  · exact .inl ⟨short, equal⟩
  · exact .inr ⟨full, _, equal⟩
  · have live : ref ∈ liveSources plan ref.target
        ((progress.state.tokens ref.target).set ref .live) :=
      List.mem_filter.mpr ⟨gated, decide_eq_true (Dict.lookup_set_self _ _ _)⟩
    rw [pruned] at live
    cases live

/-! ### What has been given -/

def FullyGiven (plan : Plan) (given : EdgeRef → Prop) (node : String) : Prop :=
  ∀ ref ∈ plan.forwardIn node, given ref

structure Spread (plan : Plan) (given : EdgeRef → Prop) (fired : List String) (state : State α) :
    Prop where
  passed : ∀ node, plan.forwardIn node ≠ [] → FullyGiven plan given node → node ∈ fired
  gated : ∀ node, ¬ FullyGiven plan given node →
    (state.tokens node).keys ⊆ plan.forwardIn node
  held : ∀ node, ¬ FullyGiven plan given node → ∀ ref ∈ plan.forwardIn node,
    ((state.tokens node).lookup ref ≠ none ↔ given ref)
  known : ∀ node ∈ fired, node = plan.start ∨ ∃ ref ∈ plan.edges, ref.target = node

section Spreading

variable {plan : Plan} {given : EdgeRef → Prop} {fired : List String} {state : State α}
variable {progress : Progress α} {before : List String}

theorem FullyGiven.of_elsewhere {ref : EdgeRef} {node : String} (elsewhere : node ≠ ref.target) :
    FullyGiven plan (fun other => given other ∨ other = ref) node ↔ FullyGiven plan given node := by
  constructor
  · intro full other incoming
    rcases full other incoming with earlier | rfl
    · exact earlier
    · exact absurd ((plan.mem_forwardIn _ _).mp incoming).2.1.symm elsewhere
  · exact fun full other incoming => .inl (full other incoming)

theorem Spread.reactivate (spread : Spread plan given fired state) {ref : EdgeRef}
    (known : ref ∈ plan.edges) (back : ref ∈ plan.backEdges) :
    Spread plan (fun other => given other ∨ other = ref) (fired ++ [ref.target]) state := by
  have same : ∀ node, ∀ other ∈ plan.forwardIn node, ((given other ∨ other = ref) ↔ given other) := by
    intro node other incoming
    constructor
    · rintro (earlier | rfl)
      · exact earlier
      · exact absurd back ((plan.mem_forwardIn _ _).mp incoming).2.2
    · exact .inl
  have full : ∀ node, FullyGiven plan (fun other => given other ∨ other = ref) node ↔
      FullyGiven plan given node :=
    fun node => forall₂_congr (fun other incoming => same node other incoming)
  refine ⟨?_, ?_, ?_, ?_⟩
  · intro node entered whole
    exact List.mem_append_left _ (spread.passed node entered ((full node).mp whole))
  · intro node opened
    exact spread.gated node (fun whole => opened ((full node).mpr whole))
  · intro node opened other incoming
    rw [same node other incoming]
    exact spread.held node (fun whole => opened ((full node).mpr whole)) other incoming
  · intro node member
    rcases List.mem_append.mp member with earlier | new
    · exact spread.known node earlier
    · rw [List.mem_singleton.mp new]
      exact .inr ⟨ref, known, rfl⟩

theorem Spread.wait (spread : Spread plan given fired state) {ref : EdgeRef}
    (gated : ref ∈ plan.forwardIn ref.target) (fresh : ¬ given ref)
    (short : ((state.tokens ref.target).set ref .live).size < (plan.forwardIn ref.target).length) :
    Spread plan (fun other => given other ∨ other = ref) fired (state.putToken ref .live) := by
  have opened : ¬ FullyGiven plan given ref.target := fun whole => fresh (whole ref gated)
  have gate := spread.gated ref.target opened
  have held := spread.held ref.target opened
  refine ⟨?_, ?_, ?_, spread.known⟩
  · intro node entered whole
    by_cases here : node = ref.target
    · subst here
      obtain ⟨missing, incoming, absent⟩ := exists_missing _ _ (plan.forwardIn_nodup _) short
      by_cases same : ref = missing
      · rw [same, Dict.lookup_set_self] at absent
        cases absent
      · rw [Dict.lookup_set_of_ne _ _ same] at absent
        have unsent := (not_congr (held missing incoming)).mp (not_not.mpr absent)
        rcases whole missing incoming with sent | equal
        · exact absurd sent unsent
        · exact absurd equal.symm same
    · exact spread.passed node entered ((FullyGiven.of_elsewhere here).mp whole)
  · intro node unfilled
    by_cases here : node = ref.target
    · subst here
      rw [State.putToken, State.setTokens_self]
      exact keys_set_subset _ _ _ _ gate gated
    · rw [State.putToken, State.setTokens_of_ne _ _ here]
      exact spread.gated node (fun whole => unfilled ((FullyGiven.of_elsewhere here).mpr whole))
  · intro node unfilled other incoming
    by_cases here : node = ref.target
    · subst here
      rw [State.putToken, State.setTokens_self, Dict.lookup_set]
      by_cases same : ref = other
      · simp [same]
      · rw [if_neg same, held other incoming]
        exact ⟨.inl, fun sent => sent.resolve_right (fun equal => same equal.symm)⟩
    · rw [State.putToken, State.setTokens_of_ne _ _ here]
      have different : other ≠ ref := by
        rintro rfl
        exact here ((plan.mem_forwardIn _ _).mp incoming).2.1.symm
      rw [spread.held node (fun whole => unfilled ((FullyGiven.of_elsewhere here).mpr whole)) other
        incoming]
      exact ⟨.inl, fun sent => sent.resolve_right different⟩

theorem Spread.fire (spread : Spread plan given fired state) {ref : EdgeRef}
    (gated : ref ∈ plan.forwardIn ref.target) (fresh : ¬ given ref)
    (full : (plan.forwardIn ref.target).length ≤ ((state.tokens ref.target).set ref .live).size) :
    Spread plan (fun other => given other ∨ other = ref) (fired ++ [ref.target])
      (state.setTokens ref.target Dict.empty) := by
  have opened : ¬ FullyGiven plan given ref.target := fun whole => fresh (whole ref gated)
  have whole : FullyGiven plan (fun other => given other ∨ other = ref) ref.target := by
    intro other incoming
    have present := present_of_full _ _
      (keys_set_subset _ _ ref .live (spread.gated ref.target opened) gated) full other incoming
    by_cases same : other = ref
    · exact .inr same
    · rw [Dict.lookup_set_of_ne _ _ (fun equal => same equal.symm)] at present
      exact .inl ((spread.held ref.target opened other incoming).mp present)
  refine ⟨?_, ?_, ?_, ?_⟩
  · intro node entered complete
    by_cases here : node = ref.target
    · exact List.mem_append_right _ (List.mem_singleton.mpr here)
    · exact List.mem_append_left _
        (spread.passed node entered ((FullyGiven.of_elsewhere here).mp complete))
  · intro node unfilled
    by_cases here : node = ref.target
    · exact absurd (here ▸ whole) unfilled
    · rw [State.setTokens_of_ne _ _ here]
      exact spread.gated node (fun whole => unfilled ((FullyGiven.of_elsewhere here).mpr whole))
  · intro node unfilled other incoming
    by_cases here : node = ref.target
    · exact absurd (here ▸ whole) unfilled
    · rw [State.setTokens_of_ne _ _ here]
      have different : other ≠ ref := by
        rintro rfl
        exact here ((plan.mem_forwardIn _ _).mp incoming).2.1.symm
      rw [spread.held node (fun whole => unfilled ((FullyGiven.of_elsewhere here).mpr whole)) other
        incoming]
      exact ⟨.inl, fun sent => sent.resolve_right different⟩
  · intro node member
    rcases List.mem_append.mp member with earlier | new
    · exact spread.known node earlier
    · rw [List.mem_singleton.mp new]
      exact .inr ⟨ref, ((plan.mem_forwardIn _ _).mp gated).1, rfl⟩

theorem Spread.follow
    (spread : Spread plan given (before ++ loggedIds progress.ready) progress.state)
    {ref : EdgeRef} (known : ref ∈ plan.edges) (fresh : ¬ given ref) :
    Spread plan (fun other => given other ∨ other = ref)
      (before ++ loggedIds (DagScheduler.follow plan Dict.empty ref progress).ready)
      (DagScheduler.follow plan Dict.empty ref progress).state := by
  unfold DagScheduler.follow
  by_cases back : ref ∈ plan.backEdges
  · rw [if_pos ((plan.isBack_iff ref).mpr back)]
    dsimp only
    rw [loggedIds, List.map_append, ← List.append_assoc]
    exact spread.reactivate known back
  · rw [if_neg (fun isBack => back ((plan.isBack_iff ref).mp isBack))]
    have gated : ref ∈ plan.forwardIn ref.target := (plan.mem_forwardIn _ _).mpr ⟨known, rfl, back⟩
    rcases send_live plan ref progress gated with ⟨short, equal⟩ | ⟨full, input, equal⟩
    · rw [equal]
      exact spread.wait gated fresh short
    · rw [equal]
      dsimp only
      rw [loggedIds, List.map_append, ← List.append_assoc]
      exact spread.fire gated fresh full

theorem Spread.leave (progress : Progress α) (refs : List EdgeRef) (distinct : refs.Nodup)
    (known : ∀ ref ∈ refs, ref ∈ plan.edges) (fresh : ∀ ref ∈ refs, ¬ given ref)
    (spread : Spread plan given (before ++ loggedIds progress.ready) progress.state) :
    Spread plan (fun other => given other ∨ other ∈ refs)
      (before ++ loggedIds (refs.foldl
        (fun current ref => DagScheduler.follow plan Dict.empty ref current) progress).ready)
      (refs.foldl
        (fun current ref => DagScheduler.follow plan Dict.empty ref current) progress).state := by
  induction refs generalizing given progress with
  | nil =>
      have same : (fun other => given other ∨ other ∈ ([] : List EdgeRef)) = given := by
        funext other
        simp
      rw [same]
      exact spread
  | cons ref rest ih =>
      obtain ⟨new, others⟩ := List.nodup_cons.mp distinct
      have first := spread.follow (known ref List.mem_cons_self) (fresh ref List.mem_cons_self)
      have later := ih _ others (fun other member => known other (List.mem_cons_of_mem _ member))
        (by
          intro other member sent
          rcases sent with sent | rfl
          · exact fresh other (List.mem_cons_of_mem _ member) sent
          · exact new member) first
      have same : (fun other => given other ∨ other ∈ ref :: rest) =
          fun other => (given other ∨ other = ref) ∨ other ∈ rest := by
        funext other
        rw [List.mem_cons, or_assoc]
      rw [same]
      exact later

theorem Spread.congr (spread : Spread plan given fired state) (other : EdgeRef → Prop)
    (same : ∀ ref ∈ plan.edges, given ref ↔ other ref) : Spread plan other fired state := by
  have incoming : ∀ node, ∀ ref ∈ plan.forwardIn node, given ref ↔ other ref :=
    fun node ref member => same ref ((plan.mem_forwardIn _ _).mp member).1
  have full : ∀ node, FullyGiven plan given node ↔ FullyGiven plan other node :=
    fun node => forall₂_congr (incoming node)
  refine ⟨?_, ?_, ?_, spread.known⟩
  · exact fun node entered whole => spread.passed node entered ((full node).mpr whole)
  · exact fun node unfilled => spread.gated node (fun whole => unfilled ((full node).mp whole))
  · intro node unfilled ref member
    rw [spread.held node (fun whole => unfilled ((full node).mp whole)) ref member]
    exact incoming node ref member

end Spreading

/-! ### Plain runs -/

structure Drive.Plain (plan : Plan) (drive : Drive α) : Prop where
  spread : Spread plan (fun ref => ref.source ∈ drive.completed) (loggedIds drive.fired) drive.state
  once : drive.completed.Nodup
  ran : drive.completed ⊆ loggedIds drive.fired
  flying : loggedIds drive.inFlight ⊆ loggedIds drive.fired
  waiting : ∀ node ∈ loggedIds drive.fired, node ∉ drive.completed →
    node ∈ loggedIds drive.inFlight
  started : plan.start ∈ loggedIds drive.fired

section Running

variable {plan : Plan} {drive : Drive α}

theorem Drive.Plain.initial : (Drive.initial plan : Drive α).Plain plan where
  spread := by
    refine ⟨?_, ?_, ?_, ?_⟩
    · intro node entered whole
      obtain ⟨ref, incoming⟩ := List.exists_mem_of_ne_nil _ entered
      exact absurd (whole ref incoming) List.not_mem_nil
    · intro node _
      simp [Drive.initial, State.initial]
    · intro node _ ref _
      simp [Drive.initial, State.initial]
    · intro node member
      exact .inl (List.mem_singleton.mp member)
  once := List.nodup_nil
  ran := List.nil_subset _
  flying := List.Subset.refl _
  waiting := fun _ member _ => member
  started := List.mem_singleton.mpr rfl

theorem Drive.Plain.finish (plain : drive.Plain plan) {position : Nat} {node : ReadyNode α}
    (found : drive.inFlight[position]? = some node) (fresh : node.nodeId ∉ drive.completed) :
    (drive.finish plan (plainCompletion position).behaviour position node).Plain plan := by
  have flies : node.nodeId ∈ loggedIds drive.inFlight :=
    List.mem_map_of_mem (List.mem_of_getElem? found)
  have recorded : Spread plan (fun ref => ref.source ∈ drive.completed)
      (loggedIds drive.fired ++ loggedIds ([] : List (ReadyNode α)))
      (drive.state.recordOutput node.nodeId Dict.empty) := by
    change Spread plan _ (loggedIds drive.fired ++ []) _
    rw [List.append_nil]
    exact { plain.spread with }
  have left := Spread.leave ⟨drive.state.recordOutput node.nodeId Dict.empty, []⟩
    (plan.out node.nodeId) (plan.distinct.filter _)
    (fun ref outgoing => ((plan.mem_out _ _).mp outgoing).1)
    (fun ref outgoing sent => fresh (((plan.mem_out _ _).mp outgoing).2 ▸ sent)) recorded
  obtain ⟨sameState, sameReady⟩ := complete_plain plan drive.state node.nodeId
  have ready : ∀ id, id ∈ loggedIds (drive.finish plan (plainCompletion position).behaviour position
      node).fired ↔ id ∈ loggedIds drive.fired ∨
        id ∈ loggedIds (complete plan drive.state node.nodeId Dict.empty none false).2.ready := by
    intro id
    change id ∈ loggedIds (drive.fired ++ _) ↔ _
    rw [loggedIds, List.map_append, List.mem_append]
    rfl
  refine ⟨?_, ?_, ?_, ?_, ?_, ?_⟩
  · rw [← sameState, ← sameReady] at left
    have ended := left.congr (fun ref => ref.source ∈ drive.completed ++ [node.nodeId]) (by
      intro ref known
      simp only [List.mem_append, List.mem_singleton, plan.mem_out, known, true_and])
    rw [loggedIds, loggedIds, ← List.map_append] at ended
    exact ended
  · exact List.nodup_append.mpr ⟨plain.once, List.nodup_singleton _, by
      intro earlier member last new same
      rw [same, List.mem_singleton.mp new] at member
      exact fresh member⟩
  · intro id member
    rw [ready]
    rcases List.mem_append.mp member with earlier | new
    · exact .inl (plain.ran earlier)
    · rw [List.mem_singleton.mp new]
      exact .inl (plain.flying flies)
  · intro id member
    rw [ready]
    change id ∈ loggedIds (drive.inFlight.eraseIdx position ++ _) at member
    rw [loggedIds, List.map_append, List.mem_append] at member
    rcases member with earlier | new
    · obtain ⟨entry, listed, rfl⟩ := List.mem_map.mp earlier
      exact .inl (plain.flying (List.mem_map_of_mem (List.eraseIdx_subset listed)))
    · exact .inr new
  · intro id member unfinished
    change id ∉ drive.completed ++ [node.nodeId] at unfinished
    rw [List.mem_append, not_or, List.mem_singleton] at unfinished
    change id ∈ loggedIds (drive.inFlight.eraseIdx position ++ _)
    rw [loggedIds, List.map_append, List.mem_append]
    rcases (ready id).mp member with earlier | new
    · left
      obtain ⟨entry, listed, rfl⟩ := List.mem_map.mp (plain.waiting id earlier unfinished.1)
      obtain ⟨index, bound, atIndex⟩ := List.mem_iff_getElem.mp listed
      refine List.mem_map_of_mem (List.mem_eraseIdx_iff_getElem.mpr ⟨index, bound, ?_, atIndex⟩)
      rintro rfl
      rw [List.getElem?_eq_getElem bound, atIndex] at found
      exact unfinished.2 (congrArg ReadyNode.nodeId (Option.some.inj found))
    · exact .inr new
  · exact (ready _).mpr (.inl plain.started)

/-- As long as a node that can be reached is not fired, a node below it is in flight and not yet
completed. -/
theorem Drive.Plain.exists_below (plain : drive.Plain plan) {height : String → Nat}
    (climbs : ∀ ref ∈ plan.edges, ref ∉ plan.backEdges → height ref.source < height ref.target)
    (sources : ∀ ref ∈ plan.edges, plan.graph.Reaches plan.start ref.source) {node : String}
    (path : plan.graph.Reaches plan.start node) (unfired : node ∉ loggedIds drive.fired) :
    ∃ (position : Nat) (entry : ReadyNode α), drive.inFlight[position]? = some entry ∧
      entry.nodeId ∉ drive.completed ∧ height entry.nodeId < height node := by
  induction level : height node using Nat.strong_induction_on generalizing node with
  | h level ih =>
      have different : node ≠ plan.start := fun same => unfired (same ▸ plain.started)
      have unfilled : ¬ FullyGiven plan (fun ref => ref.source ∈ drive.completed) node :=
        fun whole => unfired (plain.spread.passed node (plan.exists_forwardIn path different) whole)
      simp only [FullyGiven, not_forall] at unfilled
      obtain ⟨ref, incoming, unfinished⟩ := unfilled
      obtain ⟨known, rfl, forward⟩ := (plan.mem_forwardIn _ _).mp incoming
      have below := climbs ref known forward
      by_cases fired : ref.source ∈ loggedIds drive.fired
      · obtain ⟨entry, listed, same⟩ := List.mem_map.mp (plain.waiting _ fired unfinished)
        obtain ⟨position, found⟩ := List.getElem?_of_mem listed
        exact ⟨position, entry, found, same ▸ unfinished, by rw [same]; omega⟩
      · obtain ⟨position, entry, found, fresh, lower⟩ :=
          ih (height ref.source) (level ▸ below) (sources ref known) fired rfl
        exact ⟨position, entry, found, fresh, by omega⟩

end Running

/-! ### A gate that never opens -/

structure Barred (plan : Plan) (gate : EdgeRef) (fired : List String) (state : State α) : Prop where
  gated : (state.tokens gate.target).keys ⊆ plan.forwardIn gate.target
  untold : gate ∉ (state.tokens gate.target).keys
  absent : gate.target ∉ fired

section Barring

variable {plan : Plan} {gate : EdgeRef} {before : List String}

theorem Barred.follow {progress : Progress α}
    (barred : Barred plan gate (before ++ loggedIds progress.ready) progress.state)
    (closing : gate ∈ plan.forwardIn gate.target) {ref : EdgeRef} (known : ref ∈ plan.edges)
    (other : ref ≠ gate) (ahead : ref ∈ plan.backEdges → ref.target ≠ gate.target) :
    Barred plan gate (before ++ loggedIds (DagScheduler.follow plan Dict.empty ref progress).ready)
      (DagScheduler.follow plan Dict.empty ref progress).state := by
  have later : ∀ target, target ≠ gate.target → ∀ input, gate.target ∉ before ++
      loggedIds (progress.ready ++ [(⟨target, input⟩ : ReadyNode α)]) := by
    intro target different input member
    rw [loggedIds, List.map_append, ← List.append_assoc] at member
    rcases List.mem_append.mp member with earlier | new
    · exact barred.absent earlier
    · exact different (List.mem_singleton.mp new).symm
  unfold DagScheduler.follow
  by_cases back : ref ∈ plan.backEdges
  · rw [if_pos ((plan.isBack_iff ref).mpr back)]
    exact ⟨barred.gated, barred.untold, later _ (ahead back) _⟩
  · rw [if_neg (fun isBack => back ((plan.isBack_iff ref).mp isBack))]
    have gated : ref ∈ plan.forwardIn ref.target := (plan.mem_forwardIn _ _).mpr ⟨known, rfl, back⟩
    rcases send_live plan ref progress gated with ⟨_, equal⟩ | ⟨full, input, equal⟩
    · rw [equal]
      refine ⟨?_, ?_, barred.absent⟩
      · intro token member
        rcases (mem_keys_putToken _ _ _ _ _).mp member with ⟨here, rfl⟩ | present
        · exact here ▸ gated
        · exact barred.gated present
      · intro member
        rcases (mem_keys_putToken _ _ _ _ _).mp member with ⟨_, same⟩ | present
        · exact other same.symm
        · exact barred.untold present
    · by_cases here : ref.target = gate.target
      · rw [here] at full gated
        have told := present_of_full _ _ (keys_set_subset _ _ ref .live barred.gated gated) full
          gate closing
        rw [Dict.lookup_set_of_ne _ _ other] at told
        exact absurd ((Dict.lookup_eq_none _ _).mpr barred.untold) told
      · rw [equal]
        refine ⟨?_, ?_, later _ here _⟩
        · rw [State.setTokens_of_ne _ _ (fun same => here same.symm)]
          exact barred.gated
        · rw [State.setTokens_of_ne _ _ (fun same => here same.symm)]
          exact barred.untold

theorem Barred.leave (progress : Progress α) (refs : List EdgeRef)
    (closing : gate ∈ plan.forwardIn gate.target) (known : ∀ ref ∈ refs, ref ∈ plan.edges)
    (others : ∀ ref ∈ refs, ref ≠ gate)
    (ahead : ∀ ref ∈ refs, ref ∈ plan.backEdges → ref.target ≠ gate.target)
    (barred : Barred plan gate (before ++ loggedIds progress.ready) progress.state) :
    Barred plan gate
      (before ++ loggedIds (refs.foldl
        (fun current ref => DagScheduler.follow plan Dict.empty ref current) progress).ready)
      (refs.foldl
        (fun current ref => DagScheduler.follow plan Dict.empty ref current) progress).state := by
  induction refs generalizing progress with
  | nil => exact barred
  | cons ref rest ih =>
      rw [List.forall_mem_cons] at known others ahead
      exact ih _ known.2 others.2 ahead.2 (barred.follow closing known.1 others.1 ahead.1)

theorem Barred.finish {drive : Drive α} (barred : Barred plan gate (loggedIds drive.fired) drive.state)
    (closing : gate ∈ plan.forwardIn gate.target) (position : Nat) {node : ReadyNode α}
    (others : ∀ ref ∈ plan.out node.nodeId, ref ≠ gate)
    (ahead : ∀ ref ∈ plan.out node.nodeId, ref ∈ plan.backEdges → ref.target ≠ gate.target) :
    Barred plan gate
      (loggedIds (drive.finish plan (plainCompletion position).behaviour position node).fired)
      (drive.finish plan (plainCompletion position).behaviour position node).state := by
  have recorded : Barred plan gate (loggedIds drive.fired ++ loggedIds ([] : List (ReadyNode α)))
      (drive.state.recordOutput node.nodeId Dict.empty) := by
    change Barred plan gate (loggedIds drive.fired ++ []) _
    rw [List.append_nil]
    exact { barred with }
  have left := Barred.leave ⟨drive.state.recordOutput node.nodeId Dict.empty, []⟩
    (plan.out node.nodeId) closing (fun ref outgoing => ((plan.mem_out _ _).mp outgoing).1) others
    ahead recorded
  obtain ⟨sameState, sameReady⟩ := complete_plain plan drive.state node.nodeId
  rw [← sameState, ← sameReady, loggedIds, loggedIds, ← List.map_append] at left
  exact left

end Barring

/-! ### What agrees is sealed -/

section Agreement

variable {plan image : Plan} {reached : List String} {rename : EdgeRef → EdgeRef}

section

variable (copy : plan.Copy image reached rename)
include copy

theorem Plan.Copy.reaches {node : String} (within : node ∈ reached) :
    image.graph.Reaches image.start node := by
  rw [copy.start]
  have path := (copy.members node).mp within
  clear within
  induction path with
  | refl => exact .refl
  | @tail middle last before step ih =>
      obtain ⟨ref, outgoing, atTarget⟩ := step
      have inside : middle ∈ reached := (copy.members middle).mpr before
      obtain ⟨known, source⟩ := Plan.Copy.out_known outgoing inside
      refine ih.tail ⟨rename ref, ?_, ?_⟩
      · change rename ref ∈ image.out middle
        rw [copy.out inside]
        exact List.mem_map_of_mem outgoing
      · change (rename ref).target = last
        rw [copy.target known source]
        exact atTarget

theorem Plan.Copy.image_edge {ref : EdgeRef} (known : ref ∈ image.edges) :
    ∃ original ∈ plan.edges, original.source ∈ reached ∧ rename original = ref := by
  rw [copy.edges] at known
  obtain ⟨original, kept, same⟩ := List.mem_map.mp known
  obtain ⟨member, source⟩ := List.mem_filter.mp kept
  exact ⟨original, member, of_decide_eq_true source, same⟩

theorem Plan.Copy.sources : ∀ ref ∈ image.edges, image.graph.Reaches image.start ref.source := by
  intro ref known
  obtain ⟨original, member, source, rfl⟩ := copy.image_edge known
  rw [copy.source member source]
  exact copy.reaches source

theorem Plan.Copy.fired_reached {drive : Drive α} (plain : drive.Plain image) {node : String}
    (fired : node ∈ loggedIds drive.fired) : node ∈ reached := by
  rcases plain.spread.known node fired with rfl | ⟨ref, known, rfl⟩
  · rw [copy.start]
    exact copy.rooted
  · obtain ⟨original, member, source, rfl⟩ := copy.image_edge known
    rw [copy.target member source]
    exact copy.target_reached member source

end

theorem height_le_of_back {height : String → Nat}
    (climbs : ∀ ref ∈ image.edges, ref ∉ image.backEdges → height ref.source < height ref.target)
    {ref : EdgeRef} (back : ref ∈ image.backEdges) : height ref.target ≤ height ref.source := by
  have path := (image.classified.closing ref back).2.2
  have raised : ∀ last, image.graph.ReachesOff image.backEdges ref.target last →
      height ref.target ≤ height last := by
    intro last way
    induction way with
    | refl => exact Nat.le_refl _
    | tail _ step ih =>
        obtain ⟨edge, outgoing, off, rfl⟩ := step
        obtain ⟨known, source⟩ := (image.mem_out _ _).mp outgoing
        have higher := climbs edge known off
        rw [source] at higher
        exact Nat.le_trans ih (Nat.le_of_lt higher)
  exact raised _ path

/-- Plain runs of both schedulers that have returned the same. -/
structure Paired (plan image : Plan) (gate : EdgeRef) (completions : List (Completion α))
    (drive imaged : Drive α) : Prop where
  ran : completions.foldlM (Drive.take plan) (Drive.initial plan) = some drive
  followed : completions.foldlM (Drive.take image) (Drive.initial image) = some imaged
  inFlight : imaged.inFlight = drive.inFlight
  fired : imaged.fired = drive.fired
  plain : imaged.Plain image
  barred : Barred plan gate (loggedIds drive.fired) drive.state

theorem Drive.take_last {plan : Plan} {completions : List (Completion α)} {drive : Drive α}
    (ran : completions.foldlM (Drive.take plan) (Drive.initial plan) = some drive) {position : Nat}
    {node : ReadyNode α} (found : drive.inFlight[position]? = some node) :
    (completions ++ [plainCompletion position]).foldlM (Drive.take plan) (Drive.initial plan) =
      some (drive.finish plan (plainCompletion position).behaviour position node) := by
  rw [List.foldlM_append, ran]
  change (Drive.take plan drive (plainCompletion position)).bind some = _
  rw [Option.bind_fun_some, Drive.take]
  change Option.map _ drive.inFlight[position]? = _
  rw [found]
  rfl

theorem Paired.initial (copy : plan.Copy image reached rename) {gate : EdgeRef}
    (later : gate.target ≠ plan.start) :
    Paired plan image gate ([] : List (Completion α)) (Drive.initial plan) (Drive.initial image) where
  ran := rfl
  followed := rfl
  inFlight := by
    simp only [Drive.initial, start, copy.start]
  fired := by
    simp only [Drive.initial, start, copy.start]
  plain := Drive.Plain.initial
  barred := by
    refine ⟨?_, ?_, ?_⟩
    · simp [Drive.initial, State.initial]
    · simp [Drive.initial, State.initial]
    · exact fun member => later (List.mem_singleton.mp member)

theorem Paired.step (copy : plan.Copy image reached rename)
    (agree : ∀ completions : List (Completion α),
      produced image completions = produced plan completions)
    {gate : EdgeRef} (known : gate ∈ plan.edges) (target : gate.target ∈ reached)
    (outside : gate.source ∉ reached) {completions : List (Completion α)}
    {drive imaged : Drive α} (paired : Paired plan image gate completions drive imaged) :
    ∃ (more : List (Completion α)) (next imagedNext : Drive α),
      Paired plan image gate more next imagedNext ∧
      imagedNext.completed.length = imaged.completed.length + 1 := by
  obtain ⟨height, climbing⟩ := image.exists_height
  have climbs : ∀ ref ∈ image.edges, ref ∉ image.backEdges →
      height ref.source < height ref.target :=
    fun ref member forward => climbing ref member forward (copy.sources ref member)
  have unfired : gate.target ∉ loggedIds imaged.fired := by
    rw [paired.fired]
    exact paired.barred.absent
  obtain ⟨position, entry, found, fresh, lower⟩ :=
    paired.plain.exists_below climbs copy.sources (copy.reaches target) unfired
  have foundFull : drive.inFlight[position]? = some entry := paired.inFlight ▸ found
  have inside : entry.nodeId ∈ reached := copy.fired_reached paired.plain
    (paired.plain.flying (List.mem_map_of_mem (List.mem_of_getElem? found)))
  have closing : gate ∈ plan.forwardIn gate.target := by
    refine (plan.mem_forwardIn _ _).mpr ⟨known, rfl, ?_⟩
    intro back
    exact outside ((copy.members _).mpr (plan.classified.closing gate back).2.1)
  have others : ∀ ref ∈ plan.out entry.nodeId, ref ≠ gate := by
    rintro ref outgoing rfl
    exact outside (Plan.Copy.out_known outgoing inside).2
  have ahead : ∀ ref ∈ plan.out entry.nodeId, ref ∈ plan.backEdges →
      ref.target ≠ gate.target := by
    intro ref outgoing back same
    obtain ⟨member, source⟩ := Plan.Copy.out_known outgoing inside
    have imageBack : rename ref ∈ image.backEdges := by
      rw [← image.isBack_iff, copy.back ref member source]
      exact (plan.isBack_iff ref).mpr back
    have above := height_le_of_back climbs imageBack
    rw [copy.target member source, copy.source member source, same,
      ((plan.mem_out _ _).mp outgoing).2] at above
    omega
  have ran := Drive.take_last paired.ran foundFull
  have followed := Drive.take_last paired.followed found
  have fired := agree (completions ++ [plainCompletion position])
  rw [produced, produced, ran, followed, Option.map_some, Option.map_some, Option.some.injEq] at fired
  have ready : (complete image imaged.state entry.nodeId Dict.empty none false).2.ready =
      (complete plan drive.state entry.nodeId Dict.empty none false).2.ready := by
    change imaged.fired ++ _ = drive.fired ++ _ at fired
    rw [paired.fired] at fired
    exact List.append_cancel_left fired
  refine ⟨_, _, _, ⟨ran, followed, ?_, fired, paired.plain.finish found fresh,
    paired.barred.finish closing position others ahead⟩, ?_⟩
  · change imaged.inFlight.eraseIdx position ++ _ = drive.inFlight.eraseIdx position ++ _
    rw [paired.inFlight]
    exact congrArg _ ready
  · change (imaged.completed ++ [entry.nodeId]).length = _
    rw [List.length_append, List.length_singleton]

theorem Drive.Plain.completed_length_le {drive : Drive α} (plain : drive.Plain image) :
    drive.completed.length ≤ image.edges.length + 1 := by
  have inside : drive.completed ⊆ image.start :: image.edges.map EdgeRef.target := by
    intro node member
    rcases plain.spread.known node (plain.ran member) with rfl | ⟨ref, known, rfl⟩
    · exact List.mem_cons_self
    · exact List.mem_cons_of_mem _ (List.mem_map_of_mem known)
  have bound := (List.subperm_of_subset plain.once inside).length_le
  rw [List.length_cons, List.length_map] at bound
  exact bound

theorem Plan.Copy.sealed_of_agrees (copy : plan.Copy image reached rename)
    (agree : ∀ completions : List (Completion α),
      produced image completions = produced plan completions) : plan.Sealed reached := by
  intro gate known target later
  by_contra outside
  have longer : ∀ count, ∃ (completions : List (Completion α)) (drive imaged : Drive α),
      Paired plan image gate completions drive imaged ∧
        imaged.completed.length = count := by
    intro count
    induction count with
    | zero => exact ⟨[], _, _, Paired.initial copy later, rfl⟩
    | succ count ih =>
        obtain ⟨completions, drive, imaged, paired, rfl⟩ := ih
        exact paired.step copy agree known target outside
  obtain ⟨_, _, imaged, paired, counted⟩ := longer (image.edges.length + 2)
  have bound := paired.plain.completed_length_le
  omega

end Agreement

end Assemblix.DagScheduler
