import Assemblix.Execution.DagScheduler

/-
Token delivery as an agenda.

The nested calls of the scheduler deliver tokens one after another. The agenda machine
makes that order explicit: it settles the first signal, and a node that dies puts dead
tokens for its forward edges in front of what is left. Every call of `complete` is a run
of this machine, so an invariant needs one argument for one signal.
-/

namespace Assemblix.DagScheduler

open Library

variable {α : Type}

/-! ### Membership in the indices -/

namespace Plan

variable (plan : Plan)

theorem mem_out (node : String) (ref : EdgeRef) :
    ref ∈ plan.out node ↔ ref ∈ plan.edges ∧ ref.source = node := by
  simp [Plan.out, outEdges]

theorem mem_forwardOut (node : String) (ref : EdgeRef) :
    ref ∈ plan.forwardOut node ↔
      ref ∈ plan.edges ∧ ref.source = node ∧ ref ∉ plan.backEdges := by
  simp [Plan.forwardOut, Plan.isBack, mem_out, and_assoc]

theorem mem_forwardIn (node : String) (ref : EdgeRef) :
    ref ∈ plan.forwardIn node ↔
      ref ∈ plan.edges ∧ ref.target = node ∧ ref ∉ plan.backEdges := by
  simp only [Plan.forwardIn, Plan.isBack, inEdges, List.mem_filter, decide_eq_true_eq,
    Bool.not_eq_true', decide_eq_false_iff_not]
  exact and_assoc

theorem forwardIn_nodup (node : String) : (plan.forwardIn node).Nodup :=
  (plan.distinct.filter _).filter _

theorem forwardOut_nodup (node : String) : (plan.forwardOut node).Nodup :=
  (plan.distinct.filter _).filter _

theorem isBack_iff (ref : EdgeRef) : plan.isBack ref = true ↔ ref ∈ plan.backEdges := by
  simp [Plan.isBack]

theorem exists_height : ∃ height : String → Nat, ∀ ref ∈ plan.edges, ref ∉ plan.backEdges →
    plan.graph.Reaches plan.start ref.source → height ref.source < height ref.target := by
  obtain ⟨rank, descends⟩ := plan.classified.descending
  have bounded : ∀ ref ∈ plan.edges,
      rank ref.source ≤ (plan.edges.map (fun other => rank other.source)).sum := by
    intro ref member
    exact List.le_sum_of_mem (List.mem_map_of_mem member)
  refine ⟨fun node => (plan.edges.map (fun other => rank other.source)).sum - rank node, ?_⟩
  intro ref member forward path
  have below := descends ref.source path ref ((plan.mem_out _ _).mpr ⟨member, rfl⟩) forward
  have bound := bounded ref member
  change rank ref.target < rank ref.source at below
  change (plan.edges.map (fun other => rank other.source)).sum - rank ref.source <
    (plan.edges.map (fun other => rank other.source)).sum - rank ref.target
  omega

theorem exists_forwardIn {node : String} (path : plan.graph.Reaches plan.start node)
    (different : node ≠ plan.start) : plan.forwardIn node ≠ [] := by
  rcases Relation.ReflTransGen.cases_tail (plan.classified.spanning node path) with
    same | ⟨_, _, ref, outgoing, forward, atTarget⟩
  · exact absurd same different
  · change ref.target = node at atTarget
    have known := ((plan.mem_out _ _).mp outgoing).1
    exact List.ne_nil_of_mem ((plan.mem_forwardIn _ _).mpr ⟨known, atTarget, forward⟩)

end Plan

/-! ### One signal -/

inductive Signal
  | token (ref : EdgeRef) (status : Token)
  | reactivate (ref : EdgeRef)
  deriving DecidableEq

def kill (node : String) (progress : Progress α) : Progress α :=
  if node ∈ progress.state.dead then progress
  else { progress with state := progress.state.markDead node }

def settle (plan : Plan) (ref : EdgeRef) (status : Token) (progress : Progress α) : Progress α :=
  deliver plan kill ref status progress

def deadSignals (plan : Plan) (node : String) : List Signal :=
  (plan.forwardOut node).map (fun ref => Signal.token ref .dead)

def fallout (plan : Plan) (node : String) (before after : List String) : List Signal :=
  if node ∈ after ∧ node ∉ before then deadSignals plan node else []

inductive Cascade (plan : Plan) (output : Dict String α) :
    List Signal → Progress α → Progress α → Prop
  | done (progress : Progress α) : Cascade plan output [] progress progress
  | token {ref : EdgeRef} {status : Token} {rest : List Signal} {progress last : Progress α} :
      Cascade plan output
        (fallout plan ref.target progress.state.dead
          (settle plan ref status progress).state.dead ++ rest)
        (settle plan ref status progress) last →
      Cascade plan output (.token ref status :: rest) progress last
  | reactivate {ref : EdgeRef} {rest : List Signal} {progress last : Progress α} :
      Cascade plan output rest
        { progress with ready := progress.ready ++ [⟨ref.target, output⟩] } last →
      Cascade plan output (.reactivate ref :: rest) progress last

inductive Settled (plan : Plan) (ref : EdgeRef) (status : Token) (progress : Progress α) :
    Progress α → Prop
  | waiting (missing : ((progress.state.tokens ref.target).set ref status).size <
      (plan.forwardIn ref.target).length) :
      Settled plan ref status progress
        { progress with state := progress.state.putToken ref status }
  | fires (full : (plan.forwardIn ref.target).length ≤
        ((progress.state.tokens ref.target).set ref status).size)
      (alive : liveSources plan ref.target
        ((progress.state.tokens ref.target).set ref status) ≠ []) :
      Settled plan ref status progress
        { state := progress.state.setTokens ref.target Dict.empty
          ready := progress.ready ++ [⟨ref.target, mergeOutputs progress.state
            (liveSources plan ref.target ((progress.state.tokens ref.target).set ref status))⟩] }
  | dies (full : (plan.forwardIn ref.target).length ≤
        ((progress.state.tokens ref.target).set ref status).size)
      (pruned : liveSources plan ref.target
        ((progress.state.tokens ref.target).set ref status) = []) :
      Settled plan ref status progress
        (kill ref.target
          { progress with state := progress.state.setTokens ref.target Dict.empty })

section

variable (state : State α) (node : String) (tokens : Dict EdgeRef Token)

@[simp] theorem State.setTokens_dead : (state.setTokens node tokens).dead = state.dead := rfl

@[simp] theorem State.setTokens_nodeOutputs :
    (state.setTokens node tokens).nodeOutputs = state.nodeOutputs := rfl

@[simp] theorem State.setTokens_self : (state.setTokens node tokens).tokens node = tokens :=
  if_pos rfl

end

theorem State.setTokens_of_ne (state : State α) {node other : String}
    (tokens : Dict EdgeRef Token) (different : other ≠ node) :
    (state.setTokens node tokens).tokens other = state.tokens other :=
  if_neg different

@[simp] theorem State.setTokens_setTokens (state : State α) (node : String)
    (first second : Dict EdgeRef Token) :
    (state.setTokens node first).setTokens node second = state.setTokens node second := by
  unfold State.setTokens
  congr 1
  funext other
  by_cases same : other = node <;> simp [same]

/-- `_maybe_fire` after a token was put, by the branch taken. -/
theorem deliver_cases (plan : Plan) (propagate : String → Progress α → Progress α)
    (ref : EdgeRef) (status : Token) (progress : Progress α)
    (gated : ref ∈ plan.forwardIn ref.target) :
    ((((progress.state.tokens ref.target).set ref status).size <
        (plan.forwardIn ref.target).length) ∧
      deliver plan propagate ref status progress =
        { progress with state := progress.state.putToken ref status }) ∨
    (((plan.forwardIn ref.target).length ≤
        ((progress.state.tokens ref.target).set ref status).size) ∧
      liveSources plan ref.target ((progress.state.tokens ref.target).set ref status) ≠ [] ∧
      deliver plan propagate ref status progress =
        { state := progress.state.setTokens ref.target Dict.empty
          ready := progress.ready ++ [⟨ref.target, mergeOutputs progress.state
            (liveSources plan ref.target ((progress.state.tokens ref.target).set ref status))⟩] }) ∨
    (((plan.forwardIn ref.target).length ≤
        ((progress.state.tokens ref.target).set ref status).size) ∧
      liveSources plan ref.target ((progress.state.tokens ref.target).set ref status) = [] ∧
      deliver plan propagate ref status progress =
        propagate ref.target
          { progress with state := progress.state.setTokens ref.target Dict.empty }) := by
  have nonempty : plan.forwardIn ref.target ≠ [] := List.ne_nil_of_mem gated
  simp only [deliver, maybeFire, if_neg nonempty, State.putToken, State.setTokens_self,
    State.setTokens_setTokens]
  by_cases short : ((progress.state.tokens ref.target).set ref status).size <
      (plan.forwardIn ref.target).length
  · exact Or.inl ⟨short, if_pos short⟩
  · have full := Nat.le_of_not_lt short
    rw [if_neg short]
    by_cases alive : liveSources plan ref.target
        ((progress.state.tokens ref.target).set ref status) = []
    · exact Or.inr (Or.inr ⟨full, alive, if_neg (fun different => different alive)⟩)
    · refine Or.inr (Or.inl ⟨full, alive, ?_⟩)
      rw [if_pos alive]
      rfl

theorem settle_settled (plan : Plan) (ref : EdgeRef) (status : Token) (progress : Progress α)
    (gated : ref ∈ plan.forwardIn ref.target) :
    Settled plan ref status progress (settle plan ref status progress) := by
  unfold settle
  rcases deliver_cases plan kill ref status progress gated with
    ⟨short, equal⟩ | ⟨full, alive, equal⟩ | ⟨full, pruned, equal⟩
  · rw [equal]
    exact .waiting short
  · rw [equal]
    exact .fires full alive
  · rw [equal]
    exact .dies full pruned

/-! ### Counting tokens -/

theorem exists_missing (dict : Dict EdgeRef Token) (refs : List EdgeRef) (distinct : refs.Nodup)
    (short : dict.size < refs.length) : ∃ ref ∈ refs, dict.lookup ref = none := by
  by_contra complete
  have within : refs ⊆ dict.keys := by
    intro ref member
    by_contra absent
    exact complete ⟨ref, member, (dict.lookup_eq_none ref).mpr absent⟩
  have bound := (List.subperm_of_subset distinct within).length_le
  rw [Dict.size_eq_keys_length] at short
  omega

theorem present_of_full (dict : Dict EdgeRef Token) (refs : List EdgeRef)
    (within : dict.keys ⊆ refs) (full : refs.length ≤ dict.size) :
    ∀ ref ∈ refs, dict.lookup ref ≠ none := by
  intro ref member absent
  rw [Dict.size_eq_keys_length] at full
  have perm := (List.subperm_of_subset dict.distinct within).perm_of_length_le full
  exact (dict.lookup_eq_none ref).mp absent (perm.mem_iff.mpr member)

theorem keys_set_subset (dict : Dict EdgeRef Token) (refs : List EdgeRef) (ref : EdgeRef)
    (status : Token) (within : dict.keys ⊆ refs) (member : ref ∈ refs) :
    (dict.set ref status).keys ⊆ refs := by
  intro other present
  rcases (dict.mem_keys_set ref other status).mp present with same | old
  · rw [same]
    exact member
  · exact within old

theorem mem_keys_putToken (state : State α) (ref other : EdgeRef) (status : Token) (node : String) :
    other ∈ ((state.putToken ref status).tokens node).keys ↔
      (node = ref.target ∧ other = ref) ∨ other ∈ (state.tokens node).keys := by
  by_cases same : node = ref.target
  · subst same
    rw [State.putToken, State.setTokens_self, Dict.mem_keys_set]
    simp
  · rw [State.putToken, State.setTokens_of_ne _ _ same]
    simp [same]

theorem mem_keys_consumed (state : State α) (node other : String) (ref : EdgeRef) :
    ref ∈ ((state.setTokens node Dict.empty).tokens other).keys ↔
      other ≠ node ∧ ref ∈ (state.tokens other).keys := by
  by_cases same : other = node
  · subst same
    simp
  · rw [State.setTokens_of_ne _ _ same]
    simp [same]

/-! ### The nested calls run the agenda -/

theorem Cascade.append {plan : Plan} {output : Dict String α} {first second : List Signal}
    {progress middle last : Progress α} (left : Cascade plan output first progress middle)
    (right : Cascade plan output second middle last) :
    Cascade plan output (first ++ second) progress last := by
  induction left with
  | done _ => exact right
  | token _ ih =>
      apply Cascade.token
      have joined := ih right
      rw [List.append_assoc] at joined
      exact joined
  | reactivate _ ih => exact Cascade.reactivate (ih right)

theorem kill_dead (node : String) (progress : Progress α) :
    progress.state.dead ⊆ (kill node progress).state.dead := by
  unfold kill
  split
  · exact List.Subset.refl _
  · exact List.subset_append_left _ _

theorem Settled.dead_subset {plan : Plan} {ref : EdgeRef} {status : Token}
    {progress after : Progress α} (settled : Settled plan ref status progress after) :
    progress.state.dead ⊆ after.state.dead := by
  cases settled with
  | waiting _ => exact List.Subset.refl _
  | fires _ _ => exact List.Subset.refl _
  | dies _ _ =>
      exact kill_dead ref.target
        { progress with state := progress.state.setTokens ref.target Dict.empty }

def undead (plan : Plan) (dead : List String) : Nat :=
  ((nodeIds plan.nodes).filter (fun node => decide (node ∉ dead))).length

theorem undead_anti (plan : Plan) {before after : List String} (grows : before ⊆ after) :
    undead plan after ≤ undead plan before := by
  apply List.Sublist.length_le
  apply List.monotone_filter_right
  intro node absent
  simp only [decide_eq_true_eq] at absent ⊢
  exact fun member => absent (grows member)

theorem undead_mark_lt (plan : Plan) (dead : List String) (node : String)
    (known : node ∈ nodeIds plan.nodes) (alive : node ∉ dead) :
    undead plan (dead ++ [node]) < undead plan dead := by
  unfold undead
  have nested : (nodeIds plan.nodes).filter (fun other => decide (other ∉ dead ++ [node])) =
      ((nodeIds plan.nodes).filter (fun other => decide (other ∉ dead))).filter
        (fun other => decide (other ≠ node)) := by
    rw [List.filter_filter]
    apply List.filter_congr
    intro other _
    simp only [List.mem_append, List.mem_singleton, not_or, ne_eq, Bool.decide_and, Bool.and_comm]
  rw [nested]
  apply List.length_filter_lt_length_iff_exists.mpr
  exact ⟨node, List.mem_filter.mpr ⟨known, by simpa using alive⟩, by simp⟩

theorem undead_le_depth (plan : Plan) (dead : List String) : undead plan dead ≤ depth plan := by
  unfold undead depth
  rw [← List.length_map WorkflowNode.id]
  exact List.length_filter_le _ _

theorem undead_pos (plan : Plan) (dead : List String) (node : String)
    (known : node ∈ nodeIds plan.nodes) (alive : node ∉ dead) : 0 < undead plan dead := by
  exact List.length_pos_of_mem (List.mem_filter.mpr ⟨known, decide_eq_true alive⟩)

theorem fallout_of_subset (plan : Plan) (node : String) (before after : List String)
    (same : after ⊆ before) : fallout plan node before after = [] := by
  unfold fallout
  rw [if_neg]
  intro new
  exact new.2 (same new.1)

theorem fallout_kill (plan : Plan) (node : String) (progress : Progress α) :
    fallout plan node progress.state.dead (kill node progress).state.dead =
      if node ∈ progress.state.dead then [] else deadSignals plan node := by
  unfold fallout kill
  by_cases before : node ∈ progress.state.dead
  · simp [before]
  · simp [before, State.markDead]

theorem Cascade.dead_subset {plan : Plan} {output : Dict String α} {agenda : List Signal}
    {progress last : Progress α} (cascade : Cascade plan output agenda progress last)
    (gated : ∀ ref status, Signal.token ref status ∈ agenda → ref ∈ plan.forwardIn ref.target) :
    progress.state.dead ⊆ last.state.dead := by
  induction cascade with
  | done _ => exact List.Subset.refl _
  | @token ref status rest progress last _ ih =>
      have settled := settle_settled plan ref status progress
        (gated ref status List.mem_cons_self)
      apply List.Subset.trans settled.dead_subset
      apply ih
      intro other shade member
      rcases List.mem_append.mp member with fallen | later
      · unfold fallout at fallen
        split at fallen
        · obtain ⟨edge, outgoing, equal⟩ := List.mem_map.mp fallen
          cases equal
          obtain ⟨known, _, forward⟩ := (plan.mem_forwardOut _ _).mp outgoing
          exact (plan.mem_forwardIn _ _).mpr ⟨known, rfl, forward⟩
        · cases fallen
      · exact gated other shade (List.mem_cons_of_mem _ later)
  | reactivate _ ih =>
      apply ih
      intro other shade member
      exact gated other shade (List.mem_cons_of_mem _ member)

theorem Cascade.dead_subset_token {plan : Plan} {output : Dict String α} {ref : EdgeRef}
    {status : Token} {progress last : Progress α}
    (cascade : Cascade plan output [.token ref status] progress last)
    (gated : ref ∈ plan.forwardIn ref.target) : progress.state.dead ⊆ last.state.dead := by
  apply cascade.dead_subset
  intro other status member
  cases List.mem_singleton.mp member
  exact gated

section

variable (plan : Plan)

section

variable (output : Dict String α) (fuel : Nat)
  (nested : ∀ node (progress : Progress α), node ∈ nodeIds plan.nodes →
    undead plan progress.state.dead ≤ fuel →
      Cascade plan output (if node ∈ progress.state.dead then [] else deadSignals plan node)
        (kill node progress) (propagateDead plan fuel node progress))
include nested

private theorem deliver_cascade (ref : EdgeRef) (status : Token) (progress : Progress α)
    (gated : ref ∈ plan.forwardIn ref.target) (bound : undead plan progress.state.dead ≤ fuel) :
    Cascade plan output [.token ref status] progress
      (deliver plan (propagateDead plan fuel) ref status progress) := by
  apply Cascade.token
  rw [List.append_nil]
  have known := plan.targets ref ((plan.mem_forwardIn _ _).mp gated).1
  have quiet := fallout_of_subset plan ref.target progress.state.dead progress.state.dead
    (List.Subset.refl _)
  rcases deliver_cases plan kill ref status progress gated with
    ⟨short, equal⟩ | ⟨full, alive, equal⟩ | ⟨full, pruned, equal⟩
  · rcases deliver_cases plan (propagateDead plan fuel) ref status progress gated with
      ⟨_, same⟩ | ⟨full, _⟩ | ⟨full, _⟩
    · rw [settle, equal, same]
      change Cascade plan output
        (fallout plan ref.target progress.state.dead progress.state.dead) _ _
      rw [quiet]
      exact Cascade.done _
    · omega
    · omega
  · rcases deliver_cases plan (propagateDead plan fuel) ref status progress gated with
      ⟨short, _⟩ | ⟨_, _, same⟩ | ⟨_, pruned, _⟩
    · omega
    · rw [settle, equal, same]
      change Cascade plan output
        (fallout plan ref.target progress.state.dead progress.state.dead) _ _
      rw [quiet]
      exact Cascade.done _
    · exact absurd pruned alive
  · rcases deliver_cases plan (propagateDead plan fuel) ref status progress gated with
      ⟨short, _⟩ | ⟨_, alive, _⟩ | ⟨_, _, same⟩
    · omega
    · exact absurd pruned alive
    · rw [settle, equal, same]
      have fallen := fallout_kill plan ref.target
        { progress with state := progress.state.setTokens ref.target Dict.empty }
      simp only [State.setTokens_dead] at fallen
      rw [fallen]
      exact nested ref.target
        { progress with state := progress.state.setTokens ref.target Dict.empty } known bound

private theorem foldl_deliver_cascade (refs : List EdgeRef)
    (known : ∀ ref ∈ refs, ref ∈ plan.edges) (progress : Progress α)
    (bound : undead plan progress.state.dead ≤ fuel) :
    Cascade plan output
      ((refs.filter (fun ref => !plan.isBack ref)).map (fun ref => Signal.token ref .dead)) progress
      (refs.foldl
        (fun current ref =>
          if plan.isBack ref then current
          else deliver plan (propagateDead plan fuel) ref .dead current) progress) := by
  induction refs generalizing progress with
  | nil => exact Cascade.done _
  | cons ref rest ih =>
      have later := fun other member => known other (List.mem_cons_of_mem ref member)
      cases back : plan.isBack ref with
      | true =>
          simp only [List.foldl_cons, back, List.filter_cons, Bool.not_true, if_true]
          exact ih later progress bound
      | false =>
          simp only [List.foldl_cons, back, List.filter_cons, Bool.not_false, if_true,
            Bool.false_eq_true, if_false, List.map_cons]
          have forward : ref ∉ plan.backEdges := by
            intro member
            rw [(plan.isBack_iff ref).mpr member] at back
            cases back
          have gated : ref ∈ plan.forwardIn ref.target :=
            (plan.mem_forwardIn _ _).mpr ⟨known ref List.mem_cons_self, rfl, forward⟩
          have first := deliver_cascade plan output fuel nested ref .dead progress gated bound
          have grows : progress.state.dead ⊆
              (deliver plan (propagateDead plan fuel) ref .dead progress).state.dead :=
            first.dead_subset_token gated
          exact first.append (ih later _ (Nat.le_trans (undead_anti plan grows) bound))

end

theorem propagateDead_cascade (output : Dict String α) (fuel : Nat) (node : String)
    (progress : Progress α) (known : node ∈ nodeIds plan.nodes)
    (bound : undead plan progress.state.dead ≤ fuel) :
    Cascade plan output (if node ∈ progress.state.dead then [] else deadSignals plan node)
      (kill node progress) (propagateDead plan fuel node progress) := by
  induction fuel generalizing node progress with
  | zero =>
      have dead : node ∈ progress.state.dead := by
        by_contra alive
        have positive := undead_pos plan progress.state.dead node known alive
        omega
      simp only [kill, propagateDead, if_pos dead]
      exact Cascade.done _
  | succ fuel ih =>
      by_cases dead : node ∈ progress.state.dead
      · simp only [kill, propagateDead, if_pos dead]
        exact Cascade.done _
      · simp only [kill, propagateDead, if_neg dead]
        apply foldl_deliver_cascade plan output fuel ih
        · intro ref outgoing
          exact ((plan.mem_out node ref).mp outgoing).1
        · have fewer := undead_mark_lt plan progress.state.dead node known dead
          change undead plan (progress.state.dead ++ [node]) ≤ fuel
          omega

theorem deliver_dead_subset (fuel : Nat) {ref : EdgeRef} (status : Token) {progress : Progress α}
    (gated : ref ∈ plan.forwardIn ref.target) (bound : undead plan progress.state.dead ≤ fuel) :
    progress.state.dead ⊆
      (deliver plan (propagateDead plan fuel) ref status progress).state.dead :=
  (deliver_cascade plan Dict.empty fuel
    (fun node progress known bound => propagateDead_cascade plan _ _ node progress known bound)
    ref status progress gated bound).dead_subset_token gated

theorem send_cascade (output : Dict String α) (ref : EdgeRef) (status : Token)
    (progress : Progress α) (gated : ref ∈ plan.forwardIn ref.target) :
    Cascade plan output [.token ref status] progress (send plan ref status progress) :=
  deliver_cascade plan output (depth plan)
    (fun node progress known bound => propagateDead_cascade plan output _ node progress known bound)
    ref status progress gated (undead_le_depth plan _)

/-! ### The signals of a completion -/

def followSignal (plan : Plan) (ref : EdgeRef) : Signal :=
  if plan.isBack ref then .reactivate ref else .token ref .live

def rejectedEdges (plan : Plan) (node : String) (branchIndex : Int) : List EdgeRef :=
  (plan.forwardOut node).filter (fun ref => decide (ref ∉ selectedEdges plan node branchIndex))

def completionSignals (plan : Plan) (node : String) : Option Int → List Signal
  | none => (plan.out node).map (followSignal plan)
  | some index =>
      (selectedEdges plan node index).map (followSignal plan) ++
        if (selectedEdges plan node index).any plan.isBack then []
        else (rejectedEdges plan node index).map (fun ref => Signal.token ref .dead)

private theorem follow_cascade (output : Dict String α) (ref : EdgeRef) (known : ref ∈ plan.edges)
    (progress : Progress α) :
    Cascade plan output [followSignal plan ref] progress (follow plan output ref progress) := by
  cases back : plan.isBack ref with
  | true =>
      simp only [followSignal, follow, back, if_true]
      exact Cascade.reactivate (Cascade.done _)
  | false =>
      simp only [followSignal, follow, back, Bool.false_eq_true, if_false]
      apply send_cascade
      apply (plan.mem_forwardIn _ _).mpr
      refine ⟨known, rfl, ?_⟩
      intro member
      rw [(plan.isBack_iff ref).mpr member] at back
      cases back

private theorem foldl_follow_cascade (output : Dict String α) (refs : List EdgeRef)
    (known : ∀ ref ∈ refs, ref ∈ plan.edges) (progress : Progress α) :
    Cascade plan output (refs.map (followSignal plan)) progress
      (refs.foldl (fun current ref => follow plan output ref current) progress) := by
  induction refs generalizing progress with
  | nil => exact Cascade.done _
  | cons ref rest ih =>
      have first := follow_cascade plan output ref (known ref List.mem_cons_self) progress
      exact first.append (ih (fun other member => known other (List.mem_cons_of_mem _ member)) _)

private theorem foldl_reject_cascade (output : Dict String α) (selected refs : List EdgeRef)
    (known : ∀ ref ∈ refs, ref ∈ plan.edges) (progress : Progress α) :
    Cascade plan output
      (((refs.filter (fun ref => !plan.isBack ref)).filter
        (fun ref => decide (ref ∉ selected))).map (fun ref => Signal.token ref .dead)) progress
      (refs.foldl
        (fun current ref =>
          if ref ∈ selected || plan.isBack ref then current
          else send plan ref .dead current) progress) := by
  induction refs generalizing progress with
  | nil => exact Cascade.done _
  | cons ref rest ih =>
      have later := fun other member => known other (List.mem_cons_of_mem ref member)
      by_cases chosen : ref ∈ selected
      · cases back : plan.isBack ref <;>
          simpa [List.filter_cons, chosen, back] using ih later progress
      · cases back : plan.isBack ref with
        | true => simpa [List.filter_cons, chosen, back] using ih later progress
        | false =>
            have forward : ref ∉ plan.backEdges := by
              intro member
              rw [(plan.isBack_iff ref).mpr member] at back
              cases back
            have first := send_cascade plan output ref .dead progress
              ((plan.mem_forwardIn _ _).mpr ⟨known ref List.mem_cons_self, rfl, forward⟩)
            have both := first.append (ih later (send plan ref .dead progress))
            simpa [List.filter_cons, chosen, back] using both

theorem completeProgress_cascade (state : State α) (node : String) (output : Dict String α)
    (branchIndex : Option Int) :
    Cascade plan output (completionSignals plan node branchIndex)
      ⟨state.recordOutput node output, []⟩
      (completeProgress plan state node output branchIndex) := by
  have known : ∀ ref ∈ plan.out node, ref ∈ plan.edges :=
    fun ref outgoing => ((plan.mem_out node ref).mp outgoing).1
  cases branchIndex with
  | none => exact foldl_follow_cascade plan output (plan.out node) known _
  | some index =>
      have chosen : ∀ ref ∈ selectedEdges plan node index, ref ∈ plan.edges :=
        fun ref member => known ref (List.mem_filter.mp member).1
      have followed := foldl_follow_cascade plan output (selectedEdges plan node index) chosen
        ⟨state.recordOutput node output, []⟩
      cases back : (selectedEdges plan node index).any plan.isBack with
      | true =>
          simp only [completionSignals, completeProgress, back, if_true, ite_self, List.append_nil]
          rw [List.foldl_fixed]
          exact followed
      | false =>
          simp only [completionSignals, completeProgress, back, Bool.false_eq_true, if_false]
          exact followed.append
            (foldl_reject_cascade plan output (selectedEdges plan node index) (plan.out node)
              known _)

/-- The executor never passes `is_terminal`; a node without outgoing edges needs no case of
its own. -/
theorem complete_eq (state : State α) (node : String) (output : Dict String α)
    (branchIndex : Option Int) :
    (complete plan state node output branchIndex false).1 =
        (completeProgress plan state node output branchIndex).state ∧
      (complete plan state node output branchIndex false).2.ready =
        (completeProgress plan state node output branchIndex).ready := by
  unfold complete
  cases empty : plan.out node with
  | nil =>
      cases branchIndex with
      | none => simp [completeProgress, empty]
      | some index => simp [completeProgress, selectedEdges, empty]
  | cons ref rest => simp

end

end Assemblix.DagScheduler
