import Assemblix.Library.GraphImage
import Assemblix.Execution.DagSchedulerAcyclic

/-
Two schedulers of which one knows only what can be reached.

The copy keeps the edges whose source can be reached, under other references. As long as no
dropped edge leads into the part that can be reached, the start node apart, the two hold the same
tokens on the nodes of that part, mark the same nodes dead and return the same nodes with the same
inputs at every completion.
-/

namespace Assemblix.DagScheduler

open Library

variable {α : Type}

/-! ### Two plans -/

structure Plan.Part (plan image : Plan) (reached : List String) (rename : EdgeRef → EdgeRef) :
    Prop where
  start : image.start = plan.start
  members : ∀ node, node ∈ reached ↔ plan.graph.Reaches plan.start node
  edges : image.edges = (plan.edges.filter (fun ref => decide (ref.source ∈ reached))).map rename
  edge : ∀ ref ∈ plan.edges, ref.source ∈ reached → (rename ref).edge = ref.edge

structure Plan.Copy (plan image : Plan) (reached : List String) (rename : EdgeRef → EdgeRef) : Prop
    extends plan.Part image reached rename where
  back : ∀ ref ∈ plan.edges, ref.source ∈ reached →
    image.isBack (rename ref) = plan.isBack ref

/-- No edge that leaves an unreachable node leads to a node that can be reached, the start node
apart. -/
def Plan.Sealed (plan : Plan) (reached : List String) : Prop :=
  ∀ ref ∈ plan.edges, ref.target ∈ reached → ref.target ≠ plan.start → ref.source ∈ reached

section Plans

variable {plan image : Plan} {reached : List String} {rename : EdgeRef → EdgeRef}

namespace Plan.Part

section

variable (part : plan.Part image reached rename)
include part

theorem source {ref : EdgeRef} (known : ref ∈ plan.edges) (within : ref.source ∈ reached) :
    (rename ref).source = ref.source :=
  congrArg Edge.source (part.edge ref known within)

theorem target {ref : EdgeRef} (known : ref ∈ plan.edges) (within : ref.source ∈ reached) :
    (rename ref).target = ref.target :=
  congrArg Edge.target (part.edge ref known within)

theorem apart {left right : EdgeRef} (leftKnown : left ∈ plan.edges)
    (leftWithin : left.source ∈ reached) (rightKnown : right ∈ plan.edges)
    (rightWithin : right.source ∈ reached) (same : rename left = rename right) : left = right := by
  have distinct := image.distinct
  rw [part.edges] at distinct
  exact List.inj_on_of_nodup_map distinct
    (List.mem_filter.mpr ⟨leftKnown, decide_eq_true leftWithin⟩)
    (List.mem_filter.mpr ⟨rightKnown, decide_eq_true rightWithin⟩) same

theorem rooted : plan.start ∈ reached :=
  (part.members _).mpr .refl

theorem target_reached {ref : EdgeRef} (known : ref ∈ plan.edges) (within : ref.source ∈ reached) :
    ref.target ∈ reached :=
  (part.members _).mpr (((part.members _).mp within).tail
    ⟨ref, (plan.mem_out _ _).mpr ⟨known, rfl⟩, rfl⟩)

theorem out {node : String} (within : node ∈ reached) :
    image.out node = (plan.out node).map rename := by
  have leaving : (plan.edges.filter (fun ref => decide (ref.source ∈ reached))).filter
      (fun ref => decide ((rename ref).source = node)) =
        plan.edges.filter (fun ref => decide (ref.source = node)) := by
    rw [List.filter_filter]
    apply List.filter_congr
    intro ref known
    by_cases inside : ref.source ∈ reached
    · rw [part.source known inside, decide_eq_true inside, Bool.and_true]
    · have other : ref.source ≠ node := fun same => inside (same ▸ within)
      rw [decide_eq_false inside, Bool.and_false, decide_eq_false other]
  rw [Plan.out, outEdges, part.edges, List.filter_map, Plan.out, outEdges, ← leaving]
  rfl

end

end Plan.Part

namespace Plan.Copy

theorem out_known {node : String} {ref : EdgeRef} (outgoing : ref ∈ plan.out node)
    (within : node ∈ reached) : ref ∈ plan.edges ∧ ref.source ∈ reached := by
  obtain ⟨known, source⟩ := (plan.mem_out node ref).mp outgoing
  exact ⟨known, source ▸ within⟩

theorem forwardOut (copy : plan.Copy image reached rename) {node : String}
    (within : node ∈ reached) : image.forwardOut node = (plan.forwardOut node).map rename := by
  rw [Plan.forwardOut, copy.out within, List.filter_map, Plan.forwardOut]
  congr 1
  apply List.filter_congr
  intro ref outgoing
  obtain ⟨known, inside⟩ := out_known outgoing within
  simp only [Function.comp_apply, copy.back ref known inside]

theorem forwardIn (copy : plan.Copy image reached rename) (closed : plan.Sealed reached)
    {node : String} (within : node ∈ reached) (later : node ≠ plan.start) :
    image.forwardIn node = (plan.forwardIn node).map rename := by
  have incoming : ∀ ref ∈ plan.edges,
      (decide (ref.source ∈ reached) && decide ((rename ref).target = node) &&
        !image.isBack (rename ref)) = (decide (ref.target = node) && !plan.isBack ref) := by
    intro ref known
    by_cases inside : ref.source ∈ reached
    · rw [decide_eq_true inside, Bool.true_and, copy.target known inside, copy.back ref known inside]
    · have other : ref.target ≠ node :=
        fun same => inside (closed ref known (same ▸ within) (same ▸ later))
      rw [decide_eq_false inside, decide_eq_false other]
      simp only [Bool.false_and]
  rw [Plan.forwardIn, inEdges, copy.edges, List.filter_filter, List.filter_map, List.filter_filter,
    Plan.forwardIn, inEdges, List.filter_filter]
  congr 1
  apply List.filter_congr
  intro ref known
  have same := incoming ref known
  simp only [Function.comp_apply, Bool.and_comm, Bool.and_assoc] at same ⊢
  exact same

theorem target_ne_start (copy : plan.Copy image reached rename) {ref : EdgeRef}
    (known : ref ∈ plan.edges) (within : ref.source ∈ reached) (forward : ref ∉ plan.backEdges) :
    ref.target ≠ plan.start := by
  intro looped
  obtain ⟨rank, descends⟩ := plan.classified.descending
  have path := plan.classified.spanning _ ((copy.members _).mp within)
  have below : rank ref.source ≤ rank plan.start := by
    have lower : ∀ last, plan.graph.ReachesOff plan.backEdges plan.start last →
        rank last ≤ rank plan.start := by
      intro last way
      induction way with
      | refl => exact Nat.le_refl _
      | tail before step ih =>
          obtain ⟨edge, outgoing, off, rfl⟩ := step
          exact Nat.le_trans (Nat.le_of_lt (descends _ (Multigraph.ReachesOff.reaches before) edge outgoing off)) ih
    exact lower _ path
  have strict := descends ref.source ((copy.members _).mp within) ref
    ((plan.mem_out _ _).mpr ⟨known, rfl⟩) forward
  change rank ref.target < rank ref.source at strict
  rw [looped] at strict
  omega

end Plan.Copy

end Plans

/-! ### Two states -/

/-- The copy holds the same tokens on the nodes that can be reached, and nothing else differs. -/
structure State.Copied (plan : Plan) (reached : List String) (rename : EdgeRef → EdgeRef)
    (state image : State α) : Prop where
  tokens : ∀ node ∈ reached, node ≠ plan.start →
    Dict.Renamed rename (state.tokens node) (image.tokens node)
  gated : ∀ node ∈ reached, node ≠ plan.start →
    (state.tokens node).keys ⊆ plan.forwardIn node
  outputs : image.nodeOutputs = state.nodeOutputs
  dead : image.dead = state.dead

structure Progress.Copied (plan : Plan) (reached : List String) (rename : EdgeRef → EdgeRef)
    (progress image : Progress α) : Prop where
  state : State.Copied plan reached rename progress.state image.state
  ready : image.ready = progress.ready
  within : ∀ entry ∈ progress.ready, entry.nodeId ∈ reached

section States

variable {plan image : Plan} {reached : List String} {rename : EdgeRef → EdgeRef}
variable {state pictured : State α} {progress imaged : Progress α}

theorem State.Copied.initial :
    State.Copied plan reached rename (State.initial : State α) State.initial where
  tokens := fun _ _ _ => Dict.Renamed.empty
  gated := fun _ _ _ => by simp [State.initial]
  outputs := rfl
  dead := rfl

section

variable (copied : State.Copied plan reached rename state pictured)
include copied

theorem State.Copied.recordOutput (node : String) (output : Dict String α) :
    State.Copied plan reached rename (state.recordOutput node output)
      (pictured.recordOutput node output) where
  tokens := copied.tokens
  gated := copied.gated
  outputs := by
    simp only [State.recordOutput, copied.outputs]
  dead := copied.dead

theorem State.Copied.markDead (node : String) :
    State.Copied plan reached rename (state.markDead node) (pictured.markDead node) where
  tokens := copied.tokens
  gated := copied.gated
  outputs := copied.outputs
  dead := by
    simp only [State.markDead, copied.dead]

theorem State.Copied.setTokens (node : String) {tokens others : Dict EdgeRef Token}
    (renamed : Dict.Renamed rename tokens others) (inside : tokens.keys ⊆ plan.forwardIn node) :
    State.Copied plan reached rename (state.setTokens node tokens)
      (pictured.setTokens node others) where
  tokens := by
    intro other within later
    by_cases same : other = node
    · rw [same, State.setTokens_self, State.setTokens_self]
      exact renamed
    · rw [State.setTokens_of_ne _ _ same, State.setTokens_of_ne _ _ same]
      exact copied.tokens other within later
  gated := by
    intro other within later
    by_cases same : other = node
    · rw [same, State.setTokens_self]
      exact inside
    · rw [State.setTokens_of_ne _ _ same]
      exact copied.gated other within later
  outputs := copied.outputs
  dead := copied.dead

theorem State.Copied.mergeOutputs {refs : List EdgeRef}
    (sources : ∀ ref ∈ refs, (rename ref).source = ref.source) :
    DagScheduler.mergeOutputs pictured (refs.map rename) =
      DagScheduler.mergeOutputs state refs := by
  unfold DagScheduler.mergeOutputs
  rw [List.foldl_map]
  apply List.foldl_ext
  intro merged ref member
  rw [copied.outputs, sources ref member]

theorem State.Copied.put (copy : plan.Copy image reached rename) (closed : plan.Sealed reached)
    {ref : EdgeRef} (known : ref ∈ plan.edges) (within : ref.source ∈ reached)
    (forward : ref ∉ plan.backEdges) (status : Token) :
    Dict.Renamed rename ((state.tokens ref.target).set ref status)
        ((pictured.tokens ref.target).set (rename ref) status) ∧
      ((state.tokens ref.target).set ref status).keys ⊆ plan.forwardIn ref.target := by
  have target := copy.target_reached known within
  have later := copy.target_ne_start known within forward
  have gated := copied.gated ref.target target later
  constructor
  · apply (copied.tokens ref.target target later).set status
    intro other present same
    obtain ⟨otherKnown, atTarget, _⟩ := (plan.mem_forwardIn _ _).mp (gated present)
    exact copy.apart otherKnown (closed other otherKnown (atTarget ▸ target) (atTarget ▸ later))
      known within same
  · exact keys_set_subset _ _ _ _ gated ((plan.mem_forwardIn _ _).mpr ⟨known, rfl, forward⟩)

end

theorem liveSources_copied (copy : plan.Copy image reached rename) (closed : plan.Sealed reached)
    {node : String} (within : node ∈ reached) (later : node ≠ plan.start)
    {tokens others : Dict EdgeRef Token} (renamed : Dict.Renamed rename tokens others)
    (inside : tokens.keys ⊆ plan.forwardIn node) :
    liveSources image node others = (liveSources plan node tokens).map rename := by
  have entered : ∀ ref ∈ plan.forwardIn node, ref ∈ plan.edges ∧ ref.source ∈ reached := by
    intro ref incoming
    obtain ⟨known, atNode, _⟩ := (plan.mem_forwardIn _ _).mp incoming
    exact ⟨known, closed ref known (atNode ▸ within) (atNode ▸ later)⟩
  rw [liveSources, copy.forwardIn closed within later, List.filter_map, liveSources]
  congr 1
  apply List.filter_congr
  intro ref incoming
  have same : others.lookup (rename ref) = tokens.lookup ref := by
    apply renamed.lookup
    intro other present equal
    obtain ⟨known, source⟩ := entered ref incoming
    obtain ⟨otherKnown, otherSource⟩ := entered other (inside present)
    exact copy.apart otherKnown otherSource known source equal
  simp only [Function.comp_apply, same]

theorem kill_copied (copied : Progress.Copied plan reached rename progress imaged)
    (node : String) :
    Progress.Copied plan reached rename (kill node progress) (kill node imaged) := by
  unfold kill
  rw [copied.state.dead]
  split
  · exact copied
  · exact ⟨copied.state.markDead node, copied.ready, copied.within⟩

/-- One delivery is seen alike. -/
theorem settle_copied (copy : plan.Copy image reached rename) (closed : plan.Sealed reached)
    {ref : EdgeRef} (known : ref ∈ plan.edges) (within : ref.source ∈ reached)
    (forward : ref ∉ plan.backEdges) (status : Token)
    (copied : Progress.Copied plan reached rename progress imaged) :
    Progress.Copied plan reached rename (settle plan ref status progress)
      (settle image (rename ref) status imaged) := by
  have target := copy.target_reached known within
  have later := copy.target_ne_start known within forward
  have sameTarget := copy.target known within
  have gate := copy.forwardIn closed target later
  obtain ⟨renamed, inside⟩ := copied.state.put copy closed known within forward status
  have alive := liveSources_copied copy closed target later renamed inside
  have entered : ∀ other ∈ liveSources plan ref.target
      ((progress.state.tokens ref.target).set ref status), (rename other).source = other.source := by
    intro other live
    obtain ⟨otherKnown, atTarget, _⟩ := (plan.mem_forwardIn _ _).mp (List.mem_filter.mp live).1
    exact copy.source otherKnown (closed other otherKnown (atTarget ▸ target) (atTarget ▸ later))
  have cleared : (Dict.empty : Dict EdgeRef Token).keys ⊆ plan.forwardIn ref.target := by simp
  simp only [settle, deliver, maybeFire, State.putToken, State.setTokens_self,
    State.setTokens_setTokens, sameTarget, gate, List.map_eq_nil_iff, List.length_map, renamed.size,
    alive, ne_eq]
  by_cases ungated : plan.forwardIn ref.target = []
  · rw [if_pos ungated, if_pos ungated]
    exact ⟨copied.state.setTokens ref.target renamed inside, copied.ready, copied.within⟩
  · rw [if_neg ungated, if_neg ungated]
    by_cases short : ((progress.state.tokens ref.target).set ref status).size <
        (plan.forwardIn ref.target).length
    · rw [if_pos short, if_pos short]
      exact ⟨copied.state.setTokens ref.target renamed inside, copied.ready, copied.within⟩
    · rw [if_neg short, if_neg short]
      have consumed := copied.state.setTokens ref.target Dict.Renamed.empty cleared
      by_cases pruned : liveSources plan ref.target
          ((progress.state.tokens ref.target).set ref status) = []
      · rw [if_neg (not_not.mpr pruned), if_neg (not_not.mpr pruned)]
        have emptied : Progress.Copied plan reached rename
            { progress with state := progress.state.setTokens ref.target Dict.empty }
            { imaged with state := imaged.state.setTokens ref.target Dict.empty } :=
          ⟨consumed, copied.ready, copied.within⟩
        exact kill_copied emptied ref.target
      · rw [if_pos pruned, if_pos pruned]
        refine ⟨consumed, ?_, ?_⟩
        · dsimp only
          rw [consumed.mergeOutputs entered, copied.ready]
        · intro entry member
          rcases List.mem_append.mp member with before | fired
          · exact copied.within entry before
          · rw [List.mem_singleton.mp fired]
            exact target

end States

/-! ### Two completions -/

def Signal.renamed (rename : EdgeRef → EdgeRef) : Signal → Signal
  | .token ref status => .token (rename ref) status
  | .reactivate ref => .reactivate (rename ref)

def Signal.Within (plan : Plan) (reached : List String) : Signal → Prop
  | .token ref _ => ref ∈ plan.edges ∧ ref.source ∈ reached ∧ ref ∉ plan.backEdges
  | .reactivate ref => ref ∈ plan.edges ∧ ref.source ∈ reached

theorem Cascade.unique {plan : Plan} {output : Dict String α} {agenda : List Signal}
    {progress last other : Progress α} (cascade : Cascade plan output agenda progress last)
    (again : Cascade plan output agenda progress other) : last = other := by
  induction cascade with
  | done _ =>
      cases again
      rfl
  | token _ ih =>
      cases again with
      | token rest => exact ih rest
  | reactivate _ ih =>
      cases again with
      | reactivate rest => exact ih rest

section Completions

variable {plan image : Plan} {reached : List String} {rename : EdgeRef → EdgeRef}

theorem Signal.dead_within {node : String} (within : node ∈ reached) :
    ∀ signal ∈ deadSignals plan node, signal.Within plan reached := by
  intro signal member
  obtain ⟨ref, outgoing, rfl⟩ := List.mem_map.mp member
  obtain ⟨known, source, forward⟩ := (plan.mem_forwardOut _ _).mp outgoing
  exact ⟨known, source ▸ within, forward⟩

theorem fallout_renamed (copy : plan.Copy image reached rename) {node : String}
    (within : node ∈ reached) (before after : List String) :
    fallout image node before after =
      (fallout plan node before after).map (Signal.renamed rename) := by
  unfold fallout
  split
  · rw [deadSignals, copy.forwardOut within, List.map_map, deadSignals, List.map_map]
    rfl
  · rfl

theorem Signal.fallout_within {node : String} (within : node ∈ reached)
    (before after : List String) :
    ∀ signal ∈ fallout plan node before after, signal.Within plan reached := by
  intro signal member
  unfold fallout at member
  split at member
  · exact Signal.dead_within within signal member
  · cases member

theorem Cascade.copied (copy : plan.Copy image reached rename) (closed : plan.Sealed reached)
    {output : Dict String α} {agenda : List Signal} {progress last imaged : Progress α}
    (cascade : Cascade plan output agenda progress last)
    (inside : ∀ signal ∈ agenda, signal.Within plan reached)
    (copied : Progress.Copied plan reached rename progress imaged) :
    ∃ final, Cascade image output (agenda.map (Signal.renamed rename)) imaged final ∧
      Progress.Copied plan reached rename last final := by
  induction cascade generalizing imaged with
  | done _ => exact ⟨imaged, .done _, copied⟩
  | @token ref status rest progress last _ ih =>
      obtain ⟨⟨known, within, forward⟩, later⟩ := List.forall_mem_cons.mp inside
      have target := copy.target_reached known within
      have settled := settle_copied copy closed known within forward status copied
      obtain ⟨final, followed, ended⟩ := ih (by
        intro signal member
        rcases List.mem_append.mp member with fallen | waiting
        · exact Signal.fallout_within target _ _ signal fallen
        · exact later signal waiting) settled
      refine ⟨final, Cascade.token ?_, ended⟩
      rw [copy.target known within, copied.state.dead, settled.state.dead,
        fallout_renamed copy target, ← List.map_append]
      exact followed
  | @reactivate ref rest progress last _ ih =>
      obtain ⟨⟨known, within⟩, later⟩ := List.forall_mem_cons.mp inside
      have reactivated : Progress.Copied plan reached rename
          { progress with ready := progress.ready ++ [⟨ref.target, output⟩] }
          { imaged with ready := imaged.ready ++ [⟨(rename ref).target, output⟩] } := by
        refine ⟨copied.state, ?_, ?_⟩
        · dsimp only
          rw [copied.ready, copy.target known within]
        · intro entry member
          rcases List.mem_append.mp member with before | new
          · exact copied.within entry before
          · rw [List.mem_singleton.mp new]
            exact copy.target_reached known within
      obtain ⟨final, followed, ended⟩ := ih later reactivated
      exact ⟨final, Cascade.reactivate followed, ended⟩

theorem followSignal_renamed (copy : plan.Copy image reached rename) {ref : EdgeRef}
    (known : ref ∈ plan.edges) (within : ref.source ∈ reached) :
    followSignal image (rename ref) = (followSignal plan ref).renamed rename := by
  unfold followSignal
  rw [copy.back ref known within]
  split <;> rfl

theorem followSignal_within {ref : EdgeRef} (known : ref ∈ plan.edges)
    (within : ref.source ∈ reached) : (followSignal plan ref).Within plan reached := by
  unfold followSignal
  split
  · exact ⟨known, within⟩
  · rename_i forward
    exact ⟨known, within, fun back => forward ((plan.isBack_iff ref).mpr back)⟩

section

variable (copy : plan.Copy image reached rename)
include copy

theorem selectedEdges_renamed {node : String} (within : node ∈ reached) (index : Int) :
    selectedEdges image node index = (selectedEdges plan node index).map rename := by
  rw [selectedEdges, copy.out within, List.filter_map, selectedEdges]
  congr 1
  apply List.filter_congr
  intro ref outgoing
  obtain ⟨known, inside⟩ := Plan.Copy.out_known outgoing within
  simp only [Function.comp_apply, copy.edge ref known inside]

theorem rejectedEdges_renamed {node : String} (within : node ∈ reached) (index : Int) :
    rejectedEdges image node index = (rejectedEdges plan node index).map rename := by
  rw [rejectedEdges, copy.forwardOut within, List.filter_map, rejectedEdges]
  congr 1
  apply List.filter_congr
  intro ref outgoing
  obtain ⟨known, source, _⟩ := (plan.mem_forwardOut _ _).mp outgoing
  have inside : ref.source ∈ reached := source ▸ within
  have same : rename ref ∈ selectedEdges image node index ↔
      ref ∈ selectedEdges plan node index := by
    rw [selectedEdges_renamed copy within, List.mem_map]
    constructor
    · rintro ⟨other, chosen, equal⟩
      obtain ⟨otherKnown, otherInside⟩ :=
        Plan.Copy.out_known (List.mem_filter.mp chosen).1 within
      exact copy.apart otherKnown otherInside known inside equal ▸ chosen
    · exact fun chosen => ⟨ref, chosen, rfl⟩
  simp only [Function.comp_apply, same]

theorem selected_back {node : String} (within : node ∈ reached) (index : Int) :
    (selectedEdges image node index).any image.isBack =
      (selectedEdges plan node index).any plan.isBack := by
  rw [selectedEdges_renamed copy within, List.any_map]
  rw [Bool.eq_iff_iff, List.any_eq_true, List.any_eq_true]
  apply exists_congr
  intro ref
  apply and_congr_right
  intro chosen
  obtain ⟨known, inside⟩ := Plan.Copy.out_known (List.mem_filter.mp chosen).1 within
  rw [Function.comp_apply, copy.back ref known inside]

theorem map_followSignal_renamed {node : String} (within : node ∈ reached) {refs : List EdgeRef}
    (outgoing : ∀ ref ∈ refs, ref ∈ plan.out node) :
    (refs.map rename).map (followSignal image) =
      (refs.map (followSignal plan)).map (Signal.renamed rename) := by
  rw [List.map_map, List.map_map]
  apply List.map_congr_left
  intro ref member
  obtain ⟨known, inside⟩ := Plan.Copy.out_known (outgoing ref member) within
  exact followSignal_renamed copy known inside

theorem completionSignals_renamed {node : String} (within : node ∈ reached) (branch : Option Int) :
    completionSignals image node branch =
      (completionSignals plan node branch).map (Signal.renamed rename) := by
  cases branch with
  | none =>
      rw [completionSignals, copy.out within, completionSignals]
      exact map_followSignal_renamed copy within (fun _ outgoing => outgoing)
  | some index =>
      have chosen : ∀ ref ∈ selectedEdges plan node index, ref ∈ plan.out node :=
        fun _ member => (List.mem_filter.mp member).1
      rw [completionSignals, selected_back copy within, selectedEdges_renamed copy within,
        rejectedEdges_renamed copy within, completionSignals, List.map_append,
        map_followSignal_renamed copy within chosen]
      congr 1
      split
      · rfl
      · rw [List.map_map, List.map_map]
        rfl

end

theorem completionSignals_within {node : String} (within : node ∈ reached) (branch : Option Int) :
    ∀ signal ∈ completionSignals plan node branch, signal.Within plan reached := by
  have followed : ∀ refs : List EdgeRef, (∀ ref ∈ refs, ref ∈ plan.out node) →
      ∀ signal ∈ refs.map (followSignal plan), signal.Within plan reached := by
    intro refs outgoing signal member
    obtain ⟨ref, listed, rfl⟩ := List.mem_map.mp member
    obtain ⟨known, inside⟩ := Plan.Copy.out_known (outgoing ref listed) within
    exact followSignal_within known inside
  cases branch with
  | none => exact followed _ (fun _ outgoing => outgoing)
  | some index =>
      intro signal member
      rcases List.mem_append.mp member with chosen | left
      · exact followed _ (fun _ chosen => (List.mem_filter.mp chosen).1) signal chosen
      · split at left
        · cases left
        · obtain ⟨ref, rejected, rfl⟩ := List.mem_map.mp left
          obtain ⟨known, source, forward⟩ :=
            (plan.mem_forwardOut _ _).mp (List.mem_filter.mp rejected).1
          exact ⟨known, source ▸ within, forward⟩

theorem completeProgress_copied (copy : plan.Copy image reached rename)
    (closed : plan.Sealed reached) {state pictured : State α}
    (copied : State.Copied plan reached rename state pictured) {node : String}
    (within : node ∈ reached) (output : Dict String α) (branch : Option Int) :
    Progress.Copied plan reached rename (completeProgress plan state node output branch)
      (completeProgress image pictured node output branch) := by
  have recorded : Progress.Copied plan reached rename
      (⟨state.recordOutput node output, []⟩ : Progress α)
      ⟨pictured.recordOutput node output, []⟩ :=
    ⟨copied.recordOutput node output, rfl, fun _ member => absurd member List.not_mem_nil⟩
  obtain ⟨final, followed, ended⟩ :=
    (completeProgress_cascade plan state node output branch).copied copy closed
      (completionSignals_within within branch) recorded
  rw [← completionSignals_renamed copy within] at followed
  rw [(completeProgress_cascade image pictured node output branch).unique followed]
  exact ended

/-- `complete` on the copy returns what it returns on the whole graph. -/
theorem complete_copied (copy : plan.Copy image reached rename) (closed : plan.Sealed reached)
    {state pictured : State α} (copied : State.Copied plan reached rename state pictured)
    {node : String} (within : node ∈ reached) (output : Dict String α) (branch : Option Int)
    (terminal : Bool) :
    State.Copied plan reached rename (complete plan state node output branch terminal).1
        (complete image pictured node output branch terminal).1 ∧
      (complete image pictured node output branch terminal).2 =
        (complete plan state node output branch terminal).2 ∧
      ∀ entry ∈ (complete plan state node output branch terminal).2.ready,
        entry.nodeId ∈ reached := by
  have progressed := completeProgress_copied copy closed copied within output branch
  have counts : ∀ index, (selectedEdges image node index).length =
      (selectedEdges plan node index).length := by
    intro index
    rw [selectedEdges_renamed copy within, List.length_map]
  have leaves : (image.out node).length = (plan.out node).length := by
    rw [copy.out within, List.length_map]
  have sinks : (image.out node).isEmpty = (plan.out node).isEmpty := by
    rw [copy.out within, List.isEmpty_map]
  unfold complete
  rw [sinks]
  split
  · exact ⟨copied.recordOutput node output, rfl, fun _ member => absurd member List.not_mem_nil⟩
  · refine ⟨progressed.state, ?_, progressed.within⟩
    cases branch with
    | none => simp only [progressed.ready, leaves]
    | some index => simp only [progressed.ready, counts]

end Completions

/-! ### Two runs -/

structure Completion (α : Type) where
  position : Nat
  output : Dict String α
  branch : Option Int
  terminal : Bool

/-- One call of `complete`, with a choice of its own. -/
def Completion.behaviour (completion : Completion α) : Behaviour α where
  branch := fun _ => completion.branch
  output := fun _ _ => completion.output
  terminal := fun _ => completion.terminal

def Drive.take (plan : Plan) (drive : Drive α) (completion : Completion α) : Option (Drive α) :=
  (drive.inFlight[completion.position]?).map
    (drive.finish plan completion.behaviour completion.position)

/-- Everything that was returned as ready, in order and with its inputs, when the completions are
possible. -/
def produced (plan : Plan) (completions : List (Completion α)) : Option (List (ReadyNode α)) :=
  (completions.foldlM (Drive.take plan) (Drive.initial plan)).map Drive.fired

structure Drive.Copied (plan : Plan) (reached : List String) (rename : EdgeRef → EdgeRef)
    (drive image : Drive α) : Prop where
  state : State.Copied plan reached rename drive.state image.state
  inFlight : image.inFlight = drive.inFlight
  within : ∀ entry ∈ drive.inFlight, entry.nodeId ∈ reached
  fired : image.fired = drive.fired

section Runs

variable {plan image : Plan} {reached : List String} {rename : EdgeRef → EdgeRef}

theorem Drive.Copied.initial (copy : plan.Copy image reached rename) :
    Drive.Copied plan reached rename (Drive.initial plan : Drive α) (Drive.initial image) where
  state := State.Copied.initial
  inFlight := by
    simp only [Drive.initial, start, copy.start]
  within := by
    intro entry member
    rw [List.mem_singleton.mp member]
    exact copy.rooted
  fired := by
    simp only [Drive.initial, start, copy.start]

section

variable (copy : plan.Copy image reached rename) (closed : plan.Sealed reached)
include copy closed

theorem Drive.Copied.finish {drive imaged : Drive α}
    (copied : Drive.Copied plan reached rename drive imaged) (behaviour : Behaviour α)
    (position : Nat) {node : ReadyNode α} (within : node.nodeId ∈ reached) :
    Drive.Copied plan reached rename (drive.finish plan behaviour position node)
      (imaged.finish image behaviour position node) := by
  obtain ⟨state, same, inside⟩ := complete_copied copy closed copied.state within
    (behaviour.output node.nodeId node.inputData) (behaviour.branch node.nodeId)
    (behaviour.terminal node.nodeId)
  refine ⟨state, ?_, ?_, ?_⟩
  · simp only [Drive.finish, same, copied.inFlight]
  · intro entry member
    rcases List.mem_append.mp member with waiting | new
    · exact copied.within entry (List.eraseIdx_subset waiting)
    · exact inside entry new
  · simp only [Drive.finish, same, copied.fired]

theorem Drive.Copied.run (completions : List (Completion α)) {drive imaged : Drive α}
    (copied : Drive.Copied plan reached rename drive imaged) :
    (completions.foldlM (Drive.take image) imaged).map Drive.fired =
      (completions.foldlM (Drive.take plan) drive).map Drive.fired := by
  induction completions generalizing drive imaged with
  | nil => exact congrArg some copied.fired
  | cons completion rest ih =>
      rw [List.foldlM_cons, List.foldlM_cons, Drive.take, Drive.take, copied.inFlight]
      cases found : drive.inFlight[completion.position]? with
      | none =>
          rw [Option.map_none, Option.map_none, Option.bind_eq_bind, Option.bind_none,
            Option.bind_none]
      | some node =>
          exact ih (copied.finish copy closed completion.behaviour completion.position
            (copied.within node (List.mem_of_getElem? found)))

/-- Dropping what cannot be reached changes nothing, where nothing dropped leads back in. -/
theorem produced_copied (completions : List (Completion α)) :
    produced image completions = produced plan completions :=
  (Drive.Copied.initial copy).run copy closed completions

end

end Runs

end Assemblix.DagScheduler
