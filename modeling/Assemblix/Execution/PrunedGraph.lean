import Assemblix.Execution.DagSchedulerGate
import Assemblix.Execution.GraphAnalysis

/-
What cannot be reached from START, taken out of the graph.

The nodes that can be reached stay, and the edges whose source exists and can be reached. The
scheduler of the smaller graph is a copy of the part of the whole scheduler that ever runs.
-/

namespace Assemblix.DagScheduler

open Library

variable {α : Type}

def reachedNodes (nodes : List WorkflowNode) (edges : List Edge) (startNodeId : String) :
    List String :=
  Worklist.explore (GraphAnalysis.successors nodes edges) (GraphAnalysis.turns nodes edges)
    [startNodeId] []

def prunedNodes (nodes : List WorkflowNode) (edges : List Edge) (startNodeId : String) :
    List WorkflowNode :=
  nodes.filter (fun node => decide (node.id ∈ reachedNodes nodes edges startNodeId))

def prunedEdges (nodes : List WorkflowNode) (edges : List Edge) (startNodeId : String) :
    List Edge :=
  edges.filter (fun edge => decide (edge.source ∈ nodeIds nodes) &&
    decide (edge.source ∈ reachedNodes nodes edges startNodeId))

section Pruning

variable {nodes : List WorkflowNode} {edges : List Edge} {startNodeId : String}

theorem graph_adjacent (node next : String) :
    (plan nodes edges startNodeId).graph.Adjacent node next ↔
      ∃ edge ∈ edges, validTarget nodes edge = true ∧ edge.source = node ∧ edge.target = next := by
  constructor
  · rintro ⟨ref, outgoing, atNext⟩
    obtain ⟨known, source⟩ := (Plan.mem_out _ _ _).mp outgoing
    obtain ⟨listed, valid⟩ := List.mem_filter.mp known
    refine ⟨ref.edge, ?_, valid, source, atNext⟩
    rw [← edgeRefs_edge edges]
    exact List.mem_map_of_mem listed
  · rintro ⟨edge, listed, valid, source, atNext⟩
    rw [← edgeRefs_edge edges] at listed
    obtain ⟨ref, member, rfl⟩ := List.mem_map.mp listed
    exact ⟨ref, (Plan.mem_out _ _ _).mpr ⟨List.mem_filter.mpr ⟨member, valid⟩, source⟩, atNext⟩

theorem known_of_reaches (started : startNodeId ∈ nodeIds nodes) {node : String}
    (path : (plan nodes edges startNodeId).graph.Reaches startNodeId node) :
    node ∈ nodeIds nodes := by
  cases path with
  | refl => exact started
  | tail _ step =>
      obtain ⟨edge, _, valid, _, rfl⟩ := (graph_adjacent _ _).mp step
      rw [validTarget, Bool.and_eq_true] at valid
      exact of_decide_eq_true valid.1

theorem mem_reachedNodes (started : startNodeId ∈ nodeIds nodes) (node : String) :
    node ∈ reachedNodes nodes edges startNodeId ↔
      (plan nodes edges startNodeId).graph.Reaches startNodeId node := by
  rw [reachedNodes, GraphAnalysis.mem_explored started]
  constructor
  · intro path
    induction path with
    | refl => exact .refl
    | tail _ step ih =>
        obtain ⟨edge, listed, crossed, source, atNext⟩ := GraphAnalysis.mem_successors.mp step
        rw [traversable, Bool.and_eq_true] at crossed
        exact ih.tail ((graph_adjacent _ _).mpr ⟨edge, listed, crossed.1, source, atNext⟩)
  · intro path
    induction path with
    | refl => exact .refl
    | tail before step ih =>
        obtain ⟨edge, listed, valid, rfl, atNext⟩ := (graph_adjacent _ _).mp step
        refine ih.tail (GraphAnalysis.mem_successors.mpr ⟨edge, listed, ?_, rfl, atNext⟩)
        rw [traversable, valid, Bool.true_and]
        exact decide_eq_true (known_of_reaches started before)

theorem exists_renaming {refs others : List EdgeRef} (distinct : refs.Nodup)
    (same : others.map EdgeRef.edge = refs.map EdgeRef.edge) :
    ∃ rename : EdgeRef → EdgeRef, others = refs.map rename ∧
      ∀ ref ∈ refs, (rename ref).edge = ref.edge := by
  have lengths : others.length = refs.length := by
    rw [← List.length_map EdgeRef.edge, same, List.length_map]
  have renamed : others = refs.map (fun ref => others.getD (refs.idxOf ref) ref) := by
    refine List.ext_getElem (by rw [List.length_map, lengths]) ?_
    intro index bound within
    rw [List.length_map] at within
    rw [List.getElem_map, distinct.idxOf_getElem, List.getD_eq_getElem?_getD,
      List.getElem?_eq_getElem bound, Option.getD_some]
  refine ⟨_, renamed, ?_⟩
  intro ref member
  rw [renamed, List.map_map, List.map_inj_left] at same
  exact same ref member

theorem validEdges_edge : (validEdges nodes edges).map EdgeRef.edge =
    edges.filter (validTarget nodes) := by
  have listed := List.filter_map (f := EdgeRef.edge) (p := validTarget nodes) (l := edgeRefs edges)
  rw [edgeRefs_edge] at listed
  exact listed.symm

theorem prunedEdges_edge (started : startNodeId ∈ nodeIds nodes) :
    (validEdges (prunedNodes nodes edges startNodeId)
        (prunedEdges nodes edges startNodeId)).map EdgeRef.edge =
      ((validEdges nodes edges).filter
        (fun ref => decide (ref.source ∈ reachedNodes nodes edges startNodeId))).map EdgeRef.edge := by
  have left := List.filter_map (f := EdgeRef.edge)
    (p := fun edge => decide (edge.source ∈ reachedNodes nodes edges startNodeId))
    (l := validEdges nodes edges)
  rw [validEdges_edge] at left
  rw [validEdges_edge, prunedEdges, List.filter_filter]
  change _ = List.map EdgeRef.edge (List.filter
    ((fun edge => decide (edge.source ∈ reachedNodes nodes edges startNodeId)) ∘ EdgeRef.edge) _)
  rw [← left, List.filter_filter]
  apply List.filter_congr
  intro edge listed
  by_cases inside : edge.source ∈ reachedNodes nodes edges startNodeId
  · have path := (mem_reachedNodes started _).mp inside
    have kept : edge.target ∈ nodeIds (prunedNodes nodes edges startNodeId) ↔
        edge.target ∈ reachedNodes nodes edges startNodeId ∧ edge.target ∈ nodeIds nodes := by
      simp only [nodeIds, prunedNodes, List.mem_map, List.mem_filter, decide_eq_true_eq]
      constructor
      · rintro ⟨node, ⟨member, within⟩, same⟩
        exact ⟨same ▸ within, node, member, same⟩
      · rintro ⟨within, node, member, same⟩
        exact ⟨node, ⟨member, same ▸ within⟩, same⟩
    have same : validTarget (prunedNodes nodes edges startNodeId) edge = validTarget nodes edge := by
      rw [Bool.eq_iff_iff]
      constructor
      · intro valid
        simp only [validTarget, Bool.and_eq_true, decide_eq_true_eq] at valid ⊢
        exact ⟨(kept.mp valid.1).2, valid.2⟩
      · intro valid
        have onward := path.tail ((graph_adjacent _ _).mpr ⟨edge, listed, valid, rfl, rfl⟩)
        simp only [validTarget, Bool.and_eq_true, decide_eq_true_eq] at valid ⊢
        exact ⟨kept.mpr ⟨(mem_reachedNodes started _).mpr onward, valid.1⟩, valid.2⟩
    rw [same, decide_eq_true inside, decide_eq_true (known_of_reaches started path), Bool.and_true,
      Bool.and_true, Bool.true_and]
  · rw [decide_eq_false inside, Bool.and_false, Bool.and_false, Bool.false_and]

/-- The scheduler of the smaller graph copies the scheduler of the whole graph. -/
theorem pruned_copy (started : startNodeId ∈ nodeIds nodes) :
    ∃ rename, (plan nodes edges startNodeId).Copy
      (plan (prunedNodes nodes edges startNodeId) (prunedEdges nodes edges startNodeId) startNodeId)
      (reachedNodes nodes edges startNodeId) rename := by
  obtain ⟨rename, renamed, edge⟩ := exists_renaming
    ((validEdges_nodup nodes edges).filter _) (prunedEdges_edge started)
  have part : (plan nodes edges startNodeId).Part
      (plan (prunedNodes nodes edges startNodeId) (prunedEdges nodes edges startNodeId) startNodeId)
      (reachedNodes nodes edges startNodeId) rename :=
    { start := rfl
      members := mem_reachedNodes started
      edges := renamed
      edge := fun ref known within =>
        edge ref (List.mem_filter.mpr ⟨known, decide_eq_true within⟩) }
  have pictured : Multigraph.Image (plan nodes edges startNodeId).graph
      (plan (prunedNodes nodes edges startNodeId) (prunedEdges nodes edges startNodeId)
        startNodeId).graph rename
      (fun node => node ∈ reachedNodes nodes edges startNodeId) := by
    refine ⟨fun node within => part.out within, ?_, ?_⟩
    · intro node within ref outgoing
      obtain ⟨known, source⟩ := Plan.Copy.out_known outgoing within
      exact part.target known source
    · intro node within ref outgoing
      obtain ⟨known, source⟩ := Plan.Copy.out_known outgoing within
      exact part.target_reached known source
  have targets : ∀ (whole : Plan) node ref, ref ∈ whole.graph.out node →
      ref.target ∈ whole.start :: nodeIds whole.nodes :=
    fun whole node ref outgoing =>
      List.mem_cons_of_mem _ (whole.targets ref ((whole.mem_out node ref).mp outgoing).1)
  have backs : (plan (prunedNodes nodes edges startNodeId) (prunedEdges nodes edges startNodeId)
      startNodeId).backEdges = (plan nodes edges startNodeId).backEdges.map rename :=
    DepthFirst.backEdges_renamed pictured part.rooted List.mem_cons_self
      (targets (plan nodes edges startNodeId)) List.mem_cons_self
      (targets (plan (prunedNodes nodes edges startNodeId) (prunedEdges nodes edges startNodeId)
        startNodeId))
  refine ⟨rename, part, ?_⟩
  intro ref known within
  rw [Bool.eq_iff_iff, Plan.isBack_iff, Plan.isBack_iff]
  rw [backs, List.mem_map]
  constructor
  · rintro ⟨other, back, same⟩
    obtain ⟨outgoing, path, _⟩ := (plan nodes edges startNodeId).classified.closing other back
    have otherWithin := (part.members _).mpr path
    exact part.apart (Plan.Copy.out_known outgoing otherWithin).1 otherWithin known within same ▸ back
  · exact fun back => ⟨ref, back, rfl⟩

end Pruning

/-- What can not run does not influence what runs exactly when no edge from it leads to a node
that can be reached, the start node apart. -/
theorem pruned_agrees_iff (nodes : List WorkflowNode) (edges : List Edge) (startNodeId : String)
    (started : startNodeId ∈ nodeIds nodes) :
    (∀ completions : List (Completion α),
      produced (plan (prunedNodes nodes edges startNodeId) (prunedEdges nodes edges startNodeId)
          startNodeId) completions =
        produced (plan nodes edges startNodeId) completions) ↔
    ∀ ref ∈ validEdges nodes edges, ref.target ∈ reachedNodes nodes edges startNodeId →
      ref.target ≠ startNodeId → ref.source ∈ reachedNodes nodes edges startNodeId := by
  obtain ⟨rename, copy⟩ := @pruned_copy nodes edges startNodeId started
  constructor
  · exact copy.sealed_of_agrees
  · exact fun closed completions => produced_copied copy closed completions

/-! A detached agent in front of START is harmless; in front of another node it is not. -/

def detachedNodes : List WorkflowNode :=
  [⟨"start", "start"⟩, ⟨"A", "agent"⟩, ⟨"X", "agent"⟩]

def detachedEdges (target : String) : List Edge :=
  [⟨"start", "A", none⟩, ⟨"X", target, none⟩]

theorem pruned_agrees_iff_harmless :
    "start" ∈ nodeIds detachedNodes ∧ ∀ completions : List (Completion Nat),
      produced (plan (prunedNodes detachedNodes (detachedEdges "start") "start")
          (prunedEdges detachedNodes (detachedEdges "start") "start") "start") completions =
        produced (plan detachedNodes (detachedEdges "start") "start") completions :=
  ⟨by decide, (pruned_agrees_iff detachedNodes (detachedEdges "start") "start" (by decide)).mpr
    (by decide +kernel)⟩

/-- The join waits for the agent that never runs. -/
theorem detached_join_hangs :
    produced (plan detachedNodes (detachedEdges "A") "start") [(plainCompletion 0 : Completion Nat)] =
        some [⟨"start", Dict.empty⟩] ∧
      produced (plan (prunedNodes detachedNodes (detachedEdges "A") "start")
          (prunedEdges detachedNodes (detachedEdges "A") "start") "start")
          [(plainCompletion 0 : Completion Nat)] =
        some [⟨"start", Dict.empty⟩, ⟨"A", Dict.empty⟩] := by
  decide +kernel

end Assemblix.DagScheduler
