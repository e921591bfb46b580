import Assemblix.Library.StrongComponents
import Assemblix.Execution.GraphAnalysis
import Mathlib.Order.Lattice

/-
Joins on a cycle: the static check of the backend and its port in the editor.

A join is a node with two different predecessors. It is reported when it lies on a directed
cycle, which a search for strong components finds; the order in which nodes and edges are listed
does not matter, and neither does the order of a set.
-/

namespace Assemblix.GraphAnalysis

open Library Worklist

structure IterationOrder (items : List String) where
  order : List String
  distinct : order.Nodup
  members : ∀ item, item ∈ order ↔ item ∈ items

section Check

variable (nodes : List WorkflowNode) (edges : List Edge)

def joinNodes : List String :=
  ((edges.filter (traversable nodes)).map Edge.target).dedup.filter
    (fun node => decide (2 ≤ (inSources nodes edges node).length))

/-- `detect_join_in_loop`; the roots come in the order of the set of node ids. -/
def detectJoinInLoop (nodeOrder : IterationOrder (nodeIds nodes)) : List String :=
  if joinNodes nodes edges = [] then []
  else
    let onCycle := nodesOnCycle (successors nodes edges) (nodeIds nodes) nodeOrder.order
    ((joinNodes nodes edges).filter (fun node => decide (node ∈ onCycle))).insertionSort
      (fun left right => left ≤ right)

def Join (node : String) : Prop :=
  node ∈ nodeIds nodes ∧ ∃ left right, left ≠ right ∧ ∀ source ∈ [left, right],
    source ∈ nodeIds nodes ∧ source ≠ node ∧ ∃ edge ∈ edges, edge.source = source ∧
      edge.target = node

end Check

/-! ### The port in the editor -/

namespace Editor

def codeUnits (text : String) : List Nat :=
  text.toList.flatMap (fun letter =>
    if letter.toNat < 65536 then [letter.toNat]
    else [55296 + (letter.toNat - 65536) / 1024, 56320 + (letter.toNat - 65536) % 1024])

/-- `detectJoinInLoop`; the roots come in the order of the node list. -/
def detectJoinInLoop (nodes : List WorkflowNode) (edges : List Edge) : List String :=
  if joinNodes nodes edges = [] then []
  else
    let onCycle := nodesOnCycle (successors nodes edges) (nodeIds nodes) (nodeIds nodes)
    ((joinNodes nodes edges).filter (fun node => decide (node ∈ onCycle))).insertionSort
      (fun left right => codeUnits left ≤ codeUnits right)

end Editor

/-! ### What is reported -/

section Reported

variable {nodes : List WorkflowNode} {edges : List Edge}

theorem mem_inSources {source node : String} :
    source ∈ inSources nodes edges node ↔
      ∃ edge ∈ edges, traversable nodes edge = true ∧ edge.source = source ∧ edge.target = node := by
  rw [inSources, List.mem_dedup, List.mem_map]
  constructor
  · rintro ⟨edge, listed, same⟩
    obtain ⟨member, both⟩ := List.mem_filter.mp listed
    rw [Bool.and_eq_true, decide_eq_true_eq] at both
    exact ⟨edge, member, both.1, same, both.2⟩
  · rintro ⟨edge, member, crossed, same, atNode⟩
    refine ⟨edge, List.mem_filter.mpr ⟨member, ?_⟩, same⟩
    rw [crossed, decide_eq_true atNode]
    rfl

theorem mem_joinNodes {node : String} : node ∈ joinNodes nodes edges ↔ Join nodes edges node := by
  have source : ∀ source, source ∈ inSources nodes edges node ↔ node ∈ nodeIds nodes ∧
      source ∈ nodeIds nodes ∧ source ≠ node ∧ ∃ edge ∈ edges, edge.source = source ∧
        edge.target = node := by
    intro source
    rw [mem_inSources]
    constructor
    · rintro ⟨edge, member, crossed, rfl, rfl⟩
      obtain ⟨target, different, known⟩ := traversable_iff.mp crossed
      exact ⟨target, known, fun same => different same.symm, edge, member, rfl, rfl⟩
    · rintro ⟨target, known, different, edge, member, rfl, rfl⟩
      exact ⟨edge, member, traversable_iff.mpr ⟨target, fun same => different same.symm, known⟩,
        rfl, rfl⟩
  rw [joinNodes, List.mem_filter, decide_eq_true_eq, List.mem_dedup]
  constructor
  · rintro ⟨_, many⟩
    have distinct : (inSources nodes edges node).Nodup := List.nodup_dedup _
    obtain ⟨left, right, rest, listed⟩ : ∃ left right rest,
        inSources nodes edges node = left :: right :: rest := by
      cases sources : inSources nodes edges node with
      | nil =>
          rw [sources] at many
          cases many
      | cons left others =>
          cases others with
          | nil =>
              rw [sources, List.length_singleton] at many
              omega
          | cons right rest => exact ⟨left, right, rest, rfl⟩
    rw [listed] at distinct source
    have apart : left ≠ right := by
      rintro rfl
      exact (List.nodup_cons.mp distinct).1 List.mem_cons_self
    have first := (source left).mp List.mem_cons_self
    have second := (source right).mp (List.mem_cons_of_mem _ List.mem_cons_self)
    refine ⟨first.1, left, right, apart, ?_⟩
    intro other member
    rcases List.mem_cons.mp member with rfl | member
    · exact first.2
    · rw [List.mem_singleton.mp member]
      exact second.2
  · rintro ⟨known, left, right, apart, both⟩
    have first := (source left).mpr ⟨known, both left List.mem_cons_self⟩
    have second := (source right).mpr
      ⟨known, both right (List.mem_cons_of_mem _ List.mem_cons_self)⟩
    refine ⟨?_, two_le_length apart first second⟩
    obtain ⟨edge, member, crossed, _, atNode⟩ := mem_inSources.mp first
    exact List.mem_map.mpr ⟨edge, List.mem_filter.mpr ⟨member, crossed⟩, atNode⟩

theorem mem_onCycle {roots : List String} (same : ∀ node, node ∈ roots ↔ node ∈ nodeIds nodes)
    {node : String} (known : node ∈ nodeIds nodes) :
    node ∈ nodesOnCycle (successors nodes edges) (nodeIds nodes) roots ↔
      ∃ first others, DirectedCycle (successors nodes edges) first others ∧
        node ∈ first :: others := by
  rw [mem_nodesOnCycle _ (fun root member => (same root).mp member) ((same node).mpr known),
    onCycle_iff]
  intro source target step
  obtain ⟨edge, _, crossed, _, rfl⟩ := mem_successors.mp step
  exact (traversable_iff.mp crossed).1

def JoinInLoop (nodes : List WorkflowNode) (edges : List Edge) (node : String) : Prop :=
  Join nodes edges node ∧ ∃ first others, DirectedCycle (successors nodes edges) first others ∧
    node ∈ first :: others

theorem mem_filtered {roots : List String} (same : ∀ node, node ∈ roots ↔ node ∈ nodeIds nodes)
    (node : String) :
    node ∈ (joinNodes nodes edges).filter (fun node =>
        decide (node ∈ nodesOnCycle (successors nodes edges) (nodeIds nodes) roots)) ↔
      JoinInLoop nodes edges node := by
  rw [List.mem_filter, mem_joinNodes, decide_eq_true_eq]
  exact and_congr_right (fun join => mem_onCycle same join.1)

theorem mem_detectJoinInLoop (nodeOrder : IterationOrder (nodeIds nodes)) (node : String) :
    node ∈ detectJoinInLoop nodes edges nodeOrder ↔ JoinInLoop nodes edges node := by
  rw [detectJoinInLoop]
  split
  · rename_i empty
    refine ⟨(fun member => nomatch member), fun loop => ?_⟩
    have listed := mem_joinNodes.mpr loop.1
    rw [empty] at listed
    cases listed
  · rw [List.mem_insertionSort]
    exact mem_filtered nodeOrder.members node

theorem mem_editor_detectJoinInLoop (node : String) :
    node ∈ Editor.detectJoinInLoop nodes edges ↔ JoinInLoop nodes edges node := by
  rw [Editor.detectJoinInLoop]
  split
  · rename_i empty
    refine ⟨(fun member => nomatch member), fun loop => ?_⟩
    have listed := mem_joinNodes.mpr loop.1
    rw [empty] at listed
    cases listed
  · rw [List.mem_insertionSort]
    exact mem_filtered (fun _ => Iff.rfl) node

theorem detectJoinInLoop_nodup (nodeOrder : IterationOrder (nodeIds nodes)) :
    (detectJoinInLoop nodes edges nodeOrder).Nodup := by
  rw [detectJoinInLoop]
  split
  · exact List.nodup_nil
  · refine (List.perm_insertionSort _ _).nodup_iff.mpr ?_
    exact ((List.nodup_dedup _).filter _).filter _

theorem detectJoinInLoop_sorted (nodeOrder : IterationOrder (nodeIds nodes)) :
    (detectJoinInLoop nodes edges nodeOrder).Pairwise (fun left right => left ≤ right) := by
  rw [detectJoinInLoop]
  split
  · exact List.Pairwise.nil
  · exact List.pairwise_insertionSort _ _

theorem JoinInLoop.perm {others : List WorkflowNode} {otherEdges : List Edge}
    (sameNodes : others.Perm nodes) (sameEdges : otherEdges.Perm edges) (node : String) :
    JoinInLoop others otherEdges node ↔ JoinInLoop nodes edges node := by
  have ids : ∀ id, id ∈ nodeIds others ↔ id ∈ nodeIds nodes :=
    fun id => (sameNodes.map WorkflowNode.id).mem_iff
  have listed : ∀ edge, edge ∈ otherEdges ↔ edge ∈ edges := fun edge => sameEdges.mem_iff
  have step : ∀ source target, target ∈ successors others otherEdges source ↔
      target ∈ successors nodes edges source := by
    intro source target
    rw [mem_successors, mem_successors]
    refine exists_congr (fun edge => ?_)
    rw [listed, traversable_iff, traversable_iff, ids, ids]
  have relation : (fun source target => target ∈ successors others otherEdges source) =
      fun source target => target ∈ successors nodes edges source := by
    funext source target
    exact propext (step source target)
  have cycles : ∀ first rest, DirectedCycle (successors others otherEdges) first rest ↔
      DirectedCycle (successors nodes edges) first rest := by
    intro first rest
    constructor
    · rintro ⟨many, distinct, linked, closing⟩
      exact ⟨many, distinct, relation ▸ linked, (step _ _).mp closing⟩
    · rintro ⟨many, distinct, linked, closing⟩
      exact ⟨many, distinct, relation ▸ linked, (step _ _).mpr closing⟩
  refine and_congr ?_ (exists₂_congr (fun first rest => and_congr_left' (cycles first rest)))
  simp only [Join, ids, listed]

end Reported

/-- The check reports the joins on a cycle, sorted and in whatever order the graph is listed, and
the editor reports the same set. -/
theorem join_in_loop_exact (nodes : List WorkflowNode) (edges : List Edge)
    (nodeOrder : IterationOrder (nodeIds nodes)) :
    (detectJoinInLoop nodes edges nodeOrder).Nodup ∧
      (detectJoinInLoop nodes edges nodeOrder).Pairwise (fun left right => left ≤ right) ∧
      (∀ node, node ∈ detectJoinInLoop nodes edges nodeOrder ↔ JoinInLoop nodes edges node) ∧
      (∀ (others : List WorkflowNode) (otherEdges : List Edge)
        (otherOrder : IterationOrder (nodeIds others)), others.Perm nodes → otherEdges.Perm edges →
          detectJoinInLoop others otherEdges otherOrder =
            detectJoinInLoop nodes edges nodeOrder) ∧
      ∀ node, node ∈ Editor.detectJoinInLoop nodes edges ↔
        node ∈ detectJoinInLoop nodes edges nodeOrder := by
  refine ⟨detectJoinInLoop_nodup nodeOrder, detectJoinInLoop_sorted nodeOrder,
    mem_detectJoinInLoop nodeOrder, ?_, ?_⟩
  · intro others otherEdges otherOrder sameNodes sameEdges
    have members : ∀ node, node ∈ detectJoinInLoop others otherEdges otherOrder ↔
        node ∈ detectJoinInLoop nodes edges nodeOrder := by
      intro node
      rw [mem_detectJoinInLoop, mem_detectJoinInLoop]
      exact JoinInLoop.perm sameNodes sameEdges node
    have listed : (detectJoinInLoop others otherEdges otherOrder).Perm
        (detectJoinInLoop nodes edges nodeOrder) :=
      (List.perm_ext_iff_of_nodup (detectJoinInLoop_nodup otherOrder)
        (detectJoinInLoop_nodup nodeOrder)).mpr members
    exact listed.eq_of_pairwise (fun _ _ _ _ left right => String.le_antisymm left right)
      (detectJoinInLoop_sorted otherOrder) (detectJoinInLoop_sorted nodeOrder)
  · intro node
    rw [mem_editor_detectJoinInLoop, mem_detectJoinInLoop]

/-! A retry loop: the agent joins START and the check that sends it back. -/

def retryNodes : List WorkflowNode :=
  [⟨"start", "start"⟩, ⟨"agent", "agent"⟩, ⟨"check", "condition"⟩, ⟨"end", "end"⟩]

def retryEdges : List Edge :=
  [⟨"start", "agent", none⟩, ⟨"agent", "check", none⟩, ⟨"check", "agent", some "source_check_0"⟩,
    ⟨"check", "end", some "source_check_1"⟩]

def retryOrder (nodes : List WorkflowNode) (distinct : (nodeIds nodes).Nodup) :
    IterationOrder (nodeIds nodes) :=
  ⟨nodeIds nodes, distinct, fun _ => Iff.rfl⟩

theorem join_in_loop_exact_retry :
    detectJoinInLoop retryNodes.reverse retryEdges.reverse
        (retryOrder retryNodes.reverse (by decide)) =
      detectJoinInLoop retryNodes retryEdges (retryOrder retryNodes (by decide)) :=
  (join_in_loop_exact retryNodes retryEdges (retryOrder retryNodes (by decide))).2.2.2.1 _ _ _
    (List.reverse_perm _) (List.reverse_perm _)

example : detectJoinInLoop retryNodes retryEdges (retryOrder retryNodes (by decide)) = ["agent"] := by
  decide +kernel

end Assemblix.GraphAnalysis
