import Assemblix.Execution.ParallelLoop
import Assemblix.Library.Worklist
import Mathlib.Data.List.Sort

/-
The static check for END nodes that can fire in parallel.

A node that is no CONDITION and has two targets is a split; the ENDs its branches reach are
reported where two branches reach one and together they reach two.
-/

namespace Assemblix.GraphAnalysis

open Library

variable (nodes : List WorkflowNode) (edges : List Edge)

/-- `_out_adjacency` of `_valid_edges`. -/
def successors (source : String) : List String :=
  (edges.filter (fun edge => traversable nodes edge && decide (edge.source = source))).map
    Edge.target

def endIds : List String :=
  (nodeIds nodes).filter (fun nodeId => decide (nodeTypeOf nodes nodeId = some "end"))

def turns : Nat :=
  1 + (((nodeIds nodes).dedup).map (fun node => (successors nodes edges node).length)).sum

/-- `_reachable_ends`. -/
def reachableEnds (start : String) : List String :=
  (Worklist.explore (successors nodes edges) (turns nodes edges) [start] []).filter
    (fun node => decide (node ∈ endIds nodes))

def parallelEndsFrom (source : String) : List String :=
  if nodeTypeOf nodes source = some "condition" ∨ (outTargets nodes edges source).length < 2 then []
  else
    let perBranchEnds := (outTargets nodes edges source).map (reachableEnds nodes edges)
    let union := perBranchEnds.flatten.dedup
    if 2 ≤ (perBranchEnds.filter (fun ends => decide (ends ≠ []))).length ∧ 2 ≤ union.length then
      union
    else []

/-- `detect_parallel_ends`. -/
def detectParallelEnds : List String :=
  if endIds nodes = [] then []
  else
    (((((edges.filter (traversable nodes)).map Edge.source).dedup).flatMap
      (parallelEndsFrom nodes edges)).dedup).insertionSort (fun left right => left ≤ right)

/-! ### What is reached and reported -/

def Reaches : String → String → Prop := Worklist.Reaches (successors nodes edges)

variable {nodes edges}

theorem mem_successors {source target : String} :
    target ∈ successors nodes edges source ↔
      ∃ edge ∈ edges, traversable nodes edge = true ∧ edge.source = source ∧
        edge.target = target := by
  simp [successors, and_assoc]

theorem mem_outTargets {source target : String} :
    target ∈ outTargets nodes edges source ↔ target ∈ successors nodes edges source := by
  rw [outTargets, List.mem_dedup, successors]

theorem traversable_iff {edge : Edge} :
    traversable nodes edge = true ↔
      edge.target ∈ nodeIds nodes ∧ edge.target ≠ edge.source ∧ edge.source ∈ nodeIds nodes := by
  simp [traversable, validTarget, and_assoc]

theorem mem_explored {start node : String} (known : start ∈ nodeIds nodes) :
    node ∈ Worklist.explore (successors nodes edges) (turns nodes edges) [start] [] ↔
      Reaches nodes edges start node := by
  have closed : ∀ source target, target ∈ successors nodes edges source →
      target ∈ (nodeIds nodes).dedup := by
    intro source target member
    obtain ⟨edge, _, valid, _, rfl⟩ := mem_successors.mp member
    exact List.mem_dedup.mpr (traversable_iff.mp valid).1
  have enough : 1 + Worklist.pending (successors nodes edges) (nodeIds nodes).dedup [] ≤
      turns nodes edges := by
    simp [Worklist.pending, turns]
  exact Worklist.mem_explore (List.nodup_dedup _) closed (List.mem_dedup.mpr known) enough node

theorem mem_reachableEnds {start node : String} (known : start ∈ nodeIds nodes) :
    node ∈ reachableEnds nodes edges start ↔
      node ∈ endIds nodes ∧ Reaches nodes edges start node := by
  rw [reachableEnds, List.mem_filter, decide_eq_true_iff, and_comm]
  exact and_congr_right (fun _ => mem_explored known)

theorem two_le_length {A : Type} {items : List A} {left right : A} (different : left ≠ right)
    (first : left ∈ items) (second : right ∈ items) : 2 ≤ items.length := by
  have distinct : [left, right].Nodup := by simpa using different
  have inside : [left, right] ⊆ items := by
    intro item member
    rcases List.mem_cons.mp member with rfl | member
    · exact first
    · exact List.mem_singleton.mp member ▸ second
  exact (List.subperm_of_subset distinct inside).length_le

theorem mem_detect_of_split {source left right : String}
    (split : nodeTypeOf nodes source ≠ some "condition")
    (toLeft : left ∈ successors nodes edges source)
    (toRight : right ∈ successors nodes edges source) (different : left ≠ right)
    {one two : String} (oneEnd : one ∈ endIds nodes) (twoEnd : two ∈ endIds nodes)
    (leftReaches : Reaches nodes edges left one) (rightReaches : Reaches nodes edges right two)
    (apart : one ≠ two) :
    one ∈ detectParallelEnds nodes edges ∧ two ∈ detectParallelEnds nodes edges := by
  have target : ∀ {node}, node ∈ successors nodes edges source → node ∈ nodeIds nodes := by
    intro node member
    obtain ⟨edge, _, valid, _, rfl⟩ := mem_successors.mp member
    exact (traversable_iff.mp valid).1
  have ofLeft := (mem_reachableEnds (target toLeft)).mpr ⟨oneEnd, leftReaches⟩
  have ofRight := (mem_reachableEnds (target toRight)).mpr ⟨twoEnd, rightReaches⟩
  have leftTarget := mem_outTargets.mpr toLeft
  have rightTarget := mem_outTargets.mpr toRight
  have union : ∀ {branch node}, branch ∈ outTargets nodes edges source →
      node ∈ reachableEnds nodes edges branch →
      node ∈ (((outTargets nodes edges source).map (reachableEnds nodes edges)).flatten).dedup := by
    intro branch node member reached
    exact List.mem_dedup.mpr (List.mem_flatten.mpr ⟨_, List.mem_map.mpr ⟨branch, member, rfl⟩,
      reached⟩)
  have contributing : 2 ≤ (((outTargets nodes edges source).map
      (reachableEnds nodes edges)).filter (fun ends => decide (ends ≠ []))).length := by
    rw [List.filter_map, List.length_map]
    refine two_le_length different (List.mem_filter.mpr ⟨leftTarget, ?_⟩)
      (List.mem_filter.mpr ⟨rightTarget, ?_⟩)
    · simpa using List.ne_nil_of_mem ofLeft
    · simpa using List.ne_nil_of_mem ofRight
  have racing := two_le_length apart (union leftTarget ofLeft) (union rightTarget ofRight)
  have reported : parallelEndsFrom nodes edges source =
      (((outTargets nodes edges source).map (reachableEnds nodes edges)).flatten).dedup := by
    have forks := two_le_length different leftTarget rightTarget
    unfold parallelEndsFrom
    rw [if_neg (not_or.mpr ⟨split, Nat.not_lt.mpr forks⟩)]
    exact if_pos ⟨contributing, racing⟩
  have listed : source ∈ ((edges.filter (traversable nodes)).map Edge.source).dedup := by
    obtain ⟨edge, member, valid, from', _⟩ := mem_successors.mp toLeft
    exact List.mem_dedup.mpr (List.mem_map.mpr ⟨edge, List.mem_filter.mpr ⟨member, valid⟩, from'⟩)
  have found : ∀ {node}, node ∈ parallelEndsFrom nodes edges source →
      node ∈ detectParallelEnds nodes edges := by
    intro node member
    unfold detectParallelEnds
    rw [if_neg (List.ne_nil_of_mem oneEnd), List.mem_insertionSort, List.mem_dedup]
    exact List.mem_flatMap.mpr ⟨source, listed, member⟩
  rw [reported] at found
  exact ⟨found (union leftTarget ofLeft), found (union rightTarget ofRight)⟩

def Apart (nodes : List WorkflowNode) (edges : List Edge) (left right : String) : Prop :=
  ∀ one ∈ endIds nodes, ∀ two ∈ endIds nodes, Reaches nodes edges left one →
    Reaches nodes edges right two → one ≠ two →
    one ∈ detectParallelEnds nodes edges ∧ two ∈ detectParallelEnds nodes edges

theorem Apart.symm (left right : String) (apart : Apart nodes edges left right) :
    Apart nodes edges right left :=
  fun one oneEnd two twoEnd first second different =>
    (apart two twoEnd one oneEnd second first (Ne.symm different)).symm

instance : Std.Symm (Apart nodes edges) := ⟨Apart.symm⟩

theorem Apart.successor {left next right : String} (apart : Apart nodes edges left right)
    (edge : next ∈ successors nodes edges left) : Apart nodes edges next right :=
  fun one oneEnd two twoEnd first second different =>
    apart one oneEnd two twoEnd (Relation.ReflTransGen.head edge first) second different

end Assemblix.GraphAnalysis
