import Assemblix.Library.DepthFirst

/-
Workflow graphs as the execution engine receives them.

A node is known by its id and type. An edge leaves a handle of its source; routing
nodes name the handle of branch `i` as `source_<node>_<i>`. Edges to nodes that do not
exist and self-loops stay in the stored graph and are skipped by every traversal.
-/

namespace Assemblix

structure WorkflowNode where
  id : String
  type : String
  deriving DecidableEq, Repr

structure Edge where
  source : String
  target : String
  sourceHandle : Option String
  deriving DecidableEq, Repr

/-- An edge object together with its place in the edge list, which stands for `id(e)`. -/
structure EdgeRef where
  key : Nat
  edge : Edge
  deriving DecidableEq, Repr

def EdgeRef.source (ref : EdgeRef) : String := ref.edge.source

def EdgeRef.target (ref : EdgeRef) : String := ref.edge.target

def nodeIds (nodes : List WorkflowNode) : List String := nodes.map WorkflowNode.id

def sourceHandleOf (nodeId : String) (branchIndex : Int) : String :=
  s!"source_{nodeId}_{branchIndex}"

def edgeRefs (edges : List Edge) : List EdgeRef :=
  edges.zipIdx.map (fun entry => ⟨entry.2, entry.1⟩)

def validTarget (nodes : List WorkflowNode) (edge : Edge) : Bool :=
  decide (edge.target ∈ nodeIds nodes) && decide (edge.target ≠ edge.source)

def validEdges (nodes : List WorkflowNode) (edges : List Edge) : List EdgeRef :=
  (edgeRefs edges).filter (fun ref => validTarget nodes ref.edge)

theorem edgeRefs_nodup (edges : List Edge) : (edgeRefs edges).Nodup := by
  have keys : ((edgeRefs edges).map EdgeRef.key).Nodup := by
    rw [edgeRefs, List.map_map]
    change (edges.zipIdx.map Prod.snd).Nodup
    rw [List.zipIdx_map_snd]
    exact List.nodup_range'
  exact List.Nodup.of_map EdgeRef.key keys

theorem validEdges_nodup (nodes : List WorkflowNode) (edges : List Edge) :
    (validEdges nodes edges).Nodup :=
  (edgeRefs_nodup edges).filter _

theorem mem_validEdges (nodes : List WorkflowNode) (edges : List Edge) (ref : EdgeRef) :
    ref ∈ validEdges nodes edges ↔
      ref ∈ edgeRefs edges ∧ ref.target ∈ nodeIds nodes ∧ ref.target ≠ ref.source := by
  simp only [validEdges, List.mem_filter, validTarget, Bool.and_eq_true, decide_eq_true_eq]
  rfl

theorem edgeRefs_edge (edges : List Edge) : (edgeRefs edges).map EdgeRef.edge = edges := by
  rw [edgeRefs, List.map_map]
  change edges.zipIdx.map Prod.fst = edges
  exact List.zipIdx_map_fst 0 edges

end Assemblix
