import Assemblix.Library.Dict
import Assemblix.Execution.Workflow

/-
The fork/join scheduler of the parallel engine.

Tokens wait on the forward incoming edges of a node. When every such edge holds a token
the wave is consumed: the node becomes ready when a token is live and dies otherwise,
and a dead node sends dead tokens on. Back edges never gate a join; taking one
reactivates its target at once.
-/

namespace Assemblix.DagScheduler

open Library

inductive Token
  | live
  | dead
  deriving DecidableEq, Repr

structure ReadyNode (α : Type) where
  nodeId : String
  inputData : Dict String α
  deriving DecidableEq

structure CompleteResult (α : Type) where
  ready : List (ReadyNode α)
  liveOutCount : Nat

/-! ### The indices built by the constructor -/

def outEdges (edges : List EdgeRef) (node : String) : List EdgeRef :=
  edges.filter (fun ref => decide (ref.source = node))

def inEdges (edges : List EdgeRef) (node : String) : List EdgeRef :=
  edges.filter (fun ref => decide (ref.target = node))

def edgeGraph (edges : List EdgeRef) (distinct : edges.Nodup) : Multigraph String EdgeRef where
  out := outEdges edges
  source := EdgeRef.source
  target := EdgeRef.target
  sourceOut := by
    intro node ref member
    simpa using (List.mem_filter.mp member).2
  distinct := fun _ => distinct.filter _

def computeBackEdges (nodes : List WorkflowNode) (edges : List EdgeRef) (distinct : edges.Nodup)
    (start : String) : List EdgeRef :=
  DepthFirst.backEdges (edgeGraph edges distinct) (start :: nodeIds nodes) start

theorem computeBackEdges_classified (nodes : List WorkflowNode) (edges : List EdgeRef)
    (distinct : edges.Nodup) (start : String)
    (targets : ∀ ref ∈ edges, ref.target ∈ nodeIds nodes) :
    DepthFirst.Classified (edgeGraph edges distinct) start
      (computeBackEdges nodes edges distinct start) := by
  apply DepthFirst.backEdges_classified
  · exact List.mem_cons_self
  · intro node ref outgoing
    exact List.mem_cons_of_mem _ (targets ref (List.mem_filter.mp outgoing).1)

structure Plan where
  start : String
  nodes : List WorkflowNode
  edges : List EdgeRef
  backEdges : List EdgeRef
  distinct : edges.Nodup
  targets : ∀ ref ∈ edges, ref.target ∈ nodeIds nodes
  classified : DepthFirst.Classified (edgeGraph edges distinct) start backEdges

def plan (nodes : List WorkflowNode) (edges : List Edge) (startNodeId : String) : Plan :=
  { start := startNodeId
    nodes := nodes
    edges := validEdges nodes edges
    backEdges := computeBackEdges nodes (validEdges nodes edges) (validEdges_nodup nodes edges)
      startNodeId
    distinct := validEdges_nodup nodes edges
    targets := fun ref member => ((mem_validEdges nodes edges ref).mp member).2.1
    classified := computeBackEdges_classified nodes _ _ startNodeId
      (fun ref member => ((mem_validEdges nodes edges ref).mp member).2.1) }

namespace Plan

def graph (plan : Plan) : Multigraph String EdgeRef := edgeGraph plan.edges plan.distinct

def out (plan : Plan) (node : String) : List EdgeRef := outEdges plan.edges node

def isBack (plan : Plan) (ref : EdgeRef) : Bool := decide (ref ∈ plan.backEdges)

def forwardIn (plan : Plan) (node : String) : List EdgeRef :=
  (inEdges plan.edges node).filter (fun ref => !plan.isBack ref)

def forwardOut (plan : Plan) (node : String) : List EdgeRef :=
  (plan.out node).filter (fun ref => !plan.isBack ref)

end Plan

/-! ### The state of one run -/

structure State (α : Type) where
  tokens : String → Dict EdgeRef Token
  nodeOutputs : String → Option (Dict String α)
  dead : List String

structure Progress (α : Type) where
  state : State α
  ready : List (ReadyNode α)

variable {α : Type}

def State.initial : State α :=
  { tokens := fun _ => Dict.empty
    nodeOutputs := fun _ => none
    dead := [] }

def State.recordOutput (state : State α) (node : String) (output : Dict String α) : State α :=
  { state with
    nodeOutputs := fun other => if other = node then some output else state.nodeOutputs other }

def State.setTokens (state : State α) (node : String) (tokens : Dict EdgeRef Token) : State α :=
  { state with tokens := fun other => if other = node then tokens else state.tokens other }

def State.putToken (state : State α) (ref : EdgeRef) (status : Token) : State α :=
  state.setTokens ref.target ((state.tokens ref.target).set ref status)

def State.markDead (state : State α) (node : String) : State α :=
  { state with dead := state.dead ++ [node] }

/-- Outputs of the live predecessors, later edges winning. -/
def mergeOutputs (state : State α) (sources : List EdgeRef) : Dict String α :=
  sources.foldl
    (fun merged ref => merged.merge ((state.nodeOutputs ref.source).getD Dict.empty)) Dict.empty

/-- `DagScheduler.start`: the START node is ready with an empty payload. -/
def start (plan : Plan) : List (ReadyNode α) := [⟨plan.start, Dict.empty⟩]

/-! ### Delivering tokens -/

def liveSources (plan : Plan) (node : String) (tokens : Dict EdgeRef Token) : List EdgeRef :=
  (plan.forwardIn node).filter (fun ref => decide (tokens.lookup ref = some .live))

/-- `_maybe_fire`; dead propagation is passed in, since the two call each other. -/
def maybeFire (plan : Plan) (propagateDead : String → Progress α → Progress α) (node : String)
    (progress : Progress α) : Progress α :=
  let forwardIn := plan.forwardIn node
  if forwardIn = [] then progress
  else
    let tokens := progress.state.tokens node
    if tokens.size < forwardIn.length then progress
    else
      let consumed := progress.state.setTokens node Dict.empty
      let live := liveSources plan node tokens
      if live ≠ [] then
        { state := consumed, ready := progress.ready ++ [⟨node, mergeOutputs consumed live⟩] }
      else propagateDead node { progress with state := consumed }

/-- `_deliver`: put the token, then look whether the target is saturated. -/
def deliver (plan : Plan) (propagateDead : String → Progress α → Progress α) (ref : EdgeRef)
    (status : Token) (progress : Progress α) : Progress α :=
  maybeFire plan propagateDead ref.target
    { progress with state := progress.state.putToken ref status }

/-- `_propagate_dead`. Each nested call kills one more node, so the number of nodes bounds
the depth. -/
def propagateDead (plan : Plan) : Nat → String → Progress α → Progress α
  | 0, _, progress => progress
  | fuel + 1, node, progress =>
      if node ∈ progress.state.dead then progress
      else
        (plan.out node).foldl
          (fun current ref =>
            if plan.isBack ref then current
            else deliver plan (propagateDead plan fuel) ref .dead current)
          { progress with state := progress.state.markDead node }

def depth (plan : Plan) : Nat := plan.nodes.length

def send (plan : Plan) (ref : EdgeRef) (status : Token) (progress : Progress α) : Progress α :=
  deliver plan (propagateDead plan (depth plan)) ref status progress

def follow (plan : Plan) (output : Dict String α) (ref : EdgeRef) (progress : Progress α) :
    Progress α :=
  if plan.isBack ref then { progress with ready := progress.ready ++ [⟨ref.target, output⟩] }
  else send plan ref .live progress

/-! ### Completing a node -/

def selectedEdges (plan : Plan) (node : String) (branchIndex : Int) : List EdgeRef :=
  (plan.out node).filter
    (fun ref => decide (ref.edge.sourceHandle = some (sourceHandleOf node branchIndex)))

def completeProgress (plan : Plan) (state : State α) (node : String) (output : Dict String α)
    (branchIndex : Option Int) : Progress α :=
  let recorded : Progress α := ⟨state.recordOutput node output, []⟩
  match branchIndex with
  | some index =>
      let selected := selectedEdges plan node index
      let selectedIsBack := selected.any plan.isBack
      let followed := selected.foldl (fun current ref => follow plan output ref current) recorded
      (plan.out node).foldl
        (fun current ref =>
          if ref ∈ selected || plan.isBack ref then current
          else if selectedIsBack then current
          else send plan ref .dead current)
        followed
  | none => (plan.out node).foldl (fun current ref => follow plan output ref current) recorded

/-- `DagScheduler.complete`. -/
def complete (plan : Plan) (state : State α) (node : String) (output : Dict String α)
    (branchIndex : Option Int) (isTerminal : Bool) : State α × CompleteResult α :=
  if isTerminal || (plan.out node).isEmpty then
    (state.recordOutput node output, ⟨[], 0⟩)
  else
    let progress := completeProgress plan state node output branchIndex
    let liveOut := match branchIndex with
      | some index => (selectedEdges plan node index).length
      | none => (plan.out node).length
    (progress.state, ⟨progress.ready, liveOut⟩)

end Assemblix.DagScheduler
