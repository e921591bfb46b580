import Assemblix.Execution.Workflow

/-
Sequential traversal of a workflow graph.

The navigator finds the single START node and, for a finished node, the next one: the
first valid edge of a plain node, or the first valid edge on the chosen handle of a
routing node.
-/

namespace Assemblix.GraphNavigator

inductive NavigationError
  | noStartNode
  | multipleStartNodes (ids : List String)
  deriving DecidableEq, Repr

def findStartNode (nodes : List WorkflowNode) : Except NavigationError String :=
  match nodes.filter (fun node => decide (node.type = "start")) with
  | [] => .error .noStartNode
  | [node] => .ok node.id
  | starts => .error (.multipleStartNodes (starts.map WorkflowNode.id))

/-- `None` stands for a plain node; an index selects the handle of that branch. -/
def findNextNode (edges : List Edge) (nodes : List WorkflowNode) (currentNodeId : String)
    (sourceHandleIndex : Option Int) : Option String :=
  match sourceHandleIndex with
  | some index =>
      (edges.find? (fun edge => decide (edge.source = currentNodeId) &&
        decide (edge.sourceHandle = some (sourceHandleOf currentNodeId index)) &&
          validTarget nodes edge)).map Edge.target
  | none =>
      (edges.find? (fun edge => decide (edge.source = currentNodeId) &&
        validTarget nodes edge)).map Edge.target

end Assemblix.GraphNavigator
