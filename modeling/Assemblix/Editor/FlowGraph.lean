import Assemblix.Execution.Workflow
import Assemblix.Library.JsText

/-
The graph on the canvas of the workflow editor.

Of a node's configuration the canvas reads the conditions of a CONDITION node. The handles of a node
are numbered, the number stands behind the last underscore of a handle's name.
-/

namespace Assemblix.FlowGraph

open Library

structure Condition where
  name : Option String
  expression : String
  deriving DecidableEq, Repr

structure FlowNode where
  id : String
  type : String
  position : Int × Int
  conditions : List Condition
  selected : Bool
  deriving DecidableEq, Repr

structure FlowEdge where
  id : String
  source : String
  target : String
  sourceHandle : Option String
  targetHandle : Option String
  deriving DecidableEq, Repr

def generateHandleId (type nodeId : String) (index : Int) : String := s!"{type}_{nodeId}_{index}"

/-- `parseInt` of the last part of a handle's name. -/
def handleIndex (handle : String) : Option Int := JsText.parseInt (JsText.lastPart '_' handle)

theorem generateHandleId_letters (type nodeId : String) (index : Int) :
    (generateHandleId type nodeId index).toList =
      type.toList ++ '_' :: (nodeId.toList ++ '_' :: (toString index).toList) := by
  simp [generateHandleId, toString]

theorem handleIndex_generateHandleId (type nodeId : String) (index : Nat) :
    handleIndex (generateHandleId type nodeId index) = some (index : Int) := by
  have letters := generateHandleId_letters type nodeId index
  rw [← List.cons_append, ← List.append_assoc] at letters
  have plain : ∀ letter ∈ (toString (index : Int)).toList, letter ≠ '_' :=
    JsText.toString_plain index (by decide)
  rw [handleIndex, JsText.lastPart_of_letters letters plain, String.ofList_toList]
  exact JsText.parseInt_toString index

theorem generateHandleId_injective {type nodeId : String} {first second : Nat}
    (same : generateHandleId type nodeId first = generateHandleId type nodeId second) :
    first = second := by
  have read := handleIndex_generateHandleId type nodeId first
  rw [same, handleIndex_generateHandleId] at read
  exact (Int.ofNat.inj (Option.some.inj read)).symm

theorem generateHandleId_ne (type nodeId : String) (index : Int) :
    generateHandleId type nodeId index ≠ "" := by
  intro blank
  have letters := generateHandleId_letters type nodeId index
  rw [blank] at letters
  simp at letters

/-! ### The canvas -/

structure Canvas where
  nodes : List FlowNode
  edges : List FlowEdge

def FlowNode.toWorkflow (node : FlowNode) : WorkflowNode := ⟨node.id, node.type⟩

def FlowEdge.toWorkflow (edge : FlowEdge) : Edge := ⟨edge.source, edge.target, edge.sourceHandle⟩

/-- `generateNodeId`, by the clock and the count of the ids before. -/
def generateNodeId (now counter : Nat) : String := s!"node-{now}-{counter}"

theorem generateNodeId_counter {now later first second : Nat}
    (same : generateNodeId now first = generateNodeId later second) : first = second := by
  have counted : ∀ time counter : Nat, JsText.parseInt
      (JsText.lastPart '-' (generateNodeId time counter)) = some (counter : Int) := by
    intro time counter
    have letters : (generateNodeId time counter).toList =
        ("node-".toList ++ (toString time).toList) ++ '-' :: (toString counter).toList := by
      simp [generateNodeId, toString]
    rw [JsText.lastPart_of_letters letters (JsText.toString_plain counter (by decide)),
      String.ofList_toList]
    exact JsText.parseInt_toString counter
  have read := counted now first
  rw [same, counted] at read
  exact (Int.ofNat.inj (Option.some.inj read)).symm

end Assemblix.FlowGraph
