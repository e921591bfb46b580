import Mathlib.Algebra.Order.Ring.Rat
import Assemblix.Library.Dict
import Assemblix.Library.Json
import Assemblix.Execution.Workflow

/-
The execution context and what a finished node adds to it.

The context is immutable: a completed node yields a new one with the node's state
updates, its message for the shared history and the cost of the step folded in. Costs
are raw USD, in one bucket for each kind of key and each kind of usage.
-/

namespace Assemblix

open Library

abbrev Data := Dict String Json

inductive EndFilter
  | all
  | none
  | selected
  deriving DecidableEq, Repr

inductive OutputMode
  | lastAgent
  | specificAgent
  | custom
  deriving DecidableEq, Repr

structure EndNodeConfig where
  outputMode : Option OutputMode := none
  sourceNodeId : Option String := none
  customMessage : Option String := none
  stateFilter : EndFilter := .all
  stateVariables : List String := []
  projectFilter : EndFilter := .all
  projectVariables : List String := []
  isError : Bool := false
  isSessionEnd : Bool := false

structure Condition where
  expression : String
  name : Option String

structure WorkflowDefinition where
  nodes : List WorkflowNode
  edges : List Edge
  conditions : String → List Condition
  endConfig : String → EndNodeConfig

structure HistoryMessage where
  role : String
  content : String
  deriving DecidableEq

structure NodeMetadata where
  cost : Rat := 0
  usedSystemKey : Bool := false
  costKind : Option String := none
  voiceCost : Rat := 0
  voiceUsedSystemKey : Bool := false
  model : Option String := none
  tokens : Option Nat := none
  tokensUsed : Option Nat := none
  ownKeyCostUsd : Option Rat := none
  isSessionEnd : Bool := false
  isError : Bool := false
  errorMessage : String := ""
  filteredState : Option Data := none
  filteredProjectState : Option Data := none

structure NodeOutput where
  data : Data
  stateUpdates : Option Data := none
  projectUpdates : Option Data := none
  metadata : Option NodeMetadata := none
  historyAppend : Option HistoryMessage := none
  userTurn : Option String := none

structure ExecutionContext where
  workflow : WorkflowDefinition
  state : Data
  projectState : Data
  inputData : Data
  stepNumber : Nat
  visitedNodes : List String
  nodeExecutionCount : Dict String Nat
  maxSteps : Nat := 100
  maxNodeExecutions : Nat := 10
  systemKeyCostUsd : Rat := 0
  ownKeyCostUsd : Rat := 0
  systemVoiceCostUsd : Rat := 0
  ownVoiceCostUsd : Rat := 0
  chatHistory : List HistoryMessage := []
  lastHistoryMessage : Option String := none

inductive LimitError
  | maxSteps (limit : Nat)
  | nodeExecutions (nodeId : String) (count limit : Nat)
  deriving DecidableEq, Repr

namespace ExecutionContext

def withState (context : ExecutionContext) (updates : Data) : ExecutionContext :=
  { context with state := context.state.merge updates }

def withProjectState (context : ExecutionContext) (updates : Data) : ExecutionContext :=
  { context with projectState := context.projectState.merge updates }

def withChatHistory (context : ExecutionContext) (messages : List HistoryMessage) :
    ExecutionContext :=
  { context with
    chatHistory := context.chatHistory ++ messages
    lastHistoryMessage := match messages.getLast? with
      | some message => some message.content
      | none => context.lastHistoryMessage }

/-- The user's turn leaves `last_history_message` alone. -/
def withUserTurn (context : ExecutionContext) (content : String) : ExecutionContext :=
  { context with chatHistory := context.chatHistory ++ [⟨"user", content⟩] }

def executions (context : ExecutionContext) (nodeId : String) : Nat :=
  (context.nodeExecutionCount.lookup nodeId).getD 0

def withNodeVisited (context : ExecutionContext) (nodeId : String) : ExecutionContext :=
  { context with
    visitedNodes := context.visitedNodes ++ [nodeId]
    nodeExecutionCount := context.nodeExecutionCount.set nodeId (context.executions nodeId + 1)
    stepNumber := context.stepNumber + 1 }

/-- `none` when the node may run. -/
def canExecuteNode (context : ExecutionContext) (nodeId : String) : Option LimitError :=
  if context.maxSteps ≤ context.stepNumber then some (.maxSteps context.maxSteps)
  else if context.maxNodeExecutions ≤ context.executions nodeId then
    some (.nodeExecutions nodeId (context.executions nodeId) context.maxNodeExecutions)
  else none

end ExecutionContext

/-! ### Cost of a step -/

def addVoiceCost (metadata : NodeMetadata) (context : ExecutionContext) : ExecutionContext :=
  if 0 < metadata.voiceCost then
    if metadata.voiceUsedSystemKey then
      { context with
        systemVoiceCostUsd := context.systemVoiceCostUsd + metadata.voiceCost }
    else { context with ownVoiceCostUsd := context.ownVoiceCostUsd + metadata.voiceCost }
  else context

def addStepCost (metadata : NodeMetadata) (context : ExecutionContext) : ExecutionContext :=
  if metadata.cost = 0 then context
  else if metadata.costKind = some "voice" then
    if metadata.usedSystemKey then
      { context with systemVoiceCostUsd := context.systemVoiceCostUsd + metadata.cost }
    else { context with ownVoiceCostUsd := context.ownVoiceCostUsd + metadata.cost }
  else if metadata.usedSystemKey then
    { context with systemKeyCostUsd := context.systemKeyCostUsd + metadata.cost }
  else { context with ownKeyCostUsd := context.ownKeyCostUsd + metadata.cost }

/-- `accumulate_step_cost`. -/
def accumulateStepCost (context : ExecutionContext) (metadata : Option NodeMetadata) :
    ExecutionContext :=
  match metadata with
  | none => context
  | some metadata => addStepCost metadata (addVoiceCost metadata context)

/-! ### Recording a completed step -/

inductive StepStatus
  | running
  | completed
  | failed
  deriving DecidableEq, Repr

structure ExecutionStep where
  stepNumber : Nat
  nodeId : String
  nodeType : String
  inputData : Data
  outputData : Option Data
  stateBefore : Data
  stateAfter : Option Data
  status : StepStatus
  errorMessage : Option String := none
  modelUsed : Option String := none
  tokensUsed : Option Nat := none
  ownKeyCostUsd : Option Rat := none

structure Launch where
  nodeId : String
  nodeType : String
  nodeData : Data
  stateBefore : Data
  stepNumber : Nat

def hasStep (steps : List ExecutionStep) (stepNumber : Nat) : Bool :=
  steps.any (fun step => decide (step.stepNumber = stepNumber))

def logStep (steps : List ExecutionStep) (step : ExecutionStep) : List ExecutionStep :=
  if hasStep steps step.stepNumber then steps else steps ++ [step]

def withoutAudio (data : Data) : Data := data.restrict (fun key => !decide (key = "audio"))

def applyOutput (context : ExecutionContext) (output : NodeOutput) : ExecutionContext :=
  let context := match output.stateUpdates with
    | some updates => context.withState updates
    | none => context
  let context := match output.projectUpdates with
    | some updates => context.withProjectState updates
    | none => context
  let context := match output.historyAppend with
    | some message => context.withChatHistory [message]
    | none => context
  let context := match output.userTurn with
    | some content => context.withUserTurn content
    | none => context
  accumulateStepCost context output.metadata

def completedStep (launch : Launch) (output : NodeOutput) (stateAfter : Data) : ExecutionStep :=
  { stepNumber := launch.stepNumber
    nodeId := launch.nodeId
    nodeType := launch.nodeType
    inputData := launch.nodeData
    outputData := some (withoutAudio output.data)
    stateBefore := launch.stateBefore
    stateAfter := some stateAfter
    status := .completed
    modelUsed := output.metadata.bind NodeMetadata.model
    ownKeyCostUsd := output.metadata.bind NodeMetadata.ownKeyCostUsd }

def failedStep (launch : Launch) (error : String) : ExecutionStep :=
  { stepNumber := launch.stepNumber
    nodeId := launch.nodeId
    nodeType := launch.nodeType
    inputData := launch.nodeData
    outputData := none
    stateBefore := launch.stateBefore
    stateAfter := none
    status := .failed
    errorMessage := some error }

/-- `NodeRunner.record_completed`: the new context and the persisted steps. -/
def recordCompleted (context : ExecutionContext) (steps : List ExecutionStep) (launch : Launch)
    (output : NodeOutput) : ExecutionContext × List ExecutionStep :=
  let context := applyOutput context output
  (context, logStep steps (completedStep launch output context.state))

/-- `NodeRunner.record_failed`. -/
def recordFailed (steps : List ExecutionStep) (launch : Launch) (error : String) :
    List ExecutionStep :=
  logStep steps (failedStep launch error)

/-! ### What recording changes -/

theorem hasStep_false_iff {steps : List ExecutionStep} {number : Nat} :
    hasStep steps number = false ↔ number ∉ steps.map ExecutionStep.stepNumber := by
  unfold hasStep
  rw [List.any_eq_false]
  simp [eq_comm]

namespace ExecutionContext

/-- The fields that stay as they were prepared for the whole run. -/
structure SameRun (before after : ExecutionContext) : Prop where
  workflow : after.workflow = before.workflow
  inputData : after.inputData = before.inputData
  maxSteps : after.maxSteps = before.maxSteps
  maxNodeExecutions : after.maxNodeExecutions = before.maxNodeExecutions

theorem SameRun.refl (context : ExecutionContext) : SameRun context context where
  workflow := rfl
  inputData := rfl
  maxSteps := rfl
  maxNodeExecutions := rfl

theorem SameRun.trans {first second third : ExecutionContext} (left : SameRun first second)
    (right : SameRun second third) : SameRun first third where
  workflow := right.workflow.trans left.workflow
  inputData := right.inputData.trans left.inputData
  maxSteps := right.maxSteps.trans left.maxSteps
  maxNodeExecutions := right.maxNodeExecutions.trans left.maxNodeExecutions

section

variable (context : ExecutionContext) (nodeId : String)

theorem withNodeVisited_sameRun : SameRun context (context.withNodeVisited nodeId) where
  workflow := rfl
  inputData := rfl
  maxSteps := rfl
  maxNodeExecutions := rfl

@[simp] theorem withNodeVisited_state :
    (context.withNodeVisited nodeId).state = context.state := rfl

@[simp] theorem withNodeVisited_projectState :
    (context.withNodeVisited nodeId).projectState = context.projectState := rfl

@[simp] theorem withNodeVisited_stepNumber :
    (context.withNodeVisited nodeId).stepNumber = context.stepNumber + 1 := rfl

end

end ExecutionContext

theorem accumulateStepCost_eq (context : ExecutionContext) (metadata : Option NodeMetadata) :
    ∃ systemKey ownKey systemVoice ownVoice,
      accumulateStepCost context metadata =
        { context with
          systemKeyCostUsd := systemKey
          ownKeyCostUsd := ownKey
          systemVoiceCostUsd := systemVoice
          ownVoiceCostUsd := ownVoice } := by
  cases metadata with
  | none => exact ⟨_, _, _, _, rfl⟩
  | some metadata =>
      simp only [accumulateStepCost, addStepCost, addVoiceCost]
      split_ifs <;> exact ⟨_, _, _, _, rfl⟩

section

variable (context : ExecutionContext) (output : NodeOutput)

/-- Costs and the shared history are apart from what steers the run. -/
theorem applyOutput_eq :
    ∃ systemKey ownKey systemVoice ownVoice history last,
      applyOutput context output =
        { context with
          state := context.state.merge (output.stateUpdates.getD Dict.empty)
          projectState := context.projectState.merge (output.projectUpdates.getD Dict.empty)
          systemKeyCostUsd := systemKey
          ownKeyCostUsd := ownKey
          systemVoiceCostUsd := systemVoice
          ownVoiceCostUsd := ownVoice
          chatHistory := history
          lastHistoryMessage := last } := by
  obtain ⟨data, stateUpdates, projectUpdates, metadata, historyAppend, userTurn⟩ := output
  unfold applyOutput
  obtain ⟨systemKey, ownKey, systemVoice, ownVoice, accumulated⟩ := accumulateStepCost_eq _ metadata
  exists systemKey, ownKey, systemVoice, ownVoice
  rw [accumulated]
  cases stateUpdates <;> cases projectUpdates <;> cases historyAppend <;> cases userTurn <;>
    exact ⟨_, _, rfl⟩

@[simp] theorem applyOutput_state :
    (applyOutput context output).state =
      context.state.merge (output.stateUpdates.getD Dict.empty) := by
  obtain ⟨_, _, _, _, _, _, applied⟩ := applyOutput_eq context output
  rw [applied]

@[simp] theorem applyOutput_projectState :
    (applyOutput context output).projectState =
      context.projectState.merge (output.projectUpdates.getD Dict.empty) := by
  obtain ⟨_, _, _, _, _, _, applied⟩ := applyOutput_eq context output
  rw [applied]

@[simp] theorem applyOutput_stepNumber :
    (applyOutput context output).stepNumber = context.stepNumber := by
  obtain ⟨_, _, _, _, _, _, applied⟩ := applyOutput_eq context output
  rw [applied]

@[simp] theorem applyOutput_nodeExecutionCount :
    (applyOutput context output).nodeExecutionCount = context.nodeExecutionCount := by
  obtain ⟨_, _, _, _, _, _, applied⟩ := applyOutput_eq context output
  rw [applied]

theorem applyOutput_sameRun : context.SameRun (applyOutput context output) := by
  obtain ⟨_, _, _, _, _, _, applied⟩ := applyOutput_eq context output
  rw [applied]
  constructor <;> rfl

end

private theorem accumulateStepCost_visited (context : ExecutionContext)
    (metadata : Option NodeMetadata) (nodeId : String) :
    accumulateStepCost (context.withNodeVisited nodeId) metadata =
      (accumulateStepCost context metadata).withNodeVisited nodeId := by
  cases metadata with
  | none => rfl
  | some metadata =>
      simp only [accumulateStepCost, addStepCost, addVoiceCost]
      split_ifs <;> rfl

theorem applyOutput_visited (context : ExecutionContext) (output : NodeOutput) (nodeId : String) :
    applyOutput (context.withNodeVisited nodeId) output =
      (applyOutput context output).withNodeVisited nodeId := by
  obtain ⟨data, stateUpdates, projectUpdates, metadata, historyAppend, userTurn⟩ := output
  unfold applyOutput
  cases stateUpdates <;> cases projectUpdates <;> cases historyAppend <;> cases userTurn <;>
    dsimp only <;> rw [← accumulateStepCost_visited] <;> rfl

end Assemblix
