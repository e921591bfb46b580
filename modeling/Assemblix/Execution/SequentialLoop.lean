import Assemblix.Execution.GraphNavigator
import Assemblix.Execution.Nodes

/-
The sequential engine: one pointer through the graph.

One iteration checks the limits, runs the current node, records the step and moves to the
node the navigator finds. END stops the loop and its filters decide what is reported. A
run takes fewer than `max_steps` iterations.
-/

namespace Assemblix

open Library

inductive RunError
  | navigation (error : GraphNavigator.NavigationError)
  | limit (error : LimitError)
  | lookup (error : NodeLookupError)
  | node (nodeId : String) (error : String)
  | noNextNode (nodeId : String)
  | timeout
  deriving DecidableEq, Repr

/-- What a traversal returns. -/
structure RunResult where
  output : Data
  context : ExecutionContext
  isSessionEnd : Bool
  isError : Bool
  errorMessage : String

inductive Outcome
  | finished (result : RunResult) (steps : List ExecutionStep)
  | failed (error : RunError) (steps : List ExecutionStep)

def filteredContext (context : ExecutionContext) (metadata : NodeMetadata) : ExecutionContext :=
  { context with
    state := metadata.filteredState.getD context.state
    projectState := metadata.filteredProjectState.getD context.projectState }

def endResult (context : ExecutionContext) (output : NodeOutput) : RunResult :=
  let metadata := output.metadata.getD {}
  { output := output.data
    context := filteredContext context metadata
    isSessionEnd := metadata.isSessionEnd
    isError := metadata.isError
    errorMessage := metadata.errorMessage }

def nodeInput (context : ExecutionContext) (data : Data) : NodeInput :=
  { data := data
    state := context.state
    projectState := context.projectState
    stepNumber := context.stepNumber }

def inputData (context : ExecutionContext) (node : Node) (handed : Option Data) : Data :=
  if node.readsWorkflowInput then context.inputData else handed.getD Dict.empty

def launchOf (context : ExecutionContext) (nodeId : String) (data : Data) : Launch :=
  { nodeId := nodeId
    nodeType := ((findNode context.workflow nodeId).map WorkflowNode.type).getD ""
    nodeData := data
    stateBefore := context.state
    stepNumber := context.stepNumber }

structure Sequential where
  context : ExecutionContext
  steps : List ExecutionStep
  currentNodeId : String
  previousOutput : Option Data

inductive Iteration
  | next (state : Sequential)
  | stop (outcome : Outcome)

namespace Sequential

variable (library : NodeLibrary)

def advance (state : Sequential) (node : Node) (launch : Launch) (output : NodeOutput) :
    Iteration :=
  let (recorded, steps) := recordCompleted state.context state.steps launch output
  let context := recorded.withNodeVisited state.currentNodeId
  if node.isTerminal then .stop (.finished (endResult context output) steps)
  else match GraphNavigator.findNextNode state.context.workflow.edges
      state.context.workflow.nodes state.currentNodeId (node.branchIndex output) with
    | none => .stop (.failed (.noNextNode state.currentNodeId) steps)
    | some nextNodeId =>
        .next
          { context := context
            steps := steps
            currentNodeId := nextNodeId
            previousOutput := some output.data }

def iterate (state : Sequential) : Iteration :=
  match state.context.canExecuteNode state.currentNodeId with
  | some error => .stop (.failed (.limit error) state.steps)
  | none =>
      match getNode library state.context.workflow state.currentNodeId with
      | .error error => .stop (.failed (.lookup error) state.steps)
      | .ok node =>
          let data := inputData state.context node state.previousOutput
          let launch := launchOf state.context state.currentNodeId data
          match node.execute library state.steps (nodeInput state.context data)
              state.context.inputData with
          | .error error =>
              .stop (.failed (.node state.currentNodeId error)
                (recordFailed state.steps launch error))
          | .ok output => state.advance node launch output

def loop : Nat → Sequential → Outcome
  | 0, state => .failed (.limit (.maxSteps state.context.maxSteps)) state.steps
  | fuel + 1, state =>
      match state.iterate library with
      | .stop outcome => outcome
      | .next state => loop fuel state

/-- Every iteration uses up one step number, and `max_steps` bounds those. -/
def run (state : Sequential) : Outcome :=
  loop library (state.context.maxSteps - state.context.stepNumber) state

/-! ### One completed iteration -/

def launch (state : Sequential) (node : Node) : Launch :=
  launchOf state.context state.currentNodeId (inputData state.context node state.previousOutput)

def outcomeOf (state : Sequential) (node : Node) : Except String NodeOutput :=
  node.execute library state.steps
    (nodeInput state.context (inputData state.context node state.previousOutput))
    state.context.inputData

def recordedContext (state : Sequential) (output : NodeOutput) : ExecutionContext :=
  (applyOutput state.context output).withNodeVisited state.currentNodeId

def recordedSteps (state : Sequential) (node : Node) (output : NodeOutput) : List ExecutionStep :=
  logStep state.steps
    (completedStep (state.launch node) output (applyOutput state.context output).state)

structure Completes (state : Sequential) (node : Node) (output : NodeOutput) : Prop where
  allowed : state.context.canExecuteNode state.currentNodeId = none
  found : getNode library state.context.workflow state.currentNodeId = .ok node
  ran : state.outcomeOf library node = .ok output

variable {library}

theorem Completes.iterate {state : Sequential} {node : Node} {output : NodeOutput}
    (completes : state.Completes library node output) :
    state.iterate library = state.advance node (state.launch node) output := by
  have ran := completes.ran
  unfold outcomeOf at ran
  unfold Sequential.iterate
  simp only [completes.allowed, completes.found, ran]
  rfl

def moved (state : Sequential) (node : Node) (output : NodeOutput) (nextNodeId : String) :
    Sequential :=
  { context := state.recordedContext output
    steps := state.recordedSteps node output
    currentNodeId := nextNodeId
    previousOutput := some output.data }

def nextOf (state : Sequential) (node : Node) (output : NodeOutput) : Option String :=
  GraphNavigator.findNextNode state.context.workflow.edges state.context.workflow.nodes
    state.currentNodeId (node.branchIndex output)

theorem Completes.iterate_end {state : Sequential} {node : Node} {output : NodeOutput}
    (completes : state.Completes library node output) (terminal : node.isTerminal = true) :
    state.iterate library =
      .stop (.finished (endResult (state.recordedContext output) output)
        (state.recordedSteps node output)) := by
  rw [completes.iterate]
  simp only [advance, terminal, if_true]
  rfl

theorem Completes.iterate_next {state : Sequential} {node : Node} {output : NodeOutput}
    (completes : state.Completes library node output) (running : node.isTerminal = false)
    {nextNodeId : String} (navigated : state.nextOf node output = some nextNodeId) :
    state.iterate library = .next (state.moved node output nextNodeId) := by
  rw [completes.iterate]
  unfold nextOf at navigated
  simp only [advance, running, Bool.false_eq_true, if_false, navigated]
  rfl

theorem Completes.iterate_stuck {state : Sequential} {node : Node} {output : NodeOutput}
    (completes : state.Completes library node output) (running : node.isTerminal = false)
    (stuck : state.nextOf node output = none) :
    state.iterate library =
      .stop (.failed (.noNextNode state.currentNodeId) (state.recordedSteps node output)) := by
  rw [completes.iterate]
  unfold nextOf at stuck
  simp only [advance, running, Bool.false_eq_true, if_false, stuck]
  rfl

theorem iterate_cases (library : NodeLibrary) (state : Sequential) :
    (∃ error steps, state.iterate library = .stop (.failed error steps)) ∨
      ∃ node output, state.Completes library node output := by
  unfold Sequential.iterate
  cases allowed : state.context.canExecuteNode state.currentNodeId with
  | some error => exact .inl ⟨_, _, rfl⟩
  | none =>
      cases found : getNode library state.context.workflow state.currentNodeId with
      | error error => exact .inl ⟨_, _, rfl⟩
      | ok node =>
          cases ran : state.outcomeOf library node with
          | ok output => exact .inr ⟨node, output, allowed, found, ran⟩
          | error error =>
              unfold outcomeOf at ran
              simp only [ran]
              exact .inl ⟨_, _, rfl⟩

theorem completes_of_next {state after : Sequential}
    (moves : state.iterate library = .next after) :
    ∃ node output, state.Completes library node output ∧ node.isTerminal = false ∧
      ∃ nextNodeId, state.nextOf node output = some nextNodeId ∧
        after = state.moved node output nextNodeId := by
  rcases iterate_cases library state with ⟨error, steps, failed⟩ | ⟨node, output, completes⟩
  · rw [failed] at moves
    cases moves
  · exists node, output
    cases terminal : node.isTerminal with
    | true =>
        rw [completes.iterate_end terminal] at moves
        cases moves
    | false =>
        cases navigated : state.nextOf node output with
        | none =>
            rw [completes.iterate_stuck terminal navigated] at moves
            cases moves
        | some nextNodeId =>
            rw [completes.iterate_next terminal navigated] at moves
            cases moves
            exact ⟨completes, rfl, nextNodeId, rfl, rfl⟩

theorem completes_of_finished {state : Sequential} {result : RunResult}
    {steps : List ExecutionStep}
    (finishes : state.iterate library = .stop (.finished result steps)) :
    ∃ node output, state.Completes library node output ∧ node.isTerminal = true ∧
      result = endResult (state.recordedContext output) output ∧
        steps = state.recordedSteps node output := by
  rcases iterate_cases library state with ⟨error, steps, failed⟩ | ⟨node, output, completes⟩
  · rw [failed] at finishes
    cases finishes
  · exists node, output
    cases terminal : node.isTerminal with
    | true =>
        rw [completes.iterate_end terminal] at finishes
        cases finishes
        exact ⟨completes, rfl, rfl, rfl⟩
    | false =>
        cases navigated : state.nextOf node output with
        | none =>
            rw [completes.iterate_stuck terminal navigated] at finishes
            cases finishes
        | some nextNodeId =>
            rw [completes.iterate_next terminal navigated] at finishes
            cases finishes

/-! ### The loop -/

theorem recordedContext_sameRun (state : Sequential) (output : NodeOutput) :
    state.context.SameRun (state.recordedContext output) :=
  (applyOutput_sameRun state.context output).trans
    (ExecutionContext.withNodeVisited_sameRun _ state.currentNodeId)

@[simp] theorem recordedContext_stepNumber (state : Sequential) (output : NodeOutput) :
    (state.recordedContext output).stepNumber = state.context.stepNumber + 1 := by
  simp [recordedContext]

theorem Completes.stepNumber_lt {state : Sequential} {node : Node} {output : NodeOutput}
    (completes : state.Completes library node output) :
    state.context.stepNumber < state.context.maxSteps := by
  have allowed := completes.allowed
  by_contra reached
  rw [ExecutionContext.canExecuteNode, if_pos (not_lt.mp reached)] at allowed
  cases allowed

/-- Past `max_steps` the loop stops; before, the fuel counts the steps that are left. -/
theorem run_eq (library : NodeLibrary) (state : Sequential) :
    state.run library =
      match state.iterate library with
      | .stop outcome => outcome
      | .next after => after.run library := by
  unfold run
  cases remaining : state.context.maxSteps - state.context.stepNumber with
  | zero =>
      have reached : state.context.maxSteps ≤ state.context.stepNumber := by omega
      have limited : state.context.canExecuteNode state.currentNodeId =
          some (.maxSteps state.context.maxSteps) := by
        rw [ExecutionContext.canExecuteNode, if_pos reached]
      simp only [iterate, limited, loop]
  | succ fuel =>
      rw [loop]
      cases iterated : state.iterate library with
      | stop outcome => rfl
      | next after =>
          obtain ⟨node, output, completes, _, nextNodeId, _, rfl⟩ := completes_of_next iterated
          have left : (state.moved node output nextNodeId).context.maxSteps -
              (state.moved node output nextNodeId).context.stepNumber = fuel := by
            have limit := (state.recordedContext_sameRun output).maxSteps
            simp only [moved, recordedContext_stepNumber, limit]
            omega
          simp only [left]

end Sequential
end Assemblix
