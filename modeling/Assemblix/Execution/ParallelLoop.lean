import Mathlib.Data.List.Dedup
import Assemblix.Execution.DagScheduler
import Assemblix.Execution.SequentialLoop

/-
The parallel engine and the choice between the two engines.

Ready nodes are launched together and finish in any order; completions are processed one
at a time. A node body works on the context of its launch. END captures the first result,
filters the shared context and leaves its siblings running. A run is a sequence of
labelled steps, so that every order of completions is one.
-/

namespace Assemblix

open Library

/-! ### Which engine a graph needs -/

/-- Existing endpoints, no self-loop. -/
def traversable (nodes : List WorkflowNode) (edge : Edge) : Bool :=
  validTarget nodes edge && decide (edge.source ∈ nodeIds nodes)

def nodeTypeOf (nodes : List WorkflowNode) (nodeId : String) : Option String :=
  (nodes.reverse.find? (fun node => decide (node.id = nodeId))).map WorkflowNode.type

def outTargets (nodes : List WorkflowNode) (edges : List Edge) (source : String) : List String :=
  ((edges.filter (fun edge => traversable nodes edge && decide (edge.source = source))).map
    Edge.target).dedup

def inSources (nodes : List WorkflowNode) (edges : List Edge) (target : String) : List String :=
  ((edges.filter (fun edge => traversable nodes edge && decide (edge.target = target))).map
    Edge.source).dedup

/-- `_has_parallelism`: a fork, or a node with two predecessors. -/
def hasParallelism (nodes : List WorkflowNode) (edges : List Edge) : Bool :=
  edges.any (fun edge => traversable nodes edge &&
      (decide (2 ≤ (outTargets nodes edges edge.source).length) &&
        decide (nodeTypeOf nodes edge.source ≠ some "condition"))) ||
    edges.any (fun edge => traversable nodes edge &&
      decide (2 ≤ (inSources nodes edges edge.target).length))

/-! ### The parallel loop -/

/-- A started node. `rowsAtLaunch` counts the steps that were persisted by then. -/
structure InFlight where
  launch : Launch
  node : Node
  input : NodeInput
  rowsAtLaunch : Nat

structure Captured where
  output : Data
  isSessionEnd : Bool
  isError : Bool
  errorMessage : String

structure Parallel where
  start : String
  context : ExecutionContext
  steps : List ExecutionStep
  scheduler : DagScheduler.State Json
  ready : List (DagScheduler.ReadyNode Json)
  running : List InFlight
  captured : Option Captured

inductive Engine
  | sequential (state : Sequential)
  | parallel (state : Parallel)
  | finished (result : RunResult) (steps : List ExecutionStep)
  | failed (error : RunError) (steps : List ExecutionStep)

/-- `complete position seen` ends the in-flight node at that position, whose body read the
first `seen` persisted steps. -/
inductive EngineLabel
  | advance
  | launch
  | complete (position seen : Nat)
  | close
  | expire
  deriving DecidableEq, Repr

def Outcome.engine : Outcome → Engine
  | .finished result steps => .finished result steps
  | .failed error steps => .failed error steps

namespace Parallel

def plan (state : Parallel) : DagScheduler.Plan :=
  DagScheduler.plan state.context.workflow.nodes state.context.workflow.edges state.start

variable (library : NodeLibrary)

def launchNode (state : Parallel) (ready : DagScheduler.ReadyNode Json) :
    Except RunError Parallel :=
  match state.context.canExecuteNode ready.nodeId with
  | some error => .error (.limit error)
  | none =>
      match getNode library state.context.workflow ready.nodeId with
      | .error error => .error (.lookup error)
      | .ok node =>
          let data := inputData state.context node (some ready.inputData)
          .ok
            { state with
              context := state.context.withNodeVisited ready.nodeId
              running := state.running ++
                [{ launch := launchOf state.context ready.nodeId data
                   node := node
                   input := nodeInput state.context data
                   rowsAtLaunch := state.steps.length }] }

def launchReady (state : Parallel) : Except RunError Parallel :=
  state.ready.foldlM (launchNode library) { state with ready := [] }

def capture (state : Parallel) (output : NodeOutput) : Parallel :=
  match state.captured with
  | some _ => state
  | none =>
      let result := endResult state.context output
      { state with
        context := result.context
        captured := some
          { output := result.output
            isSessionEnd := result.isSessionEnd
            isError := result.isError
            errorMessage := result.errorMessage } }

def route (state : Parallel) (entry : InFlight) (output : NodeOutput) : Parallel :=
  let (scheduler, result) := DagScheduler.complete state.plan state.scheduler entry.launch.nodeId
    output.data (entry.node.branchIndex output) false
  { state with scheduler := scheduler, ready := state.ready ++ result.ready }

def outcomeOf (state : Parallel) (entry : InFlight) (seen : Nat) : Except String NodeOutput :=
  entry.node.execute library (state.steps.take seen) entry.input state.context.inputData

def record (state : Parallel) (position : Nat) (entry : InFlight) (output : NodeOutput) :
    Parallel :=
  let (context, steps) := recordCompleted state.context state.steps entry.launch output
  { state with
    context := context
    steps := steps
    running := state.running.eraseIdx position }

/-- Process one finished node. -/
def complete (state : Parallel) (position seen : Nat) : Option Engine :=
  match state.running[position]? with
  | none => none
  | some entry =>
      if entry.rowsAtLaunch ≤ seen ∧ seen ≤ state.steps.length then
        some (match state.outcomeOf library entry seen with
          | .error error =>
              .failed (.node entry.launch.nodeId error)
                (recordFailed state.steps entry.launch error)
          | .ok output =>
              let recorded := state.record position entry output
              if entry.node.isTerminal then .parallel (recorded.capture output)
              else .parallel (recorded.route entry output))
      else none

/-- What is returned when nothing is ready or running any more. -/
def result (state : Parallel) : RunResult :=
  match state.captured with
  | some captured =>
      { output := captured.output
        context := state.context
        isSessionEnd := captured.isSessionEnd
        isError := captured.isError
        errorMessage := captured.errorMessage }
  | none =>
      { output := Dict.empty
        context := state.context
        isSessionEnd := false
        isError := false
        errorMessage := "" }

def step (state : Parallel) : EngineLabel → Option Engine
  | .launch =>
      if state.ready = [] then none
      else some (match state.launchReady library with
        | .error error => .failed error state.steps
        | .ok launched => .parallel launched)
  | .complete position seen => state.complete library position seen
  | .close =>
      if state.ready = [] ∧ state.running.length = 0 then some (.finished state.result state.steps)
      else none
  | .expire =>
      if state.ready = [] ∧ state.running.length ≠ 0 then some (.failed .timeout state.steps)
      else none
  | .advance => none

end Parallel

/-! ### One run -/

namespace Engine

def steps : Engine → List ExecutionStep
  | .sequential state => state.steps
  | .parallel state => state.steps
  | .finished _ steps => steps
  | .failed _ steps => steps

def step (library : NodeLibrary) : Engine → EngineLabel → Option Engine
  | .sequential state, .advance =>
      some (match state.iterate library with
        | .next state => .sequential state
        | .stop outcome => outcome.engine)
  | .sequential state, .expire => some (.failed .timeout state.steps)
  | .parallel state, label => state.step library label
  | _, _ => none

def Step (library : NodeLibrary) (engine : Engine) (label : EngineLabel) (next : Engine) : Prop :=
  engine.step library label = some next

def projectState : Engine → Data
  | .sequential state => state.context.projectState
  | .parallel state => state.context.projectState
  | .finished result _ => result.context.projectState
  | .failed _ _ => Dict.empty

def completion (library : NodeLibrary) : Engine → EngineLabel → Option (Node × NodeOutput)
  | .sequential state, .advance =>
      match state.context.canExecuteNode state.currentNodeId,
          getNode library state.context.workflow state.currentNodeId with
      | none, .ok node =>
          match state.outcomeOf library node with
          | .error _ => none
          | .ok output => some (node, output)
      | _, _ => none
  | .parallel state, .complete position seen =>
      match state.running[position]? with
      | none => none
      | some entry =>
          if entry.rowsAtLaunch ≤ seen ∧ seen ≤ state.steps.length then
            match state.outcomeOf library entry seen with
            | .error _ => none
            | .ok output => some (entry.node, output)
          else none
  | _, _ => none

/-- `_execution_loop` without a resume point, on the steps persisted so far. -/
def start (context : ExecutionContext) (steps : List ExecutionStep) : Engine :=
  match GraphNavigator.findStartNode context.workflow.nodes with
  | .error error => .failed (.navigation error) steps
  | .ok startNodeId =>
      if hasParallelism context.workflow.nodes context.workflow.edges then
        .parallel
          { start := startNodeId
            context := context
            steps := steps
            scheduler := DagScheduler.State.initial
            ready := DagScheduler.start
              (DagScheduler.plan context.workflow.nodes context.workflow.edges startNodeId)
            running := []
            captured := none }
      else
        .sequential
          { context := context, steps := steps, currentNodeId := startNodeId, previousOutput := none }

end Engine
/-! ### What a launch does -/

namespace Parallel

variable {library : NodeLibrary}

theorem launchNode_ok {state launched : Parallel} {ready : DagScheduler.ReadyNode Json}
    (started : state.launchNode library ready = .ok launched) :
    ∃ node, getNode library state.context.workflow ready.nodeId = .ok node ∧
      launched =
        { state with
          context := state.context.withNodeVisited ready.nodeId
          running := state.running ++
            [{ launch := launchOf state.context ready.nodeId
                (inputData state.context node (some ready.inputData))
               node := node
               input := nodeInput state.context
                (inputData state.context node (some ready.inputData))
               rowsAtLaunch := state.steps.length }] } := by
  unfold launchNode at started
  cases allowed : state.context.canExecuteNode ready.nodeId with
  | some error =>
      rw [allowed] at started
      cases started
  | none =>
      cases found : getNode library state.context.workflow ready.nodeId with
      | error error =>
          rw [allowed, found] at started
          cases started
      | ok node =>
          rw [allowed, found] at started
          cases started
          exact ⟨node, rfl, rfl⟩

theorem result_context (state : Parallel) : state.result.context = state.context := by
  unfold result
  cases state.captured <;> rfl

theorem launchReady_invariant {state launched : Parallel}
    (started : state.launchReady library = .ok launched) (kept : Parallel → Prop)
    (initially : kept { state with ready := [] })
    (preserved : ∀ ready first next, kept first → first.launchNode library ready = .ok next →
      kept next) : kept launched := by
  unfold launchReady at started
  generalize ({ state with ready := [] } : Parallel) = first at started initially
  generalize state.ready = pending at started
  induction pending generalizing first with
  | nil =>
      cases started
      exact initially
  | cons ready rest ih =>
      rw [List.foldlM_cons] at started
      cases launch : first.launchNode library ready with
      | error error =>
          rw [launch] at started
          cases started
      | ok next =>
          rw [launch] at started
          exact ih next (preserved ready first next initially launch) started

end Parallel

/-! ### What one step of the parallel engine can be -/

structure Parallel.Completes (library : NodeLibrary) (state : Parallel) (position seen : Nat)
    (entry : InFlight) (output : NodeOutput) : Prop where
  inFlight : state.running[position]? = some entry
  window : entry.rowsAtLaunch ≤ seen ∧ seen ≤ state.steps.length
  ran : state.outcomeOf library entry seen = .ok output

inductive Parallel.Moves (library : NodeLibrary) (state : Parallel) :
    EngineLabel → Engine → Prop
  | launch {launched : Parallel} (some : state.ready ≠ [])
      (started : state.launchReady library = .ok launched) :
      Moves library state .launch (.parallel launched)
  | capture {position seen : Nat} {entry : InFlight} {output : NodeOutput}
      (completes : state.Completes library position seen entry output)
      (terminal : entry.node.isTerminal = true) :
      Moves library state (.complete position seen)
        (.parallel ((state.record position entry output).capture output))
  | route {position seen : Nat} {entry : InFlight} {output : NodeOutput}
      (completes : state.Completes library position seen entry output)
      (running : entry.node.isTerminal = false) :
      Moves library state (.complete position seen)
        (.parallel ((state.record position entry output).route entry output))
  | close (quiet : state.ready = []) (idle : state.running = []) :
      Moves library state .close (.finished state.result state.steps)

theorem Parallel.step_cases {library : NodeLibrary} {state : Parallel} {label : EngineLabel}
    {next : Engine} (taken : (Engine.parallel state).Step library label next) :
    (∃ error steps, next = .failed error steps) ∨ state.Moves library label next := by
  unfold Engine.Step at taken
  cases label with
  | advance => cases taken
  | launch =>
      simp only [Engine.step, Parallel.step] at taken
      split at taken
      case isTrue => cases taken
      case isFalse some =>
        cases started : state.launchReady library with
        | error error =>
            rw [started] at taken
            cases taken
            exact .inl ⟨_, _, rfl⟩
        | ok launched =>
            rw [started] at taken
            cases taken
            exact .inr (.launch some started)
  | complete position seen =>
      simp only [Engine.step, Parallel.step, Parallel.complete] at taken
      cases inFlight : state.running[position]? with
      | none =>
          rw [inFlight] at taken
          cases taken
      | some entry =>
          simp only [inFlight] at taken
          split at taken
          case isFalse => cases taken
          case isTrue window =>
            cases ran : state.outcomeOf library entry seen with
            | error error =>
                rw [ran] at taken
                cases taken
                exact .inl ⟨_, _, rfl⟩
            | ok output =>
                have completes : state.Completes library position seen entry output :=
                  ⟨inFlight, window, ran⟩
                rw [ran] at taken
                cases terminal : entry.node.isTerminal with
                | true =>
                    simp only [terminal, if_true, Option.some.injEq] at taken
                    subst taken
                    exact .inr (.capture completes terminal)
                | false =>
                    simp only [terminal, Bool.false_eq_true, if_false, Option.some.injEq] at taken
                    subst taken
                    exact .inr (.route completes terminal)
  | close =>
      simp only [Engine.step, Parallel.step] at taken
      split at taken
      case isFalse => cases taken
      case isTrue drained =>
        cases taken
        exact .inr (.close drained.1 (List.eq_nil_of_length_eq_zero drained.2))
  | expire =>
      simp only [Engine.step, Parallel.step] at taken
      split at taken
      case isFalse => cases taken
      case isTrue =>
        cases taken
        exact .inl ⟨_, _, rfl⟩

theorem Parallel.Completes.completion {library : NodeLibrary} {state : Parallel}
    {position seen : Nat} {entry : InFlight} {output : NodeOutput}
    (completes : state.Completes library position seen entry output) :
    (Engine.parallel state).completion library (.complete position seen) =
      some (entry.node, output) := by
  simp only [Engine.completion, completes.inFlight, if_pos completes.window, completes.ran]

theorem Sequential.Completes.completion {library : NodeLibrary} {state : Sequential}
    {node : Node} {output : NodeOutput} (completes : state.Completes library node output) :
    (Engine.sequential state).completion library .advance = some (node, output) := by
  simp only [Engine.completion, completes.allowed, completes.found, completes.ran]

theorem Sequential.step_cases {library : NodeLibrary} {state : Sequential} {label : EngineLabel}
    {next : Engine} (taken : (Engine.sequential state).Step library label next) :
    (∃ error steps, next = .failed error steps) ∨
      ∃ node output, label = .advance ∧ state.Completes library node output ∧
        ((node.isTerminal = false ∧
            ∃ nextNodeId, next = .sequential (state.moved node output nextNodeId)) ∨
          (node.isTerminal = true ∧
            next = .finished (endResult (state.recordedContext output) output)
              (state.recordedSteps node output))) := by
  unfold Engine.Step at taken
  cases label with
  | advance =>
      cases iterated : state.iterate library with
      | stop outcome =>
          simp only [Engine.step, iterated, Option.some.injEq] at taken
          subst taken
          cases outcome with
          | failed error steps => exact .inl ⟨error, steps, rfl⟩
          | finished result steps =>
              obtain ⟨node, output, completes, terminal, rfl, rfl⟩ :=
                completes_of_finished iterated
              exact .inr ⟨node, output, rfl, completes, .inr ⟨terminal, rfl⟩⟩
      | next after =>
          simp only [Engine.step, iterated, Option.some.injEq] at taken
          subst taken
          obtain ⟨node, output, completes, running, nextNodeId, _, rfl⟩ :=
            completes_of_next iterated
          exact .inr ⟨node, output, rfl, completes, .inl ⟨running, nextNodeId, rfl⟩⟩
  | expire =>
      cases taken
      exact .inl ⟨_, _, rfl⟩
  | launch => cases taken
  | complete position seen => cases taken
  | close => cases taken

end Assemblix
