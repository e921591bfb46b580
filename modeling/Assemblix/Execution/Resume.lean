import Assemblix.Execution.SingleFileRun

/-
Resuming a crashed execution from its persisted steps.

The resume point is the last completed step. The state, the step number and the branch
taken come from its row; project state has no column and is loaded again from the client
session, and the visit counts start over. A resumed run is always sequential. It reports
what the uninterrupted run would have reported as long as the completed steps have left
project state as it was loaded and the last output lost nothing when it was persisted.
-/

namespace Assemblix

open Library

/-- `project_state` is not stored with the steps; the caller reloads it. -/
structure ResumePoint where
  lastNodeId : String
  nextStepNumber : Nat
  state : Data
  conditionIndex : Option Int
  lastOutput : Option Data

def orNone (data : Data) : Option Data := if data.entries = [] then none else some data

def findResumePoint (steps : List ExecutionStep) : Option ResumePoint :=
  (latest (steps.filter (fun step => decide (step.status = .completed)))).map (fun last =>
    { lastNodeId := last.nodeId
      nextStepNumber := last.stepNumber + 1
      state := last.stateAfter.getD Dict.empty
      conditionIndex :=
        if last.nodeType = "condition" then
          ((last.outputData.getD Dict.empty).lookup "condition_index").bind Json.asInt
        else none
      lastOutput := last.outputData.bind orNone })

/-- The context `_preparation_phase` builds, seeded from the resume point if there is one. -/
def prepareContext (workflow : WorkflowDefinition) (inputData initialState projectState : Data)
    (chatHistory : List HistoryMessage) (resumePoint : Option ResumePoint) : ExecutionContext :=
  { workflow := workflow
    state := match resumePoint with
      | some point => point.state
      | none => initialState
    projectState := projectState
    inputData := inputData
    stepNumber := match resumePoint with
      | some point => point.nextStepNumber
      | none => 0
    visitedNodes := []
    nodeExecutionCount := Dict.empty
    chatHistory := chatHistory }

/-- Where `_execution_loop_sequential` continues; the last node may have no successor. -/
def resumePointer (context : ExecutionContext) (steps : List ExecutionStep)
    (point : ResumePoint) : Option Sequential :=
  (GraphNavigator.findNextNode context.workflow.edges context.workflow.nodes
    point.lastNodeId point.conditionIndex).map (fun nodeId =>
      { context := context
        steps := steps
        currentNodeId := nodeId
        previousOutput := point.lastOutput })

def alreadyFinished (context : ExecutionContext) : RunResult where
  output := Dict.empty
  context := context
  isSessionEnd := false
  isError := false
  errorMessage := ""

def resumeLoop (library : NodeLibrary) (context : ExecutionContext) (steps : List ExecutionStep)
    (point : ResumePoint) : Outcome :=
  match resumePointer context steps point with
  | none => .finished (alreadyFinished context) steps
  | some state => state.run library

structure SameReport (left right : RunResult) : Prop where
  output : left.output = right.output
  state : left.context.state = right.context.state
  projectState : left.context.projectState = right.context.projectState
  stepNumber : left.context.stepNumber = right.context.stepNumber
  isSessionEnd : left.isSessionEnd = right.isSessionEnd
  isError : left.isError = right.isError
  errorMessage : left.errorMessage = right.errorMessage

/-! ### Two pointers that differ in their past -/

/-- The resumed loop is where the original one is; it remembers fewer visits and handed-over
data may be absent instead of empty. -/
structure Alike (resumed original : Sequential) : Prop where
  sameRun : original.context.SameRun resumed.context
  state : resumed.context.state = original.context.state
  projectState : resumed.context.projectState = original.context.projectState
  stepNumber : resumed.context.stepNumber = original.context.stepNumber
  fewer : ∀ nodeId, resumed.context.executions nodeId ≤ original.context.executions nodeId
  steps : resumed.steps = original.steps
  currentNodeId : resumed.currentNodeId = original.currentNodeId
  handed : resumed.previousOutput.getD Dict.empty = original.previousOutput.getD Dict.empty

namespace Alike

variable {library : NodeLibrary} {resumed original : Sequential}

section

variable (alike : Alike resumed original)
include alike

theorem allowed (permitted : original.context.canExecuteNode original.currentNodeId = none) :
    resumed.context.canExecuteNode resumed.currentNodeId = none := by
  have fewer := alike.fewer original.currentNodeId
  unfold ExecutionContext.canExecuteNode at permitted ⊢
  rw [alike.currentNodeId, alike.stepNumber, alike.sameRun.maxSteps,
    alike.sameRun.maxNodeExecutions]
  split_ifs at permitted with exhausted repeated
  rw [if_neg exhausted, if_neg (by omega)]

theorem inputData (node : Node) :
    inputData resumed.context node resumed.previousOutput =
      Assemblix.inputData original.context node original.previousOutput := by
  unfold Assemblix.inputData
  rw [alike.sameRun.inputData, alike.handed]

theorem nodeInput (data : Data) :
    nodeInput resumed.context data = Assemblix.nodeInput original.context data := by
  unfold Assemblix.nodeInput
  rw [alike.state, alike.projectState, alike.stepNumber]

theorem launch (node : Node) : resumed.launch node = original.launch node := by
  unfold Sequential.launch launchOf
  rw [alike.inputData node, alike.currentNodeId, alike.state, alike.stepNumber,
    alike.sameRun.workflow]

theorem completes {node : Node} {output : NodeOutput}
    (completes : original.Completes library node output) :
    resumed.Completes library node output := by
  constructor
  · exact alike.allowed completes.allowed
  · rw [alike.sameRun.workflow, alike.currentNodeId]
    exact completes.found
  · unfold Sequential.outcomeOf
    rw [alike.inputData node, alike.nodeInput, alike.steps, alike.sameRun.inputData]
    exact completes.ran

theorem recordedSteps (node : Node) (output : NodeOutput) :
    resumed.recordedSteps node output = original.recordedSteps node output := by
  unfold Sequential.recordedSteps
  rw [alike.steps, alike.launch node, applyOutput_state, applyOutput_state, alike.state]

end

theorem executions_visited (context : ExecutionContext) (output : NodeOutput)
    (nodeId other : String) :
    ((applyOutput context output).withNodeVisited nodeId).executions other =
      if nodeId = other then context.executions nodeId + 1 else context.executions other := by
  simp only [ExecutionContext.executions, ExecutionContext.withNodeVisited,
    applyOutput_nodeExecutionCount, Dict.lookup_set]
  split <;> simp

theorem moved (alike : Alike resumed original) (node : Node) (output : NodeOutput)
    (nextNodeId : String) :
    Alike (resumed.moved node output nextNodeId) (original.moved node output nextNodeId) where
  sameRun := by
    have before := original.recordedContext_sameRun output
    have after := resumed.recordedContext_sameRun output
    have between := alike.sameRun
    constructor
    · exact after.workflow.trans (between.workflow.trans before.workflow.symm)
    · exact after.inputData.trans (between.inputData.trans before.inputData.symm)
    · exact after.maxSteps.trans (between.maxSteps.trans before.maxSteps.symm)
    · exact after.maxNodeExecutions.trans
        (between.maxNodeExecutions.trans before.maxNodeExecutions.symm)
  state := by
    simp [Sequential.moved, Sequential.recordedContext, alike.state]
  projectState := by
    simp [Sequential.moved, Sequential.recordedContext, alike.projectState]
  stepNumber := by
    simp [Sequential.moved, alike.stepNumber]
  fewer := by
    intro nodeId
    have here := alike.fewer original.currentNodeId
    have there := alike.fewer nodeId
    simp only [Sequential.moved, Sequential.recordedContext, executions_visited,
      alike.currentNodeId]
    split <;> omega
  steps := alike.recordedSteps node output
  currentNodeId := rfl
  handed := rfl

theorem endResult (alike : Alike resumed original) (output : NodeOutput) :
    SameReport (endResult (resumed.recordedContext output) output)
      (Assemblix.endResult (original.recordedContext output) output) where
  output := rfl
  state := by
    simp [Assemblix.endResult, filteredContext, Sequential.recordedContext, alike.state]
  projectState := by
    simp [Assemblix.endResult, filteredContext, Sequential.recordedContext, alike.projectState]
  stepNumber := by
    simp [Assemblix.endResult, filteredContext, alike.stepNumber]
  isSessionEnd := rfl
  isError := rfl
  errorMessage := rfl

theorem run (alike : Alike resumed original) {result : RunResult} {steps : List ExecutionStep}
    (finished : original.run library = .finished result steps) :
    ∃ report, resumed.run library = .finished report steps ∧ SameReport report result := by
  induction remaining : original.context.maxSteps - original.context.stepNumber using
    Nat.strong_induction_on generalizing resumed original with
  | _ bound ih =>
      rw [original.run_eq library] at finished
      rw [resumed.run_eq library]
      cases iterated : original.iterate library with
      | stop outcome =>
          rw [iterated] at finished
          change outcome = _ at finished
          subst finished
          obtain ⟨node, output, completes, terminal, rfl, rfl⟩ :=
            Sequential.completes_of_finished iterated
          rw [(alike.completes completes).iterate_end terminal]
          exact ⟨_, by rw [alike.recordedSteps], alike.endResult output⟩
      | next after =>
          rw [iterated] at finished
          obtain ⟨node, output, completes, running, nextNodeId, navigated, rfl⟩ :=
            Sequential.completes_of_next iterated
          have same : resumed.nextOf node output = some nextNodeId := by
            unfold Sequential.nextOf
            rw [alike.sameRun.workflow, alike.currentNodeId]
            exact navigated
          rw [(alike.completes completes).iterate_next running same]
          apply ih _ _ (alike.moved node output nextNodeId) finished rfl
          have below := completes.stepNumber_lt
          have limit := (original.recordedContext_sameRun output).maxSteps
          simp only [Sequential.moved, Sequential.recordedContext_stepNumber, limit]
          omega

end Alike

/-! ### The resume point of a recorded step -/

theorem withoutAudio_eq (data : Data) (silent : data.lookup "audio" = none) :
    withoutAudio data = data := by
  apply Dict.ext_entries
  apply List.filter_eq_self.mpr
  intro entry member
  simp only [Bool.not_eq_true', decide_eq_false_iff_not]
  intro voiced
  apply (Dict.lookup_eq_none data "audio").mp silent
  rw [← voiced]
  exact List.mem_map_of_mem member

theorem orNone_getD (data : Data) : (orNone data).getD Dict.empty = data := by
  unfold orNone
  split
  case isTrue nothing =>
    apply Dict.ext_entries
    exact nothing.symm
  case isFalse => rfl

theorem branchIndex_persisted {library : NodeLibrary} {workflow : WorkflowDefinition}
    {nodeId : String} {node : Node} (found : getNode library workflow nodeId = .ok node)
    (output : NodeOutput) :
    (if ((findNode workflow nodeId).map WorkflowNode.type).getD "" = "condition" then
      ((withoutAudio output.data).lookup "condition_index").bind Json.asInt
    else none) = node.branchIndex output := by
  obtain ⟨entry, _, _, located, routes, _⟩ := getNode_found found
  simp only [located, Option.map_some, Option.getD_some]
  by_cases condition : entry.type = "condition"
  · obtain ⟨conditions, rfl⟩ := routes.mp condition
    rw [if_pos condition, withoutAudio, Dict.lookup_restrict]
    rfl
  · rw [if_neg condition]
    cases node with
    | condition conditions => exact absurd (routes.mpr ⟨conditions, rfl⟩) condition
    | start => rfl
    | endNode config => rfl
    | task task => rfl

theorem findResumePoint_recorded {library : NodeLibrary} {state : Sequential}
    (numbered : state.Numbered) {node : Node} {output : NodeOutput}
    (completes : state.Completes library node output)
    (silent : output.data.lookup "audio" = none) :
    findResumePoint (state.recordedSteps node output) =
      some
        { lastNodeId := state.currentNodeId
          nextStepNumber := state.context.stepNumber + 1
          state := (applyOutput state.context output).state
          conditionIndex := node.branchIndex output
          lastOutput := orNone output.data } := by
  have newest : latest ((state.recordedSteps node output).filter
      (fun step => decide (step.status = .completed))) =
        some (completedStep (state.launch node) output
          (applyOutput state.context output).state) := by
    rw [numbered.recordedSteps, List.filter_append]
    apply latest_append
    intro step member
    exact (numbered step (List.mem_filter.mp member).1).1
  have branch := branchIndex_persisted completes.found output
  unfold findResumePoint
  rw [newest, Option.map_some, ← branch]
  simp only [completedStep, Sequential.launch, launchOf, Option.getD_some, Option.bind_some,
    withoutAudio_eq output.data silent]

theorem resumeLoop_recorded {library : NodeLibrary} {workflow : WorkflowDefinition}
    {inputData initialState projectState : Data} {history later : List HistoryMessage}
    {state : Sequential} (numbered : state.Numbered)
    (sameRun : (prepareContext workflow inputData initialState projectState history none).SameRun
      state.context)
    {node : Node} {output : NodeOutput} (completes : state.Completes library node output)
    (silent : output.data.lookup "audio" = none)
    (kept : (applyOutput state.context output).projectState = projectState)
    {nextNodeId : String} (navigated : state.nextOf node output = some nextNodeId)
    {result : RunResult} {steps : List ExecutionStep}
    (finished : (state.moved node output nextNodeId).run library = .finished result steps) :
    ∃ point, findResumePoint (state.recordedSteps node output) = some point ∧
      ∃ report,
        resumeLoop library
          (prepareContext workflow inputData initialState projectState later (some point))
          (state.recordedSteps node output) point = .finished report steps ∧
        SameReport report result := by
  refine ⟨_, findResumePoint_recorded numbered completes silent, ?_⟩
  have target : GraphNavigator.findNextNode workflow.edges workflow.nodes state.currentNodeId
      (node.branchIndex output) = some nextNodeId := by
    rw [← navigated, Sequential.nextOf, sameRun.workflow]
    rfl
  simp only [resumeLoop, resumePointer, prepareContext, target, Option.map_some]
  apply Alike.run _ finished
  have moved := sameRun.trans (state.recordedContext_sameRun output)
  constructor
  · constructor
    · exact moved.workflow.symm
    · exact moved.inputData.symm
    · exact moved.maxSteps.symm
    · exact moved.maxNodeExecutions.symm
  · rfl
  · exact kept.symm
  · exact (state.recordedContext_stepNumber output).symm
  · intro nodeId
    exact Nat.zero_le _
  · rfl
  · rfl
  · exact orNone_getD output.data

/-- A run crashes right after a step of a node that is not END; it would have gone on to its
END. If no completed step has changed project state and the step's output has no audio, the
resumed run reports the same. -/
theorem resume_reports_same (library : NodeLibrary) (workflow : WorkflowDefinition)
    (inputData initialState projectState : Data) (history later : List HistoryMessage)
    (forkFree : hasParallelism workflow.nodes workflow.edges = true → workflow.ForkFree)
    (before : List EngineLabel) (reached : Engine)
    (running : Run (Engine.Step library)
      (Engine.start
        (prepareContext workflow inputData initialState projectState history none) [])
      before reached)
    (label : EngineLabel) (crashed : Engine) (recorded : reached.Step library label crashed)
    (node : Node) (output : NodeOutput)
    (completed : reached.completion library label = some (node, output))
    (notEnd : node.isTerminal = false)
    (after : List EngineLabel) (result : RunResult) (steps : List ExecutionStep)
    (uninterrupted : Run (Engine.Step library) crashed after (.finished result steps))
    (ends : EndsAtEnd steps)
    (kept : crashed.projectState = projectState)
    (silent : output.data.lookup "audio" = none) :
    ∃ point, findResumePoint crashed.steps = some point ∧
      ∃ report,
        resumeLoop library
          (prepareContext workflow inputData initialState projectState later (some point))
          crashed.steps point = .finished report steps ∧
        SameReport report result := by
  cases located : GraphNavigator.findStartNode workflow.nodes with
  | error error =>
      have failed : Engine.start (prepareContext workflow inputData initialState projectState
          history none) [] = .failed (.navigation error) [] := by
        simp [Engine.start, prepareContext, located]
      rw [failed] at running
      rw [run_of_failed running] at completed
      cases completed
  | ok startNodeId =>
      have heading := Heading.start library
        (prepareContext workflow inputData initialState projectState history none) located
      have dispatched : (Engine.start (prepareContext workflow inputData initialState projectState
          history none) []).isParallel = true → workflow.ForkFree := by
        intro parallel
        apply forkFree
        by_contra sequential
        simp [Engine.start, prepareContext, located, sequential, Engine.isParallel] at parallel
      obtain ⟨there, forks⟩ := heading.run dispatched running
      rcases there.recorded forks recorded completed notEnd with
        ⟨state, nextNodeId, numbered, sameRun, completes, navigated, points⟩ |
          ⟨parallel, rfl, without, quiet, idle⟩ | ⟨error, failedSteps, rfl⟩
      · have onward := numbered.moved node output nextNodeId
        have later := sameRun.trans (state.recordedContext_sameRun output)
        have crashedForks : crashed.isParallel = true →
            (state.moved node output nextNodeId).context.workflow.ForkFree := by
          intro parallel
          rw [show (state.moved node output nextNodeId).context.workflow = workflow from
            later.workflow]
          apply forks
          by_contra sequential
          rw [Bool.not_eq_true] at sequential
          rw [recorded.isParallel sequential] at parallel
          cases parallel
        have final := (Heading.run crashedForks
          (.pointing points onward (.refl _) rfl) uninterrupted).1
        have finished : (state.moved node output nextNodeId).run library =
            .finished result steps := by
          cases final with
          | pointing finalPoints => cases finalPoints
          | finished same => exact same ends
        have rows : crashed.steps = state.recordedSteps node output := by
          cases points with
          | sequential => rfl
          | ready one idle uncaptured context steps unparked => exact steps
          | running allowed found quiet one uncaptured context steps unparked => exact steps
        have project : (applyOutput state.context output).projectState = projectState := by
          rw [← kept]
          cases points with
          | sequential => rfl
          | ready one idle uncaptured context steps unparked =>
              simp only [Engine.projectState, context]
              rfl
          | running allowed found quiet one uncaptured context steps unparked =>
              simp only [Engine.projectState, context]
              rfl
        rw [rows]
        exact resumeLoop_recorded numbered sameRun completes silent project navigated finished
      · have same := run_of_idle quiet idle uninterrupted
        change steps = parallel.steps at same
        rw [← same] at without
        exact absurd ends without
      · cases run_of_failed uninterrupted

/-! START, an agent and END. -/

def greetingWorkflow : WorkflowDefinition where
  nodes := [⟨"s", "start"⟩, ⟨"a", "agent"⟩, ⟨"e", "end"⟩]
  edges := [⟨"s", "a", none⟩, ⟨"a", "e", none⟩]
  conditions := fun _ => []
  endConfig := fun _ => {}

def greetingLibrary (projectUpdates : Option Data) : NodeLibrary where
  registered := fun type => decide (type = "agent")
  execute := fun _ _ =>
    .ok { data := Dict.empty.set "message" (.str "hi"), projectUpdates := projectUpdates }
  evaluate := fun _ _ => .ok false
  render := fun template _ => template

def greetingContext (resumePoint : Option ResumePoint) : ExecutionContext :=
  prepareContext greetingWorkflow Dict.empty Dict.empty Dict.empty [] resumePoint

def greetingRun (projectUpdates : Option Data) : Nat → Engine
  | 0 => Engine.start (greetingContext none) []
  | count + 1 =>
      ((greetingRun projectUpdates count).step (greetingLibrary projectUpdates) .advance).getD
        (greetingRun projectUpdates count)

private theorem greetingRun_step (projectUpdates : Option Data) (count : Nat)
    (early : count < 3) :
    (greetingRun projectUpdates count).Step (greetingLibrary projectUpdates) .advance
      (greetingRun projectUpdates (count + 1)) := by
  match count with
  | 0 => rfl
  | 1 => rfl
  | 2 => rfl
  | count + 3 => omega

private theorem greetingRun_one (projectUpdates : Option Data) :
    Run (Engine.Step (greetingLibrary projectUpdates)) (Engine.start (greetingContext none) [])
      [.advance] (greetingRun projectUpdates 1) :=
  Run.nil.snoc (greetingRun_step projectUpdates 0 (by omega))

private theorem greetingRun_last (projectUpdates : Option Data) :
    Run (Engine.Step (greetingLibrary projectUpdates)) (greetingRun projectUpdates 2)
      [.advance] (greetingRun projectUpdates 3) :=
  Run.nil.snoc (greetingRun_step projectUpdates 2 (by omega))

/-- The crash comes after the agent's step; the resumed run reports the same. -/
theorem resume_reports_same_greeting :
    ∃ result steps, greetingRun none 3 = .finished result steps ∧
      ∃ point, findResumePoint (greetingRun none 2).steps = some point ∧
        ∃ report,
          resumeLoop (greetingLibrary none) (greetingContext (some point))
            (greetingRun none 2).steps point = .finished report steps ∧
          SameReport report result := by
  cases finished : greetingRun none 3 with
  | finished result steps =>
      exists result, steps
      constructor
      · rfl
      · have onward := greetingRun_last none
        rw [finished] at onward
        have ends : EndsAtEnd steps := by
          have rows : steps = (greetingRun none 3).steps := by rw [finished]; rfl
          rw [rows]
          exact ⟨_, _, rfl, rfl⟩
        exact resume_reports_same (greetingLibrary none) greetingWorkflow Dict.empty Dict.empty
          Dict.empty [] [] (fun parallel => absurd parallel (by decide)) _ _ (greetingRun_one none)
          .advance (greetingRun none 2)
          (greetingRun_step none 1 (by omega)) _ _ rfl rfl _ result steps onward ends rfl rfl
  | sequential state => cases finished
  | parallel state => cases finished
  | failed error steps => cases finished

/-- Project state written before the crash is lost, and a crash after END loses the output. -/
theorem resume_differs :
    (∃ result steps point report,
      Run (Engine.Step (greetingLibrary (some (Dict.empty.set "lang" (.str "en")))))
        (Engine.start (greetingContext none) []) [.advance, .advance]
        (greetingRun (some (Dict.empty.set "lang" (.str "en"))) 2) ∧
      Run (Engine.Step (greetingLibrary (some (Dict.empty.set "lang" (.str "en")))))
        (greetingRun (some (Dict.empty.set "lang" (.str "en"))) 2) [.advance]
        (.finished result steps) ∧
      findResumePoint (greetingRun (some (Dict.empty.set "lang" (.str "en"))) 2).steps =
        some point ∧
      resumeLoop (greetingLibrary (some (Dict.empty.set "lang" (.str "en"))))
        (greetingContext (some point))
        (greetingRun (some (Dict.empty.set "lang" (.str "en"))) 2).steps point =
          .finished report steps ∧
      report.context.projectState ≠ result.context.projectState) ∧
    (∃ result steps point report,
      Run (Engine.Step (greetingLibrary none)) (greetingRun none 2) [.advance]
        (.finished result steps) ∧
      findResumePoint steps = some point ∧
      resumeLoop (greetingLibrary none) (greetingContext (some point)) steps point =
        .finished report steps ∧
      report.output ≠ result.output) := by
  constructor
  · refine ⟨_, _, _, _, ?_, greetingRun_last _, rfl, rfl, ?_⟩
    · exact (greetingRun_one _).snoc (greetingRun_step _ 1 (by omega))
    · decide
  · refine ⟨_, _, _, _, greetingRun_last none, rfl, rfl, ?_⟩
    decide

end Assemblix
