import Assemblix.Execution.EndFilter
import Assemblix.Execution.ResumeBilling
import Assemblix.Sessions.ExecuteRequest

/-
The record of a failed run.

The loops thread the context through their steps and hand it back when they return. The
error handler runs in the frame of the caller: after an exception in the loop it still
holds the context the run was prepared with, after one in finalization the context the
loop has returned. A history counts the launched steps and merges the updates of the
completed ones next to the engine.
-/

namespace Assemblix

open Library

/-! ### Launched steps -/

def startsNode (library : NodeLibrary) (context : ExecutionContext) (nodeId : String) : Bool :=
  (context.canExecuteNode nodeId).isNone &&
    (getNode library context.workflow nodeId).toOption.isSome

def Parallel.launchCount (library : NodeLibrary) : Parallel →
    List (DagScheduler.ReadyNode Json) → Nat
  | _, [] => 0
  | state, ready :: rest =>
      match state.launchNode library ready with
      | .error _ => 0
      | .ok next => launchCount library next rest + 1

def Engine.launches (library : NodeLibrary) : Engine → EngineLabel → Nat
  | .sequential state, .advance =>
      if startsNode library state.context state.currentNodeId then 1 else 0
  | .parallel state, .launch =>
      ({ state with ready := [] } : Parallel).launchCount library state.ready
  | _, _ => 0

def Engine.startsFirst (library : NodeLibrary) : Engine → Bool
  | .sequential state => startsNode library state.context state.currentNodeId
  | .parallel state =>
      match state.ready with
      | [] => false
      | ready :: _ => startsNode library state.context ready.nodeId
  | _ => false

/-- A loop with the merged updates of its completed steps. A resumed run goes on counting. -/
structure LoopHistory where
  observed : Observed
  launched : Nat

namespace LoopHistory

def initial (preparation : Preparation) (steps : List ExecutionStep) : LoopHistory :=
  let context := preparation.context (preparation.resumePoint steps)
  { observed :=
      { engine := preparation.engine steps
        merged := context.state
        mergedProject := context.projectState
        reporter := none }
    launched := context.stepNumber }

def step (library : NodeLibrary) (history : LoopHistory) (label : EngineLabel) :
    Option LoopHistory :=
  (history.observed.step library label).map (fun observed =>
    { observed := observed
      launched := history.launched + history.observed.engine.launches library label })

def Step (library : NodeLibrary) (history : LoopHistory) (label : EngineLabel)
    (next : LoopHistory) : Prop :=
  history.step library label = some next

end LoopHistory

/-! ### The handler -/

/-- What the frame of `execute` holds when the exception arrives. -/
def handlerPrepared (prepared : Prepared) : Engine → Prepared
  | .finished result _ => { prepared with context := result.context }
  | _ => prepared

/-- The stored row and the returned result carry the state that the completed steps have
reached and the number of launched steps. -/
structure CarriesPartialState (call : ExecuteCall) (history : LoopHistory) (after : Database)
    (response : ExecuteResponse) : Prop where
  persisted : ∃ row, after.executions.lookup call.environment.executionId = some row ∧
    row.status = .failed ∧ row.finalState = some history.observed.merged ∧
      row.finalProjectState = some history.observed.mergedProject ∧
        row.stepsCount = history.launched
  returned : ∃ error, response = .failed
    { executionId := call.environment.executionId
      error := error
      partialState := history.observed.merged
      partialProjectState := history.observed.mergedProject }

/-- The loop raised before it launched a step, or it returned the state as its completed steps
have left it. -/
def HandlerSeesState (library : NodeLibrary) (first : Engine) (labels : List EngineLabel)
    (last : LoopHistory) : Prop :=
  match last.observed.engine with
  | .finished result _ =>
      result.context.state = last.observed.merged ∧
        result.context.projectState = last.observed.mergedProject
  | _ => first.startsFirst library = false ∨ labels.head? = some .expire

/-- The handler writes the row and the answer from the context it holds. -/
theorem carriesPartialState_iff {call : ExecuteCall} {prepared : Prepared} {text : String}
    {database after : Database} {response : ExecuteResponse} (history : LoopHistory)
    (concluded : concludeRun call prepared (.error text) database = some (response, after)) :
    CarriesPartialState call history after response ↔
      prepared.context.state = history.observed.merged ∧
        prepared.context.projectState = history.observed.mergedProject ∧
          prepared.context.stepNumber = history.launched := by
  obtain ⟨_, middle, handled, last⟩ := Transaction.bind_eq_some.mp concluded
  cases last
  obtain ⟨_, updated, same⟩ := Option.map_eq_some_iff.mp handled
  cases same
  obtain ⟨row, held, rfl⟩ := Option.map_eq_some_iff.mp updated
  constructor
  · rintro ⟨⟨found, lookup, _, state, projectState, steps⟩, _⟩
    rw [Dict.lookup_set_self] at lookup
    cases lookup
    exact ⟨Option.some.inj state, Option.some.inj projectState, steps⟩
  · rintro ⟨state, projectState, steps⟩
    constructor
    · refine ⟨_, Dict.lookup_set_self _ _ _, rfl, ?_, ?_, steps⟩
      · rw [← state]
      · rw [← projectState]
    · exists orUnknown text
      unfold failedResponse
      rw [state, projectState]

/-! ### Counting launched steps -/

section

variable {library : NodeLibrary}

theorem startsNode_iff {context : ExecutionContext} {nodeId : String} :
    startsNode library context nodeId = true ↔
      context.canExecuteNode nodeId = none ∧
        ∃ node, getNode library context.workflow nodeId = .ok node := by
  unfold startsNode
  rw [Bool.and_eq_true, Option.isNone_iff_eq_none]
  cases getNode library context.workflow nodeId with
  | error error => simp [Except.toOption]
  | ok node => simp [Except.toOption]

theorem Parallel.launchNode_isOk (state : Parallel) (ready : DagScheduler.ReadyNode Json) :
    (∃ launched, state.launchNode library ready = .ok launched) ↔
      startsNode library state.context ready.nodeId = true := by
  rw [startsNode_iff]
  unfold launchNode
  cases allowed : state.context.canExecuteNode ready.nodeId with
  | some error => simp
  | none =>
      cases found : getNode library state.context.workflow ready.nodeId with
      | error error => simp
      | ok node => simp

theorem Parallel.launchNode_stepNumber {state launched : Parallel}
    {ready : DagScheduler.ReadyNode Json}
    (started : state.launchNode library ready = .ok launched) :
    launched.context.stepNumber = state.context.stepNumber + 1 := by
  obtain ⟨node, _, rfl⟩ := launchNode_ok started
  rfl

theorem Parallel.launchCount_stepNumber (pending : List (DagScheduler.ReadyNode Json))
    {state launched : Parallel}
    (started : pending.foldlM (launchNode library) state = .ok launched) :
    launched.context.stepNumber =
      state.context.stepNumber + state.launchCount library pending := by
  induction pending generalizing state with
  | nil =>
      cases started
      rfl
  | cons ready rest ih =>
      rw [List.foldlM_cons] at started
      unfold launchCount
      cases launch : state.launchNode library ready with
      | error error =>
          rw [launch] at started
          cases started
      | ok next =>
          rw [launch] at started
          have later := ih started
          have here := launchNode_stepNumber launch
          dsimp only
          omega

theorem startsFirst_preparation (preparation : Preparation) (steps : List ExecutionStep)
    {state : Parallel} (here : preparation.engine steps = .parallel state) :
    state.running = [] ∧ ∃ ready, state.ready = [ready] := by
  unfold Preparation.engine at here
  split at here
  case h_1 =>
    unfold Engine.start at here
    split at here
    case h_1 => cases here
    case h_2 =>
      split at here
      · cases here
        exact ⟨rfl, _, rfl⟩
      · cases here
  case h_2 => split at here <;> cases here

structure LoopHistory.Counted (history : LoopHistory) : Prop where
  stepNumber : ∀ context, history.observed.engine.context = some context →
    context.stepNumber = history.launched

theorem Engine.Step.counted {engine next : Engine} {label : EngineLabel}
    (taken : engine.Step library label next) {context after : ExecutionContext}
    (before : engine.context = some context) (reached : next.context = some after) :
    after.stepNumber = context.stepNumber + engine.launches library label := by
  cases engine with
  | finished result steps => cases label <;> cases taken
  | failed error steps => cases label <;> cases taken
  | sequential state =>
      cases before
      rcases Sequential.step_cases taken with
        ⟨error, steps, rfl⟩ | ⟨node, output, rfl, completes, outcome⟩
      · cases reached
      · have starts : startsNode library state.context state.currentNodeId = true :=
          startsNode_iff.mpr ⟨completes.allowed, node, completes.found⟩
        have launched : (Engine.sequential state).launches library .advance = 1 := if_pos starts
        rcases outcome with ⟨_, nextNodeId, rfl⟩ | ⟨_, rfl⟩
        · cases reached
          rw [launched]
          exact state.recordedContext_stepNumber output
        · cases reached
          rw [launched]
          exact state.recordedContext_stepNumber output
  | parallel state =>
      cases before
      rcases Parallel.step_cases taken with ⟨error, steps, rfl⟩ | moves
      · cases reached
      · cases moves with
        | launch some started =>
            cases reached
            exact Parallel.launchCount_stepNumber state.ready started
        | capture completes terminal =>
            cases reached
            unfold Parallel.capture
            split
            · exact applyOutput_stepNumber _ _
            · exact applyOutput_stepNumber _ _
        | route completes running =>
            cases reached
            exact applyOutput_stepNumber _ _
        | close quiet idle =>
            cases reached
            rw [Parallel.result_context]
            rfl

theorem LoopHistory.Step.parts {history next : LoopHistory} {label : EngineLabel}
    (taken : history.Step library label next) :
    history.observed.step library label = some next.observed ∧
      next.launched = history.launched + history.observed.engine.launches library label := by
  obtain ⟨observed, stepped, rfl⟩ := Option.map_eq_some_iff.mp taken
  exact ⟨stepped, rfl⟩

theorem LoopHistory.Step.engine {history next : LoopHistory} {label : EngineLabel}
    (taken : history.Step library label next) :
    history.observed.engine.Step library label next.observed.engine := by
  obtain ⟨engine, moved, same, _⟩ := Observed.step_some taken.parts.1
  rw [same]
  exact moved

theorem LoopHistory.run_counted (preparation : Preparation) (steps : List ExecutionStep)
    {labels : List EngineLabel} {last : LoopHistory}
    (run : Run (LoopHistory.Step library) (initial preparation steps) labels last) :
    last.Counted := by
  induction run with
  | nil =>
      constructor
      intro context reached
      unfold LoopHistory.initial at reached ⊢
      dsimp only at reached ⊢
      unfold Preparation.engine at reached
      split at reached
      case h_1 unresumed =>
        rw [unresumed]
        unfold Engine.start at reached
        split at reached
        · cases reached
        · split at reached
          · cases reached
            rfl
          · cases reached
            rfl
      case h_2 point resumed =>
        rw [resumed]
        split at reached
        · cases reached
          rfl
        case h_2 state found =>
          unfold resumePointer at found
          obtain ⟨nodeId, _, rfl⟩ := Option.map_eq_some_iff.mp found
          cases reached
          rfl
  | snoc _ taken ih =>
      constructor
      intro after reached
      obtain ⟨context, before⟩ := Option.isSome_iff_exists.mp taken.engine.context_isSome
      rw [taken.engine.counted before reached, ih.stepNumber context before]
      exact taken.parts.2.symm

theorem LoopHistory.run_launched_le {first last : LoopHistory} {labels : List EngineLabel}
    (run : Run (LoopHistory.Step library) first labels last) : first.launched ≤ last.launched := by
  induction run with
  | nil => exact Nat.le_refl _
  | snoc _ taken ih =>
      rw [taken.parts.2]
      omega

theorem Engine.launches_advance (state : Sequential) :
    (Engine.sequential state).launches library .advance =
      if startsNode library state.context state.currentNodeId then 1 else 0 := rfl

theorem Engine.launches_launch (state : Parallel) :
    (Engine.parallel state).launches library .launch =
      ({ state with ready := [] } : Parallel).launchCount library state.ready := rfl

theorem Engine.startsFirst_parallel {state : Parallel} {ready : DagScheduler.ReadyNode Json}
    {rest : List (DagScheduler.ReadyNode Json)} (pending : state.ready = ready :: rest) :
    (Engine.parallel state).startsFirst library =
      startsNode library state.context ready.nodeId := by
  simp only [startsFirst, pending]

theorem Engine.completion_starts {state : Sequential} {completed : Node × NodeOutput}
    (completes : (Engine.sequential state).completion library .advance = some completed) :
    startsNode library state.context state.currentNodeId = true := by
  simp only [completion] at completes
  split at completes
  case h_1 node allowed found => exact startsNode_iff.mpr ⟨allowed, node, found⟩
  case h_2 => cases completes

theorem Engine.startsFirst_of_launches {engine : Engine} {label : EngineLabel}
    (some : 0 < engine.launches library label) :
    engine.startsFirst library = true ∧ label ≠ .expire := by
  cases engine with
  | finished result steps => cases label <;> exact absurd some (Nat.lt_irrefl 0)
  | failed error steps => cases label <;> exact absurd some (Nat.lt_irrefl 0)
  | sequential state =>
      cases label with
      | advance =>
          rw [launches_advance] at some
          split at some
          case isTrue starts => exact ⟨starts, EngineLabel.noConfusion⟩
          case isFalse => exact absurd some (Nat.lt_irrefl 0)
      | _ => exact absurd some (Nat.lt_irrefl 0)
  | parallel state =>
      cases label with
      | launch =>
          rw [launches_launch] at some
          cases pending : state.ready with
          | nil =>
              rw [pending] at some
              exact absurd some (Nat.lt_irrefl 0)
          | cons ready rest =>
              rw [pending] at some
              unfold Parallel.launchCount at some
              split at some
              case h_1 => exact absurd some (Nat.lt_irrefl 0)
              case h_2 next launch =>
                have starts := (Parallel.launchNode_isOk _ ready).mp ⟨next, launch⟩
                rw [startsFirst_parallel pending]
                exact ⟨starts, EngineLabel.noConfusion⟩
      | _ => exact absurd some (Nat.lt_irrefl 0)

theorem LoopHistory.Step.unlaunched {preparation : Preparation} {steps : List ExecutionStep}
    {next : LoopHistory} {label : EngineLabel}
    (taken : (initial preparation steps).Step library label next)
    (zero : (preparation.engine steps).launches library label = 0) :
    ((preparation.engine steps).startsFirst library = false ∨ label = .expire) ∧
      (∃ error failedSteps, next.observed.engine = .failed error failedSteps) ∧
        next.observed.merged = (initial preparation steps).observed.merged ∧
          next.observed.mergedProject = (initial preparation steps).observed.mergedProject := by
  have moved := taken.engine
  obtain ⟨engine, _, same, recorded⟩ := Observed.step_some taken.parts.1
  have unrecorded : (preparation.engine steps).completion library label = none →
      next.observed.merged = (initial preparation steps).observed.merged ∧
        next.observed.mergedProject = (initial preparation steps).observed.mergedProject := by
    intro silent
    rcases recorded with ⟨node, output, completed, _⟩ | ⟨_, kept⟩
    · cases silent.symm.trans completed
    · rw [kept]
      exact ⟨rfl, rfl⟩
  change (preparation.engine steps).Step library label next.observed.engine at moved
  cases here : preparation.engine steps with
  | finished result finishedSteps =>
      rw [here] at moved
      cases label <;> cases moved
  | failed error failedSteps =>
      rw [here] at moved
      cases label <;> cases moved
  | sequential state =>
      rw [here] at moved zero unrecorded
      cases label with
      | advance =>
          rw [Engine.launches_advance] at zero
          split at zero
          case isTrue => cases zero
          case isFalse stuck =>
            rcases Sequential.step_cases moved with
              ⟨error, failedSteps, failed⟩ | ⟨node, output, _, completes, _⟩
            · refine ⟨.inl (Bool.eq_false_of_not_eq_true stuck), ⟨error, failedSteps, failed⟩, ?_⟩
              apply unrecorded
              cases completed : (Engine.sequential state).completion library .advance with
              | none => rfl
              | some completion => exact absurd (Engine.completion_starts completed) stuck
            · exfalso
              exact stuck (startsNode_iff.mpr ⟨completes.allowed, node, completes.found⟩)
      | expire =>
          exact ⟨.inr rfl, ⟨_, _, (Option.some.inj moved).symm⟩, unrecorded rfl⟩
      | launch => cases moved
      | complete position seen => cases moved
      | close => cases moved
  | parallel state =>
      obtain ⟨idle, ready, pending⟩ := startsFirst_preparation preparation steps here
      rw [here] at moved zero unrecorded
      rcases Parallel.step_cases moved with ⟨error, failedSteps, failed⟩ | moves
      · cases label with
        | launch =>
            rw [Engine.launches_launch, pending] at zero
            unfold Parallel.launchCount at zero
            split at zero
            case h_2 => cases zero
            case h_1 refused launch =>
              have stuck : startsNode library state.context ready.nodeId ≠ true := by
                intro starts
                obtain ⟨launched, started⟩ :=
                  (Parallel.launchNode_isOk { state with ready := [] } ready).mpr starts
                cases launch.symm.trans started
              refine ⟨.inl ?_, ⟨error, failedSteps, failed⟩, unrecorded rfl⟩
              rw [Engine.startsFirst_parallel pending]
              exact Bool.eq_false_of_not_eq_true stuck
        | complete position seen =>
            simp [Engine.Step, Engine.step, Parallel.step, Parallel.complete, idle] at moved
        | expire => exact ⟨.inr rfl, ⟨error, failedSteps, failed⟩, unrecorded rfl⟩
        | advance => cases moved
        | close =>
            simp [Engine.Step, Engine.step, Parallel.step, pending] at moved
      · generalize next.observed.engine = reached at moves
        cases moves with
        | launch some started =>
            exfalso
            unfold Parallel.launchReady at started
            rw [pending, List.foldlM_cons] at started
            rw [Engine.launches_launch, pending] at zero
            unfold Parallel.launchCount at zero
            split at zero
            case h_2 => cases zero
            case h_1 refused launch =>
              rw [launch] at started
              cases started
        | capture completes _ =>
            have present := completes.inFlight
            rw [idle] at present
            cases present
        | route completes _ =>
            have present := completes.inFlight
            rw [idle] at present
            cases present
        | close quiet _ =>
            rw [quiet] at pending
            cases pending

theorem LoopHistory.Step.not_of_failed {history next : LoopHistory} {label : EngineLabel}
    {error : RunError} {steps : List ExecutionStep}
    (failed : history.observed.engine = .failed error steps) :
    ¬ history.Step library label next := by
  intro taken
  have moved := taken.engine
  rw [failed] at moved
  cases label <;> cases moved

/-- The record of a failed run carries the partial state exactly when the loop raised before
its first launch, or returned the state as its completed steps have left it. -/
theorem failed_record_partial_iff (preparation : Preparation) (steps : List ExecutionStep)
    (labels : List EngineLabel) (last : LoopHistory)
    (run : Run (LoopHistory.Step library) (LoopHistory.initial preparation steps) labels last)
    (stopped : (∃ error failedSteps, last.observed.engine = .failed error failedSteps) ∨
      ∃ result finishedSteps, last.observed.engine = .finished result finishedSteps)
    (call : ExecuteCall) (prepared : Prepared)
    (same : prepared.context = preparation.context (preparation.resumePoint steps))
    (text : String) (database after : Database) (response : ExecuteResponse)
    (concluded : concludeRun call (handlerPrepared prepared last.observed.engine) (.error text)
      database = some (response, after)) :
    CarriesPartialState call last after response ↔
      HandlerSeesState library (preparation.engine steps) labels last := by
  rw [carriesPartialState_iff last concluded]
  rcases stopped with ⟨error, failedSteps, failed⟩ | ⟨result, finishedSteps, finished⟩
  · unfold HandlerSeesState handlerPrepared
    simp only [failed]
    rw [same]
    cases labels with
    | nil =>
        have initial := Run.last_of_nil run
        subst initial
        constructor
        · intro _
          left
          change preparation.engine steps = _ at failed
          rw [failed]
          rfl
        · intro _
          exact ⟨rfl, rfl, rfl⟩
    | cons label rest =>
        obtain ⟨next, first, tail⟩ := run.head
        cases count : (preparation.engine steps).launches library label with
        | zero =>
            obtain ⟨unstarted, ⟨_, _, stopped⟩, merged, mergedProject⟩ := first.unlaunched count
            cases rest with
            | cons second others =>
                obtain ⟨_, impossible, _⟩ := tail.head
                exact absurd impossible (LoopHistory.Step.not_of_failed stopped)
            | nil =>
                have final := Run.last_of_nil tail
                subst final
                constructor
                · intro _
                  rcases unstarted with stuck | expired
                  · exact .inl stuck
                  · right
                    rw [expired]
                    rfl
                · intro _
                  refine ⟨merged.symm, mergedProject.symm, ?_⟩
                  rw [first.parts.2]
                  change _ = _ + (preparation.engine steps).launches library label
                  rw [count]
                  rfl
        | succ count' =>
            have positive : 0 < (preparation.engine steps).launches library label := by omega
            obtain ⟨starts, unexpired⟩ := Engine.startsFirst_of_launches positive
            have grown := LoopHistory.run_launched_le tail
            rw [first.parts.2] at grown
            constructor
            · rintro ⟨_, _, counted⟩
              exfalso
              change (LoopHistory.initial preparation steps).launched = last.launched at counted
              change _ + (preparation.engine steps).launches library label ≤ _ at grown
              omega
            · rintro (stuck | expired)
              · rw [starts] at stuck
                cases stuck
              · exact absurd (Option.some.inj expired) unexpired
  · unfold HandlerSeesState handlerPrepared
    simp only [finished]
    have counted := (LoopHistory.run_counted preparation steps run).stepNumber result.context
      (by rw [finished]; rfl)
    constructor
    · rintro ⟨state, projectState, _⟩
      exact ⟨state, projectState⟩
    · rintro ⟨state, projectState⟩
      exact ⟨state, projectState, counted⟩

end

/-! ### A run without START and a run whose second node fails -/

def writeThenFail : WorkflowDefinition where
  nodes := [⟨"start", "start"⟩, ⟨"write", "task"⟩, ⟨"fail", "task"⟩]
  edges := [⟨"start", "write", none⟩, ⟨"write", "fail", none⟩]
  conditions := fun _ => []
  endConfig := fun _ => {}

def withoutStart : WorkflowDefinition where
  nodes := []
  edges := []
  conditions := fun _ => []
  endConfig := fun _ => {}

def writesOrFails : NodeLibrary where
  registered := fun nodeType => decide (nodeType = "task")
  execute := fun node _ =>
    if node.id = "write" then
      .ok { data := Dict.empty, stateUpdates := some (Dict.empty.set "x" (.int 1)) }
    else .error "unreachable service"
  evaluate := fun _ _ => .error "no conditions"
  render := fun text _ => text

def freshPreparation (workflow : WorkflowDefinition) : Preparation where
  checkpointing := false
  workflow := workflow
  inputData := Dict.empty
  initialState := Dict.empty
  projectState := Dict.empty
  chatHistory := []

def failingCall : ExecuteCall where
  workflowId := "workflow"
  tokenId := none
  isDebug := false
  request := { input := Dict.empty }
  environment :=
    { newSessionId := "chat"
      newClientSessionId := "client"
      executionId := "execution"
      refused := none
      credits := fun _ => 0
      inTime := true
      run := fun _ _ => ⟨[], .error ""⟩ }

def preparedFor (workflow : WorkflowDefinition) : Prepared where
  context := (freshPreparation workflow).context none
  chatSessionId := none
  clientSessionId := none

def runningExecution : Database where
  projects := Dict.empty
  workflows := Dict.empty
  chatSessions := Dict.empty
  clientSessions := Dict.empty
  executions := Dict.empty.set "execution"
    { workflowId := "workflow"
      tokenId := none
      chatSessionId := none
      clientSessionId := none
      initialState := Dict.empty
      inputData := Dict.empty
      isDebug := false }
  published := publishedTogether_empty

theorem failed_record_partial_iff_without_start :
    ∃ response after,
      concludeRun failingCall (preparedFor withoutStart) (.error "no START") runningExecution =
          some (response, after) ∧
        CarriesPartialState failingCall (LoopHistory.initial (freshPreparation withoutStart) [])
          after response := by
  refine ⟨_, _, rfl, ?_⟩
  apply (@failed_record_partial_iff writesOrFails (freshPreparation withoutStart) [] [] _ .nil
    (.inl ⟨_, _, rfl⟩) failingCall (preparedFor withoutStart) rfl "no START" runningExecution _ _
    rfl).mpr
  exact .inl rfl

/-- The write of the completed step is not in the record, which counts no step. -/
theorem failed_record_loses_state :
    ∃ last response after,
      Run (LoopHistory.Step writesOrFails)
          (LoopHistory.initial (freshPreparation writeThenFail) [])
          [.advance, .advance, .advance] last ∧
        (∃ error steps, last.observed.engine = .failed error steps) ∧
        last.observed.merged.lookup "x" = some (.int 1) ∧ last.launched = 3 ∧
        concludeRun failingCall (preparedFor writeThenFail) (.error "unreachable service")
          runningExecution = some (response, after) ∧
        (after.executions.lookup "execution").map (fun row => (row.finalState, row.stepsCount)) =
          some (some Dict.empty, 0) ∧
        ¬ CarriesPartialState failingCall last after response := by
  refine ⟨_, _, _, Run.of_foldlM _ _ _ rfl, ⟨_, _, rfl⟩, ?_, ?_, rfl, ?_, ?_⟩
  · decide +kernel
  · decide +kernel
  · decide +kernel
  · intro carries
    obtain ⟨row, found, _, _, _, counted⟩ := carries.persisted
    cases found
    cases counted

end Assemblix
