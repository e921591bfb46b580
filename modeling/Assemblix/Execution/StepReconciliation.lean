import Mathlib.Algebra.Order.BigOperators.Group.List
import Assemblix.Execution.ResumeBilling
import Assemblix.Execution.SingleFileRun
import Assemblix.Billing.CostSummary

/-
What the rows of the steps say about the spend of a run.

A node reports its spend in the metadata of its output. The context accumulates costs from
it, and a completed step copies single keys of it into a row. An agent reports its tokens
under another key than a jev node and has no own-key cost of its own, so the row and the
context do not see the same spend.
-/

namespace Assemblix

open Library

/-! ### What the nodes report -/

structure VoiceUsage where
  cost : Rat
  usedSystemKey : Bool
  nonneg : 0 ≤ cost

structure AgentUsage where
  tokens : Nat
  cost : Rat
  usedSystemKey : Bool
  voice : Option VoiceUsage
  nonneg : 0 ≤ cost

structure JevUsage where
  tokens : Nat
  cost : Rat
  nonneg : 0 ≤ cost

/-- Agents ask a language model and may speak, jev nodes ask with a key of the user; no other
node spends anything. -/
inductive NodeUsage
  | agent (usage : AgentUsage)
  | jev (usage : JevUsage)
  | free

structure MeteredKeys where
  cost : Rat := 0
  usedSystemKey : Bool := false
  costKind : Option String := none
  voiceCost : Rat := 0
  voiceUsedSystemKey : Bool := false
  tokens : Option Nat := none
  tokensUsed : Option Nat := none
  ownKeyCostUsd : Option Rat := none
  deriving DecidableEq

def meteredKeys (metadata : Option NodeMetadata) : MeteredKeys :=
  match metadata with
  | none => {}
  | some metadata =>
      { cost := metadata.cost
        usedSystemKey := metadata.usedSystemKey
        costKind := metadata.costKind
        voiceCost := metadata.voiceCost
        voiceUsedSystemKey := metadata.voiceUsedSystemKey
        tokens := metadata.tokens
        tokensUsed := metadata.tokensUsed
        ownKeyCostUsd := metadata.ownKeyCostUsd }

namespace NodeUsage

/-- What `AgentNode` and `JevNode` put under these keys. -/
def keys : NodeUsage → MeteredKeys
  | .agent usage =>
      { cost := usage.cost
        usedSystemKey := usage.usedSystemKey
        voiceCost := (usage.voice.map VoiceUsage.cost).getD 0
        voiceUsedSystemKey := (usage.voice.map VoiceUsage.usedSystemKey).getD false
        tokensUsed := some usage.tokens }
  | .jev usage =>
      { cost := usage.cost
        tokens := some usage.tokens
        ownKeyCostUsd := some usage.cost }
  | .free => {}

end NodeUsage

def NodeOutput.Reports (output : NodeOutput) : Prop :=
  ∃ usage : NodeUsage, meteredKeys output.metadata = usage.keys

structure MeteredLibrary extends NodeLibrary where
  reports : ∀ node input output, execute node input = .ok output → output.Reports

def reportedTokens (output : NodeOutput) : Nat :=
  (meteredKeys output.metadata).tokens.getD 0 + (meteredKeys output.metadata).tokensUsed.getD 0

def reportedOwnKeyCost (output : NodeOutput) : Rat :=
  (meteredKeys output.metadata).ownKeyCostUsd.getD 0

def unreportedOwnKeyCost (output : NodeOutput) : Rat :=
  match (meteredKeys output.metadata).ownKeyCostUsd with
  | some _ => 0
  | none => stepCost output .ownKey + stepCost output .ownVoice

def sumOver {M : Type} [AddCommMonoid M] (value : NodeOutput → M) (outputs : List NodeOutput) :
    M :=
  (outputs.map value).sum

theorem sumOver_append {M : Type} [AddCommMonoid M] (value : NodeOutput → M)
    (left right : List NodeOutput) :
    sumOver value (left ++ right) = sumOver value left + sumOver value right := by
  simp [sumOver]

/-! ### An execution with its outputs -/

inductive MeteredLabel
  | start (preparation : Preparation)
  | step (library : MeteredLibrary) (label : EngineLabel)
  | crash

def MeteredLabel.life : MeteredLabel → LifeLabel
  | .start preparation => .start preparation
  | .step library label => .step library.toNodeLibrary label
  | .crash => .crash

def Engine.completionNumber : Engine → EngineLabel → Nat
  | .parallel state, .complete position _ =>
      ((state.running[position]?).map (fun entry => entry.launch.stepNumber)).getD 0
  | .sequential state, _ => state.context.stepNumber
  | _, _ => 0

def Engine.logged (library : NodeLibrary) (engine : Engine) (label : EngineLabel) :
    List NodeOutput :=
  if hasStep engine.steps (engine.completionNumber label) then []
  else engine.completed library label

/-- `logged` lists the outputs of all attempts that have a row. -/
structure MeteredLife where
  life : ExecutionLife
  logged : List NodeOutput

namespace MeteredLife

def initial : MeteredLife := { life := ExecutionLife.initial, logged := [] }

def loggedBy (metered : MeteredLife) : MeteredLabel → List NodeOutput
  | .step library label =>
      match metered.life.engine with
      | some engine => engine.logged library.toNodeLibrary label
      | none => []
  | _ => []

def step (metered : MeteredLife) (label : MeteredLabel) : Option MeteredLife :=
  (metered.life.step label.life).map (fun life =>
    { life := life, logged := metered.logged ++ metered.loggedBy label })

def Step (metered : MeteredLife) (label : MeteredLabel) (next : MeteredLife) : Prop :=
  metered.step label = some next

def outputs (metered : MeteredLife) : List NodeOutput :=
  metered.life.earlier ++ metered.life.current

end MeteredLife

/-! ### Which rows a step writes -/

inductive RowOutcome (library : NodeLibrary) (engine : Engine) (label : EngineLabel)
    (after : List ExecutionStep) : Prop
  | completed {node : Node} {output : NodeOutput} {launch : Launch} {stateAfter : Data}
      (completion : engine.completion library label = some (node, output))
      (number : launch.stepNumber = engine.completionNumber label)
      (row : after = logStep engine.steps (completedStep launch output stateAfter))
  | failed {launch : Launch} {error : String}
      (completion : engine.completion library label = none)
      (row : after = recordFailed engine.steps launch error)
  | idle (completion : engine.completion library label = none) (same : after = engine.steps)

def Iteration.engine : Iteration → Engine
  | .next state => .sequential state
  | .stop outcome => outcome.engine

theorem Sequential.advance_steps (state : Sequential) (node : Node) (output : NodeOutput) :
    (state.advance node (state.launch node) output).engine.steps =
      state.recordedSteps node output := by
  unfold Sequential.advance recordCompleted
  dsimp only
  split
  case isTrue => rfl
  case isFalse =>
    split
    case h_1 => rfl
    case h_2 => rfl

theorem Sequential.step_rows {library : NodeLibrary} {state : Sequential} {next : Engine}
    {label : EngineLabel} (taken : (Engine.sequential state).Step library label next) :
    RowOutcome library (.sequential state) label next.steps := by
  cases label with
  | launch => cases taken
  | complete position seen => cases taken
  | close => cases taken
  | expire =>
      cases taken
      exact .idle rfl rfl
  | advance =>
      simp only [Engine.Step, Engine.step, Option.some.injEq] at taken
      cases allowed : state.context.canExecuteNode state.currentNodeId with
      | some error =>
          simp only [Sequential.iterate, allowed] at taken
          subst taken
          exact .idle (by simp only [Engine.completion, allowed]) rfl
      | none =>
          cases found : getNode library state.context.workflow state.currentNodeId with
          | error error =>
              simp only [Sequential.iterate, allowed, found] at taken
              subst taken
              exact .idle (by simp only [Engine.completion, allowed, found]) rfl
          | ok node =>
              cases ran : state.outcomeOf library node with
              | error error =>
                  have body := ran
                  unfold Sequential.outcomeOf at body
                  simp only [Sequential.iterate, allowed, found, body] at taken
                  subst taken
                  exact .failed (by simp only [Engine.completion, allowed, found, ran]) rfl
              | ok output =>
                  have completes : state.Completes library node output := ⟨allowed, found, ran⟩
                  rw [completes.iterate] at taken
                  have steps := state.advance_steps node output
                  refine .completed completes.completion rfl (Eq.trans ?_ steps)
                  rw [← taken]
                  cases state.advance node (state.launch node) output <;> rfl

theorem Parallel.Moves.rows {library : NodeLibrary} {state : Parallel} {label : EngineLabel}
    {next : Engine} (moves : state.Moves library label next) :
    RowOutcome library (.parallel state) label next.steps := by
  have number : ∀ {position seen : Nat} {entry : InFlight} {output : NodeOutput},
      state.Completes library position seen entry output → entry.launch.stepNumber =
        (Engine.parallel state).completionNumber (.complete position seen) := by
    intro position seen entry output completes
    change _ = ((state.running[position]?).map _).getD 0
    rw [completes.inFlight]
    rfl
  cases moves with
  | @launch launched _ started =>
      have steps : launched.steps = state.steps := by
        apply Parallel.launchReady_invariant started
          (fun reached => reached.steps = state.steps) rfl
        intro ready first next before launch
        obtain ⟨node, _, rfl⟩ := Parallel.launchNode_ok launch
        exact before
      exact .idle rfl steps
  | @capture position seen entry output completes _ =>
      have steps : ((state.record position entry output).capture output).steps =
          (state.record position entry output).steps := by
        unfold Parallel.capture
        split <;> rfl
      exact .completed completes.completion (number completes) steps
  | route completes _ => exact .completed completes.completion (number completes) rfl
  | close _ _ => exact .idle rfl rfl

theorem Parallel.failed_rows {library : NodeLibrary} {state : Parallel} {label : EngineLabel}
    {error : RunError} {steps : List ExecutionStep}
    (taken : (Engine.parallel state).Step library label (.failed error steps)) :
    RowOutcome library (.parallel state) label steps := by
  unfold Engine.Step at taken
  cases label with
  | advance => cases taken
  | launch =>
      simp only [Engine.step, Parallel.step] at taken
      split at taken
      case isTrue => cases taken
      case isFalse =>
        cases started : state.launchReady library with
        | error error =>
            rw [started] at taken
            cases taken
            exact .idle rfl rfl
        | ok launched =>
            rw [started] at taken
            cases taken
  | complete position seen =>
      simp only [Engine.step, Parallel.step, Parallel.complete] at taken
      cases inFlight : state.running[position]? with
      | none =>
          rw [inFlight] at taken
          cases taken
      | some entry =>
          simp only [inFlight] at taken
          split at taken
          case isFalse => cases taken
          case isTrue window =>
            cases ran : state.outcomeOf library entry seen with
            | error error =>
                rw [ran] at taken
                cases taken
                exact .failed (by simp only [Engine.completion, inFlight, if_pos window, ran]) rfl
            | ok output =>
                rw [ran] at taken
                dsimp only at taken
                split at taken <;> cases taken
  | close =>
      simp only [Engine.step, Parallel.step] at taken
      split at taken <;> cases taken
  | expire =>
      simp only [Engine.step, Parallel.step] at taken
      split at taken
      case isFalse => cases taken
      case isTrue =>
        cases taken
        exact .idle rfl rfl

theorem Engine.Step.rows {library : NodeLibrary} {engine next : Engine} {label : EngineLabel}
    (taken : engine.Step library label next) : RowOutcome library engine label next.steps := by
  cases engine with
  | finished result steps => cases label <;> cases taken
  | failed error steps => cases label <;> cases taken
  | sequential state => exact Sequential.step_rows taken
  | parallel state =>
      rcases Parallel.step_cases taken with ⟨error, steps, rfl⟩ | moves
      · exact Parallel.failed_rows taken
      · exact moves.rows

/-! ### What the rows add up to -/

theorem storedTokens_logStep (steps : List ExecutionStep) (row : ExecutionStep)
    (untold : row.tokensUsed = none) : storedTokens (logStep steps row) = storedTokens steps := by
  unfold logStep storedTokens
  split
  · rfl
  · simp [untold]

theorem storedOwnKeyCost_logStep (steps : List ExecutionStep) (row : ExecutionStep) :
    storedOwnKeyCost (logStep steps row) = storedOwnKeyCost steps +
      if hasStep steps row.stepNumber then 0 else row.ownKeyCostUsd.getD 0 := by
  unfold logStep storedOwnKeyCost
  split
  · rw [add_zero]
  · simp

theorem completedStep_ownKeyCost (launch : Launch) (output : NodeOutput) (stateAfter : Data) :
    (completedStep launch output stateAfter).ownKeyCostUsd.getD 0 = reportedOwnKeyCost output := by
  unfold completedStep reportedOwnKeyCost meteredKeys
  cases output.metadata <;> rfl

theorem Engine.Step.stored {library : NodeLibrary} {engine next : Engine} {label : EngineLabel}
    (taken : engine.Step library label next) :
    storedTokens next.steps = storedTokens engine.steps ∧
      storedOwnKeyCost next.steps = storedOwnKeyCost engine.steps +
        sumOver reportedOwnKeyCost (engine.logged library label) := by
  have silent : engine.completion library label = none →
      sumOver reportedOwnKeyCost (engine.logged library label) = 0 := by
    intro none
    unfold Engine.logged Engine.completed
    rw [none]
    split <;> rfl
  cases taken.rows with
  | @completed node output launch stateAfter completion number row =>
      rw [row]
      refine ⟨storedTokens_logStep _ _ rfl, ?_⟩
      rw [storedOwnKeyCost_logStep, completedStep_ownKeyCost]
      congr 1
      unfold Engine.logged Engine.completed
      rw [completion, ← number]
      change (if hasStep engine.steps launch.stepNumber then 0 else _) = _
      split
      · rfl
      · simp [sumOver]
  | failed completion row =>
      rw [row, silent completion, add_zero]
      refine ⟨storedTokens_logStep _ _ rfl, ?_⟩
      unfold recordFailed
      rw [storedOwnKeyCost_logStep]
      split
      · rw [add_zero]
      · exact add_zero _
  | idle completion same =>
      rw [same, silent completion, add_zero]
      exact ⟨rfl, rfl⟩

/-! ### What a node spends and what it reports -/

theorem stepCost_ownKeys (output : NodeOutput) :
    stepCost output .ownKey + stepCost output .ownVoice =
      (if (meteredKeys output.metadata).usedSystemKey then 0
        else (meteredKeys output.metadata).cost) +
        (if 0 < (meteredKeys output.metadata).voiceCost ∧
            (meteredKeys output.metadata).voiceUsedSystemKey = false then
          (meteredKeys output.metadata).voiceCost else 0) := by
  unfold stepCost meteredKeys
  cases output.metadata with
  | none => simp
  | some metadata =>
      unfold NodeMetadata.costBucket NodeMetadata.voiceBucket
      by_cases spoken : metadata.costKind = some "voice"
      · cases own : metadata.usedSystemKey <;> cases voiced : metadata.voiceUsedSystemKey <;>
          simp [spoken, own, voiced, add_comm]
      · cases own : metadata.usedSystemKey <;> cases voiced : metadata.voiceUsedSystemKey <;>
          simp [spoken, own, voiced, add_comm]

theorem NodeOutput.Reports.ownKeyCost {output : NodeOutput} (reports : output.Reports) :
    stepCost output .ownKey + stepCost output .ownVoice =
      reportedOwnKeyCost output + unreportedOwnKeyCost output := by
  obtain ⟨usage, same⟩ := reports
  unfold reportedOwnKeyCost unreportedOwnKeyCost
  cases usage with
  | agent usage =>
      rw [same]
      exact (zero_add _).symm
  | jev usage =>
      rw [stepCost_ownKeys, same]
      simp [NodeUsage.keys]
  | free =>
      rw [same]
      exact (zero_add _).symm

theorem sumOver_ownKeyCost {outputs : List NodeOutput}
    (reports : ∀ output ∈ outputs, output.Reports) :
    totalCost outputs .ownKey + totalCost outputs .ownVoice =
      sumOver reportedOwnKeyCost outputs + sumOver unreportedOwnKeyCost outputs := by
  unfold totalCost sumOver
  rw [← List.sum_map_add, ← List.sum_map_add]
  congr 1
  apply List.map_congr_left
  intro output member
  exact (reports output member).ownKeyCost

/-! ### Runs of the nodes -/

theorem ConditionNode.choose_reports {library : NodeLibrary} {input : NodeInput} {index : Nat}
    {conditions : List Condition} {output : NodeOutput}
    (chosen : ConditionNode.choose library input index conditions = .ok output) :
    output.Reports := by
  induction conditions generalizing index with
  | nil =>
      cases chosen
      exact ⟨.free, rfl⟩
  | cons condition rest ih =>
      unfold ConditionNode.choose at chosen
      split at chosen
      · cases chosen
      · cases chosen
        exact ⟨.free, rfl⟩
      · exact ih chosen

theorem MeteredLibrary.execute_reports (library : MeteredLibrary) {steps : List ExecutionStep}
    {input : NodeInput} {workflowInput : Data} {node : Node} {output : NodeOutput}
    (ran : node.execute library.toNodeLibrary steps input workflowInput = .ok output) :
    output.Reports := by
  cases node with
  | start =>
      cases ran
      exact ⟨.free, rfl⟩
  | condition conditions => exact ConditionNode.choose_reports ran
  | endNode config =>
      cases ran
      exact ⟨.free, rfl⟩
  | task node => exact library.reports node input output ran

theorem Engine.completed_reports (library : MeteredLibrary) {engine : Engine}
    {label : EngineLabel} {output : NodeOutput}
    (member : output ∈ engine.completed library.toNodeLibrary label) : output.Reports := by
  unfold Engine.completed at member
  rw [Option.mem_toList] at member
  obtain ⟨⟨node, _⟩, completion, rfl⟩ := Option.map_eq_some_iff.mp member
  unfold Engine.completion at completion
  split at completion
  case h_1 state =>
    split at completion
    case h_1 =>
      split at completion
      case h_1 => cases completion
      case h_2 ran =>
        cases completion
        exact library.execute_reports ran
    case h_2 => cases completion
  case h_2 state position seen =>
    split at completion
    case h_1 => cases completion
    case h_2 =>
      split at completion
      case isFalse => cases completion
      case isTrue =>
        split at completion
        case h_1 => cases completion
        case h_2 ran =>
          cases completion
          exact library.execute_reports ran
  case h_3 => cases completion

/-! ### One execution -/

theorem Preparation.engine_steps (preparation : Preparation) (steps : List ExecutionStep) :
    (preparation.engine steps).steps = steps := by
  unfold Preparation.engine
  split
  case h_1 =>
    unfold Engine.start
    split
    case h_1 => rfl
    case h_2 => split <;> rfl
  case h_2 point found =>
    split
    case h_1 => rfl
    case h_2 state resumed =>
      obtain ⟨_, _, rfl⟩ := Option.map_eq_some_iff.mp resumed
      rfl

namespace MeteredLife

structure Kept (metered : MeteredLife) : Prop where
  rows : ∀ engine, metered.life.engine = some engine → engine.steps = metered.life.steps
  tokens : storedTokens metered.life.steps = 0
  ownKeyCost : storedOwnKeyCost metered.life.steps = sumOver reportedOwnKeyCost metered.logged
  reports : ∀ output ∈ metered.outputs, output.Reports

variable {metered next : MeteredLife} {label : MeteredLabel}

theorem Step.life (taken : metered.Step label next) :
    metered.life.Step label.life next.life ∧
      next.logged = metered.logged ++ metered.loggedBy label := by
  obtain ⟨life, stepped, rfl⟩ := Option.map_eq_some_iff.mp taken
  exact ⟨stepped, rfl⟩

theorem Kept.step (kept : metered.Kept) (taken : metered.Step label next) : next.Kept := by
  obtain ⟨stepped, logged⟩ := taken.life
  unfold ExecutionLife.Step at stepped
  cases label with
  | start preparation =>
      simp only [MeteredLabel.life, ExecutionLife.step] at stepped
      split at stepped
      case h_2 => cases stepped
      case h_1 =>
        have same := Option.some.inj stepped
        have earlierLogged : next.logged = metered.logged := logged.trans (List.append_nil _)
        constructor
        · intro engine running
          rw [← same] at running ⊢
          cases running
          exact preparation.engine_steps _
        · rw [← same]
          exact kept.tokens
        · rw [← same, earlierLogged]
          exact kept.ownKeyCost
        · unfold outputs
          rw [← same, List.append_nil]
          exact kept.reports
  | step library label =>
      simp only [MeteredLabel.life, ExecutionLife.step, Option.bind_eq_some_iff,
        Option.map_eq_some_iff] at stepped
      obtain ⟨engine, running, after, moved, same⟩ := stepped
      have stored := Engine.Step.stored moved
      rw [kept.rows engine running] at stored
      have added : metered.loggedBy (.step library label) =
          engine.logged library.toNodeLibrary label := by
        unfold loggedBy
        rw [running]
      rw [added] at logged
      constructor
      · intro current here
        rw [← same] at here ⊢
        cases here
        rfl
      · rw [← same]
        exact stored.1.trans kept.tokens
      · rw [← same, logged, sumOver_append, ← kept.ownKeyCost]
        exact stored.2
      · intro output member
        unfold outputs at member
        rw [← same, ← List.append_assoc] at member
        rcases List.mem_append.mp member with before | here
        · exact kept.reports output before
        · exact Engine.completed_reports library here
  | crash =>
      simp only [MeteredLabel.life, ExecutionLife.step, Option.map_eq_some_iff] at stepped
      obtain ⟨engine, running, same⟩ := stepped
      have earlierLogged : next.logged = metered.logged := logged.trans (List.append_nil _)
      constructor
      · intro current here
        rw [← same] at here
        cases here
      · rw [← same]
        exact kept.tokens
      · rw [← same, earlierLogged]
        exact kept.ownKeyCost
      · unfold outputs
        rw [← same]
        exact kept.reports

theorem run_kept {labels : List MeteredLabel} (run : Run Step initial labels metered) :
    metered.Kept ∧ Run ExecutionLife.Step ExecutionLife.initial (labels.map MeteredLabel.life)
      metered.life := by
  induction run with
  | nil =>
      refine ⟨⟨?_, rfl, rfl, ?_⟩, .nil⟩
      · intro engine impossible
        cases impossible
      · intro output impossible
        cases impossible
  | snoc _ taken ih =>
      rw [List.map_append]
      exact ⟨ih.1.step taken, ih.2.snoc taken.life.1⟩

end MeteredLife

/-! ### Completed executions and their summary -/

structure CompletedExecution where
  projectId : String
  createdAt : Int
  isDebug : Bool
  totalCredits : Rat
  labels : List MeteredLabel
  metered : MeteredLife
  result : RunResult
  rows : List ExecutionStep
  run : Run MeteredLife.Step MeteredLife.initial labels metered
  finished : metered.life.engine = some (.finished result rows)

namespace CompletedExecution

/-- What finalization leaves in the database. -/
def record (execution : CompletedExecution) : ExecutionRecord where
  projectId := execution.projectId
  createdAt := execution.createdAt
  isDebug := execution.isDebug
  status := if execution.result.isError then .error else .completed
  totalCredits := execution.totalCredits
  ownKeyCostUsd := some (finalizationCharge execution.result.context).ownTotalCostUsd
  steps := execution.metered.life.steps

def tokens (execution : CompletedExecution) : Nat :=
  sumOver reportedTokens execution.metered.outputs

def Reconciles (execution : CompletedExecution) : Prop :=
  storedTokens execution.record.steps = execution.tokens ∧
    some (storedOwnKeyCost execution.record.steps) = execution.record.ownKeyCostUsd

/-- No step reports tokens, and what nodes report as own-key cost in steps with a row is all
that is spent on keys of the user by the process that completes the graph. -/
def Recorded (execution : CompletedExecution) : Prop :=
  (∀ output ∈ execution.metered.outputs, reportedTokens output = 0) ∧
    sumOver reportedOwnKeyCost execution.metered.logged =
      sumOver reportedOwnKeyCost execution.metered.life.current +
        sumOver unreportedOwnKeyCost execution.metered.life.current

end CompletedExecution

/-- The totals over any range are the sums over the runs in it: of the completed executions
what their nodes report, next to other rows of the database. -/
def SummaryReconciles (executions : List CompletedExecution) (others : List ExecutionRecord) :
    Prop :=
  ∀ projectId since untilDay today,
    (getCostSummary (executions.map CompletedExecution.record ++ others) projectId since untilDay
          today).tokensUsed =
        ((executions.filter (fun execution => execution.record.inRange projectId (since * 86400)
          (rangeEnd untilDay today))).map CompletedExecution.tokens).sum +
          ((summarized others projectId since untilDay today).map
            (fun record => storedTokens record.steps)).sum ∧
      (getCostSummary (executions.map CompletedExecution.record ++ others) projectId since untilDay
          today).ownKeyCostUsd =
        ((summarized (executions.map CompletedExecution.record ++ others) projectId since untilDay
          today).map (fun record => record.ownKeyCostUsd.getD 0)).sum

namespace CompletedExecution

theorem reconciles_iff (execution : CompletedExecution) :
    execution.Reconciles ↔ execution.Recorded := by
  obtain ⟨kept, lifeRun⟩ := MeteredLife.run_kept execution.run
  have own := run_metered lifeRun _ execution.result.context execution.finished rfl
  have tokens : storedTokens execution.record.steps = 0 := kept.tokens
  have charge : execution.record.ownKeyCostUsd = some
      (sumOver reportedOwnKeyCost execution.metered.life.current +
        sumOver unreportedOwnKeyCost execution.metered.life.current) := by
    have reports : ∀ output ∈ execution.metered.life.current, output.Reports :=
      fun output member => kept.reports output (List.mem_append_right _ member)
    rw [← sumOver_ownKeyCost reports, ← own .ownKey, ← own .ownVoice]
    rfl
  unfold Reconciles Recorded
  rw [tokens, charge, Option.some.injEq]
  change _ ∧ storedOwnKeyCost execution.metered.life.steps = _ ↔ _
  rw [kept.ownKeyCost]
  unfold CompletedExecution.tokens sumOver
  rw [eq_comm, List.sum_eq_zero_iff]
  simp only [List.mem_map, forall_exists_index, and_imp, forall_apply_eq_imp_iff₂]

end CompletedExecution

theorem summaryReconciles_of_reconciles {executions : List CompletedExecution}
    (reconciles : ∀ execution ∈ executions, execution.Reconciles) (others : List ExecutionRecord) :
    SummaryReconciles executions others := by
  intro projectId since untilDay today
  obtain ⟨tokens, ownKeyCost⟩ := getCostSummary_totals
    (executions.map CompletedExecution.record ++ others) projectId since untilDay today
  refine ⟨?_, ownKeyCost⟩
  rw [tokens]
  unfold summarized
  rw [List.filter_append, List.map_append, List.sum_append, List.filter_map, List.map_map]
  congr 2
  apply List.map_congr_left
  intro execution member
  exact (reconciles execution (List.mem_filter.mp member).1).1

/-- Among completed executions, next to any other rows: every one of them reconciles, and with
them every summary, exactly when no node reports tokens and the own-key cost that nodes report
in steps with a row is all that is spent on keys of the user. -/
theorem step_records_reconcile_iff (executions : List CompletedExecution)
    (others : List ExecutionRecord) :
    ((∀ execution ∈ executions, execution.Reconciles) ∧ SummaryReconciles executions others) ↔
      ∀ execution ∈ executions, execution.Recorded := by
  constructor
  · rintro ⟨reconciles, _⟩
    intro execution member
    exact execution.reconciles_iff.mp (reconciles execution member)
  · intro recorded
    have reconciles : ∀ execution ∈ executions, execution.Reconciles :=
      fun execution member => execution.reconciles_iff.mpr (recorded execution member)
    exact ⟨reconciles, summaryReconciles_of_reconciles reconciles others⟩

/-! ### An agent on a key of the user -/

def userKeyAgent : AgentUsage where
  tokens := 10
  cost := 1
  usedSystemKey := false
  voice := none
  nonneg := zero_le_one

def userKeyLibrary : MeteredLibrary where
  registered := fun type => decide (type = "agent")
  execute := fun _ _ =>
    .ok
      { data := Dict.empty.set "message" (.str "hi")
        metadata := some { cost := 1, tokensUsed := some 10 } }
  evaluate := fun _ _ => .ok false
  render := fun template _ => template
  reports := by
    intro node input output ran
    cases ran
    exact ⟨.agent userKeyAgent, rfl⟩

def threeSteps : List MeteredLabel :=
  [.start greetingPreparation, .step userKeyLibrary .advance, .step userKeyLibrary .advance,
    .step userKeyLibrary .advance]

/-- One process runs the execution and reports ten tokens and a dollar; the rows of the steps have
nothing of both, and the row of the execution has the dollar. -/
theorem step_records_lose_agent :
    ∃ execution : CompletedExecution, execution.labels = threeSteps ∧
      execution.metered.life.earlier = [] ∧
        execution.metered.logged = execution.metered.life.current ∧ execution.tokens = 10 ∧
          execution.record.ownKeyCostUsd = some 1 ∧ storedTokens execution.record.steps = 0 ∧
            storedOwnKeyCost execution.record.steps = 0 ∧ ¬ execution.Reconciles := by
  obtain ⟨metered, result, rows, ran, finished, alone, logged, tokens, spent, untold,
      unrecorded⟩ :
      ∃ metered result rows,
        threeSteps.foldlM MeteredLife.step MeteredLife.initial = some metered ∧
          metered.life.engine = some (.finished result rows) ∧
          metered.life.earlier = [] ∧ metered.logged = metered.life.current ∧
          sumOver reportedTokens metered.outputs = 10 ∧
          (finalizationCharge result.context).ownTotalCostUsd = 1 ∧
          storedTokens metered.life.steps = 0 ∧ storedOwnKeyCost metered.life.steps = 0 :=
    ⟨_, _, _, rfl, rfl, rfl, rfl, rfl, by decide +kernel, rfl, by decide +kernel⟩
  have run := Run.of_foldlM MeteredLife.initial threeSteps metered ran
  refine ⟨⟨"p", 0, false, 0, threeSteps, metered, result, rows, run, finished⟩, rfl, alone, logged,
    tokens, congrArg some spent, untold, unrecorded, ?_⟩
  rintro ⟨same, _⟩
  have impossible := untold.symm.trans (same.trans tokens)
  cases impossible

end Assemblix
