import Mathlib.Algebra.BigOperators.Group.List.Basic
import Assemblix.Execution.ParallelLoop

/-
The cost buckets of a run.

A run keeps four sums: usage of language models and of voice, each on system keys and on
the organization's own keys. Every completed step adds its cost to them and no other step
touches them, in either engine.
-/

namespace Assemblix

open Library

inductive CostBucket
  | systemKey
  | ownKey
  | systemVoice
  | ownVoice
  deriving DecidableEq, Repr

def ExecutionContext.cost (context : ExecutionContext) : CostBucket → Rat
  | .systemKey => context.systemKeyCostUsd
  | .ownKey => context.ownKeyCostUsd
  | .systemVoice => context.systemVoiceCostUsd
  | .ownVoice => context.ownVoiceCostUsd

def NodeMetadata.voiceBucket (metadata : NodeMetadata) : CostBucket :=
  if metadata.voiceUsedSystemKey then .systemVoice else .ownVoice

def NodeMetadata.costBucket (metadata : NodeMetadata) : CostBucket :=
  if metadata.costKind = some "voice" then
    if metadata.usedSystemKey then .systemVoice else .ownVoice
  else if metadata.usedSystemKey then .systemKey else .ownKey

def stepCost (output : NodeOutput) (bucket : CostBucket) : Rat :=
  match output.metadata with
  | none => 0
  | some metadata =>
      (if 0 < metadata.voiceCost ∧ metadata.voiceBucket = bucket then metadata.voiceCost else 0) +
        (if metadata.costBucket = bucket then metadata.cost else 0)

def totalCost (outputs : List NodeOutput) (bucket : CostBucket) : Rat :=
  (outputs.map (fun output => stepCost output bucket)).sum

theorem totalCost_append (left right : List NodeOutput) (bucket : CostBucket) :
    totalCost (left ++ right) bucket = totalCost left bucket + totalCost right bucket := by
  simp [totalCost]

/-! ### What adds to the buckets -/

theorem addVoiceCost_cost (metadata : NodeMetadata) (context : ExecutionContext)
    (bucket : CostBucket) :
    (addVoiceCost metadata context).cost bucket = context.cost bucket +
      (if 0 < metadata.voiceCost ∧ metadata.voiceBucket = bucket then metadata.voiceCost
        else 0) := by
  unfold addVoiceCost NodeMetadata.voiceBucket
  by_cases charged : 0 < metadata.voiceCost
  · cases metadata.voiceUsedSystemKey <;> cases bucket <;>
      simp [charged, ExecutionContext.cost]
  · simp [charged]

theorem addStepCost_cost (metadata : NodeMetadata) (context : ExecutionContext)
    (bucket : CostBucket) :
    (addStepCost metadata context).cost bucket = context.cost bucket +
      (if metadata.costBucket = bucket then metadata.cost else 0) := by
  unfold addStepCost NodeMetadata.costBucket
  by_cases free : metadata.cost = 0
  · simp [free]
  · by_cases voice : metadata.costKind = some "voice"
    · cases metadata.usedSystemKey <;> cases bucket <;>
        simp [free, voice, ExecutionContext.cost]
    · cases metadata.usedSystemKey <;> cases bucket <;>
        simp [free, voice, ExecutionContext.cost]

theorem accumulateStepCost_cost (context : ExecutionContext) (output : NodeOutput)
    (bucket : CostBucket) :
    (accumulateStepCost context output.metadata).cost bucket =
      context.cost bucket + stepCost output bucket := by
  unfold accumulateStepCost stepCost
  cases output.metadata with
  | none => simp
  | some metadata =>
      simp only [addStepCost_cost, addVoiceCost_cost]
      exact add_assoc _ _ _

theorem applyOutput_cost (context : ExecutionContext) (output : NodeOutput)
    (bucket : CostBucket) :
    (applyOutput context output).cost bucket = context.cost bucket + stepCost output bucket := by
  unfold applyOutput
  rw [accumulateStepCost_cost]
  congr 1
  cases output.stateUpdates <;> cases output.projectUpdates <;> cases output.historyAppend <;>
    cases output.userTurn <;> cases bucket <;> rfl

@[simp] theorem withNodeVisited_cost (context : ExecutionContext) (nodeId : String)
    (bucket : CostBucket) : (context.withNodeVisited nodeId).cost bucket = context.cost bucket := by
  cases bucket <;> rfl

@[simp] theorem endResult_cost (context : ExecutionContext) (output : NodeOutput)
    (bucket : CostBucket) : (endResult context output).context.cost bucket = context.cost bucket := by
  cases bucket <;> rfl

/-! ### The engines -/

namespace Engine

def context : Engine → Option ExecutionContext
  | .sequential state => some state.context
  | .parallel state => some state.context
  | .finished result _ => some result.context
  | .failed _ _ => none

def completed (library : NodeLibrary) (engine : Engine) (label : EngineLabel) : List NodeOutput :=
  ((engine.completion library label).map Prod.snd).toList

end Engine

theorem Parallel.launchReady_cost {library : NodeLibrary} {state launched : Parallel}
    (started : state.launchReady library = .ok launched) (bucket : CostBucket) :
    launched.context.cost bucket = state.context.cost bucket := by
  apply launchReady_invariant started
    (fun reached => reached.context.cost bucket = state.context.cost bucket) rfl
  intro ready first next before launch
  obtain ⟨node, _, rfl⟩ := launchNode_ok launch
  exact (withNodeVisited_cost _ _ bucket).trans before

theorem Parallel.capture_cost (state : Parallel) (output : NodeOutput) (bucket : CostBucket) :
    (state.capture output).context.cost bucket = state.context.cost bucket := by
  unfold capture
  cases state.captured with
  | some captured => rfl
  | none => exact endResult_cost _ _ bucket

theorem Engine.Step.cost {library : NodeLibrary} {engine next : Engine} {label : EngineLabel}
    (taken : engine.Step library label next) {context after : ExecutionContext}
    (before : engine.context = some context) (reached : next.context = some after)
    (bucket : CostBucket) :
    after.cost bucket = context.cost bucket + totalCost (engine.completed library label) bucket := by
  have one : ∀ output : NodeOutput, totalCost [output] bucket = stepCost output bucket := by
    intro output
    simp [totalCost]
  have none : totalCost [] bucket = 0 := rfl
  cases engine with
  | finished result steps => cases label <;> cases taken
  | failed error steps => cases label <;> cases taken
  | sequential state =>
      cases before
      rcases Sequential.step_cases taken with
        ⟨error, steps, rfl⟩ | ⟨node, output, rfl, completes, ⟨_, nextNodeId, rfl⟩ | ⟨_, rfl⟩⟩
      · cases reached
      · cases reached
        rw [Engine.completed, completes.completion, Option.map_some, Option.toList_some, one]
        change (state.recordedContext output).cost bucket = _
        rw [Sequential.recordedContext, withNodeVisited_cost, applyOutput_cost]
      · cases reached
        rw [Engine.completed, completes.completion, Option.map_some, Option.toList_some, one,
          endResult_cost, Sequential.recordedContext, withNodeVisited_cost, applyOutput_cost]
  | parallel state =>
      cases before
      rcases Parallel.step_cases taken with ⟨error, steps, rfl⟩ | moves
      · cases reached
      · cases moves with
        | launch some started =>
            cases reached
            change _ = _ + totalCost [] bucket
            rw [none, add_zero]
            exact Parallel.launchReady_cost started bucket
        | capture completes terminal =>
            cases reached
            rw [Engine.completed, completes.completion, Option.map_some, Option.toList_some, one,
              Parallel.capture_cost]
            exact applyOutput_cost _ _ bucket
        | route completes running =>
            cases reached
            rw [Engine.completed, completes.completion, Option.map_some, Option.toList_some, one]
            exact applyOutput_cost _ _ bucket
        | close quiet idle =>
            cases reached
            change _ = _ + totalCost [] bucket
            rw [none, add_zero, Parallel.result_context]

theorem Engine.Step.context_isSome {library : NodeLibrary} {engine next : Engine}
    {label : EngineLabel} (taken : engine.Step library label next) :
    engine.context.isSome = true := by
  cases engine with
  | failed error steps => cases label <;> cases taken
  | _ => rfl

end Assemblix
