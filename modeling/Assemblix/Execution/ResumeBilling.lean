import Assemblix.Execution.Resume
import Assemblix.Execution.StepCosts

/-
What finalization charges after crashes and resumes.

The steps of an execution are persisted, its cost buckets live in the context of one
process. A new process starts from the steps and from empty buckets, so finalization knows
the steps of its own process only: it charges all completed steps exactly if those
completed before the last start cost nothing.
-/

namespace Assemblix

open Library

/-- What a process loads when it starts on the execution. -/
structure Preparation where
  checkpointing : Bool
  workflow : WorkflowDefinition
  inputData : Data
  initialState : Data
  projectState : Data
  chatHistory : List HistoryMessage

namespace Preparation

def context (preparation : Preparation) (resumePoint : Option ResumePoint) : ExecutionContext :=
  prepareContext preparation.workflow preparation.inputData preparation.initialState
    preparation.projectState preparation.chatHistory resumePoint

def resumePoint (preparation : Preparation) (steps : List ExecutionStep) : Option ResumePoint :=
  if preparation.checkpointing then findResumePoint steps else none

/-- `_execution_loop` on what `_preparation_phase` returns. -/
def engine (preparation : Preparation) (steps : List ExecutionStep) : Engine :=
  match preparation.resumePoint steps with
  | none => Engine.start (preparation.context none) steps
  | some point =>
      match resumePointer (preparation.context (some point)) steps point with
      | none => .finished (alreadyFinished (preparation.context (some point))) steps
      | some state => .sequential state

end Preparation

/-- The amounts `_finalization_phase` deducts and records. -/
structure Charge where
  systemKeyCostUsd : Rat
  ownKeyCostUsd : Rat
  systemVoiceCostUsd : Rat
  ownVoiceCostUsd : Rat
  ownTotalCostUsd : Rat
  deriving DecidableEq

def chargeOf (cost : CostBucket → Rat) : Charge where
  systemKeyCostUsd := cost .systemKey
  ownKeyCostUsd := cost .ownKey
  systemVoiceCostUsd := cost .systemVoice
  ownVoiceCostUsd := cost .ownVoice
  ownTotalCostUsd := cost .ownKey + cost .ownVoice

def finalizationCharge (context : ExecutionContext) : Charge := chargeOf context.cost

/-- An execution over its processes. `earlier` and `current` list the outputs of the steps
completed before the last start and since then. -/
structure ExecutionLife where
  engine : Option Engine
  steps : List ExecutionStep
  earlier : List NodeOutput
  current : List NodeOutput
  charge : Option Charge

inductive LifeLabel
  | start (preparation : Preparation)
  | step (library : NodeLibrary) (label : EngineLabel)
  | crash
  | finalize

namespace ExecutionLife

def initial : ExecutionLife where
  engine := none
  steps := []
  earlier := []
  current := []
  charge := none

def step (life : ExecutionLife) : LifeLabel → Option ExecutionLife
  | .start preparation =>
      match life.engine with
      | none =>
          some
            { life with
              engine := some (preparation.engine life.steps)
              earlier := life.earlier ++ life.current
              current := [] }
      | some _ => none
  | .step library label =>
      life.engine.bind (fun engine => (engine.step library label).map (fun next =>
        { life with
          engine := some next
          steps := next.steps
          current := life.current ++ engine.completed library label }))
  | .crash => life.engine.map (fun _ => { life with engine := none })
  | .finalize =>
      match life.engine with
      | some (.finished result _) =>
          some { life with engine := none, charge := some (finalizationCharge result.context) }
      | _ => none

def Step (life : ExecutionLife) (label : LifeLabel) (next : ExecutionLife) : Prop :=
  life.step label = some next

def Metered (life : ExecutionLife) : Prop :=
  ∀ engine context, life.engine = some engine → engine.context = some context →
    ∀ bucket, context.cost bucket = totalCost life.current bucket

end ExecutionLife

theorem prepareContext_cost (workflow : WorkflowDefinition)
    (inputData initialState projectState : Data) (history : List HistoryMessage)
    (resumePoint : Option ResumePoint) (bucket : CostBucket) :
    (prepareContext workflow inputData initialState projectState history resumePoint).cost
      bucket = 0 := by
  cases bucket <;> rfl

theorem Preparation.engine_cost (preparation : Preparation) (steps : List ExecutionStep)
    {context : ExecutionContext} (reached : (preparation.engine steps).context = some context)
    (bucket : CostBucket) : context.cost bucket = 0 := by
  unfold Preparation.engine at reached
  cases found : preparation.resumePoint steps with
  | none =>
      simp only [found, Engine.start] at reached
      split at reached
      · cases reached
      · split at reached <;> cases reached <;> exact prepareContext_cost _ _ _ _ _ _ bucket
  | some point =>
      simp only [found, resumePointer] at reached
      cases target : GraphNavigator.findNextNode
          (preparation.context (some point)).workflow.edges
          (preparation.context (some point)).workflow.nodes point.lastNodeId
          point.conditionIndex with
      | none =>
          rw [target] at reached
          cases reached
          exact prepareContext_cost _ _ _ _ _ _ bucket
      | some nodeId =>
          rw [target] at reached
          cases reached
          exact prepareContext_cost _ _ _ _ _ _ bucket

theorem ExecutionLife.Step.metered {life next : ExecutionLife} {label : LifeLabel}
    (taken : life.Step label next) (metered : life.Metered) : next.Metered := by
  unfold ExecutionLife.Step at taken
  intro engine context here reached bucket
  cases label with
  | start preparation =>
      simp only [ExecutionLife.step] at taken
      split at taken
      · cases taken
        cases here
        exact preparation.engine_cost life.steps reached bucket
      · cases taken
  | step library label =>
      simp only [ExecutionLife.step, Option.bind_eq_some_iff, Option.map_eq_some_iff] at taken
      obtain ⟨old, running, after, stepped, rfl⟩ := taken
      cases here
      obtain ⟨before, started⟩ := Option.isSome_iff_exists.mp (Engine.Step.context_isSome stepped)
      rw [Engine.Step.cost stepped started reached bucket, totalCost_append,
        metered old before running started bucket]
  | crash =>
      simp only [ExecutionLife.step, Option.map_eq_some_iff] at taken
      obtain ⟨old, running, rfl⟩ := taken
      cases here
  | finalize =>
      simp only [ExecutionLife.step] at taken
      split at taken
      · cases taken
        cases here
      · cases taken

theorem run_metered {labels : List LifeLabel} {life : ExecutionLife}
    (run : Run ExecutionLife.Step ExecutionLife.initial labels life) : life.Metered := by
  apply run.invariant ExecutionLife.Metered
  · intro engine context running
    cases running
  · intro state label next metered taken
    exact taken.metered metered

theorem chargeOf_injective {left right : CostBucket → Rat} (same : chargeOf left = chargeOf right)
    (bucket : CostBucket) : left bucket = right bucket := by
  unfold chargeOf at same
  simp only [Charge.mk.injEq] at same
  obtain ⟨systemKey, ownKey, systemVoice, ownVoice, _⟩ := same
  cases bucket with
  | systemKey => exact systemKey
  | ownKey => exact ownKey
  | systemVoice => exact systemVoice
  | ownVoice => exact ownVoice

/-- When a run is finalized, after any crashes and resumes, the charge covers every completed
step exactly if the steps completed before the last start add up to nothing in each bucket. -/
theorem finalization_charges_all_iff (labels : List LifeLabel) (life : ExecutionLife)
    (run : Run ExecutionLife.Step ExecutionLife.initial labels life)
    (result : RunResult) (steps : List ExecutionStep)
    (finished : life.engine = some (.finished result steps)) :
    finalizationCharge result.context = chargeOf (totalCost (life.earlier ++ life.current)) ↔
      ∀ bucket, totalCost life.earlier bucket = 0 := by
  have own := run_metered run _ result.context finished rfl
  constructor
  · intro same bucket
    have equal := chargeOf_injective same bucket
    rw [own bucket, totalCost_append] at equal
    exact (add_right_cancel ((zero_add _).trans equal)).symm
  · intro free
    unfold finalizationCharge
    congr 1
    funext bucket
    rw [own bucket, totalCost_append, free bucket, zero_add]

/-! START, an agent that costs one dollar on the system key, and END. -/

def pricedLibrary : NodeLibrary where
  registered := fun type => decide (type = "agent")
  execute := fun _ _ =>
    .ok
      { data := Dict.empty.set "message" (.str "hi")
        metadata := some { cost := 1, usedSystemKey := true } }
  evaluate := fun _ _ => .ok false
  render := fun template _ => template

def greetingPreparation : Preparation where
  checkpointing := true
  workflow := greetingWorkflow
  inputData := Dict.empty
  initialState := Dict.empty
  projectState := Dict.empty
  chatHistory := []

def lifeAfter (labels : List LifeLabel) : ExecutionLife :=
  (labels.foldlM ExecutionLife.step ExecutionLife.initial).getD ExecutionLife.initial

def crashAfterStart : List LifeLabel :=
  [.start greetingPreparation, .step pricedLibrary .advance, .crash, .start greetingPreparation,
    .step pricedLibrary .advance, .step pricedLibrary .advance]

def crashAfterAgent : List LifeLabel :=
  [.start greetingPreparation, .step pricedLibrary .advance, .step pricedLibrary .advance, .crash,
    .start greetingPreparation, .step pricedLibrary .advance]

theorem finalization_charges_all_afterStart :
    ∃ result steps, (lifeAfter crashAfterStart).engine = some (.finished result steps) ∧
      finalizationCharge result.context =
        chargeOf (totalCost
          ((lifeAfter crashAfterStart).earlier ++ (lifeAfter crashAfterStart).current)) := by
  have run : Run ExecutionLife.Step ExecutionLife.initial crashAfterStart
      (lifeAfter crashAfterStart) := Run.of_foldlM _ _ _ rfl
  refine ⟨_, _, rfl, ?_⟩
  apply (finalization_charges_all_iff crashAfterStart _ run _ _ rfl).mpr
  intro bucket
  cases bucket <;> decide +kernel

/-- The agent's dollar is in its persisted step and not in the charge. -/
theorem finalization_misses_earlier :
    ∃ result steps,
      Run ExecutionLife.Step ExecutionLife.initial crashAfterAgent (lifeAfter crashAfterAgent) ∧
      (lifeAfter crashAfterAgent).engine = some (.finished result steps) ∧
      finalizationCharge result.context ≠
        chargeOf (totalCost
          ((lifeAfter crashAfterAgent).earlier ++ (lifeAfter crashAfterAgent).current)) := by
  refine ⟨_, _, Run.of_foldlM _ _ _ rfl, rfl, ?_⟩
  decide +kernel

end Assemblix
