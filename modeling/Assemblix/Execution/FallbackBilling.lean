import Assemblix.Execution.AgentNode

/-
Who pays for the answer of a fallback model.

The node reports whether its own model is called with a platform key, and the cost of the step goes
to a bucket by that, whichever model of the chain has answered.
-/

namespace Assemblix

open Library

def AgentNodeConfig.targets (config : AgentNodeConfig) : List FallbackModelConfig :=
  config.toFallbackModelConfig :: config.fallbackModels

namespace AgentEnvironment

def usesSystemKey (env : AgentEnvironment) (target : FallbackModelConfig) : Bool :=
  match env.loadCredential target with
  | .ok (_, isSystemKey) => isSystemKey
  | .error _ => false

def runResult (env : AgentEnvironment) (config : AgentNodeConfig) (requests : List ModelRequest) :
    Option AgentRunResult :=
  match env.buildChain config with
  | .error _ => none
  | .ok (chain, _) => (env.library.run chain (fallbackOn config) requests).toOption

def answering (env : AgentEnvironment) (config : AgentNodeConfig) (requests : List ModelRequest) :
    Option FallbackModelConfig :=
  (env.runResult config requests).bind (fun result =>
    result.responses.getLast?.bind (fun response => config.targets[response.1]?))

/-- The cost of the step is in the bucket of platform keys or in the bucket of user keys, by the
key of the model that has answered. -/
def BilledByAnswer (env : AgentEnvironment) (config : AgentNodeConfig)
    (requests : List ModelRequest) (context : ExecutionContext) (output : NodeOutput) : Prop :=
  ∃ target, env.answering config requests = some target ∧
    let cost := (output.metadata.map NodeMetadata.cost).getD 0
    let after := accumulateStepCost context output.metadata
    after.cost .systemKey =
        context.cost .systemKey + (if env.usesSystemKey target then cost else 0) ∧
      after.cost .ownKey = context.cost .ownKey + (if env.usesSystemKey target then 0 else cost)

def RunsFree (env : AgentEnvironment) (config : AgentNodeConfig) (requests : List ModelRequest) :
    Prop :=
  ∀ result ∈ env.runResult config requests, env.computeCost config result = 0

/-- The first model that answers the last request has a key of the same origin as the model of the
node. -/
def AnswersWithSameOrigin (env : AgentEnvironment) (config : AgentNodeConfig)
    (requests : List ModelRequest) : Prop :=
  ∀ request ∈ requests.getLast?,
    ∀ found ∈ firstAnswer (fallbackOn config) (request.outcomes config.targets.length),
      ∀ target ∈ config.targets[found.1]?,
        env.usesSystemKey target = env.usesSystemKey config.toFallbackModelConfig

/-! ### The chain -/

variable {env : AgentEnvironment} {config : AgentNodeConfig} {requests : List ModelRequest}
  {voice : VoiceOutcome} {output : NodeOutput}

theorem bind_ok {E A B : Type} {first : Except E A} {next : A → Except E B} {last : B}
    (done : (first >>= next) = .ok last) : ∃ value, first = .ok value ∧ next value = .ok last := by
  cases first with
  | error error => cases done
  | ok value => exact ⟨value, rfl, done⟩

theorem buildFallbacks_length {targets : List FallbackModelConfig} {models : List LiteLLMModel}
    (built : env.buildFallbacks config targets = .ok models) : models.length = targets.length := by
  induction targets generalizing models with
  | nil =>
      cases built
      rfl
  | cons target rest ih =>
      obtain ⟨key, _, built⟩ := bind_ok built
      obtain ⟨others, later, built⟩ := bind_ok built
      cases built
      rw [List.length_cons, List.length_cons, ih later]

theorem buildChain_ok {chain : List LiteLLMModel} {isSystemKey : Bool}
    (built : env.buildChain config = .ok (chain, isSystemKey)) :
    chain.length = config.targets.length ∧
      isSystemKey = env.usesSystemKey config.toFallbackModelConfig := by
  obtain ⟨⟨apiKey, origin⟩, loaded, built⟩ := bind_ok built
  obtain ⟨fallbacks, others, built⟩ := bind_ok built
  cases built
  refine ⟨congrArg Nat.succ (buildFallbacks_length others), ?_⟩
  unfold usesSystemKey
  rw [loaded]

theorem runAgent_ok {chain : List LiteLLMModel} {accepts : Option (CallError → Bool)}
    {result : AgentExecutionResult}
    (ran : env.runAgent config chain accepts requests = .ok result) :
    ∃ run, env.library.run chain accepts requests = .ok run ∧
      result.cost = env.computeCost config run := by
  unfold runAgent at ran
  split at ran
  · cases ran
  · cases ran
  · rename_i run reached
    cases ran
    exact ⟨run, reached, rfl⟩

/-- What a step has done that ended well. -/
theorem execute_ok (executed : env.execute config requests voice = .ok output) :
    ∃ chain run, chain.length = config.targets.length ∧
      env.library.run chain (fallbackOn config) requests = .ok run ∧
      env.runResult config requests = some run ∧
      ∃ metadata, output.metadata = some metadata ∧
        metadata.cost = env.computeCost config run ∧ metadata.costKind = none ∧
        metadata.usedSystemKey = env.usesSystemKey config.toFallbackModelConfig := by
  obtain ⟨⟨chain, isSystemKey⟩, built, executed⟩ := bind_ok executed
  obtain ⟨result, ran, executed⟩ := bind_ok executed
  obtain ⟨run, reached, cost⟩ := runAgent_ok ran
  obtain ⟨length, origin⟩ := buildChain_ok built
  cases executed
  refine ⟨chain, run, length, reached, ?_, _, rfl, cost, rfl, origin⟩
  unfold runResult
  rw [built]
  change (env.library.run chain (fallbackOn config) requests).toOption = some run
  rw [reached]
  rfl

/-! ### The model that answers -/

theorem firstAnswer_lt {accepts : Option (CallError → Bool)}
    {outcomes : List (Except CallError ModelResponse)} {found : Nat × ModelResponse}
    (answered : firstAnswer accepts outcomes = some found) : found.1 < outcomes.length := by
  induction outcomes generalizing found with
  | nil => cases answered
  | cons first rest ih =>
      cases first with
      | ok response =>
          cases answered
          exact Nat.succ_pos _
      | error error =>
          simp only [firstAnswer, Option.ite_none_right_eq_some] at answered
          obtain ⟨later, among, same⟩ := Option.map_eq_some_iff.mp answered.2
          rw [← same]
          exact Nat.succ_lt_succ (ih among)

theorem answering_first {chain : List LiteLLMModel} {accepts : Option (CallError → Bool)}
    {run : AgentRunResult} (documented : env.library.Documented)
    (reached : env.library.run chain accepts requests = .ok run) :
    ∃ request found, requests.getLast? = some request ∧
      firstAnswer accepts (request.outcomes chain.length) = some found ∧
      run.responses.getLast? = some found := by
  have some := documented.responds chain accepts requests run reached
  have inOrder := documented.inOrder chain accepts requests run reached
  cases last : run.responses.getLast? with
  | none => exact absurd (List.getLast?_eq_none_iff.mp last) some
  | some found =>
      have mapped := congrArg List.getLast? inOrder
      rw [List.getLast?_map, List.getLast?_map, last] at mapped
      obtain ⟨request, final, answered⟩ := Option.map_eq_some_iff.mp mapped
      exact ⟨request, found, final, answered, rfl⟩

/-! ### The bucket -/

theorem stepCost_systemKey {metadata : NodeMetadata} (reported : output.metadata = some metadata)
    (kind : metadata.costKind = none) :
    stepCost output .systemKey = if metadata.usedSystemKey then metadata.cost else 0 := by
  unfold stepCost NodeMetadata.voiceBucket NodeMetadata.costBucket
  rw [reported]
  cases voiced : metadata.voiceUsedSystemKey <;> cases used : metadata.usedSystemKey <;>
    simp [kind, voiced, used]

theorem stepCost_ownKey {metadata : NodeMetadata} (reported : output.metadata = some metadata)
    (kind : metadata.costKind = none) :
    stepCost output .ownKey = if metadata.usedSystemKey then 0 else metadata.cost := by
  unfold stepCost NodeMetadata.voiceBucket NodeMetadata.costBucket
  rw [reported]
  cases voiced : metadata.voiceUsedSystemKey <;> cases used : metadata.usedSystemKey <;>
    simp [kind, voiced, used]

theorem bucket_iff (cost : ℚ) (used wanted : Bool) :
    ((if used then cost else 0) = (if wanted then cost else 0) ∧
      (if used then 0 else cost) = (if wanted then 0 else cost)) ↔ cost = 0 ∨ wanted = used := by
  cases used <;> cases wanted <;> simp [eq_comm]

/-- A step is billed by the key that its answer came from exactly where it costs nothing, or the
first model that answers the last request is called with a key of the same origin as the model of
the node. -/
theorem fallback_billed_iff (env : AgentEnvironment) (documented : env.library.Documented)
    (config : AgentNodeConfig) (requests : List ModelRequest) (voice : VoiceOutcome)
    (output : NodeOutput) (executed : env.execute config requests voice = .ok output)
    (context : ExecutionContext) :
    env.BilledByAnswer config requests context output ↔
      env.RunsFree config requests ∨ env.AnswersWithSameOrigin config requests := by
  obtain ⟨chain, run, length, reached, result, metadata, reported, cost, kind, origin⟩ :=
    execute_ok executed
  obtain ⟨request, found, final, answered, last⟩ := answering_first documented reached
  have place := firstAnswer_lt answered
  rw [ModelRequest.outcomes, List.length_map, List.length_range, length] at place
  obtain ⟨target, atPlace⟩ : ∃ target, config.targets[found.1]? = some target :=
    ⟨_, List.getElem?_eq_getElem place⟩
  have answering : env.answering config requests = some target := by
    unfold AgentEnvironment.answering
    rw [result, Option.bind_some, last, Option.bind_some, atPlace]
  have sameOrigin : env.AnswersWithSameOrigin config requests ↔
      env.usesSystemKey target = env.usesSystemKey config.toFallbackModelConfig := by
    constructor
    · intro same
      rw [length] at answered
      exact same request final found answered target atPlace
    · intro same other lastRequest another firstFound reachedTarget isTarget
      cases final.symm.trans lastRequest
      rw [length] at answered
      cases answered.symm.trans firstFound
      cases atPlace.symm.trans isTarget
      exact same
  have free : env.RunsFree config requests ↔ metadata.cost = 0 := by
    rw [cost]
    constructor
    · intro nothing
      exact nothing run result
    · intro nothing other reachedOther
      cases result.symm.trans reachedOther
      exact nothing
  have reportedCost : (output.metadata.map NodeMetadata.cost).getD 0 = metadata.cost := by
    rw [reported]
    rfl
  rw [free, sameOrigin, ← origin, ← bucket_iff]
  unfold AgentEnvironment.BilledByAnswer
  simp only [accumulateStepCost_cost, add_right_inj, reportedCost,
    stepCost_systemKey reported kind, stepCost_ownKey reported kind]
  constructor
  · rintro ⟨other, isOther, buckets⟩
    cases answering.symm.trans isOther
    exact buckets
  · intro buckets
    exact ⟨target, answering, buckets⟩

end AgentEnvironment

/-! ### A chain of two keys -/

def scriptedLibrary : AgentLibrary where
  run := fun chain fallbackOn requests =>
    match requests.mapM (fun request => firstAnswer fallbackOn (request.outcomes chain.length)) with
    | some (first :: rest) =>
        .ok
          { output := "done"
            inputTokens := 0
            outputTokens := 0
            totalTokens := 0
            toolExecutions := []
            responses := first :: rest }
    | _ => .error (.group [.other])

theorem map_of_mapM {A B : Type} {view : A → Option B} {items : List A} {seen : List B}
    (found : items.mapM view = some seen) : items.map view = seen.map some := by
  induction items generalizing seen with
  | nil =>
      cases found
      rfl
  | cons item rest ih =>
      rw [List.mapM_cons] at found
      obtain ⟨first, known, found⟩ := Option.bind_eq_some_iff.mp found
      obtain ⟨others, later, found⟩ := Option.bind_eq_some_iff.mp found
      cases found
      rw [List.map_cons, List.map_cons, known, ih later]

theorem scriptedLibrary_documented : scriptedLibrary.Documented := by
  constructor
  · intro chain fallbackOn requests result reached
    simp only [scriptedLibrary] at reached
    split at reached
    · cases reached
      exact List.cons_ne_nil _ _
    · cases reached
  · intro chain fallbackOn requests result reached
    simp only [scriptedLibrary] at reached
    split at reached
    · rename_i found
      cases reached
      exact map_of_mapM found
    · cases reached

/-- Credential `own` is the user's OpenAI key; every other key is the platform's. -/
def mixedKeys : AgentEnvironment where
  projectId := "project"
  credentials :=
    { find := fun credentialId =>
        if credentialId = "own" then
          some { projectId := "project", type := .openaiToken, value := some "sk-user" }
        else none
      systemKey := fun _ => "sk-platform" }
  settings :=
    { llmNumRetries := 2, agentRunTimeoutSeconds := 600, llmRequestTimeoutSeconds := 120 }
  library := scriptedLibrary
  findModelMetadata := fun _ _ => none
  parseJson := fun _ => none
  renderText := fun _ => ""

def ownKeyFirst : AgentNodeConfig where
  provider := .openai
  model := "gpt-4o"
  credentialId := some "own"
  fallbackModels := [{ provider := .gemini, model := "gemini-2.5-flash" }]

def firstIsDown : ModelRequest
  | 0 => .error (.modelHttp 503)
  | _ => .ok { modelName := some "gemini/gemini-2.5-flash", responseCost := some (1 / 100) }

def bothAreUp : ModelRequest := fun _ =>
  .ok { modelName := some "openai/gpt-4o", responseCost := some (1 / 100) }

def emptyContext : ExecutionContext where
  workflow := { nodes := [], edges := [], conditions := fun _ => [], endConfig := fun _ => {} }
  state := .empty
  projectState := .empty
  inputData := .empty
  stepNumber := 0
  visitedNodes := []
  nodeExecutionCount := .empty

namespace AgentEnvironment

theorem fallback_billed_iff_ownKey :
    ∃ output, mixedKeys.execute ownKeyFirst [firstIsDown, bothAreUp] {} = .ok output ∧
      mixedKeys.BilledByAnswer ownKeyFirst [firstIsDown, bothAreUp] emptyContext output := by
  refine ⟨_, rfl, ?_⟩
  refine (fallback_billed_iff mixedKeys scriptedLibrary_documented ownKeyFirst
    [firstIsDown, bothAreUp] {} _ rfl emptyContext).mpr (Or.inr ?_)
  intro request last found first target place
  cases last
  cases first
  cases place
  rfl

/-- The platform's key answers, and the step is billed as one on the user's key. -/
theorem fallback_billed_to_user :
    ∃ output, mixedKeys.execute ownKeyFirst [firstIsDown] {} = .ok output ∧
      ¬ mixedKeys.BilledByAnswer ownKeyFirst [firstIsDown] emptyContext output := by
  refine ⟨_, rfl, ?_⟩
  rintro ⟨target, answered, charged, _⟩
  cases answered
  exact absurd charged (by decide +kernel)

end AgentEnvironment
end Assemblix
