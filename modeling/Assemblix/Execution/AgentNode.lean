import Assemblix.Execution.StepCosts

/-
The agent node and the models it calls.

The node builds a chain of its model and its fallback models, each with a key of its own, and the
agent library runs it. The library is not part of the code and stands here as a parameter, as do
the prices of the catalog and the voice of the answer. What the messages say, tools and audio
parts do not enter into the cost of the step and are left out.
-/

namespace Assemblix

open Library

/-! ### Errors -/

inductive CallError
  | httpException (status : Nat) (detail : String)
  | noValue (credentialsId : String)
  | timeout
  | workflowTimeout
  | agentRunTimeout
  -- An unknown node, a limit of steps or of executions, an expression.
  | fatalInternal
  | execution
  | nodeExecution (original : CallError)
  | httpStatus (code : Nat)
  | transport
  -- `_TRANSIENT_LITELLM` and `_FATAL_LITELLM`.
  | transientProvider
  | fatalProvider
  | modelHttp (status : Nat)
  | group (exceptions : List CallError)
  | other

inductive TransienceClass
  | transient
  | fatal
  | unknown
  deriving DecidableEq

namespace CallError

def firstRealCause : CallError → CallError
  | .group (first :: _) => firstRealCause first
  | error => error

def classifyHttp (code : Nat) : TransienceClass :=
  if code = 429 ∨ 500 ≤ code then .transient else .fatal

/-- `classify_error`, once the node and the group around an error are gone. -/
def classifyCause : CallError → TransienceClass
  | .workflowTimeout => .transient
  | .agentRunTimeout => .fatal
  | .fatalInternal => .fatal
  | .httpStatus code => classifyHttp code
  | .transport => .transient
  | .transientProvider => .transient
  | .fatalProvider => .fatal
  | .modelHttp status => classifyHttp status
  | .execution => .fatal
  | .nodeExecution _ => .fatal
  | _ => .unknown

def classifyError (error : CallError) : TransienceClass :=
  match error with
  | .nodeExecution original => classifyCause (firstRealCause original)
  | error => classifyCause (firstRealCause error)

def isTransient (error : CallError) : Bool := decide (classifyError error = .transient)

end CallError

/-! ### Keys -/

inductive AgentProvider
  | openai
  | gemini
  | deepseek
  deriving DecidableEq

def AgentProvider.value : AgentProvider → String
  | .openai => "openai"
  | .gemini => "gemini"
  | .deepseek => "deepseek"

inductive CredentialsType
  | openaiToken
  | anthropicToken
  | geminiToken
  | deepseekToken
  | elevenlabsToken
  | anamToken
  | bithumanToken
  | liveavatarToken
  | yandexSpeechkitToken
  | typesafeToken
  deriving DecidableEq

/-- A stored credential; `none` is a value that is missing or cannot be decrypted. -/
structure Credentials where
  projectId : String
  type : CredentialsType
  value : Option String

structure CredentialsService where
  find : String → Option Credentials
  systemKey : AgentProvider → String

namespace CredentialsService

def isProviderCompatible (provider : AgentProvider) (type : CredentialsType) : Bool :=
  match provider with
  | .openai => decide (type = .openaiToken)
  | .gemini => decide (type = .geminiToken)
  | .deepseek => decide (type = .deepseekToken)

def getSystemKey (service : CredentialsService) (provider : AgentProvider) :
    Except CallError String :=
  if service.systemKey provider = "" then
    .error (.httpException 503 ("System API key for " ++ provider.value ++
      " is not configured. Please contact support."))
  else .ok (service.systemKey provider)

/-- The key and whether it is a system key. A credential that is missing, of another project or
of another type gives way to the system key; one without a value does not. -/
def getApiKeyWithFallback (service : CredentialsService) (projectId : String)
    (provider : AgentProvider) (credentialId : Option String) :
    Except CallError (String × Bool) :=
  let systemKey := (service.getSystemKey provider).map (fun key => (key, true))
  match credentialId with
  | none => systemKey
  | some credentialId =>
      match service.find credentialId with
      | none => systemKey
      | some credentials =>
          if credentials.projectId = projectId ∧
              isProviderCompatible provider credentials.type = true then
            match credentials.value with
            | none => .error (.noValue credentialId)
            | some apiKey => .ok (apiKey, false)
          else systemKey

end CredentialsService

/-! ### The chain of models -/

structure FallbackModelConfig where
  provider : AgentProvider
  model : String
  credentialId : Option String := none
  deriving DecidableEq

structure AgentNodeConfig extends FallbackModelConfig where
  fallbackModels : List FallbackModelConfig := []
  timeoutSeconds : Option ℚ := none
  maxRetries : Option Nat := none
  enforceTimeoutOnLast : Bool := true
  parsesJson : Bool := false
  saveToHistory : Bool := true
  historyField : Option String := none

structure AgentSettings where
  llmNumRetries : Nat
  agentRunTimeoutSeconds : ℚ
  llmRequestTimeoutSeconds : ℚ

structure LiteLLMModel where
  provider : AgentProvider
  model : String
  apiKey : String
  timeout : ℚ
  numRetries : Nat

structure ModelResponse where
  modelName : Option String
  responseCost : Option ℚ

abbrev ModelRequest := Nat → Except CallError ModelResponse

structure AgentRunResult where
  output : String
  inputTokens : Nat
  outputTokens : Nat
  totalTokens : Nat
  toolExecutions : List Json
  -- Each response with the place of the model it came from, the answer last.
  responses : List (Nat × ModelResponse)

/-- Runs a chain through one request after another. Without a predicate there is one model and
nothing to fall back on. -/
structure AgentLibrary where
  run : List LiteLLMModel → Option (CallError → Bool) → List ModelRequest →
    Except CallError AgentRunResult

def firstAnswer (fallbackOn : Option (CallError → Bool)) :
    List (Except CallError ModelResponse) → Option (Nat × ModelResponse)
  | [] => none
  | .ok response :: _ => some (0, response)
  | .error error :: rest =>
      if fallbackOn.any (fun accepts => accepts error) then
        (firstAnswer fallbackOn rest).map (fun found => (found.1 + 1, found.2))
      else none

def ModelRequest.outcomes (request : ModelRequest) (models : Nat) :
    List (Except CallError ModelResponse) :=
  (List.range models).map request

/-- A run that ends well has a response to every request, each from the first model of the chain
that answers it. -/
structure AgentLibrary.Documented (library : AgentLibrary) : Prop where
  responds : ∀ chain fallbackOn requests result,
    library.run chain fallbackOn requests = .ok result → result.responses ≠ []
  inOrder : ∀ chain fallbackOn requests result,
    library.run chain fallbackOn requests = .ok result →
      requests.map (fun request => firstAnswer fallbackOn (request.outcomes chain.length)) =
        result.responses.map some

/-! ### The run of the node -/

structure VoiceOutcome where
  audio : Option Json := none
  cost : Option (ℚ × Bool) := none

structure AgentEnvironment where
  projectId : String
  credentials : CredentialsService
  settings : AgentSettings
  library : AgentLibrary
  -- The prices of a million input and output tokens.
  findModelMetadata : AgentProvider → String → Option (ℚ × ℚ)
  parseJson : String → Option Json
  renderText : Json → String

structure AgentExecutionResult where
  content : String
  parsedContent : Option Json
  tokensUsed : Nat
  cost : ℚ
  effectiveModel : String
  toolExecutions : List Json

namespace AgentEnvironment

def loadCredential (env : AgentEnvironment) (target : FallbackModelConfig) :
    Except CallError (String × Bool) :=
  env.credentials.getApiKeyWithFallback env.projectId target.provider target.credentialId

def buildModel (env : AgentEnvironment) (config : AgentNodeConfig) (target : FallbackModelConfig)
    (apiKey : String) (timeout : Option ℚ) : LiteLLMModel where
  provider := target.provider
  model := target.model
  apiKey := apiKey
  timeout := timeout.getD env.settings.llmRequestTimeoutSeconds
  numRetries := config.maxRetries.getD env.settings.llmNumRetries

def totalTimeout (env : AgentEnvironment) (config : AgentNodeConfig) : ℚ :=
  config.timeoutSeconds.getD env.settings.agentRunTimeoutSeconds

def lastModelTimeout (env : AgentEnvironment) (config : AgentNodeConfig) : Option ℚ :=
  if config.enforceTimeoutOnLast then none else some (env.totalTimeout config)

def buildFallbacks (env : AgentEnvironment) (config : AgentNodeConfig) :
    List FallbackModelConfig → Except CallError (List LiteLLMModel)
  | [] => .ok []
  | target :: rest => do
      let (apiKey, _) ← env.loadCredential target
      let timeout := if rest = [] then env.lastModelTimeout config else none
      let models ← env.buildFallbacks config rest
      return env.buildModel config target apiKey timeout :: models

/-- `_record_response_cost` for each response. -/
def responseCosts (result : AgentRunResult) : List ℚ :=
  result.responses.filterMap (fun response => response.2.responseCost.filter (fun cost => 0 < cost))

def computeCost (env : AgentEnvironment) (config : AgentNodeConfig) (result : AgentRunResult) :
    ℚ :=
  let registry :=
    match env.findModelMetadata config.provider config.model with
    | none => 0
    | some (input, output) =>
        (result.inputTokens * input + result.outputTokens * output) / 1000000
  let native := (responseCosts result).sum
  if responseCosts result ≠ [] ∧ 0 < native then native else registry

def effectiveModel (config : AgentNodeConfig) (result : AgentRunResult) : String :=
  ((result.responses.reverse.filterMap (fun response =>
    response.2.modelName.filter (fun name => name ≠ ""))).head?).getD config.model

def parseContent (env : AgentEnvironment) (config : AgentNodeConfig) (content : String) :
    Option Json :=
  if config.parsesJson then
    (env.parseJson content).map (fun parsed =>
      match parsed with
      | .obj fields => .obj fields
      | value => .obj [("value", value)])
  else none

/-- `AgentRunner.run`. -/
def runAgent (env : AgentEnvironment) (config : AgentNodeConfig) (chain : List LiteLLMModel)
    (fallbackOn : Option (CallError → Bool)) (requests : List ModelRequest) :
    Except CallError AgentExecutionResult :=
  match env.library.run chain fallbackOn requests with
  | .error .timeout => .error .agentRunTimeout
  | .error error => .error error
  | .ok result =>
      .ok
        { content := result.output
          parsedContent := env.parseContent config result.output
          tokensUsed := result.totalTokens
          cost := env.computeCost config result
          effectiveModel := effectiveModel config result
          toolExecutions := result.toolExecutions }

def buildHistoryAppend (env : AgentEnvironment) (config : AgentNodeConfig)
    (result : AgentExecutionResult) : Option HistoryMessage :=
  if config.saveToHistory then
    let field :=
      match config.historyField, result.parsedContent with
      | some name, some (.obj fields) =>
          if name = "" then none else (Dict.ofList fields).lookup name
      | _, _ => none
    some { role := "assistant", content := (field.map env.renderText).getD result.content }
  else none

def output (env : AgentEnvironment) (config : AgentNodeConfig) (isSystemKey : Bool)
    (result : AgentExecutionResult) (voice : VoiceOutcome) : NodeOutput where
  data :=
    let data := Dict.ofList
      [("message", .str result.content), ("parsed_message", result.parsedContent.getD .null),
        ("tool_executions", .arr result.toolExecutions)]
    match voice.audio with
    | none => data
    | some audio => data.set "audio" audio
  metadata := some
    { cost := result.cost
      usedSystemKey := isSystemKey
      voiceCost := (voice.cost.map Prod.fst).getD 0
      voiceUsedSystemKey := (voice.cost.map Prod.snd).getD false
      model := some config.model
      tokensUsed := some result.tokensUsed }
  historyAppend := env.buildHistoryAppend config result

/-- The predicate that `FallbackModel` is given; without fallback models there is none. -/
def fallbackOn (config : AgentNodeConfig) : Option (CallError → Bool) :=
  if config.fallbackModels = [] then none else some CallError.isTransient

def buildChain (env : AgentEnvironment) (config : AgentNodeConfig) :
    Except CallError (List LiteLLMModel × Bool) := do
  let (apiKey, isSystemKey) ← env.loadCredential config.toFallbackModelConfig
  let timeout := if config.fallbackModels = [] then env.lastModelTimeout config else none
  let fallbacks ← env.buildFallbacks config config.fallbackModels
  return (env.buildModel config config.toFallbackModelConfig apiKey timeout :: fallbacks,
    isSystemKey)

/-- `AgentNode.execute`. -/
def execute (env : AgentEnvironment) (config : AgentNodeConfig) (requests : List ModelRequest)
    (voice : VoiceOutcome) : Except CallError NodeOutput := do
  let (chain, isSystemKey) ← env.buildChain config
  let result ← env.runAgent config chain (fallbackOn config) requests
  return env.output config isSystemKey result voice

end AgentEnvironment
end Assemblix
