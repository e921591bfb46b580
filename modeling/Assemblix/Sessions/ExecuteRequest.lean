import Assemblix.Library.Confinement
import Assemblix.Execution.Resume
import Assemblix.Sessions.Database

/-
An execute request, from its entry checks to its answer.

The entry checks load the workflow and compare its project with the one of the token. Of a
session id they only ask that the session exists. The run then prepares its sessions,
loads states and history, executes and writes everything back. What the run itself does
and what is generated or decided elsewhere comes with the call.
-/

namespace Assemblix

open Library

structure ExecuteWorkflowRequest where
  input : Data
  sessionId : Option String := none
  createSession : Bool := false
  state : Option Data := none
  projectState : Option Data := none
  clientId : Option String := none
  metadata : Option Data := none
  sessionName : Option String := none
  task : Bool := false
  stream : Bool := false

structure RunReport where
  userMessages : List String
  outcome : Except String RunResult

/-- Generated ids, the answer of the billing check, the credits of a result, whether the run
ends in time, and the run as a function of its context and chat session. -/
structure Environment where
  newSessionId : String
  newClientSessionId : String
  executionId : String
  refused : Option String
  credits : RunResult → Rat
  inTime : Bool
  run : ExecutionContext → Option String → RunReport

structure ExecuteCall where
  workflowId : String
  tokenId : Option String
  isDebug : Bool
  request : ExecuteWorkflowRequest
  environment : Environment

inductive RequestError
  | workflowNotFound (workflowId : String)
  | tokenForbidden
  | sessionNotFound (sessionId : String)
  | projectNotFound (projectId : String)
  | billing (reason : String)
  | notPublished (workflowId : String)
  | notStarted
  deriving DecidableEq, Repr

structure ExecutionResponse where
  executionId : String
  sessionId : Option String
  output : Data
  state : Data
  status : String
  projectState : Data
  totalSteps : Nat
  creditsUsed : Rat
  ownKeyCostUsd : Rat
  isSessionClosed : Bool
  deriving DecidableEq

structure ExecutionErrorResponse where
  executionId : String
  error : String
  partialState : Data
  partialProjectState : Data
  deriving DecidableEq

inductive ExecuteResponse
  | completed (response : ExecutionResponse)
  | failed (response : ExecutionErrorResponse)
  | task (executionId : String)
  deriving DecidableEq

abbrev ExecuteAnswer := Except RequestError ExecuteResponse

/-! ### Entry checks -/

def getLatestPublished (workflows : Dict String Workflow) (workflowId : String) :
    Option (String × Workflow) :=
  (workflows.entries.filter (fun entry =>
    decide (entry.2.publishedForWorkflowId = some workflowId))).foldl (fun best entry =>
      match best with
      | none => some entry
      | some found =>
          if found.2.version.getD 0 < entry.2.version.getD 0 then some entry else some found) none

def loadAndAuthorize (database : Database) (projectIdFromToken : String) (isAdmin : Bool)
    (workflowId : String) (sessionId : Option String) (resolvePublished : Bool)
    (refused : Option String) : Except RequestError (String × Workflow) :=
  match database.workflows.lookup workflowId with
  | none => .error (.workflowNotFound workflowId)
  | some workflow =>
      if !isAdmin && !decide (workflow.projectId = projectIdFromToken) then
        .error .tokenForbidden
      else match sessionId.filter (fun id => !database.chatSessions.contains id) with
        | some missing => .error (.sessionNotFound missing)
        | none =>
            match database.projects.lookup workflow.projectId, refused with
            | none, _ => .error (.projectNotFound workflow.projectId)
            | some _, some reason => .error (.billing reason)
            | some _, none =>
                if resolvePublished && workflow.publishedForWorkflowId.isNone then
                  match getLatestPublished database.workflows workflowId with
                  | none => .error (.notPublished workflowId)
                  | some published => .ok published
                else .ok (workflowId, workflow)

/-! ### The input of the run -/

/-- `_build_input_data`. -/
def buildInputData (request : ExecuteWorkflowRequest) (isDebug : Bool) : Data :=
  let data := request.input
  let data := if isDebug then data.set "is_debug" (.bool true) else data
  let data := if request.stream then data.set "stream" (.bool true) else data
  let data := if request.createSession then data.set "create_session" (.bool true) else data
  let data := match request.sessionName with
    | some name => data.set "session_name" (.str name)
    | none => data
  let data := match request.state with
    | some state => data.set "state" (.obj state.entries)
    | none => data
  let data := match request.projectState with
    | some state => data.set "project_state" (.obj state.entries)
    | none => data
  let data := match request.clientId with
    | some clientId => if clientId = "" then data else data.set "client_id" (.str clientId)
    | none => data
  let data := match request.metadata with
    | some metadata =>
        if metadata.entries.isEmpty then data else data.set "metadata" (.obj metadata.entries)
    | none => data
  if data.contains "input_type" then data else data.set "input_type" (.str "text")

def flag (inputData : Data) (key : String) : Bool :=
  match inputData.lookup key with
  | some value => value.truthy
  | none => false

/-- `none` when the value cannot be compared with a client id. -/
def clientIdOf (inputData : Data) : Option (Option String) :=
  match inputData.lookup "client_id" with
  | none => some none
  | some (.str clientId) => some (if clientId = "" then none else some clientId)
  | some value => if value.truthy then none else some none

/-! ### Preparation -/

open Transaction

structure Prepared where
  context : ExecutionContext
  chatSessionId : Option String
  clientSessionId : Option String

def getOrCreateByClientId (projectId clientId : String) (initialState : Data) (isDebug : Bool)
    (newId : String) : Transaction Database String := do
  let existing ← ask (fun database => some (database.getByClientId projectId clientId))
  match existing with
  | some sessionId => pure sessionId
  | none =>
      change (fun database => database.createClientSession newId
        { projectId := projectId, clientId := clientId, state := initialState, isDebug := isDebug })
      pure newId

def prepareClientSession (project : Project) (projectId : String) (call : ExecuteCall)
    (inputData : Data) (clientId : String) : Transaction Database String := do
  let sessionId ← getOrCreateByClientId projectId clientId
    (defaultProjectState project.stateSchema) (flag inputData "is_debug")
    call.environment.newClientSessionId
  let metadata ← ask (fun _ => overridesOf inputData "metadata")
  change (fun database =>
    if metadata.entries.isEmpty then some database else database.updateMetadata sessionId metadata)
  change (fun database => database.syncSchema sessionId project.stateSchema)
  pure sessionId

def openClientSession (project : Project) (projectId : String) (call : ExecuteCall)
    (inputData : Data) : Transaction Database (Option String) := do
  let clientId ← ask (fun _ => clientIdOf inputData)
  match clientId with
  | none => pure none
  | some clientId =>
      let sessionId ← prepareClientSession project projectId call inputData clientId
      pure (some sessionId)

def saveText (sessionId role content : String) (executionId : Option String)
    (credits ownKeyCostUsd : Rat) : Transaction Database Unit :=
  if content = "" then pure ()
  else change (fun database =>
    database.saveMessage sessionId ⟨role, content, executionId⟩ credits ownKeyCostUsd)

def createChatSession (workflowId : String) (workflow : Workflow) (call : ExecuteCall)
    (inputData : Data) : Transaction Database Unit := do
  change (fun database => database.createSession call.environment.newSessionId
    { workflowId := workflowId
      tokenId := call.tokenId
      currentState := defaultState workflow.state
      isDebug := flag inputData "is_debug"
      name := inputData.lookup "session_name" })
  whenSome workflow.firstPhrase (fun phrase =>
    saveText call.environment.newSessionId "assistant" phrase none 0 0)

def openChatSession (workflowId : String) (workflow : Workflow) (call : ExecuteCall)
    (inputData : Data) : Transaction Database (Option String × Bool) :=
  match call.request.sessionId with
  | some sessionId => pure (some sessionId, false)
  | none =>
      if flag inputData "create_session" then do
        createChatSession workflowId workflow call inputData
        pure (some call.environment.newSessionId, true)
      else pure (none, false)

/-- `_preparation_phase` of a run that is not resumed. -/
def preparationPhase (conversions : Conversions) (workflowId : String) (workflow : Workflow)
    (call : ExecuteCall) : Transaction Database Prepared := do
  let inputData := buildInputData call.request call.isDebug
  let project ← ask (fun database => database.projects.lookup workflow.projectId)
  let clientSessionId ← openClientSession project workflow.projectId call inputData
  let chat ← openChatSession workflowId workflow call inputData
  let history ← ask (fun database =>
    some (database.loadHistory chat.1 chat.2 workflow.firstPhrase inputData))
  let customState ← ask (fun _ => overridesOf inputData "state")
  let customProjectState ← ask (fun _ => overridesOf inputData "project_state")
  let states ← ask (fun database => database.loadInitialState conversions workflow project chat.1
    clientSessionId customState customProjectState)
  change (fun database => database.createExecution call.environment.executionId
    { workflowId := workflowId
      tokenId := call.tokenId
      chatSessionId := chat.1
      clientSessionId := clientSessionId
      initialState := states.1
      inputData := inputData
      isDebug := flag inputData "is_debug" })
  pure
    { context := prepareContext workflow.definition inputData states.1 states.2 history none
      chatSessionId := chat.1
      clientSessionId := clientSessionId }

/-! ### Finalization -/

def ownTotalCost (context : ExecutionContext) : Rat :=
  context.ownKeyCostUsd + context.ownVoiceCostUsd

def textOf (data : Data) (key : String) : String :=
  match data.lookup key with
  | some (.str text) => text
  | _ => ""

def saveTurn (call : ExecuteCall) (result : RunResult) (sessionId : String) :
    Transaction Database Unit := do
  saveText sessionId "user" (textOf result.context.inputData "message") none 0 0
  saveText sessionId "assistant"
    (result.context.lastHistoryMessage.getD (textOf result.output "message"))
    (some call.environment.executionId) (call.environment.credits result)
    (ownTotalCost result.context)

/-- `_finalization_phase` after the deduction. -/
def finalizationPhase (call : ExecuteCall) (prepared : Prepared) (result : RunResult) :
    Transaction Database Unit := do
  change (fun database => database.saveStates prepared.chatSessionId prepared.clientSessionId
    result.context.state result.context.projectState)
  whenSome prepared.clientSessionId (fun sessionId => change (fun database =>
    database.incrementExecutionStats sessionId (call.environment.credits result)
      (ownTotalCost result.context)))
  whenSome prepared.chatSessionId (saveTurn call result)
  change (fun database => database.updateExecution call.environment.executionId (fun execution =>
    { execution with
      status := if result.isError then .error else .completed
      finalState := some result.context.state
      finalProjectState := some result.context.projectState
      output := some (withoutAudio result.output)
      isSessionClosed := result.isSessionEnd
      totalCredits := call.environment.credits result
      ownKeyCostUsd := ownTotalCost result.context
      stepsCount := result.context.stepNumber
      errorMessage := if result.isError then some result.errorMessage else none }))
  if result.isSessionEnd then
    whenSome prepared.chatSessionId (fun sessionId =>
      change (fun database => database.endSession sessionId))
  else pure ()

/-- `_handle_error`: the partial state is the one the run was prepared with. -/
def handleError (call : ExecuteCall) (prepared : Prepared) (error : String) :
    Transaction Database Unit :=
  change (fun database => database.updateExecution call.environment.executionId (fun execution =>
    { execution with
      status := .failed
      errorMessage := some error
      finalState := some prepared.context.state
      output := some Dict.empty
      finalProjectState := some prepared.context.projectState
      stepsCount := prepared.context.stepNumber }))

/-! ### One request -/

def saveUserMessages (sessionId : String) : List String → Transaction Database Unit
  | [] => pure ()
  | message :: rest => do
      change (fun database => database.saveMessage sessionId ⟨"user", message, none⟩ 0 0)
      saveUserMessages sessionId rest

def completedResponse (call : ExecuteCall) (prepared : Prepared) (result : RunResult) :
    ExecuteResponse :=
  .completed
    { executionId := call.environment.executionId
      sessionId := prepared.chatSessionId
      output := result.output
      state := result.context.state
      status := if result.isError then "error" else "completed"
      projectState := result.context.projectState
      totalSteps := result.context.stepNumber
      creditsUsed := call.environment.credits result
      ownKeyCostUsd := ownTotalCost result.context
      isSessionClosed := result.isSessionEnd }

/-- `error_message or "Unknown error"`. -/
def orUnknown (error : String) : String := if error = "" then "Unknown error" else error

def failedResponse (call : ExecuteCall) (prepared : Prepared) (error : String) :
    ExecuteResponse :=
  .failed
    { executionId := call.environment.executionId
      error := orUnknown error
      partialState := prepared.context.state
      partialProjectState := prepared.context.projectState }

def concludeRun (call : ExecuteCall) (prepared : Prepared) :
    Except String RunResult → Transaction Database ExecuteResponse
  | .ok result => do
      finalizationPhase call prepared result
      pure (completedResponse call prepared result)
  | .error error => do
      handleError call prepared error
      pure (failedResponse call prepared error)

def dispatch (conversions : Conversions) (workflowId : String) (workflow : Workflow)
    (call : ExecuteCall) : Transaction Database ExecuteResponse := do
  let prepared ← preparationPhase conversions workflowId workflow call
  let report := call.environment.run prepared.context prepared.chatSessionId
  whenSome prepared.chatSessionId (fun sessionId => saveUserMessages sessionId report.userMessages)
  let response ← concludeRun call prepared report.outcome
  pure (if call.request.task || !call.environment.inTime then .task call.environment.executionId
    else response)

def execute (conversions : Conversions) (projectId : String) (call : ExecuteCall)
    (database : Database) : ExecuteAnswer × Database :=
  match loadAndAuthorize database projectId false call.workflowId call.request.sessionId
      (!call.isDebug) call.environment.refused with
  | .error error => (.error error, database)
  | .ok (workflowId, workflow) =>
      match dispatch conversions workflowId workflow call database with
      | none => (.error .notStarted, database)
      | some (response, after) => (.ok response, after)

end Assemblix
