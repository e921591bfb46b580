import Assemblix.Sessions.TenantIsolation

/-
The answer of a run, given at once or read back from its row.

A request that is run in place is answered from the result in memory. A request that is
queued, or that is polled, is answered from the row of its execution. The queued row is
written before the run has opened its sessions, and the worker only marks it as running.
-/

namespace Assemblix

open Library Transaction

/-! ### The stored answer -/

inductive TaskError
  | notFound (executionId : String)
  | forbidden
  deriving DecidableEq, Repr

/-- The response that `get_task_result` builds from a row. -/
def taskResponse (executionId : String) (execution : Execution) : ExecuteResponse :=
  match execution.status with
  | .queued => .task executionId
  | .running => .task executionId
  | .failed | .error =>
      .failed
        { executionId := executionId
          error := orUnknown (execution.errorMessage.getD "")
          partialState := execution.finalState.getD Dict.empty
          partialProjectState := execution.finalProjectState.getD Dict.empty }
  | .completed =>
      .completed
        { executionId := executionId
          sessionId := execution.chatSessionId
          output := execution.output.getD Dict.empty
          state := execution.finalState.getD Dict.empty
          status := "completed"
          projectState := execution.finalProjectState.getD Dict.empty
          totalSteps := execution.stepsCount
          creditsUsed := execution.totalCredits
          ownKeyCostUsd := execution.ownKeyCostUsd
          isSessionClosed := execution.isSessionClosed }

def getTaskResult (database : Database) (projectId executionId : String) :
    Except TaskError ExecuteResponse :=
  match database.executions.lookup executionId with
  | none => .error (.notFound executionId)
  | some execution =>
      if (database.workflows.lookup execution.workflowId).map Workflow.projectId = some projectId then
        .ok (taskResponse executionId execution)
      else .error .forbidden

structure Answer where
  status : String
  output : Option Data
  error : Option String
  sessionId : Option String
  deriving DecidableEq

def ExecuteResponse.answer : ExecuteResponse → Answer
  | .completed response => ⟨response.status, some response.output, none, response.sessionId⟩
  | .failed response => ⟨"failed", none, some response.error, none⟩
  | .task _ => ⟨"running", none, none, none⟩

/-! ### The queued run -/

/-- `_preparation_phase` up to the row of the execution, with the initial state of the row. -/
def prepareSessions (conversions : Conversions) (workflow : Workflow) (workflowId : String)
    (call : ExecuteCall) : Transaction Database (Prepared × Data) := do
  let inputData := buildInputData call.request call.isDebug
  let project ← ask (fun database => database.projects.lookup workflow.projectId)
  let clientSessionId ← openClientSession project workflow.projectId call inputData
  let chat ← openChatSession workflowId workflow call inputData
  let history ← ask (fun database =>
    some (database.loadHistory chat.1 chat.2 workflow.firstPhrase inputData))
  let customState ← ask (fun _ => overridesOf inputData "state")
  let customProjectState ← ask (fun _ => overridesOf inputData "project_state")
  let states ← ask (fun database => database.loadInitialState conversions workflow project chat.1
    clientSessionId customState customProjectState)
  pure
    ({ context := prepareContext workflow.definition inputData states.1 states.2 history none
       chatSessionId := chat.1
       clientSessionId := clientSessionId }, states.1)

/-- The row of `create_execution`. -/
def createdRow (call : ExecuteCall) (workflowId : String) (prepared : Prepared)
    (initialState : Data) : Execution where
  workflowId := workflowId
  tokenId := call.tokenId
  chatSessionId := prepared.chatSessionId
  clientSessionId := prepared.clientSessionId
  initialState := initialState
  inputData := buildInputData call.request call.isDebug
  isDebug := flag (buildInputData call.request call.isDebug) "is_debug"

/-- The row of `create_queued`. -/
def queuedRow (call : ExecuteCall) (workflowId : String) : Execution where
  workflowId := workflowId
  tokenId := call.tokenId
  chatSessionId := call.request.sessionId
  clientSessionId := none
  initialState := Dict.empty
  inputData := buildInputData call.request call.isDebug
  isDebug := false
  status := .queued

def markedRunning (execution : Execution) : Execution := { execution with status := .running }

/-- `ensure_audio_run_is_synchronous`. -/
def isAudioInput (inputData : Data) : Bool :=
  match inputData.lookup "input_type" with
  | some (.str inputType) => decide (inputType = "audio")
  | _ => false

def enqueueExecution (call : ExecuteCall) (workflowId : String) : Transaction Database Unit :=
  change (fun database =>
    if isAudioInput (buildInputData call.request call.isDebug) then none
    else database.createExecution call.environment.executionId (queuedRow call workflowId))

def runPrepared (call : ExecuteCall) (prepared : Prepared) :
    Transaction Database ExecuteResponse := do
  let report := call.environment.run prepared.context prepared.chatSessionId
  whenSome prepared.chatSessionId (fun sessionId => saveUserMessages sessionId report.userMessages)
  concludeRun call prepared report.outcome

/-- `run_workflow_job`: the preparation loads the queued row. -/
def runWorkflowJob (conversions : Conversions) (workflowId : String) (workflow : Workflow)
    (call : ExecuteCall) : Transaction Database Unit := do
  let prepared ← prepareSessions conversions workflow workflowId call
  change (fun database => database.updateExecution call.environment.executionId markedRunning)
  let _ ← runPrepared call prepared.1
  pure ()

inductive RowOrigin
  | request
  | queue
  deriving DecidableEq, Repr

def storedRun (conversions : Conversions) (workflowId : String) (workflow : Workflow)
    (call : ExecuteCall) : RowOrigin → Transaction Database Unit
  | .request => do
      let _ ← dispatch conversions workflowId workflow call
      pure ()
  | .queue => do
      enqueueExecution call workflowId
      runWorkflowJob conversions workflowId workflow call

def createsSession (call : ExecuteCall) : Bool :=
  call.request.sessionId.isNone &&
    flag (buildInputData call.request call.isDebug) "create_session"

def CarriesOver (origin : RowOrigin) (call : ExecuteCall) : Except String RunResult → Prop
  | .error _ => True
  | .ok result =>
      result.isError = false ∧ result.output.lookup "audio" = none ∧
        (origin = .queue → createsSession call = false)

/-! ### Actions that do not touch executions -/

def Database.withExecutions (executions : Dict String Execution) (database : Database) :
    Database :=
  { database with executions := executions }

def RowsKept (before after : Database) : Prop :=
  after.executions = before.executions ∧ after.workflows = before.workflows

abbrev Rowless {α : Type} (action : Transaction Database α) : Prop :=
  ∀ executions, Confined (Database.withExecutions executions) RowsKept (fun _ => True) action
    (fun _ _ => True)

namespace Rowless

variable {α β : Type}

theorem kept_refl (database : Database) : RowsKept database database := ⟨rfl, rfl⟩

theorem kept_trans (first second third : Database) (earlier : RowsKept first second)
    (later : RowsKept second third) : RowsKept first third :=
  ⟨later.1.trans earlier.1, later.2.trans earlier.2⟩

theorem pure (value : α) : Rowless (Pure.pure value) :=
  fun _ => Confined.pure kept_refl (fun _ _ => trivial)

theorem bind {action : Transaction Database α} {next : α → Transaction Database β}
    (first : Rowless action) (rest : ∀ value, Rowless (next value)) : Rowless (action >>= next) :=
  fun executions => Confined.bind kept_trans (first executions) (fun value => rest value executions)

theorem ask {read : Database → Option α}
    (same : ∀ executions database, read (Database.withExecutions executions database) =
      read database) : Rowless (Transaction.ask read) :=
  fun executions => Confined.ask kept_refl (fun database _ => same executions database)
    (fun _ _ _ _ => trivial)

theorem whenSome {value : Option α} {action : α → Transaction Database Unit}
    (present : ∀ found, Rowless (action found)) : Rowless (Transaction.whenSome value action) :=
  fun executions => Confined.whenSome kept_refl (fun _ _ _ => trivial)
    (fun found _ => present found executions)

theorem change {write : Database → Option Database}
    (commutes : ∀ executions database, write (Database.withExecutions executions database) =
      (write database).map (Database.withExecutions executions))
    (keeps : ∀ database after, write database = some after → RowsKept database after) :
    Rowless (Transaction.change write) := by
  intro executions
  apply Confined.change
  · intro database _
    exact commutes executions database
  · intro database after _ written
    exact ⟨keeps database after written, trivial⟩

theorem modifyChat (sessionId : String) (modify : ChatSession → ChatSession) :
    Rowless (Transaction.change (fun database => database.modifyChat sessionId modify)) := by
  apply change
  · intro executions database
    unfold Database.modifyChat
    rw [Option.map_map]
    rfl
  · intro database after modified
    obtain ⟨_, rfl⟩ := Database.modifyChat_rest modified
    exact ⟨rfl, rfl⟩

theorem modifyClient (sessionId : String) (modify : ClientSession → ClientSession) :
    Rowless (Transaction.change (fun database => database.modifyClient sessionId modify)) := by
  apply change
  · intro executions database
    unfold Database.modifyClient
    rw [Option.map_map]
    rfl
  · intro database after modified
    obtain ⟨_, rfl⟩ := Database.modifyClient_rest modified
    exact ⟨rfl, rfl⟩

theorem createClientSession (sessionId : String) (session : ClientSession) :
    Rowless (Transaction.change (fun database =>
      database.createClientSession sessionId session)) := by
  apply change
  · intro executions database
    unfold Database.createClientSession
    change (if database.clientSessions.contains sessionId then none else _) = _
    split <;> rfl
  · intro database after created
    unfold Database.createClientSession at created
    split at created
    · cases created
    · cases created
      exact ⟨rfl, rfl⟩

theorem createSession (sessionId : String) (session : ChatSession) :
    Rowless (Transaction.change (fun database => database.createSession sessionId session)) := by
  apply change
  · intro executions database
    unfold Database.createSession
    change (if database.chatSessions.contains sessionId then none else _) = _
    split <;> rfl
  · intro database after created
    unfold Database.createSession at created
    split at created
    · cases created
    · cases created
      exact ⟨rfl, rfl⟩

theorem saveText (sessionId role content : String) (executionId : Option String)
    (credits ownKeyCostUsd : Rat) :
    Rowless (saveText sessionId role content executionId credits ownKeyCostUsd) := by
  unfold Assemblix.saveText
  split
  · exact pure ()
  · exact modifyChat sessionId _

theorem openClientSession (project : Project) (projectId : String) (call : ExecuteCall)
    (inputData : Data) : Rowless (openClientSession project projectId call inputData) := by
  unfold Assemblix.openClientSession
  apply bind (ask (fun _ _ => rfl))
  intro clientId
  cases clientId with
  | none => exact pure none
  | some clientId =>
      apply bind
      · unfold prepareClientSession getOrCreateByClientId
        apply bind
        · apply bind (ask (fun _ _ => rfl))
          intro existing
          cases existing with
          | some sessionId => exact pure sessionId
          | none => exact bind (createClientSession _ _) (fun _ => pure _)
        · intro sessionId
          apply bind (ask (fun _ _ => rfl))
          intro metadata
          apply bind
          · split
            · exact change (fun _ _ => rfl) (fun _ _ same => by cases same; exact ⟨rfl, rfl⟩)
            · exact modifyClient sessionId _
          · intro _
            exact bind (modifyClient sessionId _) (fun _ => pure sessionId)
      · intro sessionId
        exact pure (some sessionId)

theorem openChatSession (workflowId : String) (workflow : Workflow) (call : ExecuteCall)
    (inputData : Data) : Rowless (openChatSession workflowId workflow call inputData) := by
  unfold Assemblix.openChatSession
  split
  · exact pure _
  · split
    · apply bind
      · unfold createChatSession
        apply bind (createSession _ _)
        intro _
        exact whenSome (fun phrase => saveText _ _ _ _ _ _)
      · intro _
        exact pure _
    · exact pure _

theorem prepareSessions (conversions : Conversions) (workflow : Workflow) (workflowId : String)
    (call : ExecuteCall) : Rowless (prepareSessions conversions workflow workflowId call) := by
  unfold Assemblix.prepareSessions
  apply bind (ask (fun _ _ => rfl))
  intro project
  apply bind (openClientSession _ _ _ _)
  intro clientSessionId
  apply bind (openChatSession _ _ _ _)
  intro chat
  apply bind (ask (fun _ _ => rfl))
  intro history
  apply bind (ask (fun _ _ => rfl))
  intro customState
  apply bind (ask (fun _ _ => rfl))
  intro customProjectState
  apply bind (ask (fun _ _ => rfl))
  intro states
  exact pure _

theorem saveUserMessages (sessionId : String) (messages : List String) :
    Rowless (saveUserMessages sessionId messages) := by
  induction messages with
  | nil => exact pure ()
  | cons message rest ih => exact bind (modifyChat sessionId _) (fun _ => ih)

theorem saveStates (chatSessionId clientSessionId : Option String) (state projectState : Data) :
    Rowless (Transaction.change (fun database =>
      database.saveStates chatSessionId clientSessionId state projectState)) := by
  unfold Database.saveStates
  rw [change_bind]
  apply bind
  · cases chatSessionId with
    | none => exact change (fun _ _ => rfl) (fun _ _ saved => by cases saved; exact ⟨rfl, rfl⟩)
    | some sessionId => exact modifyChat sessionId _
  · intro _
    cases clientSessionId with
    | none => exact change (fun _ _ => rfl) (fun _ _ saved => by cases saved; exact ⟨rfl, rfl⟩)
    | some sessionId => exact modifyClient sessionId _

theorem moved {action : Transaction Database α} (rowless : Rowless action)
    {database after : Database} {value : α} (ran : action database = some (value, after))
    (executions : Dict String Execution) :
    action (database.withExecutions executions) =
        some (value, after.withExecutions executions) ∧ RowsKept database after := by
  refine ⟨?_, ((rowless executions).leaves database value after trivial ran).1⟩
  rw [(rowless executions).commutes database trivial, ran]
  rfl

end Rowless

/-! ### The row at the end of a run -/

variable {conversions : Conversions} {workflowId : String} {workflow : Workflow}
  {call : ExecuteCall} {prepared : Prepared} {database middle after : Database}
  {executions : Dict String Execution} {row : Execution}

theorem preparationPhase_eq :
    preparationPhase conversions workflowId workflow call =
      (prepareSessions conversions workflow workflowId call >>= fun opened =>
        change (fun database => database.createExecution call.environment.executionId
          (createdRow call workflowId opened.1 opened.2)) >>= fun _ => pure opened.1) := by
  unfold preparationPhase prepareSessions createdRow
  simp only [bind_assoc, pure_bind]

def concludedRow (call : ExecuteCall) (prepared : Prepared) :
    Except String RunResult → Execution → Execution
  | .ok result, execution =>
      { execution with
        status := if result.isError then .error else .completed
        finalState := some result.context.state
        finalProjectState := some result.context.projectState
        output := some (withoutAudio result.output)
        isSessionClosed := result.isSessionEnd
        totalCredits := call.environment.credits result
        ownKeyCostUsd := ownTotalCost result.context
        stepsCount := result.context.stepNumber
        errorMessage := if result.isError then some result.errorMessage else none }
  | .error error, execution =>
      { execution with
        status := .failed
        errorMessage := some error
        finalState := some prepared.context.state
        output := some Dict.empty
        finalProjectState := some prepared.context.projectState
        stepsCount := prepared.context.stepNumber }

theorem updateExecution_moved {executionId : String} {update : Execution → Execution}
    (found : executions.lookup executionId = some row) (database : Database) :
    change (fun database => database.updateExecution executionId update)
        (database.withExecutions executions) =
      some ((), database.withExecutions (executions.set executionId (update row))) := by
  apply change_of_some
  unfold Database.updateExecution
  change (executions.lookup executionId).map _ = _
  rw [found]
  rfl

theorem finalizationPhase_moved {result : RunResult}
    (finalized : finalizationPhase call prepared result database = some ((), after))
    (found : executions.lookup call.environment.executionId = some row) :
    finalizationPhase call prepared result (database.withExecutions executions) =
        some ((), after.withExecutions (executions.set call.environment.executionId
          (concludedRow call prepared (.ok result) row))) ∧
      after.workflows = database.workflows := by
  unfold finalizationPhase at finalized ⊢
  obtain ⟨_, saved, states, finalized⟩ := bind_eq_some.mp finalized
  obtain ⟨_, counted, stats, finalized⟩ := bind_eq_some.mp finalized
  obtain ⟨_, spoken, messages, finalized⟩ := bind_eq_some.mp finalized
  obtain ⟨_, recorded, status, closed⟩ := bind_eq_some.mp finalized
  have savedThere := (Rowless.saveStates _ _ _ _).moved states executions
  have countedThere := (Rowless.whenSome (fun _ => Rowless.modifyClient _ _)).moved stats executions
  have spokenThere := (Rowless.whenSome (fun _ =>
    Rowless.bind (Rowless.saveText _ _ _ _ _ _)
      (fun _ => Rowless.saveText _ _ _ _ _ _))).moved messages executions
  obtain ⟨changed, updated, same⟩ := Option.map_eq_some_iff.mp status
  cases same
  obtain ⟨_, _, rfl⟩ := Option.map_eq_some_iff.mp updated
  have closes : Rowless (if result.isSessionEnd then
      whenSome prepared.chatSessionId (fun sessionId =>
        change (fun database => database.endSession sessionId)) else pure ()) := by
    split
    · exact Rowless.whenSome (fun _ => Rowless.modifyChat _ _)
    · exact Rowless.pure ()
  have closedThere := closes.moved closed (executions.set call.environment.executionId
    (concludedRow call prepared (.ok result) row))
  constructor
  · apply bind_of_some savedThere.1
    apply bind_of_some countedThere.1
    apply bind_of_some spokenThere.1
    apply bind_of_some (updateExecution_moved found spoken)
    exact closedThere.1
  · rw [closedThere.2.2]
    change spoken.workflows = _
    rw [spokenThere.2.2, countedThere.2.2, savedThere.2.2]

theorem concludeRun_moved {outcome : Except String RunResult} {response : ExecuteResponse}
    (concluded : concludeRun call prepared outcome database = some (response, after))
    (found : executions.lookup call.environment.executionId = some row) :
    concludeRun call prepared outcome (database.withExecutions executions) =
        some (response, after.withExecutions
          (executions.set call.environment.executionId (concludedRow call prepared outcome row))) ∧
      after.workflows = database.workflows := by
  cases outcome with
  | error error =>
      obtain ⟨_, recorded, handled, responded⟩ := bind_eq_some.mp concluded
      cases responded
      obtain ⟨changed, updated, same⟩ := Option.map_eq_some_iff.mp handled
      cases same
      obtain ⟨_, _, rfl⟩ := Option.map_eq_some_iff.mp updated
      exact ⟨bind_of_some (updateExecution_moved found database) rfl, rfl⟩
  | ok result =>
      obtain ⟨_, finished, finalized, responded⟩ := bind_eq_some.mp concluded
      cases responded
      have there := finalizationPhase_moved finalized found
      exact ⟨bind_of_some there.1 rfl, there.2⟩

def inMemoryResponse (call : ExecuteCall) (prepared : Prepared) :
    Except String RunResult → ExecuteResponse
  | .ok result => completedResponse call prepared result
  | .error error => failedResponse call prepared error

theorem concludeRun_response {outcome : Except String RunResult} {response : ExecuteResponse}
    (concluded : concludeRun call prepared outcome database = some (response, after)) :
    response = inMemoryResponse call prepared outcome := by
  cases outcome with
  | error error =>
      obtain ⟨_, _, _, responded⟩ := bind_eq_some.mp concluded
      cases responded
      rfl
  | ok result =>
      obtain ⟨_, _, _, responded⟩ := bind_eq_some.mp concluded
      cases responded
      rfl

theorem runPrepared_moved {response : ExecuteResponse}
    (ran : runPrepared call prepared database = some (response, after))
    (found : executions.lookup call.environment.executionId = some row) :
    runPrepared call prepared (database.withExecutions executions) =
        some (response, after.withExecutions (executions.set call.environment.executionId
          (concludedRow call prepared
            (call.environment.run prepared.context prepared.chatSessionId).outcome row))) ∧
      after.workflows = database.workflows := by
  obtain ⟨_, spoken, messages, concluded⟩ := bind_eq_some.mp ran
  have there := (Rowless.whenSome (fun _ => Rowless.saveUserMessages _ _)).moved messages executions
  have last := concludeRun_moved concluded found
  refine ⟨bind_of_some there.1 last.1, ?_⟩
  rw [last.2, there.2.2]

theorem dispatch_eq :
    dispatch conversions workflowId workflow call =
      (preparationPhase conversions workflowId workflow call >>= fun prepared =>
        runPrepared call prepared >>= fun response =>
          pure (if call.request.task || !call.environment.inTime then
            .task call.environment.executionId else response)) := by
  unfold dispatch runPrepared
  simp only [bind_assoc]

theorem openChatSession_chat {inputData : Data} {opened : Option String × Bool}
    (ran : openChatSession workflowId workflow call inputData database = some (opened, after)) :
    opened.1 = match call.request.sessionId with
      | some sessionId => some sessionId
      | none => if flag inputData "create_session" then some call.environment.newSessionId
          else none := by
  unfold openChatSession at ran
  cases named : call.request.sessionId with
  | some sessionId =>
      rw [named] at ran
      cases ran
      rfl
  | none =>
      rw [named] at ran
      dsimp only at ran ⊢
      split at ran
      case isTrue creates =>
        obtain ⟨_, _, _, rest⟩ := bind_eq_some.mp ran
        cases rest
        rw [if_pos creates]
      case isFalse plain =>
        cases ran
        rw [if_neg plain]

theorem prepareSessions_chat {opened : Prepared × Data}
    (ran : prepareSessions conversions workflow workflowId call database = some (opened, after)) :
    (opened.1.chatSessionId = call.request.sessionId ↔ createsSession call = false) := by
  unfold prepareSessions at ran
  obtain ⟨_, _, _, ran⟩ := bind_eq_some.mp ran
  obtain ⟨_, _, _, ran⟩ := bind_eq_some.mp ran
  obtain ⟨chat, _, openedChat, ran⟩ := bind_eq_some.mp ran
  obtain ⟨_, _, _, ran⟩ := bind_eq_some.mp ran
  obtain ⟨_, _, _, ran⟩ := bind_eq_some.mp ran
  obtain ⟨_, _, _, ran⟩ := bind_eq_some.mp ran
  obtain ⟨_, _, _, ran⟩ := bind_eq_some.mp ran
  cases ran
  have same := openChatSession_chat openedChat
  dsimp only
  rw [same]
  unfold createsSession
  cases call.request.sessionId with
  | some sessionId => simp
  | none =>
      by_cases creates :
          flag (buildInputData call.request call.isDebug) "create_session" = true
      · simp [creates]
      · simp [creates]

/-! ### Both ways -/

def rowBefore (call : ExecuteCall) (workflowId : String) (opened : Prepared × Data) :
    RowOrigin → Execution
  | .request => createdRow call workflowId opened.1 opened.2
  | .queue => markedRunning (queuedRow call workflowId)

theorem dispatch_some {response : ExecuteResponse} {opened : Prepared × Data}
    (prepares : prepareSessions conversions workflow workflowId call database =
      some (opened, middle))
    (answered : dispatch conversions workflowId workflow call database = some (response, after)) :
    ∃ ran, runPrepared call opened.1 (middle.withExecutions (middle.executions.set
        call.environment.executionId (createdRow call workflowId opened.1 opened.2))) =
          some (ran, after) ∧
      response = if call.request.task || !call.environment.inTime then
        .task call.environment.executionId else ran := by
  rw [dispatch_eq, preparationPhase_eq] at answered
  obtain ⟨prepared, started, preparation, answered⟩ := bind_eq_some.mp answered
  obtain ⟨ran, finished, concluded, last⟩ := bind_eq_some.mp answered
  obtain ⟨same, reached, sessions, inserting⟩ := bind_eq_some.mp preparation
  rw [prepares] at sessions
  cases sessions
  obtain ⟨_, created, inserted, done⟩ := bind_eq_some.mp inserting
  cases done
  cases last
  refine ⟨ran, ?_, rfl⟩
  obtain ⟨written, creates, same⟩ := Option.map_eq_some_iff.mp inserted
  cases same
  dsimp only at creates
  unfold Database.createExecution at creates
  split at creates
  · cases creates
  · cases creates
    exact concluded

theorem storedRun_row {origin : RowOrigin} {response : ExecuteResponse} {stored : Database}
    {opened : Prepared × Data}
    (prepares : prepareSessions conversions workflow workflowId call database =
      some (opened, middle))
    (answered : dispatch conversions workflowId workflow call database = some (response, after))
    (kept : storedRun conversions workflowId workflow call origin database = some ((), stored)) :
    stored.executions.lookup call.environment.executionId =
        some (concludedRow call opened.1
          (call.environment.run opened.1.context opened.1.chatSessionId).outcome
          (rowBefore call workflowId opened origin)) ∧
      stored.workflows = database.workflows := by
  obtain ⟨ran, concluded, _⟩ := dispatch_some prepares answered
  have sessions := (Rowless.prepareSessions _ _ _ _).moved prepares
  cases origin with
  | request =>
      obtain ⟨_, last, dispatched, rest⟩ := bind_eq_some.mp kept
      cases rest
      rw [answered] at dispatched
      cases dispatched
      have here := runPrepared_moved concluded (Dict.lookup_set_self middle.executions
        call.environment.executionId (createdRow call workflowId opened.1 opened.2))
      have same := here.1
      change runPrepared call opened.1 (middle.withExecutions _) = _ at same
      rw [concluded] at same
      obtain ⟨_, reached⟩ := Prod.mk.inj (Option.some.inj same)
      constructor
      · rw [reached]
        exact Dict.lookup_set_self _ _ _
      · rw [here.2]
        exact (sessions middle.executions).2.2
  | queue =>
      obtain ⟨_, queued, enqueued, job⟩ := bind_eq_some.mp kept
      obtain ⟨written, creates, same⟩ := Option.map_eq_some_iff.mp enqueued
      cases same
      dsimp only at creates
      split at creates
      · cases creates
      unfold Database.createExecution at creates
      split at creates
      · cases creates
      cases creates
      have there := (sessions (database.executions.set call.environment.executionId
        (queuedRow call workflowId))).1
      obtain ⟨loaded, opening, prepared, job⟩ := bind_eq_some.mp job
      change prepareSessions conversions workflow workflowId call (database.withExecutions _) = _
        at prepared
      rw [there] at prepared
      cases prepared
      obtain ⟨_, marked, marks, job⟩ := bind_eq_some.mp job
      rw [updateExecution_moved (Dict.lookup_set_self _ _ _)] at marks
      cases marks
      obtain ⟨_, finished, run, job⟩ := bind_eq_some.mp job
      cases job
      have elsewhere := runPrepared_moved concluded (Dict.lookup_set_self
        (database.executions.set call.environment.executionId (queuedRow call workflowId))
        call.environment.executionId (markedRunning (queuedRow call workflowId)))
      have same := elsewhere.1
      change runPrepared call opened.1 (middle.withExecutions _) = _ at same
      rw [run] at same
      obtain ⟨_, rfl⟩ := Prod.mk.inj (Option.some.inj same)
      constructor
      · exact Dict.lookup_set_self _ _ _
      · change after.workflows = _
        rw [elsewhere.2]
        exact (sessions middle.executions).2.2

theorem withoutAudio_eq_iff (data : Data) :
    withoutAudio data = data ↔ data.lookup "audio" = none := by
  constructor
  · intro same
    rw [← same]
    unfold withoutAudio
    rw [Dict.lookup_restrict]
    rfl
  · exact withoutAudio_eq data

theorem rowBefore_chat {origin : RowOrigin} {opened : Prepared × Data}
    (prepares : prepareSessions conversions workflow workflowId call database =
      some (opened, middle)) :
    (rowBefore call workflowId opened origin).chatSessionId = opened.1.chatSessionId ↔
      (origin = .queue → createsSession call = false) := by
  cases origin with
  | request =>
      constructor
      · intro _ impossible
        cases impossible
      · intro _
        rfl
  | queue =>
      rw [← prepareSessions_chat prepares]
      constructor
      · intro same _
        exact same.symm
      · intro same
        exact (same rfl).symm

theorem taskResponse_answer {origin : RowOrigin} {opened : Prepared × Data}
    (prepares : prepareSessions conversions workflow workflowId call database =
      some (opened, middle)) (outcome : Except String RunResult) :
    (taskResponse call.environment.executionId (concludedRow call opened.1 outcome
        (rowBefore call workflowId opened origin))).answer =
      (inMemoryResponse call opened.1 outcome).answer ↔
      CarriesOver origin call outcome := by
  have chat := @rowBefore_chat _ _ _ _ _ _ origin _ prepares
  cases outcome with
  | error error =>
      constructor
      · intro _
        trivial
      · intro _
        rfl
  | ok result =>
      unfold CarriesOver
      dsimp only
      rw [← chat, ← withoutAudio_eq_iff]
      unfold taskResponse concludedRow inMemoryResponse completedResponse
      cases marked : result.isError with
      | true =>
          constructor
          · intro same
            simp [ExecuteResponse.answer, marked] at same
          · rintro ⟨impossible, _⟩
            cases impossible
      | false => simp [ExecuteResponse.answer, marked]

/-- The stored answer is the answer in memory exactly when the run has failed, or has ended
without an error mark and without audio and the queue knew its session. -/
theorem task_result_agrees_iff (conversions : Conversions) (projectId : String)
    (call : ExecuteCall) (origin : RowOrigin) (workflowId : String) (workflow : Workflow)
    (database middle after stored : Database) (opened : Prepared × Data)
    (response : ExecuteResponse)
    (authorized : loadAndAuthorize database projectId false call.workflowId
      call.request.sessionId (!call.isDebug) call.environment.refused = .ok (workflowId, workflow))
    (prepares : prepareSessions conversions workflow workflowId call database =
      some (opened, middle))
    (answered : dispatch conversions workflowId workflow call database = some (response, after))
    (waits : call.request.task = false) (inTime : call.environment.inTime = true)
    (kept : storedRun conversions workflowId workflow call origin database = some ((), stored)) :
    ∃ polled, getTaskResult stored projectId call.environment.executionId = .ok polled ∧
      (polled.answer = response.answer ↔
        CarriesOver origin call
          (call.environment.run opened.1.context opened.1.chatSessionId).outcome) := by
  obtain ⟨found, workflows⟩ := storedRun_row prepares answered kept
  obtain ⟨ran, concluded, responded⟩ := dispatch_some prepares answered
  rw [waits, inTime] at responded
  have owned : (stored.workflows.lookup
      (rowBefore call workflowId opened origin).workflowId).map Workflow.projectId =
        some projectId := by
    rw [workflows]
    cases origin with
    | request => exact loadAndAuthorize_project authorized
    | queue => exact loadAndAuthorize_project authorized
  have same : (concludedRow call opened.1
      (call.environment.run opened.1.context opened.1.chatSessionId).outcome
        (rowBefore call workflowId opened origin)).workflowId =
      (rowBefore call workflowId opened origin).workflowId := by
    cases (call.environment.run opened.1.context opened.1.chatSessionId).outcome <;> rfl
  refine ⟨taskResponse call.environment.executionId (concludedRow call opened.1
    (call.environment.run opened.1.context opened.1.chatSessionId).outcome
      (rowBefore call workflowId opened origin)), ?_, ?_⟩
  · unfold getTaskResult
    rw [found]
    dsimp only
    rw [same, if_pos owned]
  · obtain ⟨_, _, _, last⟩ := bind_eq_some.mp concluded
    rw [← taskResponse_answer prepares, ← concludeRun_response last, responded]
    rfl

/-! ### A run that opens its session, and one that ends with an error mark -/

def answered (isError : Bool) (context : ExecutionContext) : RunResult where
  output := Dict.empty.set "message" (.str "hi")
  context := context
  isSessionEnd := false
  isError := isError
  errorMessage := "refused"

def greetingCall (createSession isError : Bool) : ExecuteCall where
  workflowId := "draft"
  tokenId := some "t"
  isDebug := false
  request := { input := Dict.empty.set "message" (.str "hello"), createSession := createSession }
  environment :=
    { newSessionId := "n"
      newClientSessionId := "c"
      executionId := "x"
      refused := none
      credits := fun _ => 1
      inTime := true
      run := fun context _ => ⟨[], .ok (answered isError context)⟩ }

def answerInMemory (call : ExecuteCall) : Option Answer :=
  (dispatch echoConversions "v1" (echoWorkflow "p" (some "draft")) call (twoProjects "")).map
    (fun out => out.1.answer)

def answerFromRow (origin : RowOrigin) (call : ExecuteCall) : Option Answer :=
  (storedRun echoConversions "v1" (echoWorkflow "p" (some "draft")) call origin
    (twoProjects "")).bind (fun out =>
      (getTaskResult out.2 "p" call.environment.executionId).toOption.map ExecuteResponse.answer)

theorem task_result_agrees_iff_greeting :
    ∃ stored response after polled,
      storedRun echoConversions "v1" (echoWorkflow "p" (some "draft")) (greetingCall false false)
          .queue (twoProjects "") = some ((), stored) ∧
        dispatch echoConversions "v1" (echoWorkflow "p" (some "draft")) (greetingCall false false)
          (twoProjects "") = some (response, after) ∧
        getTaskResult stored "p" "x" = .ok polled ∧ polled.answer = response.answer := by
  obtain ⟨polled, found, agrees⟩ := task_result_agrees_iff echoConversions "p"
    (greetingCall false false) .queue "v1" (echoWorkflow "p" (some "draft")) (twoProjects "")
    _ _ _ _ _ rfl rfl rfl rfl rfl rfl
  exact ⟨_, _, _, polled, rfl, rfl, found, agrees.mpr ⟨rfl, rfl, fun _ => rfl⟩⟩

/-- The queued row has lost the session that the run has opened; a run that END marks as an
error is an answer in memory and a failure in the row. -/
theorem task_result_loses_session :
    answerInMemory (greetingCall true false) =
        some ⟨"completed", some (Dict.empty.set "message" (.str "hi")), none, some "n"⟩ ∧
      answerFromRow .queue (greetingCall true false) =
        some ⟨"completed", some (Dict.empty.set "message" (.str "hi")), none, none⟩ ∧
      answerInMemory (greetingCall false true) =
        some ⟨"error", some (Dict.empty.set "message" (.str "hi")), none, none⟩ ∧
      answerFromRow .queue (greetingCall false true) =
        some ⟨"failed", none, some "refused", none⟩ := by
  refine ⟨?_, ?_, ?_, ?_⟩ <;> decide +kernel

end Assemblix
