import Assemblix.Billing.Deduction
import Assemblix.Library.OperationChain
import Assemblix.Sessions.ExecuteRequest

/-
Finalization as a chain of writes in one transaction.

The deduction comes first, then the states of the sessions, the messages and the status of
the execution. A failure the database raises loses the transaction. A failure the code
raises leaves the session usable: the error handler records it in the same transaction, and
the task commits what the operations before the failure have written.
-/

namespace Assemblix

open Library

inductive FinalizationOperation
  | deduct
  | saveChatState
  | saveClientState
  | incrementStats
  | saveUserMessage
  | saveAssistantMessage
  | updateStatus
  | endSession
  | emitComplete
  deriving DecidableEq, Repr

inductive FinalizationError
  | insufficientCredits (required available : Rat)
  | organizationNotFound (organizationId : String)
  | chatSessionNotFound (sessionId : String)
  | clientSessionNotFound (sessionId : String)
  | entityNotFound (entityName id : String)
  | other (text : String)
  deriving DecidableEq

def FinalizationError.text (renderDecimal : Rat → String) : FinalizationError → String
  | .insufficientCredits required available =>
      "Insufficient credits. Required: " ++ renderDecimal required ++ ", Available: " ++
        renderDecimal available
  | .organizationNotFound organizationId => "Organization " ++ organizationId ++ " not found"
  | .chatSessionNotFound sessionId => "ChatSession " ++ sessionId ++ " not found"
  | .clientSessionNotFound sessionId => "ClientSession " ++ sessionId ++ " not found"
  | .entityNotFound entityName id => entityName ++ " с ID " ++ id ++ " не найден"
  | .other text => text

inductive OperationFailure
  | raised (error : FinalizationError)
  | database (text : String)
  deriving DecidableEq

structure Store where
  database : Database
  accounts : Dict String Billing.Account

/-- A run that has left its loop. What the database and the event transport refuse comes with
it. -/
structure Finalization where
  executionId : String
  organizationId : Option String
  chatSessionId : Option String
  clientSessionId : Option String
  result : RunResult
  settings : Billing.BillingSettings
  renderDecimal : Rat → String
  streaming : Bool
  refused : FinalizationOperation → Option OperationFailure
  handlerRefused : Bool
  errorEventRefused : Bool
  commitRefused : Bool

namespace Store

variable (store : Store)

def attempt (missing : OperationFailure) : Option Database → Store × Option OperationFailure
  | some database => ({ store with database := database }, none)
  | none => (store, some missing)

/-- `deduct_for_execution`. -/
def deduct (settings : Billing.BillingSettings) (costs : Billing.ExecutionCosts)
    (executionId organizationId : String) : Store × Option OperationFailure :=
  if settings.billingEnabled then
    match store.accounts.lookup organizationId with
    | none => (store, some (.raised (.organizationNotFound organizationId)))
    | some account =>
        let (after, covered) := account.deductForExecution settings costs executionId
        ({ store with accounts := store.accounts.set organizationId after },
          if covered then none
          else some (.raised (.insufficientCredits (settings.totalCredits costs)
            (after.organization.creditsGrantedBalance +
              after.organization.creditsPurchasedBalance))))
  else (store, none)

end Store

namespace Finalization

variable (run : Finalization)

def costs : Billing.ExecutionCosts where
  systemKeyCostUsd := run.result.context.systemKeyCostUsd
  systemVoiceCostUsd := run.result.context.systemVoiceCostUsd

def totalCredits : Rat :=
  if run.organizationId.isSome then run.settings.totalCredits run.costs else 0

def userMessage : String := textOf run.result.context.inputData "message"

def assistantMessage : String :=
  run.result.context.lastHistoryMessage.getD (textOf run.result.output "message")

def finished (execution : Execution) : Execution :=
  { execution with
    status := if run.result.isError then .error else .completed
    finalState := some run.result.context.state
    finalProjectState := some run.result.context.projectState
    output := some (withoutAudio run.result.output)
    isSessionClosed := run.result.isSessionEnd
    totalCredits := run.totalCredits
    ownKeyCostUsd := ownTotalCost run.result.context
    stepsCount := run.result.context.stepNumber
    errorMessage := if run.result.isError then some run.result.errorMessage else none }

def writeChat (store : Store) (write : String → Store × Option OperationFailure) :
    Store × Option OperationFailure :=
  match run.chatSessionId with
  | some sessionId => write sessionId
  | none => (store, none)

def writeClient (store : Store) (write : String → Store × Option OperationFailure) :
    Store × Option OperationFailure :=
  match run.clientSessionId with
  | some sessionId => write sessionId
  | none => (store, none)

def write (store : Store) : FinalizationOperation → Store × Option OperationFailure
  | .deduct =>
      match run.organizationId with
      | some organizationId => store.deduct run.settings run.costs run.executionId organizationId
      | none => (store, none)
  | .saveChatState => run.writeChat store (fun sessionId =>
      store.attempt (.raised (.chatSessionNotFound sessionId))
        (store.database.updateSessionState sessionId run.result.context.state))
  | .saveClientState => run.writeClient store (fun sessionId =>
      store.attempt (.raised (.clientSessionNotFound sessionId))
        (store.database.updateState sessionId run.result.context.projectState))
  | .incrementStats => run.writeClient store (fun sessionId =>
      ({ store with
        database := (store.database.incrementExecutionStats sessionId run.totalCredits
          (ownTotalCost run.result.context)).getD store.database }, none))
  | .saveUserMessage => run.writeChat store (fun sessionId =>
      store.attempt (.database "insert or update on table violates foreign key constraint")
        (store.database.saveMessage sessionId ⟨"user", run.userMessage, none⟩ 0 0))
  | .saveAssistantMessage => run.writeChat store (fun sessionId =>
      store.attempt (.database "insert or update on table violates foreign key constraint")
        (store.database.saveMessage sessionId
          ⟨"assistant", run.assistantMessage, some run.executionId⟩ run.totalCredits
          (ownTotalCost run.result.context)))
  | .updateStatus =>
      store.attempt (.raised (.entityNotFound "Execution" run.executionId))
        (store.database.updateExecution run.executionId run.finished)
  | .endSession => run.writeChat store (fun sessionId =>
      store.attempt (.raised (.entityNotFound "ChatSession" sessionId))
        (store.database.endSession sessionId))
  | .emitComplete => (store, none)

def perform (operation : FinalizationOperation) (store : Store) :
    Store × Option OperationFailure :=
  match run.refused operation with
  | some failure => (store, some failure)
  | none => run.write store operation

def applies : FinalizationOperation → Bool
  | .deduct => run.organizationId.isSome
  | .saveChatState => run.chatSessionId.isSome
  | .saveClientState => run.clientSessionId.isSome
  | .incrementStats => run.clientSessionId.isSome
  | .saveUserMessage => run.chatSessionId.isSome && !decide (run.userMessage = "")
  | .saveAssistantMessage => run.chatSessionId.isSome && !decide (run.assistantMessage = "")
  | .updateStatus => true
  | .endSession => run.result.isSessionEnd && run.chatSessionId.isSome
  | .emitComplete => run.streaming

/-- The operations of `_finalization_phase` in their order. -/
def operations : List FinalizationOperation :=
  [.deduct, .saveChatState, .saveClientState, .incrementStats, .saveUserMessage,
    .saveAssistantMessage, .updateStatus, .endSession, .emitComplete].filter run.applies

/-! ### After a failure -/

/-- `_handle_error` of a failure in finalization; a row that is gone is left out silently. -/
def recordFailure (error : FinalizationError) (store : Store) : Store :=
  { store with
    database := (store.database.updateExecution run.executionId (fun execution =>
      { execution with
        status := .failed
        errorMessage := some (error.text run.renderDecimal)
        finalState := some run.result.context.state
        output := some Dict.empty
        finalProjectState := some run.result.context.projectState
        stepsCount := run.result.context.stepNumber })).getD store.database }

/-- The error event of a streamed run cannot be published; the exception leaves `execute`. -/
def escapes : Bool := run.streaming && run.errorEventRefused

def committed (begun reached : Store) : OperationFailure → Store
  | .database _ => begun
  | .raised error =>
      if run.escapes || run.handlerRefused || run.commitRefused then begun
      else run.recordFailure error reached

inductive Report
  | completed
  | failed (failure : OperationFailure)
  | escaped
  deriving DecidableEq

def finalize (begun : Store) : Report × Store :=
  match performAll run.perform run.operations begun with
  | (reached, none) => (.completed, if run.commitRefused then begun else reached)
  | (reached, some (_, failure)) =>
      (if run.escapes then .escaped else .failed failure, run.committed begun reached failure)

/-! ### What must not change -/

/-- The balance and the ledger. -/
def account (store : Store) : Option Billing.Account :=
  run.organizationId.bind store.accounts.lookup

def chatColumn {V : Type} (column : ChatSession → V) (store : Store) : Option V :=
  run.chatSessionId.bind (fun sessionId =>
    (store.database.chatSessions.lookup sessionId).map column)

def clientColumn {V : Type} (column : ClientSession → V) (store : Store) : Option V :=
  run.clientSessionId.bind (fun sessionId =>
    (store.database.clientSessions.lookup sessionId).map column)

structure Untouched (before after : Store) : Prop where
  account : run.account after = run.account before
  chatState : run.chatColumn ChatSession.currentState after =
    run.chatColumn ChatSession.currentState before
  clientState : run.clientColumn ClientSession.state after =
    run.clientColumn ClientSession.state before
  messages : run.chatColumn ChatSession.messages after = run.chatColumn ChatSession.messages before

def LeavesNothing (begun : Store) : FinalizationOperation → Prop
  | .deduct => run.settings.billingEnabled = false
  | .saveChatState => ∀ state,
      run.chatColumn ChatSession.currentState begun = some state →
        state.merge run.result.context.state = state
  | .saveClientState => ∀ state,
      run.clientColumn ClientSession.state begun = some state →
        state.merge run.result.context.projectState = state
  | .saveUserMessage => False
  | .saveAssistantMessage => False
  | _ => True

def FailsWithoutGrant (begun : Store) (operation : FinalizationOperation) : Prop :=
  operation = .deduct → run.refused .deduct = none → ∀ account, run.account begun = some account →
    account.grantDue run.settings = false

/-! ### What one operation writes -/

variable {run : Finalization} {operation : FinalizationOperation} {store after : Store}

theorem attempt_performed {missing : OperationFailure} {changed : Option Database}
    (performed : store.attempt missing changed = (after, none)) :
    changed = some after.database ∧ after.accounts = store.accounts := by
  unfold Store.attempt at performed
  cases changed with
  | none => cases performed
  | some database =>
      cases performed
      exact ⟨rfl, rfl⟩

theorem attempt_accounts (missing : OperationFailure) (changed : Option Database) :
    (store.attempt missing changed).1.accounts = store.accounts := by
  unfold Store.attempt
  cases changed <;> rfl

theorem attempt_failed {missing failure : OperationFailure} {changed : Option Database}
    (failed : store.attempt missing changed = (after, some failure)) : after = store := by
  unfold Store.attempt at failed
  cases changed with
  | none =>
      cases failed
      rfl
  | some database => cases failed

theorem perform_cases (operation : FinalizationOperation) (store : Store) :
    (∃ failure, run.refused operation = some failure ∧
        run.perform operation store = (store, some failure)) ∨
      (run.refused operation = none ∧
        run.perform operation store = run.write store operation) := by
  unfold perform
  cases refused : run.refused operation with
  | some failure => exact .inl ⟨failure, rfl, rfl⟩
  | none => exact .inr ⟨rfl, rfl⟩

theorem perform_written (performed : run.perform operation store = (after, none)) :
    run.write store operation = (after, none) := by
  rcases @perform_cases run operation store with ⟨failure, _, stopped⟩ | ⟨_, same⟩
  · rw [stopped] at performed
    cases performed
  · rw [← same]
    exact performed

theorem keeps_of_write {V : Type} {read : Store → V}
    (written : ∀ store, read (run.write store operation).1 = read store) :
    Keeps run.perform read operation := by
  intro store
  rcases @perform_cases run operation store with ⟨failure, _, stopped⟩ | ⟨_, same⟩
  · rw [stopped]
  · rw [same]
    exact written store

theorem writeChat_keeps {V : Type} {read : Store → V}
    {write : String → Store × Option OperationFailure}
    (kept : ∀ sessionId, read (write sessionId).1 = read store) :
    read (run.writeChat store write).1 = read store := by
  unfold writeChat
  split
  · exact kept _
  · rfl

theorem writeClient_keeps {V : Type} {read : Store → V}
    {write : String → Store × Option OperationFailure}
    (kept : ∀ sessionId, read (write sessionId).1 = read store) :
    read (run.writeClient store write).1 = read store := by
  unfold writeClient
  split
  · exact kept _
  · rfl

theorem write_accounts (different : operation ≠ .deduct) (store : Store) :
    (run.write store operation).1.accounts = store.accounts := by
  cases operation with
  | deduct => exact absurd rfl different
  | updateStatus => exact attempt_accounts _ _
  | emitComplete => rfl
  | incrementStats => exact writeClient_keeps (fun _ => rfl)
  | saveClientState => exact writeClient_keeps (fun _ => attempt_accounts _ _)
  | saveChatState | saveUserMessage | saveAssistantMessage | endSession =>
      exact writeChat_keeps (fun _ => attempt_accounts _ _)

theorem keeps_account (different : operation ≠ .deduct) :
    Keeps run.perform run.account operation := by
  apply keeps_of_write
  intro store
  unfold account
  rw [write_accounts different]

theorem deduct_database (settings : Billing.BillingSettings) (costs : Billing.ExecutionCosts)
    (executionId organizationId : String) :
    (store.deduct settings costs executionId organizationId).1.database = store.database := by
  unfold Store.deduct
  split
  · split <;> rfl
  · rfl

theorem attempt_chatColumn {V : Type} {column : ChatSession → V}
    {change : ChatSession → ChatSession} (kept : ∀ session, column (change session) = column session)
    (missing : OperationFailure) (sessionId : String) :
    run.chatColumn column (store.attempt missing (store.database.modifyChat sessionId change)).1 =
      run.chatColumn column store := by
  unfold Store.attempt
  cases modified : store.database.modifyChat sessionId change with
  | none => rfl
  | some changed =>
      unfold chatColumn
      congr 1
      funext other
      dsimp only
      rw [Database.modifyChat_lookup modified]
      split
      · rw [Option.map_map]
        congr 1
        funext session
        exact kept session
      · rfl

theorem attempt_clientColumn {V : Type} {column : ClientSession → V}
    {change : ClientSession → ClientSession}
    (kept : ∀ session, column (change session) = column session) (missing : OperationFailure)
    (sessionId : String) :
    run.clientColumn column
        (store.attempt missing (store.database.modifyClient sessionId change)).1 =
      run.clientColumn column store := by
  unfold Store.attempt
  cases modified : store.database.modifyClient sessionId change with
  | none => rfl
  | some changed =>
      unfold clientColumn
      congr 1
      funext other
      dsimp only
      rw [Database.modifyClient_lookup modified]
      split
      · rw [Option.map_map]
        congr 1
        funext session
        exact kept session
      · rfl

theorem attempt_client_chatSessions (missing : OperationFailure) (sessionId : String)
    (change : ClientSession → ClientSession) :
    (store.attempt missing (store.database.modifyClient sessionId change)).1.database.chatSessions =
      store.database.chatSessions := by
  unfold Store.attempt
  cases modified : store.database.modifyClient sessionId change with
  | none => rfl
  | some changed =>
      obtain ⟨_, rfl⟩ := Database.modifyClient_rest modified
      rfl

theorem attempt_chat_clientSessions (missing : OperationFailure) (sessionId : String)
    (change : ChatSession → ChatSession) :
    (store.attempt missing (store.database.modifyChat sessionId change)).1.database.clientSessions =
      store.database.clientSessions := by
  unfold Store.attempt
  cases modified : store.database.modifyChat sessionId change with
  | none => rfl
  | some changed =>
      obtain ⟨_, rfl⟩ := Database.modifyChat_rest modified
      rfl

def chatChange (run : Finalization) :
    FinalizationOperation → Option (ChatSession → ChatSession)
  | .saveChatState => some (fun session =>
      { session with currentState := session.currentState.merge run.result.context.state })
  | .saveUserMessage => some (fun session =>
      { session with
        messages := session.messages ++ [⟨"user", run.userMessage, none⟩]
        messageCount := session.messageCount + 1
        totalCredits := session.totalCredits + 0
        ownKeyCostUsd := session.ownKeyCostUsd + 0 })
  | .saveAssistantMessage => some (fun session =>
      { session with
        messages := session.messages ++
          [⟨"assistant", run.assistantMessage, some run.executionId⟩]
        messageCount := session.messageCount + 1
        totalCredits := session.totalCredits + run.totalCredits
        ownKeyCostUsd := session.ownKeyCostUsd + ownTotalCost run.result.context })
  | .endSession => some (fun session => { session with isActive := false })
  | _ => none

def clientChange (run : Finalization) :
    FinalizationOperation → Option (ClientSession → ClientSession)
  | .saveClientState => some (fun session =>
      { session with state := session.state.merge run.result.context.projectState })
  | .incrementStats => some (fun session =>
      { session with
        executionCount := session.executionCount + 1
        totalCredits := session.totalCredits + run.totalCredits
        ownKeyCostUsd := session.ownKeyCostUsd + ownTotalCost run.result.context })
  | _ => none

theorem write_chat {change : ChatSession → ChatSession}
    (changes : run.chatChange operation = some change) :
    ∃ missing : String → OperationFailure, ∀ store,
      run.write store operation = run.writeChat store (fun sessionId =>
        store.attempt (missing sessionId) (store.database.modifyChat sessionId change)) := by
  cases operation with
  | saveChatState | saveUserMessage | saveAssistantMessage | endSession =>
      cases changes
      exact ⟨_, fun _ => rfl⟩
  | _ => cases changes

theorem write_client {change : ClientSession → ClientSession}
    (changes : run.clientChange operation = some change) :
    ∃ missing : String → OperationFailure, ∀ store,
      (run.write store operation).1 = (run.writeClient store (fun sessionId =>
        store.attempt (missing sessionId) (store.database.modifyClient sessionId change))).1 := by
  cases operation with
  | saveClientState =>
      cases changes
      exact ⟨_, fun _ => rfl⟩
  | incrementStats =>
      cases changes
      refine ⟨fun _ => .database "", ?_⟩
      intro store
      unfold write writeClient
      cases run.clientSessionId with
      | none => rfl
      | some sessionId =>
          dsimp only
          unfold Store.attempt Database.incrementExecutionStats
          split
          case h_1 changed modified =>
            rw [modified]
            rfl
          case h_2 absent =>
            rw [absent]
            rfl
  | _ => cases changes

theorem updateExecution_sessions {database changed : Database} {executionId : String}
    {change : Execution → Execution}
    (updated : database.updateExecution executionId change = some changed) :
    changed.chatSessions = database.chatSessions ∧
      changed.clientSessions = database.clientSessions := by
  obtain ⟨_, _, rfl⟩ := Option.map_eq_some_iff.mp updated
  exact ⟨rfl, rfl⟩

theorem write_elsewhere (noChat : run.chatChange operation = none)
    (noClient : run.clientChange operation = none) (store : Store) :
    (run.write store operation).1.database.chatSessions = store.database.chatSessions ∧
      (run.write store operation).1.database.clientSessions = store.database.clientSessions := by
  cases operation with
  | saveChatState | saveUserMessage | saveAssistantMessage | endSession => cases noChat
  | saveClientState | incrementStats => cases noClient
  | emitComplete => exact ⟨rfl, rfl⟩
  | deduct =>
      unfold write
      dsimp only
      split
      · rw [deduct_database]
        exact ⟨rfl, rfl⟩
      · exact ⟨rfl, rfl⟩
  | updateStatus =>
      unfold write Store.attempt
      dsimp only
      cases updated : store.database.updateExecution run.executionId run.finished with
      | none => exact ⟨rfl, rfl⟩
      | some changed => exact updateExecution_sessions updated

theorem keeps_chatColumn {V : Type} {column : ChatSession → V}
    (kept : ∀ change, run.chatChange operation = some change →
      ∀ session, column (change session) = column session) :
    Keeps run.perform (run.chatColumn column) operation := by
  apply keeps_of_write
  intro store
  cases changes : run.chatChange operation with
  | some change =>
      obtain ⟨missing, written⟩ := write_chat changes
      rw [written store]
      exact writeChat_keeps (fun _ => attempt_chatColumn (kept change changes) _ _)
  | none =>
      unfold chatColumn
      cases client : run.clientChange operation with
      | none => rw [(write_elsewhere changes client store).1]
      | some change =>
          obtain ⟨missing, written⟩ := write_client client
          rw [written store, @writeClient_keeps run store _
            (fun store => store.database.chatSessions) _
            (fun _ => attempt_client_chatSessions _ _ _)]

theorem keeps_clientColumn {V : Type} {column : ClientSession → V}
    (kept : ∀ change, run.clientChange operation = some change →
      ∀ session, column (change session) = column session) :
    Keeps run.perform (run.clientColumn column) operation := by
  apply keeps_of_write
  intro store
  cases changes : run.clientChange operation with
  | some change =>
      obtain ⟨missing, written⟩ := write_client changes
      rw [written store]
      exact writeClient_keeps (fun _ => attempt_clientColumn (kept change changes) _ _)
  | none =>
      unfold clientColumn
      cases chat : run.chatChange operation with
      | none => rw [(write_elsewhere chat changes store).2]
      | some change =>
          obtain ⟨missing, written⟩ := write_chat chat
          rw [written store, @writeChat_keeps run store _
            (fun store => store.database.clientSessions) _
            (fun _ => attempt_chat_clientSessions _ _ _)]

theorem keeps_chatState (different : operation ≠ .saveChatState) :
    Keeps run.perform (run.chatColumn ChatSession.currentState) operation := by
  apply keeps_chatColumn
  intro change changes session
  cases operation with
  | saveChatState => exact absurd rfl different
  | saveUserMessage | saveAssistantMessage | endSession =>
      cases changes
      rfl
  | _ => cases changes

theorem keeps_messages (notUser : operation ≠ .saveUserMessage)
    (notAssistant : operation ≠ .saveAssistantMessage) :
    Keeps run.perform (run.chatColumn ChatSession.messages) operation := by
  apply keeps_chatColumn
  intro change changes session
  cases operation with
  | saveUserMessage => exact absurd rfl notUser
  | saveAssistantMessage => exact absurd rfl notAssistant
  | saveChatState | endSession =>
      cases changes
      rfl
  | _ => cases changes

theorem keeps_clientState (different : operation ≠ .saveClientState) :
    Keeps run.perform (run.clientColumn ClientSession.state) operation := by
  apply keeps_clientColumn
  intro change changes session
  cases operation with
  | saveClientState => exact absurd rfl different
  | incrementStats =>
      cases changes
      rfl
  | _ => cases changes

/-! ### What a chain of operations has written -/

theorem writeChat_performed {change : ChatSession → ChatSession}
    (changes : run.chatChange operation = some change)
    (performed : run.perform operation store = (after, none)) {sessionId : String}
    (named : run.chatSessionId = some sessionId) :
    ∃ session, store.database.chatSessions.lookup sessionId = some session ∧
      after.database.chatSessions.lookup sessionId = some (change session) := by
  obtain ⟨missing, written⟩ := write_chat changes
  have wrote := perform_written performed
  rw [written store] at wrote
  unfold writeChat at wrote
  rw [named] at wrote
  have modified := (attempt_performed wrote).1
  obtain ⟨session, found, _⟩ := Option.map_eq_some_iff.mp modified
  refine ⟨session, found, ?_⟩
  rw [Database.modifyChat_lookup modified, if_pos rfl, found]
  rfl

theorem writeClient_performed (performed : run.perform .saveClientState store = (after, none))
    {sessionId : String} (named : run.clientSessionId = some sessionId) :
    ∃ session, store.database.clientSessions.lookup sessionId = some session ∧
      after.database.clientSessions.lookup sessionId =
        some { session with state := session.state.merge run.result.context.projectState } := by
  have wrote := perform_written performed
  unfold write writeClient at wrote
  rw [named] at wrote
  have modified := (attempt_performed wrote).1
  obtain ⟨session, found, _⟩ := Option.map_eq_some_iff.mp modified
  refine ⟨session, found, ?_⟩
  rw [Database.modifyClient_lookup modified, if_pos rfl, found]
  rfl

theorem saveChatState_performed (performed : run.perform .saveChatState store = (after, none)) :
    run.chatColumn ChatSession.currentState after =
      (run.chatColumn ChatSession.currentState store).map
        (fun state => state.merge run.result.context.state) := by
  unfold chatColumn
  cases named : run.chatSessionId with
  | none => rfl
  | some sessionId =>
      obtain ⟨session, found, reached⟩ := writeChat_performed rfl performed named
      simp only [Option.bind_some, found, reached, Option.map_some]

theorem saveClientState_performed
    (performed : run.perform .saveClientState store = (after, none)) :
    run.clientColumn ClientSession.state after =
      (run.clientColumn ClientSession.state store).map
        (fun state => state.merge run.result.context.projectState) := by
  unfold clientColumn
  cases named : run.clientSessionId with
  | none => rfl
  | some sessionId =>
      obtain ⟨session, found, reached⟩ := writeClient_performed performed named
      simp only [Option.bind_some, found, reached, Option.map_some]

def messageCount (run : Finalization) (store : Store) : Nat :=
  ((run.chatColumn ChatSession.messages store).getD []).length

def ledgerLength (run : Finalization) (store : Store) : Nat :=
  match run.account store with
  | some account => account.transactions.length
  | none => 0

theorem messageCount_grows {sessionId : String} (named : run.chatSessionId = some sessionId)
    (saves : operation = .saveUserMessage ∨ operation = .saveAssistantMessage)
    (performed : run.perform operation store = (after, none)) :
    run.messageCount store < run.messageCount after := by
  unfold messageCount chatColumn
  rw [named]
  rcases saves with rfl | rfl
  · obtain ⟨session, found, reached⟩ := writeChat_performed rfl performed named
    simp [found, reached]
  · obtain ⟨session, found, reached⟩ := writeChat_performed rfl performed named
    simp [found, reached]

theorem messageCount_monotone {sessionId : String} (named : run.chatSessionId = some sessionId)
    (operation : FinalizationOperation) (store after : Store)
    (performed : run.perform operation store = (after, none)) :
    run.messageCount store ≤ run.messageCount after := by
  by_cases saves : operation = .saveUserMessage ∨ operation = .saveAssistantMessage
  · exact Nat.le_of_lt (messageCount_grows named saves performed)
  · have parts := not_or.mp saves
    have kept := @keeps_messages run operation parts.1 parts.2 store
    rw [performed] at kept
    unfold messageCount
    rw [kept]

theorem deduct_performed (performed : run.perform .deduct store = (after, none)) :
    run.settings.billingEnabled = false ∧ run.account after = run.account store ∨
      run.organizationId = none ∧ run.account after = run.account store ∨
      run.settings.billingEnabled = true ∧ run.ledgerLength store < run.ledgerLength after := by
  have wrote := perform_written performed
  unfold write at wrote
  dsimp only at wrote
  cases named : run.organizationId with
  | none =>
      rw [named] at wrote
      cases wrote
      exact .inr (.inl ⟨rfl, rfl⟩)
  | some organizationId =>
      rw [named] at wrote
      dsimp only at wrote
      unfold Store.deduct at wrote
      split at wrote
      case isFalse disabled =>
        cases wrote
        exact .inl ⟨Bool.eq_false_of_not_eq_true disabled, rfl⟩
      case isTrue enabled =>
        split at wrote
        case h_1 => cases wrote
        case h_2 account found =>
          right
          right
          refine ⟨enabled, ?_⟩
          dsimp only at wrote
          obtain ⟨stored, paid⟩ := Prod.mk.inj wrote
          have covered :
              (account.deductForExecution run.settings run.costs run.executionId).2 = true := by
            by_contra short
            rw [if_neg short] at paid
            cases paid
          have grown := Billing.Account.deductForExecution_covered enabled covered
          subst stored
          unfold ledgerLength Finalization.account
          rw [named]
          simp only [Option.bind_some, found, Dict.lookup_set_self]
          exact grown

theorem ledgerLength_monotone (operation : FinalizationOperation) (store after : Store)
    (performed : run.perform operation store = (after, none)) :
    run.ledgerLength store ≤ run.ledgerLength after := by
  by_cases deducts : operation = .deduct
  · subst deducts
    rcases deduct_performed performed with ⟨_, same⟩ | ⟨_, same⟩ | ⟨_, grown⟩
    · unfold ledgerLength
      rw [same]
    · unfold ledgerLength
      rw [same]
    · exact Nat.le_of_lt grown
  · have kept := @keeps_account run operation deducts store
    rw [performed] at kept
    unfold ledgerLength
    rw [kept]

/-- The chain before the failure, and what it has left of the four. -/
structure Performed (run : Finalization) (earlier : List FinalizationOperation)
    (begun middle : Store) : Prop where
  performed : performAll run.perform earlier begun = (middle, none)
  distinct : earlier.Nodup
  applied : ∀ operation ∈ earlier, run.applies operation = true

variable {earlier : List FinalizationOperation} {begun middle : Store}

section

variable (chain : run.Performed earlier begun middle)
include chain

theorem Performed.chatState :
    run.chatColumn ChatSession.currentState middle =
        run.chatColumn ChatSession.currentState begun ↔
      (.saveChatState ∈ earlier → run.LeavesNothing begun .saveChatState) := by
  by_cases member : .saveChatState ∈ earlier
  · obtain ⟨reached, written, before, wrote, final⟩ := performAll_writer chain.distinct member
      (fun _ _ different => keeps_chatState different) chain.performed
    rw [final, saveChatState_performed wrote, before]
    unfold LeavesNothing
    cases run.chatColumn ChatSession.currentState begun with
    | none => simp
    | some state => simp [member]
  · have kept := performAll_keeps earlier
      (fun operation present => @keeps_chatState run operation
        (fun same => member (same ▸ present))) begun
    rw [chain.performed] at kept
    simp only [kept, member, false_implies]

theorem Performed.clientState :
    run.clientColumn ClientSession.state middle = run.clientColumn ClientSession.state begun ↔
      (.saveClientState ∈ earlier → run.LeavesNothing begun .saveClientState) := by
  by_cases member : .saveClientState ∈ earlier
  · obtain ⟨reached, written, before, wrote, final⟩ := performAll_writer chain.distinct member
      (fun _ _ different => keeps_clientState different) chain.performed
    rw [final, saveClientState_performed wrote, before]
    unfold LeavesNothing
    cases run.clientColumn ClientSession.state begun with
    | none => simp
    | some state => simp [member]
  · have kept := performAll_keeps earlier
      (fun operation present => @keeps_clientState run operation
        (fun same => member (same ▸ present))) begun
    rw [chain.performed] at kept
    simp only [kept, member, false_implies]

theorem Performed.messages :
    run.chatColumn ChatSession.messages middle = run.chatColumn ChatSession.messages begun ↔
      .saveUserMessage ∉ earlier ∧ .saveAssistantMessage ∉ earlier := by
  have grows : ∀ writer ∈ earlier,
      writer = .saveUserMessage ∨ writer = .saveAssistantMessage →
        run.messageCount begun < run.messageCount middle := by
    intro writer member saves
    have named : ∃ sessionId, run.chatSessionId = some sessionId := by
      have applied := chain.applied writer member
      apply Option.isSome_iff_exists.mp
      rcases saves with rfl | rfl
      · exact (Bool.and_eq_true_iff.mp applied).1
      · exact (Bool.and_eq_true_iff.mp applied).1
    obtain ⟨sessionId, named⟩ := named
    exact performAll_grows member (fun operation _ => messageCount_monotone named operation)
      (fun _ _ => messageCount_grows named saves) chain.performed
  constructor
  · intro same
    have equal : run.messageCount middle = run.messageCount begun := by
      unfold messageCount
      rw [same]
    constructor
    · intro member
      have grown := grows _ member (.inl rfl)
      omega
    · intro member
      have grown := grows _ member (.inr rfl)
      omega
  · rintro ⟨noUser, noAssistant⟩
    have kept := performAll_keeps earlier
      (fun operation present => @keeps_messages run operation
        (fun same => noUser (same ▸ present)) (fun same => noAssistant (same ▸ present))) begun
    rw [chain.performed] at kept
    exact kept

theorem Performed.account :
    run.account middle = run.account begun ↔
      (.deduct ∈ earlier → run.LeavesNothing begun .deduct) := by
  by_cases member : .deduct ∈ earlier
  · have some := chain.applied _ member
    constructor
    · intro same _
      by_contra enabled
      have grown := performAll_grows member (fun operation _ => ledgerLength_monotone operation)
        (by
          intro store after performed
          rcases deduct_performed performed with ⟨disabled, _⟩ | ⟨absent, _⟩ | ⟨_, grown⟩
          · exact absurd disabled enabled
          · unfold applies at some
            rw [absent] at some
            cases some
          · exact grown) chain.performed
      unfold ledgerLength at grown
      rw [same] at grown
      omega
    · intro nothing
      obtain ⟨reached, written, before, wrote, final⟩ := performAll_writer chain.distinct member
        (fun _ _ different => keeps_account different) chain.performed
      rcases deduct_performed wrote with ⟨_, same⟩ | ⟨_, same⟩ | ⟨enabled, _⟩
      · rw [final, same, before]
      · rw [final, same, before]
      · rw [nothing member] at enabled
        cases enabled
  · have kept := performAll_keeps earlier
      (fun operation present => @keeps_account run operation
        (fun same => member (same ▸ present))) begun
    rw [chain.performed] at kept
    simp only [kept, member, false_implies]

end

/-! ### The operation that fails -/

theorem writeChat_failed {failure : OperationFailure}
    {write : String → Store × Option OperationFailure}
    (each : ∀ sessionId, write sessionId = (after, some failure) → after = store)
    (failed : run.writeChat store write = (after, some failure)) : after = store := by
  unfold writeChat at failed
  split at failed
  · exact each _ failed
  · cases failed

theorem writeClient_failed {failure : OperationFailure}
    {write : String → Store × Option OperationFailure}
    (each : ∀ sessionId, write sessionId = (after, some failure) → after = store)
    (failed : run.writeClient store write = (after, some failure)) : after = store := by
  unfold writeClient at failed
  split at failed
  · exact each _ failed
  · cases failed

theorem failed_unchanged {failure : OperationFailure} (different : operation ≠ .deduct)
    (failed : run.perform operation store = (after, some failure)) : after = store := by
  rcases @perform_cases run operation store with ⟨_, _, stopped⟩ | ⟨_, same⟩
  · rw [stopped] at failed
    cases failed
    rfl
  · rw [same] at failed
    cases operation with
    | deduct => exact absurd rfl different
    | updateStatus => exact attempt_failed failed
    | emitComplete => cases failed
    | saveClientState => exact writeClient_failed (fun _ => attempt_failed) failed
    | incrementStats =>
        apply writeClient_failed _ failed
        intro _ impossible
        cases impossible
    | saveChatState | saveUserMessage | saveAssistantMessage | endSession =>
        exact writeChat_failed (fun _ => attempt_failed) failed

theorem deduct_failed {failure : OperationFailure}
    (failed : run.perform .deduct store = (after, some failure)) :
    after.database = store.database ∧
      (run.account after = run.account store ↔ run.FailsWithoutGrant store .deduct) := by
  unfold FailsWithoutGrant
  rcases @perform_cases run .deduct store with ⟨_, refused, stopped⟩ | ⟨unrefused, same⟩
  · rw [stopped] at failed
    cases failed
    simp [refused]
  · rw [same] at failed
    unfold write at failed
    dsimp only at failed
    cases named : run.organizationId with
    | none =>
        rw [named] at failed
        cases failed
    | some organizationId =>
        rw [named] at failed
        dsimp only at failed
        have kept := @deduct_database store run.settings run.costs run.executionId organizationId
        rw [failed] at kept
        refine ⟨kept, ?_⟩
        unfold Store.deduct at failed
        unfold account
        rw [named]
        simp only [Option.bind_some, unrefused, true_implies]
        split at failed
        case isFalse => cases failed
        case isTrue =>
          split at failed
          case h_1 absent =>
            cases failed
            simp [absent]
          case h_2 account found =>
            dsimp only at failed
            obtain ⟨rfl, raised⟩ := Prod.mk.inj failed
            have short :
                (account.deductForExecution run.settings run.costs run.executionId).2 = false := by
              by_contra covered
              rw [if_pos (Bool.eq_true_of_not_eq_false covered)] at raised
              cases raised
            have unchanged := Billing.Account.deductForExecution_short short
            simp only [Dict.lookup_set_self, found, Option.some.injEq, forall_eq']
            exact unchanged

/-! ### The committed store -/

theorem operations_nodup (run : Finalization) : run.operations.Nodup := by
  unfold operations
  apply List.Nodup.filter
  decide

def earlierThan (run : Finalization) (operation : FinalizationOperation) :
    List FinalizationOperation :=
  run.operations.takeWhile (fun other => decide (other ≠ operation))

theorem takeWhile_ne {before rest : List FinalizationOperation}
    (absent : operation ∉ before) :
    (before ++ operation :: rest).takeWhile (fun other => decide (other ≠ operation)) = before := by
  rw [List.takeWhile_append_of_pos]
  · simp
  · intro other member
    apply decide_eq_true
    intro same
    exact absent (same ▸ member)

theorem recordFailure_untouched (error : FinalizationError) (begun reached : Store) :
    run.Untouched begun (run.recordFailure error reached) ↔ run.Untouched begun reached := by
  have same : (run.recordFailure error reached).accounts = reached.accounts ∧
      (run.recordFailure error reached).database.chatSessions = reached.database.chatSessions ∧
        (run.recordFailure error reached).database.clientSessions =
          reached.database.clientSessions := by
    unfold recordFailure
    dsimp only
    cases updated : reached.database.updateExecution run.executionId _ with
    | none => exact ⟨rfl, rfl, rfl⟩
    | some changed => exact ⟨rfl, updateExecution_sessions updated⟩
  constructor
  · rintro ⟨account, chatState, clientState, messages⟩
    unfold Finalization.account chatColumn clientColumn at *
    rw [same.1] at account
    rw [same.2.1] at chatState messages
    rw [same.2.2] at clientState
    exact ⟨account, chatState, clientState, messages⟩
  · rintro ⟨account, chatState, clientState, messages⟩
    constructor
    · unfold Finalization.account at *
      rw [same.1]
      exact account
    · unfold chatColumn at *
      rw [same.2.1]
      exact chatState
    · unfold clientColumn at *
      rw [same.2.2]
      exact clientState
    · unfold chatColumn at *
      rw [same.2.1]
      exact messages

/-- What the session holds when an operation fails is what was there before finalization exactly
when the operations before it had nothing to write. -/
theorem untouched_at_failure {failure : OperationFailure} {begun reached : Store}
    (stopped : performAll run.perform run.operations begun =
      (reached, some (operation, failure))) :
    run.Untouched begun reached ↔
      (∀ earlier ∈ run.earlierThan operation, run.LeavesNothing begun earlier) ∧
        run.FailsWithoutGrant begun operation := by
  obtain ⟨before, rest, middle, split, performed, failed⟩ := performAll_failed stopped
  have distinct := run.operations_nodup
  rw [split] at distinct
  have apart := List.nodup_append.mp distinct
  have absent : operation ∉ before := by
    intro member
    exact apart.2.2 operation member operation List.mem_cons_self rfl
  have chain : run.Performed before begun middle :=
    { performed := performed
      distinct := apart.1
      applied := by
        intro other member
        have listed : other ∈ run.operations := split ▸ List.mem_append_left _ member
        exact (List.mem_filter.mp listed).2 }
  have listed : run.earlierThan operation = before := by
    unfold earlierThan
    rw [split, takeWhile_ne absent]
  rw [listed]
  have onlyThese : (∀ earlier ∈ before, run.LeavesNothing begun earlier) ↔
      (.deduct ∈ before → run.LeavesNothing begun .deduct) ∧
      (.saveChatState ∈ before → run.LeavesNothing begun .saveChatState) ∧
      (.saveClientState ∈ before → run.LeavesNothing begun .saveClientState) ∧
      .saveUserMessage ∉ before ∧ .saveAssistantMessage ∉ before := by
    constructor
    · intro every
      exact ⟨every _, every _, every _, every _, every _⟩
    · rintro ⟨deduct, chatState, clientState, noUser, noAssistant⟩ earlier member
      cases earlier with
      | deduct => exact deduct member
      | saveChatState => exact chatState member
      | saveClientState => exact clientState member
      | saveUserMessage => exact absurd member noUser
      | saveAssistantMessage => exact absurd member noAssistant
      | _ => trivial
  rw [onlyThese, ← chain.account, ← chain.chatState, ← chain.clientState, ← chain.messages]
  by_cases deducts : operation = .deduct
  · subst deducts
    obtain ⟨database, account⟩ := deduct_failed failed
    have sameAccount : run.account middle = run.account begun :=
      chain.account.mpr (fun member => absurd member absent)
    have grants : run.FailsWithoutGrant middle .deduct ↔ run.FailsWithoutGrant begun .deduct := by
      unfold FailsWithoutGrant
      rw [sameAccount]
    rw [← grants, ← account, sameAccount]
    have columns : ∀ {V : Type} (column : ChatSession → V),
        run.chatColumn column reached = run.chatColumn column middle := by
      intro V column
      unfold chatColumn
      rw [database]
    have client : run.clientColumn ClientSession.state reached =
        run.clientColumn ClientSession.state middle := by
      unfold clientColumn
      rw [database]
    rw [← columns, ← columns, ← client]
    constructor
    · rintro ⟨account, chatState, clientState, messages⟩
      exact ⟨⟨rfl, chatState, clientState, messages⟩, account⟩
    · rintro ⟨⟨_, chatState, clientState, messages⟩, account⟩
      exact ⟨account, chatState, clientState, messages⟩
  · have unchanged := failed_unchanged deducts failed
    subst unchanged
    have grants : run.FailsWithoutGrant begun operation := fun same => absurd same deducts
    constructor
    · rintro ⟨account, chatState, clientState, messages⟩
      exact ⟨⟨account, chatState, clientState, messages⟩, grants⟩
    · rintro ⟨⟨account, chatState, clientState, messages⟩, _⟩
      exact ⟨account, chatState, clientState, messages⟩

/-- A failed finalization leaves the account, the states and the messages as they were exactly
when its transaction is lost, or the operations before the failure had nothing to write. -/
theorem failed_finalization_untouched_iff (run : Finalization) (begun : Store)
    (operation : FinalizationOperation) (failure : OperationFailure)
    (stopped : (performAll run.perform run.operations begun).2 = some (operation, failure))
    (reported : (run.finalize begun).1 = .failed failure) :
    run.Untouched begun (run.finalize begun).2 ↔
      (∃ text, failure = .database text) ∨ run.handlerRefused = true ∨ run.commitRefused = true ∨
        ((∀ earlier ∈ run.earlierThan operation, run.LeavesNothing begun earlier) ∧
          run.FailsWithoutGrant begun operation) := by
  generalize chained : performAll run.perform run.operations begun = outcome at stopped
  obtain ⟨reached, outcome⟩ := outcome
  cases stopped
  unfold finalize at reported ⊢
  rw [chained] at reported ⊢
  dsimp only at reported ⊢
  have unescaped : run.escapes = false := by
    by_contra escaped
    rw [if_pos (Bool.eq_true_of_not_eq_false escaped)] at reported
    cases reported
  have untouched : run.Untouched begun begun := ⟨rfl, rfl, rfl, rfl⟩
  rw [← untouched_at_failure chained]
  cases failure with
  | database text =>
      constructor
      · intro _
        exact .inl ⟨text, rfl⟩
      · intro _
        exact untouched
  | raised error =>
      unfold committed
      dsimp only
      rw [unescaped, Bool.false_or]
      by_cases lost : (run.handlerRefused || run.commitRefused) = true
      · rw [if_pos lost]
        constructor
        · intro _
          rcases Bool.or_eq_true_iff.mp lost with handler | commit
          · exact .inr (.inl handler)
          · exact .inr (.inr (.inl commit))
        · intro _
          exact untouched
      · rw [if_neg lost, recordFailure_untouched]
        constructor
        · intro same
          exact .inr (.inr (.inr same))
        · rintro (⟨text, impossible⟩ | handler | commit | same)
          · cases impossible
          · exact absurd (Bool.or_eq_true_iff.mpr (.inl handler)) lost
          · exact absurd (Bool.or_eq_true_iff.mpr (.inr commit)) lost
          · exact same

/-! ### Finalization without a failure -/

def performIf (run : Finalization) (operation : FinalizationOperation) (store : Store) :
    Store × Option OperationFailure :=
  if run.applies operation then run.perform operation store else (store, none)

theorem performIf_applied (applied : run.applies operation = true)
    (performed : run.performIf operation store = (after, none)) :
    run.perform operation store = (after, none) := by
  unfold performIf at performed
  rw [if_pos applied] at performed
  exact performed

theorem performIf_unapplied (unapplied : run.applies operation = false)
    (performed : run.performIf operation store = (after, none)) : after = store := by
  unfold performIf at performed
  rw [unapplied] at performed
  cases performed
  rfl

theorem unapplied_chat {change : ChatSession → ChatSession}
    (changes : run.chatChange operation = some change) (unnamed : run.chatSessionId = none) :
    run.applies operation = false := by
  cases operation with
  | saveChatState | saveUserMessage | saveAssistantMessage =>
      unfold applies
      rw [unnamed]
      rfl
  | endSession =>
      unfold applies
      rw [unnamed]
      exact Bool.and_false _
  | _ => cases changes

theorem unapplied_client {change : ClientSession → ClientSession}
    (changes : run.clientChange operation = some change) (unnamed : run.clientSessionId = none) :
    run.applies operation = false := by
  cases operation with
  | saveClientState | incrementStats =>
      unfold applies
      rw [unnamed]
      rfl
  | _ => cases changes

theorem performIf_chat {change : ChatSession → ChatSession}
    (changes : run.chatChange operation = some change)
    (performed : run.performIf operation store = (after, none)) {sessionId : String}
    (named : run.chatSessionId = some sessionId) (applied : run.applies operation = true) :
    store.database.modifyChat sessionId change = some after.database := by
  obtain ⟨missing, written⟩ := write_chat changes
  have wrote := perform_written (performIf_applied applied performed)
  rw [written store] at wrote
  unfold writeChat at wrote
  rw [named] at wrote
  exact (attempt_performed wrote).1

theorem performIf_deduct (performed : run.performIf .deduct store = (after, none)) :
    after.database = store.database := by
  cases applied : run.applies .deduct with
  | false => rw [performIf_unapplied applied performed]
  | true =>
      have wrote := perform_written (performIf_applied applied performed)
      unfold write at wrote
      dsimp only at wrote
      split at wrote
      case h_1 organizationId _ =>
        have kept := @deduct_database store run.settings run.costs run.executionId organizationId
        rw [wrote] at kept
        exact kept
      case h_2 =>
        cases wrote
        rfl

theorem performIf_saveChatState (performed : run.performIf .saveChatState store = (after, none)) :
    store.database.saveChatState run.chatSessionId run.result.context.state =
      some after.database := by
  unfold Database.saveChatState
  cases named : run.chatSessionId with
  | none =>
      rw [performIf_unapplied (unapplied_chat rfl named) performed]
  | some sessionId =>
      apply performIf_chat rfl performed named
      unfold applies
      rw [named]
      rfl

theorem performIf_saveClientState
    (performed : run.performIf .saveClientState store = (after, none)) :
    store.database.saveClientState run.clientSessionId run.result.context.projectState =
        some after.database ∧
      ∀ sessionId, run.clientSessionId = some sessionId →
        (after.database.clientSessions.lookup sessionId).isSome = true := by
  unfold Database.saveClientState
  cases named : run.clientSessionId with
  | none =>
      rw [performIf_unapplied (unapplied_client rfl named) performed]
      exact ⟨rfl, fun _ impossible => by cases impossible⟩
  | some sessionId =>
      have applied : run.applies .saveClientState = true := by
        unfold applies
        rw [named]
        rfl
      have once := performIf_applied applied performed
      have wrote := perform_written once
      unfold write writeClient at wrote
      rw [named] at wrote
      refine ⟨(attempt_performed wrote).1, ?_⟩
      intro other same
      cases same
      obtain ⟨session, _, reached⟩ := writeClient_performed once named
      rw [reached]
      rfl

theorem performIf_incrementStats (performed : run.performIf .incrementStats store = (after, none))
    (present : ∀ sessionId, run.clientSessionId = some sessionId →
      (store.database.clientSessions.lookup sessionId).isSome = true) :
    Transaction.whenSome run.clientSessionId (fun sessionId => Transaction.change (fun database =>
      database.incrementExecutionStats sessionId run.totalCredits
        (ownTotalCost run.result.context))) store.database = some ((), after.database) := by
  cases named : run.clientSessionId with
  | none =>
      rw [performIf_unapplied (unapplied_client rfl named) performed]
      rfl
  | some sessionId =>
      have applied : run.applies .incrementStats = true := by
        unfold applies
        rw [named]
        rfl
      have wrote := perform_written (performIf_applied applied performed)
      unfold write writeClient at wrote
      rw [named] at wrote
      obtain ⟨session, found⟩ := Option.isSome_iff_exists.mp (present sessionId named)
      rw [Transaction.whenSome_some]
      apply Transaction.change_of_some
      dsimp only at wrote
      unfold Database.incrementExecutionStats Database.modifyClient at wrote ⊢
      rw [found] at wrote ⊢
      cases wrote
      rfl

theorem performIf_saveText {sessionId role content : String} {executionId : Option String}
    {credits ownKeyCostUsd : Rat}
    (changes : run.chatChange operation = some (fun session =>
      { session with
        messages := session.messages ++ [⟨role, content, executionId⟩]
        messageCount := session.messageCount + 1
        totalCredits := session.totalCredits + credits
        ownKeyCostUsd := session.ownKeyCostUsd + ownKeyCostUsd }))
    (applied : run.applies operation = !decide (content = ""))
    (named : run.chatSessionId = some sessionId)
    (performed : run.performIf operation store = (after, none)) :
    saveText sessionId role content executionId credits ownKeyCostUsd store.database =
      some ((), after.database) := by
  unfold saveText
  by_cases empty : content = ""
  · rw [if_pos empty]
    rw [decide_eq_true empty] at applied
    rw [performIf_unapplied applied performed]
    rfl
  · rw [if_neg empty]
    rw [decide_eq_false empty] at applied
    exact Transaction.change_of_some (performIf_chat changes performed named applied)

theorem performIf_messages {written : Store}
    (user : run.performIf .saveUserMessage store = (written, none))
    (assistant : run.performIf .saveAssistantMessage written = (after, none)) (call : ExecuteCall)
    (execution : call.environment.executionId = run.executionId)
    (credits : call.environment.credits run.result = run.totalCredits) :
    Transaction.whenSome run.chatSessionId (saveTurn call run.result) store.database =
      some ((), after.database) := by
  cases named : run.chatSessionId with
  | none =>
      rw [performIf_unapplied (unapplied_chat rfl named) assistant,
        performIf_unapplied (unapplied_chat rfl named) user]
      rfl
  | some sessionId =>
      unfold Transaction.whenSome saveTurn
      rw [execution, credits]
      apply Transaction.bind_of_some
      · apply performIf_saveText rfl _ named user
        unfold applies userMessage
        rw [named]
        rfl
      · apply performIf_saveText rfl _ named assistant
        unfold applies assistantMessage
        rw [named]
        rfl

theorem performIf_updateStatus (performed : run.performIf .updateStatus store = (after, none)) :
    Transaction.change (fun database => database.updateExecution run.executionId run.finished)
      store.database = some ((), after.database) := by
  have wrote := perform_written (performIf_applied rfl performed)
  exact Transaction.change_of_some (attempt_performed wrote).1

theorem performIf_endSession (performed : run.performIf .endSession store = (after, none)) :
    (if run.result.isSessionEnd then Transaction.whenSome run.chatSessionId (fun sessionId =>
      Transaction.change (fun database => database.endSession sessionId)) else pure ())
        store.database = some ((), after.database) := by
  by_cases ends : run.result.isSessionEnd = true
  · rw [if_pos ends]
    cases named : run.chatSessionId with
    | none =>
        rw [performIf_unapplied (unapplied_chat rfl named) performed]
        rfl
    | some sessionId =>
        have applied : run.applies .endSession = true := by
          unfold applies
          rw [named, ends]
          rfl
        rw [Transaction.whenSome_some]
        apply Transaction.change_of_some
        exact performIf_chat rfl performed named applied
  · rw [if_neg ends]
    have unapplied : run.applies .endSession = false := by
      unfold applies
      rw [Bool.eq_false_of_not_eq_true ends]
      rfl
    rw [performIf_unapplied unapplied performed]
    rfl

theorem performIf_emitComplete (performed : run.performIf .emitComplete store = (after, none)) :
    after = store := by
  cases applied : run.applies .emitComplete with
  | false => exact performIf_unapplied applied performed
  | true =>
      have wrote := perform_written (performIf_applied applied performed)
      cases wrote
      rfl

/-- A chain that goes through is the transaction of a request that finalizes. -/
theorem finalizationPhase_of_performed (call : ExecuteCall) (prepared : Prepared)
    (execution : call.environment.executionId = run.executionId)
    (credits : call.environment.credits run.result = run.totalCredits)
    (chat : prepared.chatSessionId = run.chatSessionId)
    (client : prepared.clientSessionId = run.clientSessionId)
    (performed : performAll run.perform run.operations store = (after, none)) :
    finalizationPhase call prepared run.result store.database = some ((), after.database) := by
  unfold operations at performed
  rw [performAll_filter] at performed
  change performAll run.performIf _ store = _ at performed
  obtain ⟨charged, deduct, performed⟩ := performAll_cons_performed performed
  obtain ⟨chatSaved, chatState, performed⟩ := performAll_cons_performed performed
  obtain ⟨clientSaved, clientState, performed⟩ := performAll_cons_performed performed
  obtain ⟨counted, stats, performed⟩ := performAll_cons_performed performed
  obtain ⟨asked, user, performed⟩ := performAll_cons_performed performed
  obtain ⟨answered, assistant, performed⟩ := performAll_cons_performed performed
  obtain ⟨recorded, status, performed⟩ := performAll_cons_performed performed
  obtain ⟨ended, closes, performed⟩ := performAll_cons_performed performed
  obtain ⟨emitted, emit, performed⟩ := performAll_cons_performed performed
  cases performed
  obtain ⟨savedClient, present⟩ := performIf_saveClientState clientState
  have savedChat := performIf_saveChatState chatState
  rw [performIf_deduct deduct] at savedChat
  rw [performIf_emitComplete emit]
  unfold finalizationPhase
  rw [execution, credits, chat, client]
  apply @Transaction.bind_of_some _ _ _ _ _ _ clientSaved.database
  · apply Transaction.change_of_some
    unfold Database.saveStates
    rw [savedChat]
    exact savedClient
  apply Transaction.bind_of_some (performIf_incrementStats stats present)
  apply Transaction.bind_of_some (performIf_messages user assistant call execution credits)
  apply Transaction.bind_of_some (performIf_updateStatus status)
  exact performIf_endSession closes

/-! ### A client session that is gone -/

/-- The run has set `x` and answered. -/
def answeredRun : Finalization where
  executionId := "execution"
  organizationId := some "organization"
  chatSessionId := some "chat"
  clientSessionId := some "client"
  result :=
    { output := Dict.empty.set "message" (.str "answer")
      context :=
        { workflow := ⟨[], [], fun _ => [], fun _ => {}⟩
          state := Dict.empty.set "x" (.int 1)
          projectState := Dict.empty
          inputData := Dict.empty.set "message" (.str "question")
          stepNumber := 2
          visitedNodes := []
          nodeExecutionCount := Dict.empty }
      isSessionEnd := false
      isError := false
      errorMessage := "" }
  settings :=
    { billingEnabled := true
      creditConfig := ⟨1 / 10000⟩
      marginMultiplier := 11 / 10
      requestFeeUsd := 1 / 10000
      today := ⟨2026, 1, 15⟩ }
  renderDecimal := fun _ => ""
  streaming := false
  refused := fun _ => none
  handlerRefused := false
  errorEventRefused := false
  commitRefused := false

def withoutClient : Store where
  database :=
    { projects := Dict.empty
      workflows := Dict.empty
      chatSessions := Dict.empty.set "chat" { workflowId := "workflow" }
      clientSessions := Dict.empty
      executions := Dict.empty.set "execution"
        { workflowId := "workflow"
          tokenId := none
          chatSessionId := some "chat"
          clientSessionId := some "client"
          initialState := Dict.empty
          inputData := Dict.empty
          isDebug := false }
      published := publishedTogether_empty }
  accounts := Dict.empty.set "organization"
    { organization :=
        { plan := .free
          creditsGrantedBalance := 5000
          creditsPurchasedBalance := 0
          creditsPeriodStart := ⟨2026, 1, 1⟩ }
      transactions := [] }

def withClient : Store :=
  { withoutClient with
    database :=
      { withoutClient.database with
        clientSessions := Dict.empty.set "client"
          { projectId := "p", clientId := "caller", state := Dict.empty } } }

def answeredCall : ExecuteCall where
  workflowId := "workflow"
  tokenId := none
  isDebug := false
  request := { input := Dict.empty }
  environment :=
    { newSessionId := "chat"
      newClientSessionId := "client"
      executionId := "execution"
      refused := none
      credits := fun _ => answeredRun.totalCredits
      inTime := true
      run := fun _ _ => ⟨[], .error ""⟩ }

theorem finalizationPhase_of_performed_answered :
    ∃ after, performAll answeredRun.perform answeredRun.operations withClient = (after, none) ∧
      finalizationPhase answeredCall ⟨answeredRun.result.context, some "chat", some "client"⟩
        answeredRun.result withClient.database = some ((), after.database) := by
  have whole : (performAll answeredRun.perform answeredRun.operations withClient).2 = none := by
    decide +kernel
  have performed : performAll answeredRun.perform answeredRun.operations withClient =
      ((performAll answeredRun.perform answeredRun.operations withClient).1, none) :=
    Prod.ext rfl whole
  exact ⟨_, performed,
    finalizationPhase_of_performed answeredCall _ rfl rfl rfl rfl performed⟩

theorem failed_finalization_untouched_iff_no_organization :
    answeredRun.Untouched { withoutClient with accounts := Dict.empty }
      (answeredRun.finalize { withoutClient with accounts := Dict.empty }).2 := by
  apply (failed_finalization_untouched_iff answeredRun _ .deduct
    (.raised (.organizationNotFound "organization")) rfl rfl).mpr
  right
  right
  right
  constructor
  · intro earlier member
    cases member
  · intro _ _ account impossible
    cases impossible

/-- The execution is charged and the state of the chat session is written for a failed run. -/
theorem failed_finalization_charges :
    ∃ failure,
      (performAll answeredRun.perform answeredRun.operations withoutClient).2 =
          some (.saveClientState, failure) ∧
        (answeredRun.finalize withoutClient).1 = .failed failure ∧
        ¬ answeredRun.Untouched withoutClient (answeredRun.finalize withoutClient).2 := by
  refine ⟨.raised (.clientSessionNotFound "client"), by decide +kernel, by decide +kernel, ?_⟩
  rintro ⟨account, _, _, _⟩
  exact absurd account (by decide +kernel)

end Finalization
end Assemblix
