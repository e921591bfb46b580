import Assemblix.Queue.ExecutionQueue
import Assemblix.Sessions.StateVariables

/-
Sessions and the rows around them.

A chat session belongs to a workflow and holds its state and messages; a client session
belongs to a project and holds project state. Every write replaces one row, found by its
id; a write to a row that does not exist fails.
-/

namespace Assemblix

open Library

structure ChatMessage where
  role : String
  content : String
  executionId : Option String := none
  deriving DecidableEq

structure ChatSession where
  workflowId : String
  tokenId : Option String := none
  currentState : Data := Dict.empty
  messageCount : Nat := 0
  totalCredits : Rat := 0
  ownKeyCostUsd : Rat := 0
  name : Option Json := none
  isActive : Bool := true
  isDebug : Bool := false
  messages : List ChatMessage := []
  deriving DecidableEq

structure ClientSession where
  projectId : String
  clientId : String
  state : Data
  metaData : Data := Dict.empty
  executionCount : Nat := 0
  totalCredits : Rat := 0
  ownKeyCostUsd : Rat := 0
  isActive : Bool := true
  isDebug : Bool := false
  deriving DecidableEq

structure Project where
  organizationId : String
  stateSchema : List StateVariable

/-- A workflow row; `firstPhrase` is read from the configuration of its START node. -/
structure Workflow where
  projectId : String
  publishedForWorkflowId : Option String
  version : Option Nat
  definition : WorkflowDefinition
  state : List StateVariable
  firstPhrase : Option String

structure Execution where
  workflowId : String
  tokenId : Option String
  chatSessionId : Option String
  clientSessionId : Option String
  initialState : Data
  inputData : Data
  isDebug : Bool
  status : Queue.ExecutionStatus := .running
  finalState : Option Data := none
  finalProjectState : Option Data := none
  output : Option Data := none
  isSessionClosed : Bool := false
  errorMessage : Option String := none
  stepsCount : Nat := 0
  totalCredits : Rat := 0
  ownKeyCostUsd : Rat := 0

def publishedTogether (workflows : Dict String Workflow) : Bool :=
  workflows.entries.all (fun entry =>
    match entry.2.publishedForWorkflowId with
    | none => true
    | some draftId =>
        match workflows.lookup draftId with
        | none => true
        | some draft => decide (entry.2.projectId = draft.projectId))

theorem publishedTogether_empty : publishedTogether Dict.empty = true := rfl

structure Database where
  projects : Dict String Project
  workflows : Dict String Workflow
  chatSessions : Dict String ChatSession
  clientSessions : Dict String ClientSession
  executions : Dict String Execution
  published : publishedTogether workflows = true

namespace Database

variable (database : Database)

def modifyChat (sessionId : String) (change : ChatSession → ChatSession) : Option Database :=
  (database.chatSessions.lookup sessionId).map (fun session =>
    { database with chatSessions := database.chatSessions.set sessionId (change session) })

def modifyClient (sessionId : String) (change : ClientSession → ClientSession) : Option Database :=
  (database.clientSessions.lookup sessionId).map (fun session =>
    { database with clientSessions := database.clientSessions.set sessionId (change session) })

/-! ### Chat sessions -/

/-- `ChatSessionRepository.update_state`. -/
def updateSessionState (sessionId : String) (stateUpdates : Data) : Option Database :=
  database.modifyChat sessionId (fun session =>
    { session with currentState := session.currentState.merge stateUpdates })

def saveMessage (sessionId : String) (message : ChatMessage) (credits ownKeyCostUsd : Rat) :
    Option Database :=
  database.modifyChat sessionId (fun session =>
    { session with
      messages := session.messages ++ [message]
      messageCount := session.messageCount + 1
      totalCredits := session.totalCredits + credits
      ownKeyCostUsd := session.ownKeyCostUsd + ownKeyCostUsd })

/-- The id is new; a second row under it violates the primary key. -/
def createSession (sessionId : String) (session : ChatSession) : Option Database :=
  if database.chatSessions.contains sessionId then none
  else some { database with chatSessions := database.chatSessions.set sessionId session }

def endSession (sessionId : String) : Option Database :=
  database.modifyChat sessionId (fun session => { session with isActive := false })

/-- The last `limit` messages, oldest first. -/
def getChatHistory (sessionId : String) (limit : Nat) : List HistoryMessage :=
  match database.chatSessions.lookup sessionId with
  | none => []
  | some session =>
      (session.messages.drop (session.messages.length - limit)).map
        (fun message => ⟨message.role, message.content⟩)

/-! ### Client sessions -/

/-- `ClientSessionRepository.update_state`. -/
def updateState (sessionId : String) (stateUpdates : Data) : Option Database :=
  database.modifyClient sessionId (fun session =>
    { session with state := session.state.merge stateUpdates })

def updateMetadata (sessionId : String) (metadataUpdates : Data) : Option Database :=
  database.modifyClient sessionId (fun session =>
    { session with metaData := session.metaData.merge metadataUpdates })

def incrementExecutionStats (sessionId : String) (credits ownKeyCostUsd : Rat) :
    Option Database :=
  database.modifyClient sessionId (fun session =>
    { session with
      executionCount := session.executionCount + 1
      totalCredits := session.totalCredits + credits
      ownKeyCostUsd := session.ownKeyCostUsd + ownKeyCostUsd })

def getByClientId (projectId clientId : String) : Option String :=
  (database.clientSessions.entries.find? (fun entry =>
    decide (entry.2.projectId = projectId) && decide (entry.2.clientId = clientId))).map Prod.fst

def createClientSession (sessionId : String) (session : ClientSession) : Option Database :=
  if database.clientSessions.contains sessionId then none
  else some { database with clientSessions := database.clientSessions.set sessionId session }

def missingVariables (current : Data) (schema : List StateVariable) : Data :=
  Dict.ofList ((schema.filter (fun entry => !current.contains entry.name)).map
    (fun entry => (entry.name, getTypedDefaultValue entry)))

def syncSchema (sessionId : String) (projectStateSchema : List StateVariable) : Option Database :=
  database.modifyClient sessionId (fun session =>
    { session with state := session.state.merge (missingVariables session.state projectStateSchema) })

/-! ### Executions -/

def createExecution (executionId : String) (execution : Execution) : Option Database :=
  if database.executions.contains executionId then none
  else some { database with executions := database.executions.set executionId execution }

def updateExecution (executionId : String) (change : Execution → Execution) : Option Database :=
  (database.executions.lookup executionId).map (fun execution =>
    { database with executions := database.executions.set executionId (change execution) })

/-! ### Loading -/

/-- The history a run starts with: what is stored, or the greeting of a new session, and then
the user's message. -/
def loadHistory (chatSessionId : Option String) (isNewSession : Bool) (firstPhrase : Option String)
    (inputData : Data) : List HistoryMessage :=
  let stored := match chatSessionId with
    | some sessionId => if isNewSession then [] else database.getChatHistory sessionId 60
    | none => []
  let greeting := match firstPhrase with
    | some phrase => if isNewSession && !decide (phrase = "") then [⟨"assistant", phrase⟩] else []
    | none => []
  let message := match inputData.lookup "message" with
    | some (.str text) => if text = "" then [] else [⟨"user", text⟩]
    | _ => []
  stored ++ greeting ++ message

def baseState (workflow : Workflow) (chatSessionId : Option String) : Option Data :=
  match chatSessionId with
  | some sessionId => (database.chatSessions.lookup sessionId).map ChatSession.currentState
  | none => some (defaultState workflow.state)

def baseProjectState (project : Project) (clientSessionId : Option String) : Option Data :=
  match clientSessionId with
  | some sessionId => (database.clientSessions.lookup sessionId).map ClientSession.state
  | none => some (defaultProjectState project.stateSchema)

/-- `_load_initial_state`. -/
def loadInitialState (conversions : Conversions) (workflow : Workflow) (project : Project)
    (chatSessionId clientSessionId : Option String) (customState customProjectState : Data) :
    Option (Data × Data) :=
  match database.baseState workflow chatSessionId,
      database.baseProjectState project clientSessionId with
  | some state, some projectState =>
      some (mergeWithCoercion conversions state customState (typesByName workflow.state),
        mergeWithCoercion conversions projectState customProjectState
          (typesByName project.stateSchema))
  | _, _ => none

def saveChatState (chatSessionId : Option String) (state : Data) : Option Database :=
  match chatSessionId with
  | some sessionId => database.updateSessionState sessionId state
  | none => some database

def saveClientState (clientSessionId : Option String) (projectState : Data) : Option Database :=
  match clientSessionId with
  | some sessionId => database.updateState sessionId projectState
  | none => some database

def saveStates (chatSessionId clientSessionId : Option String) (state projectState : Data) :
    Option Database :=
  (database.saveChatState chatSessionId state).bind
    (fun saved => saved.saveClientState clientSessionId projectState)

end Database

/-! ### The state of a session -/

inductive SessionRef
  | chat (sessionId : String)
  | client (sessionId : String)
  deriving DecidableEq, Repr

namespace Database

variable {database changed : Database}

def updatesFor (chatSessionId clientSessionId : Option String) (state projectState : Data) :
    SessionRef → Data
  | .chat sessionId => if chatSessionId = some sessionId then state else Dict.empty
  | .client sessionId => if clientSessionId = some sessionId then projectState else Dict.empty

def stateOf (database : Database) : SessionRef → Option Data
  | .chat sessionId => (database.chatSessions.lookup sessionId).map ChatSession.currentState
  | .client sessionId => (database.clientSessions.lookup sessionId).map ClientSession.state

def read (database : Database) (ref : SessionRef) (key : String) : Option Json :=
  (database.stateOf ref).bind (fun state => state.lookup key)

theorem loadInitialState_eq {conversions : Conversions} {workflow : Workflow} {project : Project}
    {chatSessionId clientSessionId : Option String}
    {customState customProjectState state projectState : Data}
    (loaded : database.loadInitialState conversions workflow project chatSessionId clientSessionId
      customState customProjectState = some (state, projectState)) :
    ∃ base baseProject, database.baseState workflow chatSessionId = some base ∧
      database.baseProjectState project clientSessionId = some baseProject ∧
      state = base.merge
        (coercedOverrides conversions customState (typesByName workflow.state)) ∧
      projectState = baseProject.merge
        (coercedOverrides conversions customProjectState (typesByName project.stateSchema)) := by
  unfold loadInitialState at loaded
  split at loaded
  case h_1 base baseProject found foundProject =>
    cases loaded
    exact ⟨base, baseProject, found, foundProject, mergeWithCoercion_eq _ _ _ _,
      mergeWithCoercion_eq _ _ _ _⟩
  case h_2 => cases loaded

theorem modifyChat_lookup {sessionId : String} {change : ChatSession → ChatSession}
    (modified : database.modifyChat sessionId change = some changed) (other : String) :
    changed.chatSessions.lookup other =
      if sessionId = other then (database.chatSessions.lookup other).map change
      else database.chatSessions.lookup other := by
  obtain ⟨session, found, rfl⟩ := Option.map_eq_some_iff.mp modified
  rw [Dict.lookup_set]
  by_cases same : sessionId = other
  · subst same
    rw [if_pos rfl, if_pos rfl, found, Option.map_some]
  · rw [if_neg same, if_neg same]

theorem modifyChat_rest {sessionId : String} {change : ChatSession → ChatSession}
    (modified : database.modifyChat sessionId change = some changed) :
    ∃ chatSessions, changed = { database with chatSessions := chatSessions } := by
  obtain ⟨session, found, rfl⟩ := Option.map_eq_some_iff.mp modified
  exact ⟨_, rfl⟩

theorem modifyClient_lookup {sessionId : String} {change : ClientSession → ClientSession}
    (modified : database.modifyClient sessionId change = some changed) (other : String) :
    changed.clientSessions.lookup other =
      if sessionId = other then (database.clientSessions.lookup other).map change
      else database.clientSessions.lookup other := by
  obtain ⟨session, found, rfl⟩ := Option.map_eq_some_iff.mp modified
  rw [Dict.lookup_set]
  by_cases same : sessionId = other
  · subst same
    rw [if_pos rfl, if_pos rfl, found, Option.map_some]
  · rw [if_neg same, if_neg same]

theorem modifyClient_rest {sessionId : String} {change : ClientSession → ClientSession}
    (modified : database.modifyClient sessionId change = some changed) :
    ∃ clientSessions, changed = { database with clientSessions := clientSessions } := by
  obtain ⟨session, found, rfl⟩ := Option.map_eq_some_iff.mp modified
  exact ⟨_, rfl⟩

theorem modifyChat_found {sessionId : String} {change : ChatSession → ChatSession}
    (modified : database.modifyChat sessionId change = some changed) :
    (database.stateOf (.chat sessionId)).isSome = true := by
  obtain ⟨session, found, _⟩ := Option.map_eq_some_iff.mp modified
  simp [stateOf, found]

theorem modifyClient_found {sessionId : String} {change : ClientSession → ClientSession}
    (modified : database.modifyClient sessionId change = some changed) :
    (database.stateOf (.client sessionId)).isSome = true := by
  obtain ⟨session, found, _⟩ := Option.map_eq_some_iff.mp modified
  simp [stateOf, found]

theorem updateSessionState_stateOf {sessionId : String} {updates : Data}
    (updated : database.updateSessionState sessionId updates = some changed) (ref : SessionRef) :
    changed.stateOf ref =
      if ref = .chat sessionId then (database.stateOf ref).map (fun state => state.merge updates)
      else database.stateOf ref := by
  cases ref with
  | chat other =>
      simp only [stateOf, modifyChat_lookup updated other, SessionRef.chat.injEq, eq_comm]
      split_ifs
      · rw [Option.map_map, Option.map_map]
        rfl
      · rfl
  | client other =>
      obtain ⟨chatSessions, rfl⟩ := modifyChat_rest updated
      rw [if_neg (fun same => by cases same)]
      rfl

theorem modifyClient_stateOf {sessionId : String} {change : ClientSession → ClientSession}
    (modified : database.modifyClient sessionId change = some changed) (effect : Data → Data)
    (changes : ∀ session, (change session).state = effect session.state) (ref : SessionRef) :
    changed.stateOf ref =
      if ref = .client sessionId then (database.stateOf ref).map effect
      else database.stateOf ref := by
  cases ref with
  | chat other =>
      obtain ⟨clientSessions, rfl⟩ := modifyClient_rest modified
      rw [if_neg (fun same => by cases same)]
      rfl
  | client other =>
      simp only [stateOf, modifyClient_lookup modified other, SessionRef.client.injEq, eq_comm]
      split_ifs
      · rw [Option.map_map, Option.map_map]
        congr 1
        funext session
        exact changes session
      · rfl

theorem updateState_stateOf {sessionId : String} {updates : Data}
    (updated : database.updateState sessionId updates = some changed) (ref : SessionRef) :
    changed.stateOf ref =
      if ref = .client sessionId then (database.stateOf ref).map (fun state => state.merge updates)
      else database.stateOf ref :=
  modifyClient_stateOf updated (fun state => state.merge updates) (fun _ => rfl) ref

theorem syncSchema_stateOf {sessionId : String} {schema : List StateVariable}
    (synced : database.syncSchema sessionId schema = some changed) (ref : SessionRef) :
    changed.stateOf ref =
      if ref = .client sessionId then
        (database.stateOf ref).map (fun state => state.merge (missingVariables state schema))
      else database.stateOf ref :=
  modifyClient_stateOf synced (fun state => state.merge (missingVariables state schema))
    (fun _ => rfl) ref

theorem syncSchema_read {sessionId : String} {schema : List StateVariable}
    (synced : database.syncSchema sessionId schema = some changed) {ref : SessionRef}
    {key : String} {value : Json} (found : database.read ref key = some value) :
    changed.read ref key = some value := by
  unfold read at found ⊢
  rw [syncSchema_stateOf synced ref]
  obtain ⟨current, here, holds⟩ := Option.bind_eq_some_iff.mp found
  split_ifs
  · have present : (missingVariables current schema).lookup key = none := by
      rw [Option.eq_none_iff_forall_ne_some]
      intro added missing
      obtain ⟨entry, listed, same⟩ := List.mem_map.mp (Dict.mem_of_lookup_ofList _ missing)
      have absent := (List.mem_filter.mp listed).2
      cases same
      simp [Dict.contains, holds] at absent
    rw [here, Option.map_some, Option.bind_some, Dict.lookup_merge_right _ _ present, holds]
  · exact found

private theorem saveChatState_stateOf {chatSessionId : Option String} {state : Data}
    (saved : database.saveChatState chatSessionId state = some changed) (ref : SessionRef) :
    changed.stateOf ref = (database.stateOf ref).map (fun current =>
      current.merge (updatesFor chatSessionId none state Dict.empty ref)) := by
  cases chatSessionId with
  | none =>
      cases saved
      cases ref <;> simp [updatesFor]
  | some sessionId =>
      rw [updateSessionState_stateOf saved ref]
      cases ref with
      | chat other => by_cases same : sessionId = other <;> simp [updatesFor, same, eq_comm]
      | client other => simp [updatesFor]

private theorem saveClientState_stateOf {clientSessionId : Option String} {projectState : Data}
    (saved : database.saveClientState clientSessionId projectState = some changed)
    (ref : SessionRef) :
    changed.stateOf ref = (database.stateOf ref).map (fun current =>
      current.merge (updatesFor none clientSessionId Dict.empty projectState ref)) := by
  cases clientSessionId with
  | none =>
      cases saved
      cases ref <;> simp [updatesFor]
  | some sessionId =>
      rw [updateState_stateOf saved ref]
      cases ref with
      | chat other => simp [updatesFor]
      | client other => by_cases same : sessionId = other <;> simp [updatesFor, same, eq_comm]

theorem saveStates_stateOf {chatSessionId clientSessionId : Option String}
    {state projectState : Data}
    (saved : database.saveStates chatSessionId clientSessionId state projectState = some changed)
    (ref : SessionRef) :
    changed.stateOf ref = (database.stateOf ref).map (fun current =>
      current.merge (updatesFor chatSessionId clientSessionId state projectState ref)) := by
  obtain ⟨middle, chat, client⟩ := Option.bind_eq_some_iff.mp saved
  rw [saveClientState_stateOf client ref, saveChatState_stateOf chat ref, Option.map_map]
  cases ref <;> simp [updatesFor, Function.comp_def]

theorem saveStates_found {chatSessionId clientSessionId : Option String}
    {state projectState : Data}
    (saved : database.saveStates chatSessionId clientSessionId state projectState = some changed)
    (ref : SessionRef) :
    (database.stateOf ref).isSome = true ∨
      ∀ state projectState, updatesFor chatSessionId clientSessionId state projectState ref =
        Dict.empty := by
  obtain ⟨middle, chat, client⟩ := Option.bind_eq_some_iff.mp saved
  cases ref with
  | chat sessionId =>
      by_cases named : chatSessionId = some sessionId
      · subst named
        exact .inl (modifyChat_found chat)
      · exact .inr (fun state projectState => if_neg named)
  | client sessionId =>
      by_cases named : clientSessionId = some sessionId
      · subst named
        have found := modifyClient_found client
        rw [saveChatState_stateOf chat, Option.isSome_map] at found
        exact .inl found
      · exact .inr (fun state projectState => if_neg named)

end Database
end Assemblix
