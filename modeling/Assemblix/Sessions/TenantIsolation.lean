import Assemblix.Library.Run
import Assemblix.Sessions.ExecuteRequest

/-
Chat sessions of other projects.

A chat session belongs to the project of its workflow. The view of a project hides what
other projects' sessions contain. The entry checks compare the workflow with the token but
never the session, so a request may name any session. Requests that name no session of
another project are confined to the view: they answer the same whatever the other
projects' sessions hold and leave those as they are.
-/

namespace Assemblix

open Library

namespace Database

def belongs (database : Database) (projectId : String) (session : ChatSession) : Bool :=
  decide ((database.workflows.lookup session.workflowId).map Workflow.projectId = some projectId)

def viewOf (projectId : String) (database : Database) : Database :=
  { database with
    chatSessions := database.chatSessions.mapValues (fun session =>
      if database.belongs projectId session then session
      else { workflowId := session.workflowId }) }

def Owned (projectId sessionId : String) (database : Database) : Prop :=
  ∀ session, database.chatSessions.lookup sessionId = some session →
    database.belongs projectId session = true

structure Local (projectId : String) (before after : Database) : Prop where
  workflows : after.workflows = before.workflows
  foreign : ∀ id session, before.chatSessions.lookup id = some session →
    before.belongs projectId session = false → after.chatSessions.lookup id = some session
  owned : ∀ id, Owned projectId id before → Owned projectId id after

theorem Local.refl (projectId : String) (database : Database) :
    Local projectId database database where
  workflows := rfl
  foreign := fun _ _ found _ => found
  owned := fun _ owned => owned

theorem belongs_congr {before after : Database} (same : after.workflows = before.workflows)
    (projectId : String) (session : ChatSession) :
    after.belongs projectId session = before.belongs projectId session := by
  unfold belongs
  rw [same]

theorem Local.trans {projectId : String} (first second third : Database)
    (left : Local projectId first second) (right : Local projectId second third) :
    Local projectId first third where
  workflows := right.workflows.trans left.workflows
  foreign := by
    intro id session found foreign
    apply right.foreign id session (left.foreign id session found foreign)
    rw [belongs_congr left.workflows]
    exact foreign
  owned := fun id owned => right.owned id (left.owned id owned)

theorem Local.of_same {projectId : String} {before after : Database}
    (workflows : after.workflows = before.workflows)
    (chatSessions : after.chatSessions = before.chatSessions) : Local projectId before after where
  workflows := workflows
  foreign := by
    intro id session found _
    rw [chatSessions]
    exact found
  owned := by
    intro id owned session found
    rw [chatSessions] at found
    rw [belongs_congr workflows]
    exact owned session found

/-! ### Operations on the view -/

section

variable {projectId sessionId : String} {database : Database}

theorem viewOf_lookup (id : String) :
    (database.viewOf projectId).chatSessions.lookup id =
      (database.chatSessions.lookup id).map (fun session =>
        if database.belongs projectId session then session
        else { workflowId := session.workflowId }) :=
  Dict.lookup_mapValues _ _ _

theorem viewOf_lookup_owned (owned : Owned projectId sessionId database) :
    (database.viewOf projectId).chatSessions.lookup sessionId =
      database.chatSessions.lookup sessionId := by
  rw [viewOf_lookup]
  cases found : database.chatSessions.lookup sessionId with
  | none => rfl
  | some session => rw [Option.map_some, if_pos (owned session found)]

theorem viewOf_contains (id : String) :
    (database.viewOf projectId).chatSessions.contains id = database.chatSessions.contains id := by
  unfold Dict.contains
  rw [viewOf_lookup, Option.isSome_map]

theorem modifyChat_view {change : ChatSession → ChatSession}
    (stays : ∀ session, (change session).workflowId = session.workflowId)
    (owned : Owned projectId sessionId database) :
    (database.viewOf projectId).modifyChat sessionId change =
      (database.modifyChat sessionId change).map (viewOf projectId) := by
  unfold modifyChat
  rw [viewOf_lookup_owned owned]
  cases found : database.chatSessions.lookup sessionId with
  | none => rfl
  | some session =>
      have own := owned session found
      have stillOwn : database.belongs projectId (change session) = true := by
        unfold belongs at own ⊢
        rw [stays session]
        exact own
      have moved := Dict.set_mapValues database.chatSessions (fun session =>
        if database.belongs projectId session then session
        else { workflowId := session.workflowId }) sessionId (change session)
      rw [if_pos stillOwn] at moved
      simp only [Option.map_some, viewOf, moved]
      rfl

theorem modifyChat_local {change : ChatSession → ChatSession} {after : Database}
    (stays : ∀ session, (change session).workflowId = session.workflowId)
    (owned : Owned projectId sessionId database)
    (modified : database.modifyChat sessionId change = some after) :
    Local projectId database after := by
  have lookups := modifyChat_lookup modified
  obtain ⟨chatSessions, rfl⟩ := modifyChat_rest modified
  constructor
  · rfl
  · intro id session found foreign
    rw [lookups id]
    by_cases same : sessionId = id
    · subst same
      rw [owned session found] at foreign
      cases foreign
    · rw [if_neg same]
      exact found
  · intro id ownedId session found
    rw [lookups id] at found
    split at found
    · obtain ⟨old, foundOld, rfl⟩ := Option.map_eq_some_iff.mp found
      have own := ownedId old foundOld
      unfold belongs at own ⊢
      rw [stays old]
      exact own
    · exact ownedId session found

end
end Database

/-! ### A run on sessions of the project -/

structure Ours (projectId workflowId : String) (chatSessionId : Option String)
    (database : Database) : Prop where
  workflow : (database.workflows.lookup workflowId).map Workflow.projectId = some projectId
  session : ∀ id, chatSessionId = some id → database.Owned projectId id

theorem Ours.stable {projectId workflowId : String} {chatSessionId : Option String}
    (before after : Database) (kept : Database.Local projectId before after)
    (ours : Ours projectId workflowId chatSessionId before) :
    Ours projectId workflowId chatSessionId after where
  workflow := by
    rw [kept.workflows]
    exact ours.workflow
  session := fun id named => kept.owned id (ours.session id named)

abbrev Steady (projectId workflowId : String) (chatSessionId : Option String) {α : Type}
    (action : Transaction Database α) : Prop :=
  Confined (Database.viewOf projectId) (Database.Local projectId)
    (Ours projectId workflowId chatSessionId) action
    (fun _ => Ours projectId workflowId chatSessionId)

namespace Steady

open Transaction

variable {projectId workflowId : String} {chatSessionId : Option String} {α β : Type}

theorem pure (value : α) : Steady projectId workflowId chatSessionId (Pure.pure value) :=
  Confined.pure (Database.Local.refl projectId) (fun _ ours => ours)

theorem bind {action : Transaction Database α} {next : α → Transaction Database β}
    (first : Steady projectId workflowId chatSessionId action)
    (rest : ∀ value, Steady projectId workflowId chatSessionId (next value)) :
    Steady projectId workflowId chatSessionId (action >>= next) :=
  Confined.bind Database.Local.trans first rest

theorem ask {read : Database → Option α}
    (same : ∀ database, Ours projectId workflowId chatSessionId database →
      read (database.viewOf projectId) = read database) :
    Steady projectId workflowId chatSessionId (Transaction.ask read) :=
  Confined.ask (Database.Local.refl projectId) same (fun _ _ ours _ => ours)

theorem change {write : Database → Option Database}
    (commutes : ∀ database, Ours projectId workflowId chatSessionId database →
      write (database.viewOf projectId) = (write database).map (Database.viewOf projectId))
    (leaves : ∀ database after, Ours projectId workflowId chatSessionId database →
      write database = some after → Database.Local projectId database after) :
    Steady projectId workflowId chatSessionId (Transaction.change write) := by
  apply Confined.change commutes
  intro database after ours written
  have kept := leaves database after ours written
  exact ⟨kept, ours.stable database after kept⟩

theorem whenSome {value : Option α} {action : α → Transaction Database Unit}
    (present : ∀ found, value = some found →
      Steady projectId workflowId chatSessionId (action found)) :
    Steady projectId workflowId chatSessionId (Transaction.whenSome value action) :=
  Confined.whenSome (Database.Local.refl projectId) (fun _ _ ours => ours) present

/-! ### The writes of a run -/

theorem modifyChat {sessionId : String} {modify : ChatSession → ChatSession}
    (stays : ∀ session, (modify session).workflowId = session.workflowId)
    (own : chatSessionId = some sessionId) :
    Steady projectId workflowId chatSessionId
      (Transaction.change (fun database => database.modifyChat sessionId modify)) := by
  apply change
  · intro database ours
    exact Database.modifyChat_view stays (ours.session sessionId own)
  · intro database after ours modified
    exact Database.modifyChat_local stays (ours.session sessionId own) modified

theorem modifyClient (sessionId : String) (modify : ClientSession → ClientSession) :
    Steady projectId workflowId chatSessionId
      (Transaction.change (fun database => database.modifyClient sessionId modify)) := by
  apply change
  · intro database _
    unfold Database.modifyClient
    rw [Option.map_map]
    rfl
  · intro database after _ modified
    obtain ⟨clientSessions, rfl⟩ := Database.modifyClient_rest modified
    exact .of_same rfl rfl

theorem createClientSession (sessionId : String) (session : ClientSession) :
    Steady projectId workflowId chatSessionId
      (Transaction.change (fun database => database.createClientSession sessionId session)) := by
  apply change
  · intro database _
    unfold Database.createClientSession
    change (if database.clientSessions.contains sessionId then none else _) = _
    split <;> rfl
  · intro database after _ created
    unfold Database.createClientSession at created
    split at created
    · cases created
    · cases created
      exact .of_same rfl rfl

theorem createExecution (executionId : String) (execution : Execution) :
    Steady projectId workflowId chatSessionId
      (Transaction.change (fun database => database.createExecution executionId execution)) := by
  apply change
  · intro database _
    unfold Database.createExecution
    change (if database.executions.contains executionId then none else _) = _
    split <;> rfl
  · intro database after _ created
    unfold Database.createExecution at created
    split at created
    · cases created
    · cases created
      exact .of_same rfl rfl

theorem updateExecution (executionId : String) (update : Execution → Execution) :
    Steady projectId workflowId chatSessionId
      (Transaction.change (fun database => database.updateExecution executionId update)) := by
  apply change
  · intro database _
    unfold Database.updateExecution
    rw [Option.map_map]
    rfl
  · intro database after _ updated
    obtain ⟨execution, _, rfl⟩ := Option.map_eq_some_iff.mp updated
    exact .of_same rfl rfl

theorem saveText {sessionId : String} (own : chatSessionId = some sessionId)
    (role content : String) (executionId : Option String) (credits ownKeyCostUsd : Rat) :
    Steady projectId workflowId chatSessionId
      (saveText sessionId role content executionId credits ownKeyCostUsd) := by
  unfold Assemblix.saveText
  split
  · exact .pure ()
  · exact .modifyChat (fun _ => rfl) own

theorem saveStates (clientSessionId : Option String) (state projectState : Data) :
    Steady projectId workflowId chatSessionId (Transaction.change (fun database =>
      database.saveStates chatSessionId clientSessionId state projectState)) := by
  unfold Database.saveStates
  rw [change_bind]
  apply bind
  · cases chatSessionId with
    | none => exact .change (fun _ _ => rfl) (fun _ _ _ saved => by cases saved; exact .refl _ _)
    | some sessionId => exact .modifyChat (fun _ => rfl) rfl
  · intro _
    cases clientSessionId with
    | none => exact .change (fun _ _ => rfl) (fun _ _ _ saved => by cases saved; exact .refl _ _)
    | some sessionId => exact .modifyClient sessionId _

/-! ### The reads of a run -/

theorem loadHistory (isNewSession : Bool) (firstPhrase : Option String) (inputData : Data) :
    Steady projectId workflowId chatSessionId (Transaction.ask (fun database =>
      some (database.loadHistory chatSessionId isNewSession firstPhrase inputData))) := by
  apply ask
  intro database ours
  unfold Database.loadHistory Database.getChatHistory
  cases chatSessionId with
  | none => rfl
  | some sessionId =>
      simp only [Database.viewOf_lookup_owned (ours.session sessionId rfl)]

theorem loadInitialState (conversions : Conversions) (workflow : Workflow) (project : Project)
    (clientSessionId : Option String) (customState customProjectState : Data) :
    Steady projectId workflowId chatSessionId (Transaction.ask (fun database =>
      database.loadInitialState conversions workflow project chatSessionId clientSessionId
        customState customProjectState)) := by
  apply ask
  intro database ours
  have same : (database.viewOf projectId).baseState workflow chatSessionId =
      database.baseState workflow chatSessionId := by
    unfold Database.baseState
    cases chatSessionId with
    | none => rfl
    | some sessionId =>
        simp only [Database.viewOf_lookup_owned (ours.session sessionId rfl)]
  unfold Database.loadInitialState
  rw [same]
  rfl

/-! ### The phases of a run -/

theorem getOrCreateByClientId (clientProjectId clientId : String) (initialState : Data)
    (isDebug : Bool) (newId : String) :
    Steady projectId workflowId chatSessionId
      (getOrCreateByClientId clientProjectId clientId initialState isDebug newId) := by
  unfold Assemblix.getOrCreateByClientId
  apply bind
  · exact ask (fun _ _ => rfl)
  · intro existing
    cases existing with
    | some sessionId => exact pure sessionId
    | none => exact bind (createClientSession newId _) (fun _ => pure newId)

theorem openClientSession (project : Project) (clientProjectId : String) (call : ExecuteCall)
    (inputData : Data) :
    Steady projectId workflowId chatSessionId
      (openClientSession project clientProjectId call inputData) := by
  unfold Assemblix.openClientSession
  apply bind
  · exact ask (fun _ _ => rfl)
  · intro clientId
    cases clientId with
    | none => exact pure none
    | some clientId =>
        apply bind
        · unfold prepareClientSession
          apply bind (getOrCreateByClientId _ _ _ _ _)
          intro sessionId
          apply bind (ask (fun _ _ => rfl))
          intro metadata
          apply bind
          · split
            · exact change (fun _ _ => rfl) (fun _ _ _ same => by cases same; exact .refl _ _)
            · exact modifyClient sessionId _
          · intro _
            exact bind (modifyClient sessionId _) (fun _ => pure sessionId)
        · intro sessionId
          exact pure (some sessionId)

theorem saveUserMessages {sessionId : String} (own : chatSessionId = some sessionId)
    (messages : List String) :
    Steady projectId workflowId chatSessionId (saveUserMessages sessionId messages) := by
  induction messages with
  | nil => exact pure ()
  | cons message rest ih => exact bind (modifyChat (fun _ => rfl) own) (fun _ => ih)

theorem finalizationPhase (call : ExecuteCall) (prepared : Prepared) (result : RunResult)
    (own : prepared.chatSessionId = chatSessionId) :
    Steady projectId workflowId chatSessionId (finalizationPhase call prepared result) := by
  unfold Assemblix.finalizationPhase
  rw [own]
  apply bind (saveStates _ _ _)
  intro _
  apply bind (whenSome (fun sessionId _ => modifyClient sessionId _))
  intro _
  apply bind
  · apply whenSome
    intro sessionId named
    exact bind (saveText named _ _ _ _ _) (fun _ => saveText named _ _ _ _ _)
  · intro _
    apply bind (updateExecution _ _)
    intro _
    split
    · exact whenSome (fun sessionId named => modifyChat (fun _ => rfl) named)
    · exact pure ()

theorem concludeRun (call : ExecuteCall) (prepared : Prepared)
    (own : prepared.chatSessionId = chatSessionId) (outcome : Except String RunResult) :
    Steady projectId workflowId chatSessionId (concludeRun call prepared outcome) := by
  cases outcome with
  | ok result => exact bind (finalizationPhase call prepared result own) (fun _ => pure _)
  | error error => exact bind (updateExecution _ _) (fun _ => pure _)

end Steady

/-! ### One request -/

open Transaction

variable {projectId : String}

theorem createSession_confined {workflowId newId : String} {session : ChatSession}
    (opens : session.workflowId = workflowId) :
    Confined (Database.viewOf projectId) (Database.Local projectId)
      (Ours projectId workflowId none)
      (change (fun database => database.createSession newId session))
      (fun _ => Ours projectId workflowId (some newId)) := by
  apply Confined.change
  · intro database ours
    have own : database.belongs projectId session = true := by
      unfold Database.belongs
      rw [opens, ours.workflow]
      simp
    unfold Database.createSession
    rw [Database.viewOf_contains]
    split
    · rfl
    · have moved := Dict.set_mapValues database.chatSessions (fun session =>
        if database.belongs projectId session then session
        else { workflowId := session.workflowId }) newId session
      rw [if_pos own] at moved
      simp only [Option.map_some, Database.viewOf, moved]
      rfl
  · intro database after ours created
    have own : database.belongs projectId session = true := by
      unfold Database.belongs
      rw [opens, ours.workflow]
      simp
    unfold Database.createSession at created
    split at created
    case isTrue => cases created
    case isFalse fresh =>
      cases created
      have unused : database.chatSessions.lookup newId = none := by
        simpa [Dict.contains] using fresh
      have owned : ∀ id, Database.Owned projectId id database → Database.Owned projectId id
          { database with chatSessions := database.chatSessions.set newId session } := by
        intro id before found lookup
        change (database.chatSessions.set newId session).lookup id = some found at lookup
        rw [Dict.lookup_set] at lookup
        split at lookup
        · cases lookup
          exact own
        · exact before found lookup
      constructor
      · constructor
        · rfl
        · intro id found lookup foreign
          change (database.chatSessions.set newId session).lookup id = some found
          rw [Dict.lookup_set_of_ne]
          · exact lookup
          · intro same
            rw [← same, unused] at lookup
            cases lookup
        · exact owned
      · constructor
        · exact ours.workflow
        · intro id named
          cases named
          apply owned
          intro found lookup
          rw [unused] at lookup
          cases lookup

theorem createChatSession_confined (workflowId : String) (workflow : Workflow)
    (call : ExecuteCall) (inputData : Data) :
    Confined (Database.viewOf projectId) (Database.Local projectId)
      (Ours projectId workflowId none) (createChatSession workflowId workflow call inputData)
      (fun _ => Ours projectId workflowId (some call.environment.newSessionId)) := by
  unfold createChatSession
  apply Confined.bind Database.Local.trans
  · exact createSession_confined rfl
  · intro _
    exact Steady.whenSome (fun phrase _ => Steady.saveText rfl _ _ _ _ _)

theorem openChatSession_confined (workflowId : String) (workflow : Workflow) (call : ExecuteCall)
    (inputData : Data) :
    Confined (Database.viewOf projectId) (Database.Local projectId)
      (Ours projectId workflowId call.request.sessionId)
      (openChatSession workflowId workflow call inputData)
      (fun opened => Ours projectId workflowId opened.1) := by
  unfold openChatSession
  split
  case h_1 sessionId named =>
    apply Confined.pure (Database.Local.refl projectId)
    intro database ours
    rw [named] at ours
    exact ours
  case h_2 named =>
    rw [named]
    split
    · apply Confined.bind Database.Local.trans (createChatSession_confined _ _ _ _)
      · intro _
        exact Confined.pure (Database.Local.refl projectId) (fun _ ours => ours)
    · exact Confined.pure (Database.Local.refl projectId) (fun _ ours => ours)

theorem preparationPhase_confined (conversions : Conversions) (workflowId : String)
    (workflow : Workflow) (call : ExecuteCall) :
    Confined (Database.viewOf projectId) (Database.Local projectId)
      (Ours projectId workflowId call.request.sessionId)
      (preparationPhase conversions workflowId workflow call)
      (fun prepared => Ours projectId workflowId prepared.chatSessionId) := by
  unfold preparationPhase
  apply Confined.bind Database.Local.trans (Steady.ask (fun _ _ => rfl))
  intro project
  apply Confined.bind Database.Local.trans (Steady.openClientSession _ _ _ _)
  intro clientSessionId
  apply Confined.bind Database.Local.trans (openChatSession_confined _ _ _ _)
  intro chat
  apply Confined.bind Database.Local.trans (Steady.loadHistory _ _ _)
  intro history
  apply Confined.bind Database.Local.trans (Steady.ask (fun _ _ => rfl))
  intro customState
  apply Confined.bind Database.Local.trans (Steady.ask (fun _ _ => rfl))
  intro customProjectState
  apply Confined.bind Database.Local.trans (Steady.loadInitialState _ _ _ _ _ _)
  intro states
  apply Confined.bind Database.Local.trans (Steady.createExecution _ _)
  intro _
  exact Confined.pure (Database.Local.refl projectId) (fun _ ours => ours)

theorem dispatch_confined (conversions : Conversions) (workflowId : String) (workflow : Workflow)
    (call : ExecuteCall) :
    Confined (Database.viewOf projectId) (Database.Local projectId)
      (Ours projectId workflowId call.request.sessionId)
      (dispatch conversions workflowId workflow call) (fun _ _ => True) := by
  unfold dispatch
  apply Confined.bind Database.Local.trans (preparationPhase_confined _ _ _ _)
  intro prepared
  apply Confined.bind Database.Local.trans
  · exact Steady.whenSome (fun sessionId named => Steady.saveUserMessages named _)
  · intro _
    apply Confined.bind Database.Local.trans (Steady.concludeRun call prepared rfl _)
    intro response
    exact Confined.pure (Database.Local.refl projectId) (fun _ _ => trivial)

/-! ### Entry checks -/

theorem loadAndAuthorize_view (database : Database) (projectIdFromToken : String) (isAdmin : Bool)
    (workflowId : String) (sessionId : Option String) (resolvePublished : Bool)
    (refused : Option String) :
    loadAndAuthorize (database.viewOf projectId) projectIdFromToken isAdmin workflowId sessionId
        resolvePublished refused =
      loadAndAuthorize database projectIdFromToken isAdmin workflowId sessionId resolvePublished
        refused := by
  unfold loadAndAuthorize
  simp only [Database.viewOf_contains]
  rfl

theorem getLatestPublished_found {workflows : Dict String Workflow} {workflowId : String}
    {published : String × Workflow}
    (found : getLatestPublished workflows workflowId = some published) :
    workflows.lookup published.1 = some published.2 ∧
      published.2.publishedForWorkflowId = some workflowId := by
  have member : published ∈ workflows.entries.filter (fun entry =>
      decide (entry.2.publishedForWorkflowId = some workflowId)) := by
    apply fold_mem _ _ found
    intro best next item picked
    cases best with
    | none => exact .inl (Option.some.inj picked)
    | some kept =>
        dsimp only at picked
        split at picked
        · exact .inl (Option.some.inj picked)
        · exact .inr picked
  obtain ⟨listed, versionOf⟩ := List.mem_filter.mp member
  exact ⟨workflows.lookup_of_mem listed, of_decide_eq_true versionOf⟩

theorem Database.published_project (database : Database) {draftId versionId : String}
    {draft version : Workflow} (found : database.workflows.lookup draftId = some draft)
    (listed : database.workflows.lookup versionId = some version)
    (versionOf : version.publishedForWorkflowId = some draftId) :
    version.projectId = draft.projectId := by
  have together := List.all_eq_true.mp database.published (versionId, version)
    (database.workflows.mem_of_lookup listed)
  simp only [versionOf, found, decide_eq_true_eq] at together
  exact together

theorem loadAndAuthorize_project {database : Database} {workflowId runId : String}
    {sessionId : Option String} {resolvePublished : Bool} {refused : Option String}
    {workflow : Workflow}
    (accepted : loadAndAuthorize database projectId false workflowId sessionId resolvePublished
      refused = .ok (runId, workflow)) :
    (database.workflows.lookup runId).map Workflow.projectId = some projectId := by
  unfold loadAndAuthorize at accepted
  cases found : database.workflows.lookup workflowId with
  | none =>
      rw [found] at accepted
      cases accepted
  | some draft =>
      simp only [found, Bool.not_false, Bool.true_and, Bool.not_eq_eq_eq_not, Bool.not_true,
        decide_eq_false_iff_not, ite_not] at accepted
      split at accepted
      case isFalse => cases accepted
      case isTrue own =>
        split at accepted
        · cases accepted
        · split at accepted
          · cases accepted
          · cases accepted
          · split at accepted
            · split at accepted
              · cases accepted
              case h_2 published latest =>
                cases accepted
                obtain ⟨listed, versionOf⟩ := getLatestPublished_found latest
                rw [listed, Option.map_some, database.published_project found listed versionOf, own]
            · cases accepted
              rw [found, Option.map_some, own]

/-! ### Sequences of requests -/

def careful (projectId : String) (call : ExecuteCall) (database : Database) : Bool :=
  match call.request.sessionId with
  | none => true
  | some sessionId =>
      match database.chatSessions.lookup sessionId with
      | none => true
      | some session => database.belongs projectId session

def ExecuteStep (conversions : Conversions) (projectId : String) (database : Database)
    (exchange : ExecuteCall × ExecuteAnswer) (after : Database) : Prop :=
  execute conversions projectId exchange.1 database = (exchange.2, after)

def CarefulExecuteStep (conversions : Conversions) (projectId : String) (database : Database)
    (exchange : ExecuteCall × ExecuteAnswer) (after : Database) : Prop :=
  careful projectId exchange.1 database = true ∧
    ExecuteStep conversions projectId database exchange after

def ForeignKept (projectId : String) (before after : Database) : Prop :=
  ∀ id session, before.chatSessions.lookup id = some session →
    before.belongs projectId session = false → after.chatSessions.lookup id = some session

theorem ours_of_careful {database : Database} {call : ExecuteCall} {workflowId : String}
    (allowed : careful projectId call database = true)
    (workflow : (database.workflows.lookup workflowId).map Workflow.projectId = some projectId) :
    Ours projectId workflowId call.request.sessionId database where
  workflow := workflow
  session := by
    intro id named session found
    simp only [careful, named, found] at allowed
    exact allowed

/-- A request is answered and recorded alike on the view. -/
theorem execute_confined (conversions : Conversions) {call : ExecuteCall} {database : Database}
    (allowed : careful projectId call database = true) :
    execute conversions projectId call (database.viewOf projectId) =
        ((execute conversions projectId call database).1,
          (execute conversions projectId call database).2.viewOf projectId) ∧
      Database.Local projectId database (execute conversions projectId call database).2 := by
  unfold execute
  rw [loadAndAuthorize_view]
  cases accepted : loadAndAuthorize database projectId false call.workflowId
      call.request.sessionId (!call.isDebug) call.environment.refused with
  | error error => exact ⟨rfl, .refl _ _⟩
  | ok found =>
      obtain ⟨workflowId, workflow⟩ := found
      have ours := ours_of_careful allowed (loadAndAuthorize_project accepted)
      have confined := @dispatch_confined projectId conversions workflowId workflow call
      simp only [confined.commutes database ours]
      cases ran : dispatch conversions workflowId workflow call database with
      | none => exact ⟨rfl, .refl _ _⟩
      | some out => exact ⟨rfl, (confined.leaves database out.1 out.2 ours ran).1⟩

theorem belongs_viewOf (database : Database) (session : ChatSession) :
    (database.viewOf projectId).belongs projectId session =
      database.belongs projectId session := rfl

theorem careful_view (call : ExecuteCall) (database : Database) :
    careful projectId call (database.viewOf projectId) = careful projectId call database := by
  unfold careful
  cases call.request.sessionId with
  | none => rfl
  | some sessionId =>
      simp only [Database.viewOf_lookup]
      cases found : database.chatSessions.lookup sessionId with
      | none => rfl
      | some session =>
          simp only [Option.map_some, belongs_viewOf]
          split
          · rfl
          case isFalse foreign =>
            rw [Bool.not_eq_true] at foreign
            rw [foreign]
            unfold Database.belongs at foreign ⊢
            exact foreign

/-- Requests that name no session of another project neither see nor change one. -/
theorem sessions_isolated (conversions : Conversions) (projectId : String)
    (exchanges : List (ExecuteCall × ExecuteAnswer)) (left right last : Database)
    (agree : left.viewOf projectId = right.viewOf projectId)
    (run : Run (CarefulExecuteStep conversions projectId) left exchanges last) :
    ∃ other, Run (ExecuteStep conversions projectId) right exchanges other ∧
      last.viewOf projectId = other.viewOf projectId ∧
      ForeignKept projectId left last ∧ ForeignKept projectId right other := by
  suffices paired : ∃ other, Run (ExecuteStep conversions projectId) right exchanges other ∧
      last.viewOf projectId = other.viewOf projectId ∧
      Database.Local projectId left last ∧ Database.Local projectId right other by
    obtain ⟨other, ran, same, leftLocal, rightLocal⟩ := paired
    exact ⟨other, ran, same, leftLocal.foreign, rightLocal.foreign⟩
  induction run with
  | nil => exact ⟨right, .nil, agree, .refl _ _, .refl _ _⟩
  | @snoc exchanges middle last exchange earlier taken ih =>
      obtain ⟨other, ran, same, leftLocal, rightLocal⟩ := ih
      obtain ⟨allowed, answered⟩ := taken
      have otherAllowed : careful projectId exchange.1 other = true := by
        rw [← careful_view, ← same, careful_view]
        exact allowed
      obtain ⟨viewed, kept⟩ := execute_confined conversions allowed
      obtain ⟨otherViewed, otherKept⟩ := execute_confined conversions otherAllowed
      rw [same, otherViewed] at viewed
      unfold ExecuteStep at answered
      rw [answered] at viewed kept
      obtain ⟨sameAnswer, sameView⟩ := Prod.mk.inj viewed
      exists (execute conversions projectId exchange.1 other).2
      refine ⟨ran.snoc ?_, sameView.symm, .trans _ _ _ leftLocal kept,
        .trans _ _ _ rightLocal otherKept⟩
      exact Prod.ext sameAnswer rfl

/-! Two projects with one session each; `q` has stored a card number. -/

def echoWorkflow (projectId : String) (publishedFor : Option String) : Workflow where
  projectId := projectId
  publishedForWorkflowId := publishedFor
  version := some 1
  definition :=
    { nodes := [⟨"s", "start"⟩, ⟨"e", "end"⟩]
      edges := [⟨"s", "e", none⟩]
      conditions := fun _ => []
      endConfig := fun _ => {} }
  state := []
  firstPhrase := none

def noNodes : NodeLibrary where
  registered := fun _ => false
  execute := fun _ _ => .error ""
  evaluate := fun _ _ => .ok false
  render := fun template _ => template

def sequentialRun (library : NodeLibrary) (context : ExecutionContext) (_ : Option String) :
    RunReport where
  userMessages := []
  outcome :=
    match Engine.start context [] with
    | .sequential state =>
        match state.run library with
        | .finished result _ => .ok result
        | .failed _ _ => .error "failed"
    | _ => .error "failed"

def twoProjects (card : String) : Database where
  projects := (Dict.empty.set "p" { organizationId := "o", stateSchema := [] }).set "q"
    { organizationId := "o'", stateSchema := [] }
  workflows := ((Dict.empty.set "draft" (echoWorkflow "p" none)).set "v1"
    (echoWorkflow "p" (some "draft"))).set "other" (echoWorkflow "q" none)
  chatSessions := (Dict.empty.set "mine" { workflowId := "v1" }).set "theirs"
    { workflowId := "other", currentState := Dict.empty.set "card" (.str card) }
  clientSessions := Dict.empty
  executions := Dict.empty
  published := by decide +kernel

def echoConversions : Conversions where
  str := fun _ => ""
  strip := id
  lower := id
  toInt := fun _ => none
  toFloat := fun _ => none
  loads := fun _ => none

/-- A greeting on the session, with a token of `p`. -/
def helloCall (sessionId : String) : ExecuteCall where
  workflowId := "draft"
  tokenId := some "t"
  isDebug := false
  request := { input := Dict.empty.set "message" (.str "hello"), sessionId := some sessionId }
  environment :=
    { newSessionId := "n"
      newClientSessionId := "c"
      executionId := "x"
      refused := none
      credits := fun _ => 1
      inTime := true
      run := sequentialRun noNodes }

def answerTo (sessionId card : String) : ExecuteAnswer :=
  (execute echoConversions "p" (helloCall sessionId) (twoProjects card)).1

def databaseAfter (sessionId card : String) : Database :=
  (execute echoConversions "p" (helloCall sessionId) (twoProjects card)).2

theorem sessions_isolated_mine :
    ∃ other, Run (ExecuteStep echoConversions "p") (twoProjects "2")
        [(helloCall "mine", answerTo "mine" "1")] other ∧
      (databaseAfter "mine" "1").viewOf "p" = other.viewOf "p" ∧
      ForeignKept "p" (twoProjects "1") (databaseAfter "mine" "1") ∧
      ForeignKept "p" (twoProjects "2") other := by
  have run : Run (CarefulExecuteStep echoConversions "p") (twoProjects "1")
      ([] ++ [(helloCall "mine", answerTo "mine" "1")]) (databaseAfter "mine" "1") :=
    Run.nil.snoc ⟨rfl, rfl⟩
  exact sessions_isolated echoConversions "p" _ (twoProjects "1") (twoProjects "2") _ rfl run

/-- With the id of the other project's session the answer shows its state, and the greeting is
added to it. -/
theorem sessions_leak :
    (twoProjects "1").viewOf "p" = (twoProjects "2").viewOf "p" ∧
      ExecuteStep echoConversions "p" (twoProjects "1") (helloCall "theirs", answerTo "theirs" "1")
        (databaseAfter "theirs" "1") ∧
      (∀ other, ¬ ExecuteStep echoConversions "p" (twoProjects "2")
        (helloCall "theirs", answerTo "theirs" "1") other) ∧
      ¬ ForeignKept "p" (twoProjects "1") (databaseAfter "theirs" "1") := by
  refine ⟨rfl, rfl, ?_, ?_⟩
  · intro other answered
    unfold ExecuteStep at answered
    have same : (execute echoConversions "p" (helloCall "theirs") (twoProjects "2")).1 =
        answerTo "theirs" "1" := by rw [answered]
    revert same
    decide +kernel
  · intro kept
    have unchanged := kept "theirs" _ rfl rfl
    revert unchanged
    decide +kernel

end Assemblix
