import Assemblix.Sessions.TranscribedTurn

/-
Requests on a chat session around its end.

END may close the session of its run: finalization clears the flag last. The entry checks
of an execute request ask only that the session exists, a run in flight never looks at the
flag, and finalization writes without it. A message that is sent by hand is refused on a
closed session, but it is checked before it is written. Every task may wait in between.
-/

namespace Assemblix

open Library Transaction

/-! ### What a run writes to its session -/

namespace ChatSession

def push (message : ChatMessage) (credits ownKeyCostUsd : Rat) (session : ChatSession) :
    ChatSession :=
  { session with
    messages := session.messages ++ [message]
    messageCount := session.messageCount + 1
    totalCredits := session.totalCredits + credits
    ownKeyCostUsd := session.ownKeyCostUsd + ownKeyCostUsd }

def pushText (role content : String) (executionId : Option String) (credits ownKeyCostUsd : Rat)
    (session : ChatSession) : ChatSession :=
  if content = "" then session else session.push ⟨role, content, executionId⟩ credits ownKeyCostUsd

def mergeState (updates : Data) (session : ChatSession) : ChatSession :=
  { session with currentState := session.currentState.merge updates }

def closeIf (isSessionEnd : Bool) (session : ChatSession) : ChatSession :=
  if isSessionEnd then { session with isActive := false } else session

end ChatSession

def answerText (result : RunResult) : String :=
  result.context.lastHistoryMessage.getD (textOf result.output "message")

def questionText (result : RunResult) : String := textOf result.context.inputData "message"

def finalizedSession (call : ExecuteCall) (result : RunResult) (session : ChatSession) :
    ChatSession :=
  ((((session.mergeState result.context.state).pushText "user" (questionText result) none
    0 0).pushText "assistant" (answerText result) (some call.environment.executionId)
      (call.environment.credits result) (ownTotalCost result.context)).closeIf
        result.isSessionEnd)

def nothingToWrite (result : RunResult) (session : ChatSession) : Bool :=
  decide (questionText result = "") && decide (answerText result = "") &&
    decide (session.currentState.merge result.context.state = session.currentState)

/-! ### Requests on one session -/

structure ManualMessage where
  message : ChatMessage
  credits : Rat
  ownKeyCostUsd : Rat

structure SessionTraffic (Id : Type) where
  conversions : Conversions
  sessionId : String
  projectId : Id → String
  call : Id → ExecuteCall
  named : ∀ id, (call id).request.sessionId = some sessionId
  origin : Id → RowOrigin
  checkpointing : Bool
  message : Id → ManualMessage

inductive RequestStage
  | absent
  | refused
  | accepted (workflowId : String) (workflow : Workflow)
  | running (prepared : Prepared)
  | ended

def RequestStage.isRefused : RequestStage → Bool
  | .refused => true
  | _ => false

inductive MessageStage
  | absent
  | refused
  | checked
  | sent
  deriving DecidableEq, Repr

structure SessionService (Id : Type) where
  database : Database
  requests : Id → RequestStage
  messages : Id → MessageStage

/-- `begin id steps` starts the run with the persisted steps of an earlier attempt, `speak` is
a transcribe node that saves its transcript. -/
inductive SessionLabel (Id : Type)
  | request (id : Id)
  | begin (id : Id) (steps : List ExecutionStep)
  | speak (id : Id) (text : String)
  | conclude (id : Id) (outcome : Except String RunResult)
  | checkMessage (id : Id)
  | sendMessage (id : Id)
  | endSession

namespace SessionService

section

variable {Id : Type} (traffic : SessionTraffic Id)

def initial (database : Database) : SessionService Id :=
  { database := database, requests := fun _ => .absent, messages := fun _ => .absent }

def admits (service : SessionService Id) (id : Id) : Except RequestError (String × Workflow) :=
  loadAndAuthorize service.database (traffic.projectId id) false (traffic.call id).workflowId
    (traffic.call id).request.sessionId (!(traffic.call id).isDebug)
    (traffic.call id).environment.refused

def enqueued (service : SessionService Id) (id : Id) (workflowId : String) : Option Database :=
  match traffic.origin id with
  | .request => some service.database
  | .queue =>
      (enqueueExecution (traffic.call id) workflowId service.database).map Prod.snd

def entry (service : SessionService Id) (id : Id) : RequestStage × Database :=
  match service.admits traffic id with
  | .error _ => (.refused, service.database)
  | .ok (workflowId, workflow) =>
      match service.enqueued traffic id workflowId with
      | none => (.refused, service.database)
      | some database => (.accepted workflowId workflow, database)

/-- A run that cannot be prepared raises and is rolled back. -/
def begun (service : SessionService Id) (id : Id) (steps : List ExecutionStep)
    (workflowId : String) (workflow : Workflow) : RequestStage × Database :=
  match prepareTurn traffic.conversions workflowId workflow (traffic.call id)
      traffic.checkpointing steps (traffic.origin id) service.database with
  | some ((prepared, _), database) => (.running prepared, database)
  | none => (.ended, service.database)

/-- `send_manual_message` up to its write. -/
def messageStage (database : Database) (sessionId : String) : MessageStage :=
  match database.chatSessions.lookup sessionId with
  | none => .refused
  | some session => if session.isActive then .checked else .refused

variable [DecidableEq Id]

def setRequest (service : SessionService Id) (id : Id) (reached : RequestStage × Database) :
    SessionService Id :=
  { service with
    database := reached.2
    requests := Function.update service.requests id reached.1 }

def setMessage (service : SessionService Id) (id : Id) (stage : MessageStage)
    (database : Database) : SessionService Id :=
  { service with
    database := database
    messages := Function.update service.messages id stage }

def step (service : SessionService Id) : SessionLabel Id → Option (SessionService Id)
  | .request id =>
      match service.requests id with
      | .absent => some (service.setRequest id (service.entry traffic id))
      | _ => none
  | .begin id steps =>
      match service.requests id with
      | .accepted workflowId workflow =>
          some (service.setRequest id (service.begun traffic id steps workflowId workflow))
      | _ => none
  | .speak id text =>
      match service.requests id with
      | .running prepared =>
          (saveSpoken prepared.chatSessionId (some text) service.database).map (fun database =>
            { service with database := database })
      | _ => none
  | .conclude id outcome =>
      match service.requests id with
      | .running prepared =>
          (concludeRun (traffic.call id) prepared outcome service.database).map (fun concluded =>
            service.setRequest id (.ended, concluded.2))
      | _ => none
  | .checkMessage id =>
      if service.messages id = .absent then
        some (service.setMessage id (messageStage service.database traffic.sessionId)
          service.database)
      else none
  | .sendMessage id =>
      if service.messages id = .checked then
        (service.database.saveMessage traffic.sessionId (traffic.message id).message
          (traffic.message id).credits (traffic.message id).ownKeyCostUsd).map
            (service.setMessage id .sent)
      else none
  | .endSession =>
      (service.database.endSession traffic.sessionId).map (fun database =>
        { service with database := database })

def Step (service : SessionService Id) (label : SessionLabel Id) (next : SessionService Id) :
    Prop :=
  service.step traffic label = some next

def Closed (service : SessionService Id) : Prop :=
  ∃ session, service.database.chatSessions.lookup traffic.sessionId = some session ∧
    session.isActive = false

def Refused (after : SessionService Id) : SessionLabel Id → Prop
  | .request id => (after.requests id).isRefused = true
  | .checkMessage id => after.messages id = .refused
  | _ => True

structure Sealed (service : SessionService Id) (label : SessionLabel Id)
    (next : SessionService Id) : Prop where
  closed : next.Closed traffic
  conversation : next.database.conversation traffic.sessionId =
    service.database.conversation traffic.sessionId
  refused : next.Refused label

def SealedStep (service : SessionService Id) (label : SessionLabel Id)
    (next : SessionService Id) : Prop :=
  service.Step traffic label next ∧ (service.Closed traffic → service.Sealed traffic label next)

def Undisturbing (service : SessionService Id) : SessionLabel Id → Prop
  | .request id => (service.entry traffic id).1.isRefused = true
  | .speak _ _ => False
  | .conclude _ (.ok result) =>
      (service.database.chatSessions.lookup traffic.sessionId).all (nothingToWrite result) = true
  | .sendMessage _ => False
  | _ => True

def UndisturbingStep (service : SessionService Id) (label : SessionLabel Id)
    (next : SessionService Id) : Prop :=
  service.Step traffic label next ∧ (service.Closed traffic → service.Undisturbing traffic label)

end

end SessionService

/-! ### Effects on one session -/

theorem Chatless.incrementStats (clientSessionId : Option String) (credits ownKeyCostUsd : Rat) :
    Chatless (whenSome clientSessionId (fun sessionId => change (fun database =>
      database.incrementExecutionStats sessionId credits ownKeyCostUsd))) :=
  Acts.whenSome (fun _ => rfl) (fun sessionId _ => Chatless.modifyClient sessionId _)

abbrev Touches {α : Type} (sessionId : String) (effect : ChatSession → ChatSession)
    (action : Transaction Database α) : Prop :=
  Acts (fun database => database.chatSessions.lookup sessionId) (Option.map effect) action

namespace Touches

variable {α β : Type} {sessionId : String}

theorem idle {action : Transaction Database α} (chatless : Chatless action) :
    Acts (fun database => database.chatSessions.lookup sessionId) id action := by
  intro state value after ran
  exact congrArg (fun sessions => Dict.lookup sessions sessionId) (chatless state value after ran)

theorem of_chatless {action : Transaction Database α} (chatless : Chatless action) :
    Touches sessionId id action := by
  have same := @idle _ sessionId _ chatless
  rw [← Option.map_id] at same
  exact same

theorem bind {action : Transaction Database α} {next : α → Transaction Database β}
    {first second : ChatSession → ChatSession} (touches : Touches sessionId first action)
    (rest : ∀ value, Touches sessionId second (next value)) :
    Touches sessionId (second ∘ first) (action >>= next) := by
  have both := Acts.bind touches rest
  rw [Option.map_comp_map] at both
  exact both

theorem modifyChat (change : ChatSession → ChatSession) :
    Touches sessionId change
      (Transaction.change (fun database => database.modifyChat sessionId change)) := by
  apply Acts.change
  intro database after modified
  have lookups := Database.modifyChat_lookup modified sessionId
  rw [if_pos rfl] at lookups
  exact lookups

theorem saveText (role content : String) (executionId : Option String)
    (credits ownKeyCostUsd : Rat) :
    Touches sessionId (ChatSession.pushText role content executionId credits ownKeyCostUsd)
      (saveText sessionId role content executionId credits ownKeyCostUsd) := by
  unfold Assemblix.saveText ChatSession.pushText
  split
  case isTrue => exact of_chatless (Acts.pure ())
  case isFalse => exact modifyChat _

theorem saveTurn (call : ExecuteCall) (result : RunResult) :
    Touches sessionId
      (ChatSession.pushText "assistant" (answerText result) (some call.environment.executionId)
          (call.environment.credits result) (ownTotalCost result.context) ∘
        ChatSession.pushText "user" (questionText result) none 0 0)
      (saveTurn call result sessionId) :=
  bind (saveText _ _ _ _ _) (fun _ => saveText _ _ _ _ _)

theorem closing (isSessionEnd : Bool) :
    Touches sessionId (ChatSession.closeIf isSessionEnd)
      (if isSessionEnd then
        whenSome (some sessionId) (fun id =>
          Transaction.change (fun database => database.endSession id))
      else Pure.pure ()) := by
  cases isSessionEnd with
  | true => exact modifyChat _
  | false => exact of_chatless (Acts.pure ())

theorem finalizationPhase {call : ExecuteCall} {prepared : Prepared} {result : RunResult}
    (named : prepared.chatSessionId = some sessionId) :
    Touches sessionId (finalizedSession call result)
      (finalizationPhase call prepared result) := by
  unfold Assemblix.finalizationPhase Database.saveStates
  rw [named, change_bind]
  have states : Touches sessionId (ChatSession.mergeState result.context.state)
      (Transaction.change (fun database =>
          database.saveChatState (some sessionId) result.context.state) >>= fun _ =>
        Transaction.change (fun database =>
          database.saveClientState prepared.clientSessionId result.context.projectState)) := by
    apply Acts.then_idle (modifyChat _)
    intro _
    apply idle
    cases prepared.clientSessionId with
    | none => exact Acts.change (fun _ _ same => by cases same; rfl)
    | some clientSessionId => exact Chatless.modifyClient clientSessionId _
  change Touches sessionId ((ChatSession.closeIf result.isSessionEnd ∘
    ChatSession.pushText "assistant" (answerText result) (some call.environment.executionId)
        (call.environment.credits result) (ownTotalCost result.context) ∘
      ChatSession.pushText "user" (questionText result) none 0 0) ∘
        ChatSession.mergeState result.context.state) _
  apply bind states
  intro _
  apply Acts.after_idle (idle (Chatless.incrementStats _ _ _))
  intro _
  apply bind (saveTurn call result)
  intro _
  apply Acts.after_idle (idle (Chatless.updateExecution _ _))
  intro _
  exact closing result.isSessionEnd

end Touches

/-! ### Effects on a closed session -/

namespace ChatSession

variable {session : ChatSession}

theorem pushText_isActive (role content : String) (executionId : Option String)
    (credits ownKeyCostUsd : Rat) :
    (session.pushText role content executionId credits ownKeyCostUsd).isActive =
      session.isActive := by
  unfold pushText
  split <;> rfl

theorem closeIf_conversation (isSessionEnd : Bool) :
    (session.closeIf isSessionEnd).conversation = session.conversation := by
  cases isSessionEnd <;> rfl

theorem push_conversation_ne (message : ChatMessage) (credits ownKeyCostUsd : Rat) :
    (session.push message credits ownKeyCostUsd).conversation ≠ session.conversation := by
  intro same
  have counts := congrArg Conversation.messageCount same
  exact Nat.succ_ne_self session.messageCount counts

theorem pushText_messageCount (role content : String) (executionId : Option String)
    (credits ownKeyCostUsd : Rat) :
    (session.pushText role content executionId credits ownKeyCostUsd).messageCount =
      session.messageCount + if content = "" then 0 else 1 := by
  unfold pushText
  split <;> rfl

end ChatSession

theorem finalizedSession_isActive (call : ExecuteCall) (result : RunResult)
    {session : ChatSession} (closed : session.isActive = false) :
    (finalizedSession call result session).isActive = false := by
  unfold finalizedSession ChatSession.closeIf
  split
  case isTrue => rfl
  case isFalse =>
    rw [ChatSession.pushText_isActive, ChatSession.pushText_isActive]
    exact closed

theorem finalizedSession_conversation_iff (call : ExecuteCall) (result : RunResult)
    (session : ChatSession) :
    (finalizedSession call result session).conversation = session.conversation ↔
      nothingToWrite result session = true := by
  unfold finalizedSession nothingToWrite
  rw [ChatSession.closeIf_conversation, Bool.and_eq_true, Bool.and_eq_true, decide_eq_true_eq,
    decide_eq_true_eq, decide_eq_true_eq]
  constructor
  · intro same
    have counts := congrArg Conversation.messageCount same
    change ChatSession.messageCount _ = session.messageCount at counts
    rw [ChatSession.pushText_messageCount, ChatSession.pushText_messageCount] at counts
    change session.messageCount + _ + _ = session.messageCount at counts
    have question : questionText result = "" := by
      by_contra asked
      rw [if_neg asked] at counts
      omega
    have answer : answerText result = "" := by
      by_contra given
      rw [if_neg given] at counts
      omega
    have states := congrArg Conversation.currentState same
    unfold ChatSession.pushText at states
    rw [if_pos answer, if_pos question] at states
    exact ⟨⟨question, answer⟩, states⟩
  · rintro ⟨⟨question, answer⟩, states⟩
    unfold ChatSession.pushText
    rw [if_pos answer, if_pos question]
    unfold ChatSession.conversation
    exact congrArg (fun state => ({ messages := session.messages
                                    messageCount := session.messageCount
                                    currentState := state } : Conversation)) states

/-! ### One step -/

namespace SessionService

section

variable {Id : Type} {traffic : SessionTraffic Id}
  {service next : SessionService Id} {label : SessionLabel Id}

def effectOf (traffic : SessionTraffic Id) : SessionLabel Id → ChatSession → ChatSession
  | .speak _ text => ChatSession.push ⟨"user", text, none⟩ 0 0
  | .conclude id (.ok result) => finalizedSession (traffic.call id) result
  | .sendMessage id =>
      ChatSession.push (traffic.message id).message (traffic.message id).credits
        (traffic.message id).ownKeyCostUsd
  | .endSession => ChatSession.closeIf true
  | _ => id

def Named (traffic : SessionTraffic Id) (service : SessionService Id) : Prop :=
  ∀ id prepared, service.requests id = .running prepared →
    prepared.chatSessionId = some traffic.sessionId

theorem entry_chatSessions (service : SessionService Id) (id : Id) :
    (service.entry traffic id).2.chatSessions = service.database.chatSessions ∧
      ∀ prepared, (service.entry traffic id).1 ≠ .running prepared := by
  unfold entry
  split
  case h_1 => exact ⟨rfl, fun _ impossible => by cases impossible⟩
  case h_2 workflowId workflow _ =>
    split
    case h_1 => exact ⟨rfl, fun _ impossible => by cases impossible⟩
    case h_2 database enqueues =>
      refine ⟨?_, fun _ impossible => by cases impossible⟩
      unfold enqueued at enqueues
      split at enqueues
      case h_1 =>
        cases enqueues
        rfl
      case h_2 =>
        obtain ⟨⟨_, after⟩, inserted, rfl⟩ := Option.map_eq_some_iff.mp enqueues
        have chatless : Chatless (enqueueExecution (traffic.call id) workflowId) := by
          apply Acts.change
          intro before after written
          split at written
          case isTrue => cases written
          case isFalse =>
            exact (Chatless.createExecution _ _) before () after
              (Transaction.change_of_some written)
        exact chatless _ _ _ inserted

theorem begun_chatSessions (service : SessionService Id) (id : Id) (steps : List ExecutionStep)
    (workflowId : String) (workflow : Workflow) :
    (service.begun traffic id steps workflowId workflow).2.chatSessions =
        service.database.chatSessions ∧
      ∀ prepared, (service.begun traffic id steps workflowId workflow).1 = .running prepared →
        prepared.chatSessionId = some traffic.sessionId := by
  unfold begun
  split
  case h_1 prepared engine database prepares =>
    refine ⟨Chatless.prepareTurn _ _ _ (traffic.named id) _ _ _ _ _ _ prepares, ?_⟩
    intro reached same
    cases same
    exact (prepareTurn_existing (traffic.named id) prepares).1
  case h_2 => exact ⟨rfl, fun _ impossible => by cases impossible⟩

theorem effectOf_isActive (label : SessionLabel Id) {session : ChatSession}
    (closed : session.isActive = false) : (effectOf traffic label session).isActive = false := by
  cases label with
  | conclude id outcome =>
      cases outcome with
      | error error => exact closed
      | ok result => exact finalizedSession_isActive _ _ closed
  | endSession => rfl
  | _ => exact closed

theorem Closed.messageStage (closed : service.Closed traffic) :
    messageStage service.database traffic.sessionId = .refused := by
  obtain ⟨session, found, inactive⟩ := closed
  unfold SessionService.messageStage
  rw [found]
  simp [inactive]

variable [DecidableEq Id]

inductive Moves (traffic : SessionTraffic Id) (service : SessionService Id) :
    SessionLabel Id → SessionService Id → Prop
  | request (id : Id) :
      Moves traffic service (.request id) (service.setRequest id (service.entry traffic id))
  | begin (id : Id) (steps : List ExecutionStep) (workflowId : String) (workflow : Workflow) :
      Moves traffic service (.begin id steps)
        (service.setRequest id (service.begun traffic id steps workflowId workflow))
  | speak (id : Id) (text : String) (prepared : Prepared) (database : Database)
      (running : service.requests id = .running prepared)
      (saved : saveSpoken prepared.chatSessionId (some text) service.database = some database) :
      Moves traffic service (.speak id text) { service with database := database }
  | conclude (id : Id) (outcome : Except String RunResult) (prepared : Prepared)
      (response : ExecuteResponse) (database : Database)
      (running : service.requests id = .running prepared)
      (concluded : concludeRun (traffic.call id) prepared outcome service.database =
        some (response, database)) :
      Moves traffic service (.conclude id outcome) (service.setRequest id (.ended, database))
  | checkMessage (id : Id) :
      Moves traffic service (.checkMessage id)
        (service.setMessage id (messageStage service.database traffic.sessionId) service.database)
  | sendMessage (id : Id) (database : Database)
      (saved : service.database.saveMessage traffic.sessionId (traffic.message id).message
        (traffic.message id).credits (traffic.message id).ownKeyCostUsd = some database) :
      Moves traffic service (.sendMessage id) (service.setMessage id .sent database)
  | endSession (database : Database)
      (ended : service.database.endSession traffic.sessionId = some database) :
      Moves traffic service .endSession { service with database := database }

theorem Step.moves (taken : service.Step traffic label next) :
    Moves traffic service label next := by
  unfold Step at taken
  cases label with
  | request id =>
      simp only [SessionService.step] at taken
      split at taken
      case h_1 =>
        cases taken
        exact .request id
      case h_2 => cases taken
  | begin id steps =>
      simp only [SessionService.step] at taken
      split at taken
      case h_1 workflowId workflow _ =>
        cases taken
        exact .begin id steps workflowId workflow
      case h_2 => cases taken
  | speak id text =>
      simp only [SessionService.step] at taken
      split at taken
      case h_1 prepared running =>
        obtain ⟨database, saved, rfl⟩ := Option.map_eq_some_iff.mp taken
        exact .speak id text prepared database running saved
      case h_2 => cases taken
  | conclude id outcome =>
      simp only [SessionService.step] at taken
      split at taken
      case h_1 prepared running =>
        obtain ⟨⟨response, database⟩, concluded, rfl⟩ := Option.map_eq_some_iff.mp taken
        exact .conclude id outcome prepared response database running concluded
      case h_2 => cases taken
  | checkMessage id =>
      simp only [SessionService.step] at taken
      split at taken
      case isTrue =>
        cases taken
        exact .checkMessage id
      case isFalse => cases taken
  | sendMessage id =>
      simp only [SessionService.step] at taken
      split at taken
      case isTrue =>
        obtain ⟨database, saved, rfl⟩ := Option.map_eq_some_iff.mp taken
        exact .sendMessage id database saved
      case isFalse => cases taken
  | endSession =>
      obtain ⟨database, ended, rfl⟩ := Option.map_eq_some_iff.mp taken
      exact .endSession database ended

theorem Named.setRequest (named : service.Named traffic) {id : Id}
    {reached : RequestStage × Database}
    (fine : ∀ prepared, reached.1 = .running prepared →
      prepared.chatSessionId = some traffic.sessionId) :
    (service.setRequest id reached).Named traffic :=
  (Function.forall_update_iff service.requests (fun _ stage =>
      ∀ prepared, stage = .running prepared →
        prepared.chatSessionId = some traffic.sessionId)).mpr
    ⟨fine, fun other _ => named other⟩

theorem Named.step (named : service.Named traffic) (taken : service.Step traffic label next) :
    next.Named traffic := by
  cases taken.moves with
  | request id =>
      apply named.setRequest
      intro prepared running
      exact absurd running ((service.entry_chatSessions id).2 prepared)
  | begin id steps workflowId workflow =>
      exact named.setRequest (service.begun_chatSessions id steps workflowId workflow).2
  | conclude id outcome prepared response database =>
      apply named.setRequest
      intro prepared impossible
      cases impossible
  | speak id text prepared database => exact named
  | checkMessage id => exact named
  | sendMessage id database => exact named
  | endSession database => exact named

theorem Step.session (named : service.Named traffic) (taken : service.Step traffic label next) :
    next.database.chatSessions.lookup traffic.sessionId =
      (service.database.chatSessions.lookup traffic.sessionId).map (effectOf traffic label) := by
  have idle : ∀ {after : Database}, after.chatSessions = service.database.chatSessions →
      after.chatSessions.lookup traffic.sessionId =
        (service.database.chatSessions.lookup traffic.sessionId).map id := by
    intro after same
    rw [same, Option.map_id]
    rfl
  cases taken.moves with
  | request id => exact idle (service.entry_chatSessions id).1
  | begin id steps workflowId workflow =>
      exact idle (service.begun_chatSessions id steps workflowId workflow).1
  | speak id text prepared database running saved =>
      rw [named id prepared running] at saved
      exact Touches.modifyChat _ _ () _ (Transaction.change_of_some saved)
  | conclude id outcome prepared response database running concluded =>
      cases outcome with
      | error error =>
          obtain ⟨_, middle, handled, last⟩ := bind_eq_some.mp concluded
          cases last
          exact idle (Chatless.handleError _ _ _ _ _ _ handled)
      | ok result =>
          obtain ⟨_, middle, finalized, last⟩ := bind_eq_some.mp concluded
          cases last
          exact Touches.finalizationPhase (named id prepared running) _ _ _ finalized
  | checkMessage id => exact idle rfl
  | sendMessage id database saved =>
      exact Touches.modifyChat _ _ () _ (Transaction.change_of_some saved)
  | endSession database ended =>
      exact Touches.modifyChat _ _ () _ (Transaction.change_of_some ended)

theorem Step.request {id : Id} (taken : service.Step traffic (.request id) next) :
    next.requests id = (service.entry traffic id).1 := by
  cases taken.moves
  exact Function.update_self _ _ _

theorem Step.checkMessage {id : Id} (taken : service.Step traffic (.checkMessage id) next) :
    next.messages id = messageStage service.database traffic.sessionId := by
  cases taken.moves
  exact Function.update_self _ _ _

theorem Closed.step (closed : service.Closed traffic) (named : service.Named traffic)
    (taken : service.Step traffic label next) : next.Closed traffic := by
  obtain ⟨session, found, inactive⟩ := closed
  have effect := taken.session named
  rw [found] at effect
  exact ⟨_, effect, effectOf_isActive label inactive⟩

theorem Closed.sealed_iff (closed : service.Closed traffic) (named : service.Named traffic)
    (taken : service.Step traffic label next) :
    service.Sealed traffic label next ↔ service.Undisturbing traffic label := by
  have staysClosed := closed.step named taken
  have refusing := closed.messageStage
  obtain ⟨session, found, inactive⟩ := closed
  have effect := taken.session named
  rw [found] at effect
  have same : next.database.conversation traffic.sessionId =
      service.database.conversation traffic.sessionId ↔
        (effectOf traffic label session).conversation = session.conversation := by
    unfold Database.conversation
    rw [effect, found]
    exact Option.some_inj
  have splits : service.Sealed traffic label next ↔
      (effectOf traffic label session).conversation = session.conversation ∧
        next.Refused label := by
    rw [← same]
    constructor
    · intro sealed_
      exact ⟨sealed_.conversation, sealed_.refused⟩
    · rintro ⟨conversation, refused⟩
      exact ⟨staysClosed, conversation, refused⟩
  rw [splits]
  cases label with
  | request id =>
      change _ ∧ (next.requests id).isRefused = true ↔ (service.entry traffic id).1.isRefused = true
      rw [taken.request]
      exact ⟨fun both => both.2, fun refused => ⟨rfl, refused⟩⟩
  | begin id steps => exact ⟨fun _ => trivial, fun _ => ⟨rfl, trivial⟩⟩
  | speak id text =>
      constructor
      · intro both
        exact ChatSession.push_conversation_ne _ _ _ both.1
      · intro impossible
        cases impossible
  | conclude id outcome =>
      cases outcome with
      | error error => exact ⟨fun _ => trivial, fun _ => ⟨rfl, trivial⟩⟩
      | ok result =>
          have idle := finalizedSession_conversation_iff (traffic.call id) result session
          change _ ↔ (service.database.chatSessions.lookup traffic.sessionId).all
            (nothingToWrite result) = true
          rw [found, Option.all_some, ← idle]
          exact ⟨fun both => both.1, fun unchanged => ⟨unchanged, trivial⟩⟩
  | checkMessage id =>
      exact ⟨fun _ => trivial, fun _ => ⟨rfl, taken.checkMessage.trans refusing⟩⟩
  | sendMessage id =>
      constructor
      · intro both
        exact ChatSession.push_conversation_ne _ _ _ both.1
      · intro impossible
        cases impossible
  | endSession =>
      exact ⟨fun _ => trivial, fun _ => ⟨ChatSession.closeIf_conversation true, trivial⟩⟩

/-- In every order of requests, runs, messages and endings: a closed session stays closed and
as it is and refuses, throughout, exactly when no request passes the entry checks once it is
closed and nothing that is in flight writes to it any more. -/
theorem closed_session_sealed_iff (traffic : SessionTraffic Id) (database : Database)
    (labels : List (SessionLabel Id)) (last : SessionService Id) :
    Run (SealedStep traffic) (initial database) labels last ↔
      Run (UndisturbingStep traffic) (initial database) labels last := by
  have fresh : (initial database : SessionService Id).Named traffic := by
    intro id prepared impossible
    cases impossible
  constructor
  · intro run
    apply run.mono_within (Named traffic) fresh
    · intro state label next named taken
      exact named.step taken.1
    · intro state label next named taken
      exact ⟨taken.1, fun closed => (closed.sealed_iff named taken.1).mp (taken.2 closed)⟩
  · intro run
    apply run.mono_within (Named traffic) fresh
    · intro state label next named taken
      exact named.step taken.1
    · intro state label next named taken
      exact ⟨taken.1, fun closed => (closed.sealed_iff named taken.1).mpr (taken.2 closed)⟩

end

/-! ### A second request after END has closed the session -/

def closingTraffic : SessionTraffic Nat where
  conversions := echoConversions
  sessionId := "mine"
  projectId := fun _ => "p"
  call := fun id =>
    { helloCall "mine" with
      environment := { (helloCall "mine").environment with executionId := toString id } }
  named := fun _ => rfl
  origin := fun _ => .request
  checkpointing := false
  message := fun _ => ⟨⟨"user", "again", none⟩, 0, 0⟩

def closingResult (isSessionEnd : Bool) (text : String) : RunResult where
  output := Dict.empty.set "message" (.str text)
  context := prepareContext (echoWorkflow "p" none).definition Dict.empty Dict.empty Dict.empty []
    none
  isSessionEnd := isSessionEnd
  isError := false
  errorMessage := ""

def secondRequest : List (SessionLabel Nat) :=
  [.request 0, .begin 0 [], .conclude 0 (.ok (closingResult true "bye")),
    .request 1, .begin 1 [], .conclude 1 (.ok (closingResult false "hello again"))]

/-- The second request is accepted, and its answer is stored on the closed session. -/
theorem closed_session_answers :
    ∃ closed last,
      Run (Step closingTraffic) (initial (twoProjects "")) (secondRequest.take 3) closed ∧
        closed.Closed closingTraffic ∧
        closed.database.conversation "mine" =
          some ⟨[⟨"assistant", "bye", some "0"⟩], 1, Dict.empty⟩ ∧
        Run (Step closingTraffic) (initial (twoProjects "")) secondRequest last ∧
        (last.requests 1).isRefused = false ∧
        last.database.conversation "mine" =
          some ⟨[⟨"assistant", "bye", some "0"⟩, ⟨"assistant", "hello again", some "1"⟩], 2,
            Dict.empty⟩ := by
  have first := @Run.of_foldlM _ _ (step closingTraffic) (initial (twoProjects ""))
    (secondRequest.take 3) _ rfl
  have whole := @Run.of_foldlM _ _ (step closingTraffic) (initial (twoProjects ""))
    secondRequest _ rfl
  exact ⟨_, _, first, ⟨_, rfl, rfl⟩, rfl, whole, rfl, rfl⟩

end SessionService

end Assemblix
