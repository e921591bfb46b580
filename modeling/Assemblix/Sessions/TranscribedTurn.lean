import Assemblix.Sessions.TaskResult
import Assemblix.Execution.ResumeBilling

/-
What a failed run leaves on an existing chat session.

Finalization writes the conversation of a run, and a failed run is not finalized. A
transcribe node writes earlier: its body saves the transcript as the turn of the user. The
sequential engine commits it with the record of the step, the parallel engine with the
session of the branch, which may end before its completion is processed. Every other node
under the engines leaves the chat session alone.
-/

namespace Assemblix

open Library Transaction

/-! ### The transcribe node -/

/-- What transcribe nodes read and call: their option, the raw audio of the run, the provider
with its key, and the database that takes the message. -/
structure Transcription where
  saveAsUserMessage : String → Bool
  audioInput : Bool
  transcribe : String → NodeInput → Except String String
  accept : String → NodeInput → Except String Unit

namespace TranscribeNode

def hears (transcription : Transcription) (input : NodeInput) : Bool :=
  isAudioInput input.data && transcription.audioInput

def body (transcription : Transcription) (chatSessionId : Option String) (nodeId : String)
    (input : NodeInput) : Except String (NodeOutput × Option String) :=
  if TranscribeNode.hears transcription input then do
    let text ← transcription.transcribe nodeId input
    let data := (input.data.set "message" (.str text)).set "input_type" (.str "text")
    if transcription.saveAsUserMessage nodeId && chatSessionId.isSome then
      transcription.accept nodeId input
      pure ({ data := data, userTurn := some text }, some text)
    else pure ({ data := data, userTurn := some text }, none)
  else pure ({ data := input.data }, none)

def execute (transcription : Transcription) (chatSessionId : Option String) (nodeId : String)
    (input : NodeInput) : Except String NodeOutput :=
  (body transcription chatSessionId nodeId input).map Prod.fst

def saved (transcription : Transcription) (chatSessionId : Option String) (nodeId : String)
    (input : NodeInput) : Option String :=
  (body transcription chatSessionId nodeId input).toOption.bind Prod.snd

theorem saved_of_text {transcription : Transcription} {input : NodeInput}
    (text : TranscribeNode.hears transcription input = false) (chatSessionId : Option String)
    (nodeId : String) : saved transcription chatSessionId nodeId input = none := by
  unfold saved body
  rw [text]
  rfl

end TranscribeNode

def Transcription.library (transcription : Transcription) (chatSessionId : Option String)
    (others : NodeLibrary) : NodeLibrary :=
  { others with
    registered := fun type => decide (type = "transcribe") || others.registered type
    execute := fun node input =>
      if node.type = "transcribe" then
        TranscribeNode.execute transcription chatSessionId node.id input
      else others.execute node input }

def Node.saved (transcription : Transcription) (chatSessionId : Option String)
    (input : NodeInput) : Node → Option String
  | .task node =>
      if node.type = "transcribe" then
        TranscribeNode.saved transcription chatSessionId node.id input
      else none
  | _ => none

/-! ### A run and its database -/

/-- `committed` lists the step numbers of the branches whose session is committed. -/
structure TurnRun where
  engine : Engine
  database : Database
  committed : List Nat

inductive TurnLabel
  | engine (label : EngineLabel)
  | commitBranch (position : Nat)
  deriving DecidableEq, Repr

def saveSpoken (chatSessionId : Option String) (spoken : Option String) (database : Database) :
    Option Database :=
  match chatSessionId, spoken with
  | some sessionId, some text => database.saveMessage sessionId ⟨"user", text, none⟩ 0 0
  | _, _ => some database

namespace TurnRun

section

variable (transcription : Transcription) (others : NodeLibrary) (chatSessionId : Option String)

def library : NodeLibrary := transcription.library chatSessionId others

/-- The body ran on the session of the run, which is committed with the step. -/
def spokenBy (engine : Engine) (label : EngineLabel) : Option String :=
  match engine, label with
  | .sequential state, .advance =>
      ((Engine.sequential state).completion (library transcription others chatSessionId)
        .advance).bind (fun completed => completed.1.saved transcription chatSessionId
          (nodeInput state.context (inputData state.context completed.1 state.previousOutput)))
  | _, _ => none

def returned (engine : Engine) (position : Nat) : Option InFlight :=
  match engine with
  | .parallel state =>
      (state.running[position]?).filter (fun entry =>
        (state.outcomeOf (library transcription others chatSessionId) entry
          state.steps.length).isOk)
  | _ => none

def branchEnded (run : TurnRun) : EngineLabel → Bool
  | .complete position _ =>
      match returned transcription others chatSessionId run.engine position with
      | some entry => decide (entry.launch.stepNumber ∈ run.committed)
      | none => true
  | _ => true

def speaks (run : TurnRun) : TurnLabel → Option String
  | .engine label => spokenBy transcription others chatSessionId run.engine label
  | .commitBranch position =>
      (returned transcription others chatSessionId run.engine position).bind (fun entry =>
        entry.node.saved transcription chatSessionId entry.input)

def moved (run : TurnRun) : TurnLabel → Option (Engine × List Nat)
  | .engine label =>
      if run.branchEnded transcription others chatSessionId label then
        (run.engine.step (library transcription others chatSessionId) label).map
          (fun next => (next, run.committed))
      else none
  | .commitBranch position =>
      match returned transcription others chatSessionId run.engine position with
      | none => none
      | some entry =>
          if entry.launch.stepNumber ∈ run.committed then none
          else some (run.engine, entry.launch.stepNumber :: run.committed)

def step (run : TurnRun) (label : TurnLabel) : Option TurnRun :=
  (run.moved transcription others chatSessionId label).bind (fun reached =>
    (saveSpoken chatSessionId (run.speaks transcription others chatSessionId label)
      run.database).map (fun database =>
        { engine := reached.1, database := database, committed := reached.2 }))

def Step (run : TurnRun) (label : TurnLabel) (next : TurnRun) : Prop :=
  run.step transcription others chatSessionId label = some next

def begin (engine : Engine) (database : Database) : TurnRun :=
  { engine := engine, database := database, committed := [] }

def SilentStep (run : TurnRun) (label : TurnLabel) (next : TurnRun) : Prop :=
  run.Step transcription others chatSessionId label next ∧
    run.speaks transcription others chatSessionId label = none

end

end TurnRun

/-! ### From the request to the handler -/

def turnPreparation (workflow : Workflow) (checkpointing : Bool) (origin : RowOrigin)
    (opened : Prepared × Data) : Preparation where
  checkpointing := checkpointing && decide (origin = .queue)
  workflow := workflow.definition
  inputData := opened.1.context.inputData
  initialState := opened.2
  projectState := opened.1.context.projectState
  chatHistory := opened.1.context.chatHistory

def recordTurn (workflowId : String) (call : ExecuteCall) (opened : Prepared × Data) :
    RowOrigin → Transaction Database Unit
  | .request => change (fun database => database.createExecution call.environment.executionId
      (createdRow call workflowId opened.1 opened.2))
  | .queue => change (fun database =>
      database.updateExecution call.environment.executionId markedRunning)

/-- `_preparation_phase` with the persisted steps of the execution. -/
def prepareTurn (conversions : Conversions) (workflowId : String) (workflow : Workflow)
    (call : ExecuteCall) (checkpointing : Bool) (steps : List ExecutionStep)
    (origin : RowOrigin) : Transaction Database (Prepared × Engine) := do
  let opened ← prepareSessions conversions workflow workflowId call
  recordTurn workflowId call opened origin
  let preparation := turnPreparation workflow checkpointing origin opened
  pure
    ({ opened.1 with context := preparation.context (preparation.resumePoint steps) },
      preparation.engine steps)

def concludeFailed (call : ExecuteCall) (prepared : Prepared) (text : RunError → String)
    (run : TurnRun) : Option Database :=
  match run.engine with
  | .failed error _ =>
      some (match handleError call prepared (text error) run.database with
        | some (_, after) => after
        | none => run.database)
  | _ => none

structure Conversation where
  messages : List ChatMessage
  messageCount : Nat
  currentState : Data
  deriving DecidableEq

def ChatSession.conversation (session : ChatSession) : Conversation where
  messages := session.messages
  messageCount := session.messageCount
  currentState := session.currentState

def Database.conversation (database : Database) (sessionId : String) : Option Conversation :=
  (database.chatSessions.lookup sessionId).map ChatSession.conversation

/-! ### What a step writes -/

namespace TurnRun

section

variable {transcription : Transcription} {others : NodeLibrary} {chatSessionId : Option String}
  {run next : TurnRun} {label : TurnLabel}

theorem Step.parts (taken : run.Step transcription others chatSessionId label next) :
    run.moved transcription others chatSessionId label = some (next.engine, next.committed) ∧
      saveSpoken chatSessionId (run.speaks transcription others chatSessionId label)
        run.database = some next.database := by
  obtain ⟨reached, moves, saves⟩ := Option.bind_eq_some_iff.mp taken
  obtain ⟨database, saved, rfl⟩ := Option.map_eq_some_iff.mp saves
  exact ⟨moves, saved⟩

theorem SilentStep.database
    (taken : run.SilentStep transcription others chatSessionId label next) :
    next.database = run.database := by
  have saved := taken.1.parts.2
  rw [taken.2] at saved
  unfold saveSpoken at saved
  cases chatSessionId with
  | none => exact (Option.some.inj saved).symm
  | some sessionId => exact (Option.some.inj saved).symm

def messageCount (sessionId : String) (run : TurnRun) : Nat :=
  ((run.database.conversation sessionId).map Conversation.messageCount).getD 0

theorem saveMessage_conversation {sessionId : String} {message : ChatMessage}
    {credits ownKeyCostUsd : Rat} {database after : Database}
    (saved : database.saveMessage sessionId message credits ownKeyCostUsd = some after) :
    ∃ before, database.conversation sessionId = some before ∧
      after.conversation sessionId = some
        { before with
          messages := before.messages ++ [message]
          messageCount := before.messageCount + 1 } := by
  unfold Database.saveMessage at saved
  have lookups := Database.modifyChat_lookup saved sessionId
  obtain ⟨session, found, _⟩ := Option.map_eq_some_iff.mp saved
  rw [if_pos rfl, found] at lookups
  refine ⟨session.conversation, ?_, ?_⟩
  · unfold Database.conversation
    rw [found]
    rfl
  · unfold Database.conversation
    rw [lookups]
    rfl

theorem Step.silent_or_grows {sessionId : String}
    (taken : run.Step transcription others (some sessionId) label next) :
    run.SilentStep transcription others (some sessionId) label next ∧
        next.messageCount sessionId = run.messageCount sessionId ∨
      run.messageCount sessionId < next.messageCount sessionId := by
  cases spoken : run.speaks transcription others (some sessionId) label with
  | none =>
      have silent : run.SilentStep transcription others (some sessionId) label next :=
        ⟨taken, spoken⟩
      left
      refine ⟨silent, ?_⟩
      unfold messageCount
      rw [silent.database]
  | some text =>
      right
      have saved := taken.parts.2
      rw [spoken] at saved
      obtain ⟨before, found, after⟩ := saveMessage_conversation saved
      unfold messageCount
      rw [found, after]
      exact Nat.lt_succ_self before.messageCount

theorem silentRun_database {first last : TurnRun} {labels : List TurnLabel}
    (run : Run (SilentStep transcription others chatSessionId) first labels last) :
    last.database = first.database := by
  induction run with
  | nil => rfl
  | snoc _ taken ih => exact taken.database.trans ih

theorem run_conversation_iff {sessionId : String} {first last : TurnRun}
    {labels : List TurnLabel}
    (run : Run (Step transcription others (some sessionId)) first labels last) :
    last.database.conversation sessionId = first.database.conversation sessionId ↔
      Run (SilentStep transcription others (some sessionId)) first labels last := by
  constructor
  · intro untouched
    have grown := run.guarded_of_measure (messageCount sessionId)
      (fun _ _ _ taken => taken.silent_or_grows)
    apply grown.2
    unfold messageCount
    rw [untouched]
  · intro silent
    rw [silentRun_database silent]

theorem speaks_of_text (text : transcription.audioInput = false) :
    run.speaks transcription others chatSessionId label = none := by
  have saves : ∀ (node : Node) (input : NodeInput),
      node.saved transcription chatSessionId input = none := by
    intro node input
    have deaf : TranscribeNode.hears transcription input = false := by
      unfold TranscribeNode.hears
      rw [text, Bool.and_false]
    cases node with
    | task task =>
        change (if task.type = "transcribe" then _ else none) = none
        split
        · exact TranscribeNode.saved_of_text deaf _ _
        · rfl
    | _ => rfl
  cases label with
  | engine label =>
      change spokenBy transcription others chatSessionId run.engine label = none
      unfold spokenBy
      split
      · simp only [saves, Option.bind_fun_none]
      · rfl
  | commitBranch position =>
      change (returned transcription others chatSessionId run.engine position).bind _ = none
      simp only [saves, Option.bind_fun_none]

end

end TurnRun

/-! ### Preparation and handler -/

abbrev Chatless {α : Type} (action : Transaction Database α) : Prop :=
  Acts Database.chatSessions id action

namespace Chatless

variable {α : Type}

theorem modifyClient (sessionId : String) (modify : ClientSession → ClientSession) :
    Chatless (Transaction.change (fun database => database.modifyClient sessionId modify)) := by
  apply Acts.change
  intro database after modified
  obtain ⟨_, rfl⟩ := Database.modifyClient_rest modified
  rfl

theorem createClientSession (sessionId : String) (session : ClientSession) :
    Chatless (Transaction.change (fun database =>
      database.createClientSession sessionId session)) := by
  apply Acts.change
  intro database after created
  unfold Database.createClientSession at created
  split at created
  case isTrue => cases created
  case isFalse =>
    cases created
    rfl

theorem updateExecution (executionId : String) (update : Execution → Execution) :
    Chatless (Transaction.change (fun database =>
      database.updateExecution executionId update)) := by
  apply Acts.change
  intro database after updated
  obtain ⟨_, _, rfl⟩ := Option.map_eq_some_iff.mp updated
  rfl

theorem createExecution (executionId : String) (execution : Execution) :
    Chatless (Transaction.change (fun database =>
      database.createExecution executionId execution)) := by
  apply Acts.change
  intro database after created
  unfold Database.createExecution at created
  split at created
  case isTrue => cases created
  case isFalse =>
    cases created
    rfl

theorem openClientSession (project : Project) (projectId : String) (call : ExecuteCall)
    (inputData : Data) : Chatless (openClientSession project projectId call inputData) := by
  unfold Assemblix.openClientSession
  apply Acts.after_idle (Acts.ask _)
  intro clientId
  cases clientId with
  | none => exact Acts.pure none
  | some clientId =>
      apply Acts.after_idle
      · unfold prepareClientSession getOrCreateByClientId
        apply Acts.after_idle
        · apply Acts.after_idle (Acts.ask _)
          intro existing
          cases existing with
          | some sessionId => exact Acts.pure sessionId
          | none => exact Acts.after_idle (createClientSession _ _) (fun _ => Acts.pure _)
        · intro sessionId
          apply Acts.after_idle (Acts.ask _)
          intro metadata
          apply Acts.after_idle
          · split
            · exact Acts.change (fun _ _ same => by cases same; rfl)
            · exact modifyClient sessionId _
          · intro _
            exact Acts.after_idle (modifyClient sessionId _) (fun _ => Acts.pure _)
      · intro sessionId
        exact Acts.pure (some sessionId)

theorem prepareSessions (conversions : Conversions) (workflow : Workflow) (workflowId : String)
    {call : ExecuteCall} {sessionId : String} (existing : call.request.sessionId = some sessionId) :
    Chatless (prepareSessions conversions workflow workflowId call) := by
  unfold Assemblix.prepareSessions openChatSession
  rw [existing]
  apply Acts.after_idle (Acts.ask _)
  intro project
  apply Acts.after_idle (openClientSession _ _ _ _)
  intro clientSessionId
  apply Acts.after_idle (Acts.pure _)
  intro chat
  apply Acts.after_idle (Acts.ask _)
  intro history
  apply Acts.after_idle (Acts.ask _)
  intro customState
  apply Acts.after_idle (Acts.ask _)
  intro customProjectState
  apply Acts.after_idle (Acts.ask _)
  intro states
  exact Acts.pure _

theorem recordTurn (workflowId : String) (call : ExecuteCall) (opened : Prepared × Data)
    (origin : RowOrigin) : Chatless (recordTurn workflowId call opened origin) := by
  cases origin with
  | request => exact createExecution _ _
  | queue => exact updateExecution _ _

theorem prepareTurn (conversions : Conversions) (workflowId : String) (workflow : Workflow)
    {call : ExecuteCall} {sessionId : String} (existing : call.request.sessionId = some sessionId)
    (checkpointing : Bool) (steps : List ExecutionStep) (origin : RowOrigin) :
    Chatless (prepareTurn conversions workflowId workflow call checkpointing steps origin) := by
  apply Acts.after_idle (prepareSessions conversions workflow workflowId existing)
  intro opened
  apply Acts.after_idle (recordTurn workflowId call opened origin)
  intro _
  exact Acts.pure _

theorem handleError (call : ExecuteCall) (prepared : Prepared) (error : String) :
    Chatless (handleError call prepared error) := updateExecution _ _

theorem conversation {action : Transaction Database α} (chatless : Chatless action)
    {database after : Database} {value : α} (ran : action database = some (value, after))
    (sessionId : String) : after.conversation sessionId = database.conversation sessionId := by
  have kept := chatless database value after ran
  unfold Database.conversation
  rw [kept]
  rfl

end Chatless

section

variable {conversions : Conversions} {workflowId : String} {workflow : Workflow}
  {call : ExecuteCall} {checkpointing : Bool} {steps : List ExecutionStep} {origin : RowOrigin}
  {sessionId : String} {database begun : Database} {prepared : Prepared} {engine : Engine}

theorem prepareTurn_existing (existing : call.request.sessionId = some sessionId)
    (prepares : prepareTurn conversions workflowId workflow call checkpointing steps origin
      database = some ((prepared, engine), begun)) :
    prepared.chatSessionId = some sessionId ∧
      begun.conversation sessionId = database.conversation sessionId := by
  refine ⟨?_, (Chatless.prepareTurn conversions workflowId workflow existing checkpointing steps
    origin).conversation prepares sessionId⟩
  obtain ⟨opened, _, opening, rest⟩ := bind_eq_some.mp prepares
  obtain ⟨_, _, _, last⟩ := bind_eq_some.mp rest
  cases last
  have named : opened.1.chatSessionId = call.request.sessionId :=
    (prepareSessions_chat opening).mpr (by
      unfold createsSession
      rw [existing]
      rfl)
  exact named.trans existing

theorem concludeFailed_conversation {text : RunError → String} {run : TurnRun}
    {after : Database} (concluded : concludeFailed call prepared text run = some after) :
    after.conversation sessionId = run.database.conversation sessionId := by
  unfold concludeFailed at concluded
  split at concluded
  case h_1 error rows failed =>
    cases concluded
    split
    case h_1 value after handled =>
      exact (Chatless.handleError call prepared (text error)).conversation handled sessionId
    case h_2 => rfl
  case h_2 => cases concluded

/-- A run on an existing chat session that fails, at any step of either engine, leaves the
conversation as it was exactly when no transcribe node has saved its transcript. -/
theorem failed_turn_untouched_iff (transcription : Transcription) (others : NodeLibrary)
    (existing : call.request.sessionId = some sessionId)
    (prepares : prepareTurn conversions workflowId workflow call checkpointing steps origin
      database = some ((prepared, engine), begun))
    {labels : List TurnLabel} {last : TurnRun}
    (run : Run (TurnRun.Step transcription others prepared.chatSessionId)
      (TurnRun.begin engine begun) labels last)
    {text : RunError → String} {after : Database}
    (concluded : concludeFailed call prepared text last = some after) :
    after.conversation sessionId = database.conversation sessionId ↔
      Run (TurnRun.SilentStep transcription others prepared.chatSessionId)
        (TurnRun.begin engine begun) labels last := by
  obtain ⟨named, unprepared⟩ := prepareTurn_existing existing prepares
  rw [concludeFailed_conversation concluded, ← unprepared]
  rw [named] at run ⊢
  exact TurnRun.run_conversation_iff run

end

/-! ### An agent that raises after the transcript is saved -/

def spokenWorkflow : Workflow :=
  { echoWorkflow "p" (some "draft") with
    definition :=
      { nodes := [⟨"s", "start"⟩, ⟨"t", "transcribe"⟩, ⟨"a", "agent"⟩, ⟨"e", "end"⟩]
        edges := [⟨"s", "t", none⟩, ⟨"t", "a", none⟩, ⟨"a", "e", none⟩]
        conditions := fun _ => []
        endConfig := fun _ => {} } }

def spokenCall (inputType : String) : ExecuteCall :=
  { helloCall "mine" with
    request :=
      { input := Dict.empty.set "input_type" (.str inputType), sessionId := some "mine" } }

def dictation (audioInput : Bool) : Transcription where
  saveAsUserMessage := fun _ => true
  audioInput := audioInput
  transcribe := fun _ _ => .ok "hello"
  accept := fun _ _ => .ok ()

def silentAgent : NodeLibrary where
  registered := fun type => decide (type = "agent")
  execute := fun _ _ => .error "no answer"
  evaluate := fun _ _ => .ok false
  render := fun template _ => template

def anyError (_ : RunError) : String := "no answer"

def spokenTurn (inputType : String) : TurnRun :=
  match prepareTurn echoConversions "v1" spokenWorkflow (spokenCall inputType) false [] .request
      (twoProjects "") with
  | some ((_, engine), begun) => TurnRun.begin engine begun
  | none => TurnRun.begin (.failed .timeout []) (twoProjects "")

def threeNodes : List TurnLabel := [.engine .advance, .engine .advance, .engine .advance]

theorem failed_turn_untouched_iff_text :
    ∃ prepared engine begun last after,
      prepareTurn echoConversions "v1" spokenWorkflow (spokenCall "text") false [] .request
          (twoProjects "") = some ((prepared, engine), begun) ∧
        Run (TurnRun.Step (dictation false) silentAgent prepared.chatSessionId)
          (TurnRun.begin engine begun) threeNodes last ∧
        concludeFailed (spokenCall "text") prepared anyError last = some after ∧
        after.conversation "mine" = (twoProjects "").conversation "mine" := by
  obtain ⟨prepared, engine, begun, prepares, named, last, ran, after, concluded⟩ :
      ∃ prepared engine begun,
        prepareTurn echoConversions "v1" spokenWorkflow (spokenCall "text") false [] .request
            (twoProjects "") = some ((prepared, engine), begun) ∧
          prepared.chatSessionId = some "mine" ∧
          ∃ last, threeNodes.foldlM (TurnRun.step (dictation false) silentAgent (some "mine"))
              (TurnRun.begin engine begun) = some last ∧
            ∃ after, concludeFailed (spokenCall "text") prepared anyError last = some after :=
    ⟨_, _, _, rfl, rfl, _, rfl, _, rfl⟩
  have executed := Run.of_foldlM (TurnRun.begin engine begun) threeNodes last ran
  rw [← named] at executed
  refine ⟨prepared, engine, begun, last, after, prepares, executed, concluded, ?_⟩
  apply (failed_turn_untouched_iff (dictation false) silentAgent rfl prepares executed
    concluded).mpr
  exact executed.mono (fun _ _ _ taken => ⟨taken, TurnRun.speaks_of_text rfl⟩)

/-- The run fails and its session has a user message more than before. -/
theorem failed_turn_keeps_transcript :
    ∃ prepared engine begun last after,
      prepareTurn echoConversions "v1" spokenWorkflow (spokenCall "audio") false [] .request
          (twoProjects "") = some ((prepared, engine), begun) ∧
        Run (TurnRun.Step (dictation true) silentAgent prepared.chatSessionId)
          (TurnRun.begin engine begun) threeNodes last ∧
        concludeFailed (spokenCall "audio") prepared anyError last = some after ∧
        (twoProjects "").conversation "mine" = some ⟨[], 0, Dict.empty⟩ ∧
        after.conversation "mine" = some ⟨[⟨"user", "hello", none⟩], 1, Dict.empty⟩ := by
  have executed := @Run.of_foldlM _ _ (TurnRun.step (dictation true) silentAgent (some "mine"))
    (spokenTurn "audio") threeNodes _ rfl
  exact ⟨_, _, _, _, _, rfl, executed, rfl, rfl, rfl⟩

end Assemblix
