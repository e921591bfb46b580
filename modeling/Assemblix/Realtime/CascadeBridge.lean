import Mathlib.Data.Rat.Defs
import Assemblix.Library.Words
import Assemblix.Library.Run

/-
The cascade conversation bridge.

Turn signals, the task that answers a turn, the brain call inside it and the speech
recognizer interleave between the `await`s of the bridge; a step is what runs between two of
them. Queues are unbounded, so that putting an event is part of a step. Clocks and audio
bytes, and with them the stage timings, are left out.

The bridge keeps one reply task. Texts carry the recognized phrase they come from, and events
and history entries the turn that made them; the code reads neither.
-/

namespace Assemblix.Realtime

open Library

abbrev Text := List Char

/-- The characters that `str.strip` removes. -/
def isSpace (letter : Char) : Bool :=
  letter.toNat ∈
      [0x09, 0x0A, 0x0B, 0x0C, 0x0D, 0x1C, 0x1D, 0x1E, 0x1F, 0x20, 0x85, 0xA0, 0x1680,
        0x2028, 0x2029, 0x202F, 0x205F, 0x3000] ||
    (0x2000 ≤ letter.toNat && letter.toNat ≤ 0x200A)

abbrev stripText (text : Text) : Text := strip isSpace text

abbrev joinTexts (texts : List Text) : Text := join ' ' texts

/-! ### Turns, brain calls and events -/

inductive Role
  | user
  | assistant
  deriving DecidableEq

structure Turn where
  role : Role
  text : Text
  deriving DecidableEq

structure BrainUsage where
  inputTokens : Nat := 0
  outputTokens : Nat := 0
  costUsd : ℚ := 0
  cachedInputTokens : Nat := 0
  effectiveModel : Option String := none
  deriving DecidableEq

/-- What the bridge asks of a brain besides its reply. -/
structure Brain where
  conversation : List Turn → Text → List Turn
  estimateUsage : List Turn → Text → BrainUsage

structure BridgeConfig where
  brain : Brain
  firstTokenTimeout : Nat := 5

inductive ReplyOutcome
  | ok (usage : BrainUsage)
  | failed (message : String)
  | timeout
  deriving DecidableEq

inductive CallOutcome
  | ok
  | cancelled
  | speculativeDiscarded
  | brainTimeout
  | brainFailed
  deriving DecidableEq

inductive ErrorCode
  | brainTimeout
  | brainFailed
  | sttUnavailable
  | sttFailed
  deriving DecidableEq

structure BrainCall where
  messages : List Turn
  deriving DecidableEq

structure LlmCall where
  messages : List Turn
  response : Text
  usage : BrainUsage
  outcome : CallOutcome
  error : Option String
  deriving DecidableEq

structure EndOfTurn where
  eouMs : Nat := 0
  smartTurnProb : Option ℚ := none
  smartTurnAsks : Nat := 0
  deriving DecidableEq

inductive BridgeEvent
  | speechStarted
  | userTranscript (text : Text) (isFinal : Bool)
  | turnTimings (signal : EndOfTurn) (speculative : Bool)
  | agentTranscript (text : Text) (isFinal : Bool)
  | turnEnded (inputTokens outputTokens : Option Nat) (llmCall : Option LlmCall)
  | bridgeError (code : ErrorCode) (message : String) (isFatal : Bool)
  | sessionClosed
  deriving DecidableEq

def heardPrefix (text : Text) (audioEndMs : Nat) : Text :=
  let limit := audioEndMs * 14 / 1000
  if text.length ≤ limit then text
  else ((text.take (limit + 1)).rdropWhile (fun letter => letter ≠ ' ')).dropLast

/-! ### What the recognizer has heard -/

structure Fragment where
  phrase : Nat
  text : Text
  deriving DecidableEq

/-- One entry of `_pending_user`, with the fragments it was joined from. -/
structure Heard where
  text : Text
  fragments : List Fragment
  deriving DecidableEq

/-- `" ".join(pending_user).strip()`. -/
@[irreducible]
def userTextOf (pendingUser : List Heard) : Text :=
  stripText (joinTexts (pendingUser.map Heard.text))

/-- One entry of `_history`, with the run that made it and what its user had said. -/
structure Entry where
  turn : Turn
  run : Nat
  heard : List Heard
  deriving DecidableEq

/-! ### The run of one turn -/

/-- How the run of a turn has ended. -/
inductive Fate
  | running
  | empty
  | finished
  | interrupted
  | cutOff
  | discarded
  | closed
  deriving DecidableEq

structure TurnRun where
  number : Nat
  speculative : Bool
  confirmed : Bool
  signal : EndOfTurn
  userText : Text := []
  awaitingFinal : Bool := false
  sttDone : Bool := false
  firstToken : Bool := false
  usage : Option BrainUsage := none
  released : Bool := false
  fate : Fate := .running
  deriving DecidableEq

/-- Where the reply task is: not begun, in `finalize` with or without the request sent, at
the wait for the final, in the brain call, at the wait for the confirmation, or done. -/
inductive TaskPoint
  | created
  | finalizing (sent : Bool)
  | waitingFinal
  | replying
  | waitingConfirm (outcome : ReplyOutcome)
  | done
  deriving DecidableEq

inductive BrainTask
  | none
  | running
  | ended (outcome : ReplyOutcome)
  deriving DecidableEq

/-- A signal handler waits only for the reply task it has cancelled. -/
inductive Handler
  | idle
  | discarding (thenStart : Bool)
  | bargingIn
  deriving DecidableEq

/-- The signals come as the turn detector emits them. -/
inductive DetectorPhase
  | idle
  | speaking
  | paused
  deriving DecidableEq

inductive Session
  | live
  | closing
  | closed
  deriving DecidableEq

/-- `_MAX_SPECULATIONS_PER_TURN`. -/
def maxSpeculationsPerTurn : Nat := 3

structure CascadeBridge where
  history : List Entry := []
  pendingUser : List Heard := []
  finals : List Fragment := []
  partialText : Fragment := { phrase := 0, text := [] }
  finalEvent : Bool := false
  replyText : Text := []
  interruptedIndex : Option Nat := none
  interruptedText : Text := []
  bargeInPending : Bool := false
  earlyHeardMs : Option Nat := none
  staleFinals : Nat := 0
  orphanFinals : Nat := 0
  speculations : Nat := 0
  call : Option BrainCall := none
  brainCostUsd : ℚ := 0
  -- The last run started, and whether `_run` still is that run.
  run : TurnRun :=
    { number := 0, speculative := false, confirmed := false, signal := {}, fate := .empty }
  held : Bool := false
  point : TaskPoint := .done
  cancelling : Bool := false
  brainTask : BrainTask := .none
  handler : Handler := .idle
  detector : DetectorPhase := .idle
  session : Session := .live
  emitted : List (Option Nat × BridgeEvent) := []
  -- The earlier runs, newest first.
  past : List TurnRun := []
  -- The recognizer: finalize requests, the first one without a final, and the form in which
  -- it has recognized each phrase.
  requests : Nat := 0
  answered : Nat := 0
  sttEnded : Bool := false
  recognized : Nat → Text := fun _ => []

namespace CascadeBridge

def put (bridge : CascadeBridge) (event : BridgeEvent) : CascadeBridge :=
  { bridge with emitted := bridge.emitted ++ [(none, event)] }

def putTurn (bridge : CascadeBridge) (event : BridgeEvent) : CascadeBridge :=
  { bridge with emitted := bridge.emitted ++ [(some bridge.run.number, event)] }

/-- The record of `_close_call`. -/
def callRecord (bridge : CascadeBridge) (text : Text) (usage : BrainUsage)
    (outcome : CallOutcome) (error : Option String) : Option LlmCall :=
  bridge.call.map fun call =>
    { messages := call.messages, response := text, usage := usage, outcome := outcome,
      error := error }

def settle (bridge : CascadeBridge) (fate : Fate) : CascadeBridge :=
  { bridge with
    run := { bridge.run with fate := fate }
    point := .done
    brainTask := .none }

/-! ### The reply task -/

def commitUser (bridge : CascadeBridge) : CascadeBridge :=
  let committed : CascadeBridge :=
    { bridge with
      pendingUser := []
      history := bridge.history ++
        [{ turn := { role := .user, text := bridge.run.userText }
           run := bridge.run.number
           heard := bridge.pendingUser }] }
  committed.putTurn (.userTranscript bridge.run.userText true)

def release (bridge : CascadeBridge) : CascadeBridge :=
  if bridge.run.released then bridge
  else
    let committed := { bridge with run := { bridge.run with released := true } }.commitUser
    if bridge.run.firstToken && bridge.run.sttDone then
      let timed := committed.putTurn (.turnTimings bridge.run.signal bridge.run.speculative)
      if bridge.replyText = [] then timed
      else timed.putTurn (.agentTranscript bridge.replyText false)
    else committed

def finishReply (bridge : CascadeBridge) (usage : BrainUsage) (outcome : CallOutcome)
    (error : Option String) : CascadeBridge :=
  let record := bridge.callRecord bridge.replyText usage outcome error
  let closed :=
    { bridge with
      replyText := []
      brainCostUsd := bridge.brainCostUsd + usage.costUsd
      call := none }
  let answered : CascadeBridge :=
    { closed with
      history := bridge.history ++
        [{ turn := { role := .assistant, text := bridge.replyText }
           run := bridge.run.number
           heard := [] }]
      interruptedIndex := some bridge.history.length
      interruptedText := bridge.replyText }
  let spoken :=
    if bridge.replyText = [] then closed
    else answered.putTurn (.agentTranscript bridge.replyText true)
  spoken.putTurn (.turnEnded (some usage.inputTokens) (some usage.outputTokens) record)

def failReply (bridge : CascadeBridge) (outcome : CallOutcome) (code : ErrorCode)
    (message : String) : CascadeBridge :=
  (bridge.finishReply {} outcome (some message)).putTurn (.bridgeError code message false)

/-- `_reply` after its wait for the confirmation. The cancelled brain call of a reply that
timed out reports nothing more. -/
def conclude (config : BridgeConfig) (bridge : CascadeBridge) (outcome : ReplyOutcome) :
    CascadeBridge :=
  match outcome with
  | .ok usage => (bridge.release.finishReply usage .ok none).settle .finished
  | .failed message =>
      (bridge.release.failReply .brainFailed .brainFailed message).settle .finished
  | .timeout =>
      (bridge.release.failReply .brainTimeout .brainTimeout
        s!"No reply text within {config.firstTokenTimeout} s").settle .finished

/-- `run.usage`, where the call has reported one. -/
def keepUsage (bridge : CascadeBridge) : ReplyOutcome → CascadeBridge
  | .ok usage => { bridge with run := { bridge.run with usage := some usage } }
  | _ => bridge

/-- `_reply` once `_await_reply` has returned or raised. -/
def replyOver (config : BridgeConfig) (bridge : CascadeBridge) (outcome : ReplyOutcome) :
    CascadeBridge :=
  if bridge.run.confirmed then (bridge.keepUsage outcome).conclude config outcome
  else { bridge.keepUsage outcome with point := .waitingConfirm outcome }

def speak (bridge : CascadeBridge) (text : Text) : CascadeBridge :=
  { bridge with
    run := { bridge.run with firstToken := true }
    replyText := bridge.replyText ++ text }

/-- The callback `on_delta`. -/
def onDelta (bridge : CascadeBridge) (text : Text) : CascadeBridge :=
  if text = [] then bridge
  else if bridge.run.released then
    (bridge.speak text).putTurn (.agentTranscript (bridge.replyText ++ text) false)
  else if bridge.run.confirmed then (bridge.speak text).release
  else bridge.speak text

/-- `_reply` up to its first wait. -/
def startReply (config : BridgeConfig) (bridge : CascadeBridge) : CascadeBridge :=
  { bridge with
    call := some
      { messages :=
          config.brain.conversation (bridge.history.map Entry.turn) bridge.run.userText }
    point := .replying
    brainTask := .running }

def hearing (bridge : CascadeBridge) : List Fragment :=
  (bridge.finals ++
    [{ bridge.partialText with text := stripText bridge.partialText.text }]).filter
      (fun fragment => fragment.text ≠ [])

def pendingText (bridge : CascadeBridge) : Text := userTextOf bridge.pendingUser

/-- `_pending_user` with what has been heard since. -/
def heardPending (bridge : CascadeBridge) : List Heard :=
  let heard := stripText (joinTexts (bridge.hearing.map Fragment.text))
  if heard = [] then bridge.pendingUser
  else bridge.pendingUser ++ [{ text := heard, fragments := bridge.hearing }]

/-- `_finish_turn` after its wait for the final. -/
def collect (config : BridgeConfig) (bridge : CascadeBridge) : CascadeBridge :=
  let collected :=
    { bridge with
      pendingUser := bridge.heardPending
      finals := []
      partialText := { bridge.partialText with text := [] }
      run := { bridge.run with
        awaitingFinal := false
        sttDone := true
        userText := userTextOf bridge.heardPending } }
  if userTextOf bridge.heardPending = [] then collected.settle .empty
  else collected.startReply config

/-- `_finish_turn` when the wait for the final is over. -/
def stopWaiting (config : BridgeConfig) (bridge : CascadeBridge) (timedOut : Bool) :
    CascadeBridge :=
  if timedOut then { bridge with staleFinals := bridge.staleFinals + 1 }.collect config
  else bridge.collect config

def startRun (bridge : CascadeBridge) (speculative confirmed : Bool) (signal : EndOfTurn) :
    CascadeBridge :=
  { bridge with
    past := bridge.run :: bridge.past
    run :=
      { number := bridge.run.number + 1, speculative := speculative, confirmed := confirmed,
        signal := signal }
    held := true
    point := .created }

/-! ### The turn signals -/

def applyHeard (bridge : CascadeBridge) (audioEndMs : Nat) : CascadeBridge :=
  match bridge.interruptedIndex with
  | none => bridge
  | some index =>
      { bridge with
        history := bridge.history.modify index fun entry =>
          { entry with
            turn := { role := .assistant, text := heardPrefix bridge.interruptedText audioEndMs } }
        interruptedIndex := none }

def interrupt (bridge : CascadeBridge) (audioEndMs : Nat) : CascadeBridge :=
  if bridge.interruptedIndex = none then
    if bridge.bargeInPending then { bridge with earlyHeardMs := some audioEndMs } else bridge
  else bridge.applyHeard audioEndMs

/-- `_on_speech_start` after the discard, up to its wait for the cancelled task. -/
def startSpeech (bridge : CascadeBridge) : CascadeBridge :=
  let started :=
    { bridge with
      speculations := 0
      staleFinals := 0
      orphanFinals := 0
      handler := .idle }.put .speechStarted
  if bridge.point = .done then started
  else
    { started with
      bargeInPending := true
      earlyHeardMs := none
      cancelling := true
      handler := .bargingIn }

/-- `_on_speech_start` after its wait. -/
def finishBargeIn (bridge : CascadeBridge) : CascadeBridge :=
  let usage := if bridge.held then bridge.run.usage.getD {} else {}
  let record := bridge.callRecord bridge.replyText usage .cancelled none
  let stopped :=
    { bridge with
      brainCostUsd := bridge.brainCostUsd + usage.costUsd
      bargeInPending := false
      handler := .idle
      call := none }
  if bridge.replyText = [] then stopped.settle .cutOff
  else
    let cut : CascadeBridge :=
      { stopped with
        history := bridge.history ++
          [{ turn := { role := .assistant, text := [] }, run := bridge.run.number, heard := [] }]
        interruptedIndex := some bridge.history.length
        interruptedText := bridge.replyText
        earlyHeardMs := none }
    let corrected :=
      match bridge.earlyHeardMs with
      | none => cut
      | some audioEndMs => cut.applyHeard audioEndMs
    let reported := corrected.putTurn (.agentTranscript bridge.replyText true)
    ({ reported with replyText := [] }.putTurn (.turnEnded none none record)).settle .interrupted

/-- `_discard_speculation` after its wait for the cancelled task. -/
def finishDiscard (config : BridgeConfig) (bridge : CascadeBridge) : CascadeBridge :=
  let cost :=
    match bridge.call with
    | none => 0
    | some call =>
        (bridge.run.usage.getD
          (config.brain.estimateUsage call.messages bridge.replyText)).costUsd
  { bridge with
    orphanFinals :=
      if bridge.run.awaitingFinal && !bridge.finalEvent then bridge.orphanFinals + 1
      else bridge.orphanFinals
    brainCostUsd := bridge.brainCostUsd + cost
    call := none
    replyText := []
    handler := .idle }.settle .discarded

/-- `_discard_speculation`, and the rest of `_on_speech_start` where it is called from there. -/
def discardSpeculation (config : BridgeConfig) (bridge : CascadeBridge) (thenStart : Bool) :
    CascadeBridge :=
  if !bridge.held || bridge.run.confirmed then
    if thenStart then bridge.startSpeech else bridge
  else if bridge.point = .done then
    let discarded := { bridge with held := false }.finishDiscard config
    if thenStart then discarded.startSpeech else discarded
  else
    { bridge with held := false, cancelling := true, handler := .discarding thenStart }

def onPauseStart (bridge : CascadeBridge) : CascadeBridge :=
  if maxSpeculationsPerTurn ≤ bridge.speculations then bridge
  else { bridge with speculations := bridge.speculations + 1 }.startRun true false {}

def onEndOfTurn (bridge : CascadeBridge) (signal : EndOfTurn) : CascadeBridge :=
  let heard := { bridge with interruptedIndex := none }
  if bridge.held && !bridge.run.confirmed then
    let confirmed := { heard with run := { bridge.run with confirmed := true, signal := signal } }
    if bridge.run.firstToken then confirmed.release else confirmed
  else heard.startRun false true signal

def resumeHandler (config : BridgeConfig) (bridge : CascadeBridge) : Option CascadeBridge :=
  match bridge.handler with
  | .idle => none
  | .bargingIn => some bridge.finishBargeIn
  | .discarding thenStart =>
      let discarded := bridge.finishDiscard config
      some (if thenStart then discarded.startSpeech else discarded)

/-! ### The recognizer -/

def collected (bridge : CascadeBridge) : List Fragment :=
  bridge.history.flatMap (fun entry => entry.heard.flatMap Heard.fragments) ++
    bridge.pendingUser.flatMap Heard.fragments

def taken (bridge : CascadeBridge) (phrase : Nat) : Bool :=
  bridge.collected.any (fun fragment => fragment.phrase = phrase)

def pumpPartial (bridge : CascadeBridge) (phrase : Nat) (text : Text) : CascadeBridge :=
  let heard :=
    { bridge with
      partialText := { phrase := phrase, text := text }
      recognized := Function.update bridge.recognized phrase (stripText text) }
  let preview := stripText (joinTexts
    (bridge.pendingUser.map Heard.text ++ bridge.finals.map Fragment.text ++ [text]))
  if preview = [] then heard else heard.put (.userTranscript preview false)

def pumpFinal (bridge : CascadeBridge) (phrase : Nat) (text : Text) : CascadeBridge :=
  let superseded :=
    { bridge with
      partialText := { bridge.partialText with text := [] }
      answered := phrase + 1
      recognized :=
        if bridge.taken phrase then bridge.recognized
        else Function.update bridge.recognized phrase (stripText text) }
  if bridge.staleFinals ≠ 0 then { superseded with staleFinals := bridge.staleFinals - 1 }
  else
    let kept :=
      if stripText text = [] then superseded
      else
        { superseded with
          finals := bridge.finals ++ [{ phrase := phrase, text := stripText text }] }
    if bridge.orphanFinals ≠ 0 then { kept with orphanFinals := bridge.orphanFinals - 1 }
    else { kept with finalEvent := true }

def pumpEnds (bridge : CascadeBridge) (error : Option (ErrorCode × String)) : CascadeBridge :=
  let ended := { bridge with sttEnded := true }
  match error with
  | none => ended
  | some (code, message) => ended.put (.bridgeError code message true)

/-! ### Steps -/

end CascadeBridge

inductive BridgeAction
  -- The turn detector, and the handler of its last signal.
  | speechStart
  | pauseStart
  | pauseCancelled
  | endOfTurn (signal : EndOfTurn)
  | resumeHandler
  -- The reply task.
  | startTurn
  | requestSent
  | finalizeReturns
  | finalizeRaises (timedOut : Bool)
  | stopWaiting (timedOut : Bool)
  | brainTimeout
  | proceed
  | cancelled
  -- The brain call.
  | delta (text : Text)
  | brainEnds (outcome : ReplyOutcome)
  -- The recognizer.
  | sttPartial (phrase : Nat) (text : Text)
  | sttFinal (phrase : Nat) (text : Text)
  | sttEnds (error : Option (ErrorCode × String))
  -- The caller of the bridge.
  | interrupt (audioEndMs : Nat)
  | close
  | closed
  deriving DecidableEq

namespace CascadeBridge

def hears (bridge : CascadeBridge) (phase : DetectorPhase) : Prop :=
  bridge.session = .live ∧ bridge.handler = .idle ∧ bridge.detector = phase

instance (bridge : CascadeBridge) (phase : DetectorPhase) : Decidable (bridge.hears phase) :=
  inferInstanceAs (Decidable (_ ∧ _ ∧ _))

def runsAt (bridge : CascadeBridge) (point : TaskPoint) : Prop :=
  bridge.cancelling = false ∧ bridge.point = point

instance (bridge : CascadeBridge) (point : TaskPoint) : Decidable (bridge.runsAt point) :=
  inferInstanceAs (Decidable (_ ∧ _))

def proceed (config : BridgeConfig) (bridge : CascadeBridge) : Option CascadeBridge :=
  match bridge.point with
  | .replying =>
      match bridge.brainTask with
      | .ended outcome => some (bridge.replyOver config outcome)
      | _ => none
  | .waitingConfirm outcome =>
      if bridge.run.confirmed then some (bridge.conclude config outcome) else none
  | _ => none

def finalizing (bridge : CascadeBridge) : Bool :=
  match bridge.point with
  | .finalizing _ => true
  | _ => false

/-- Phrases are numbered by the finalize request that ends them. A phrase has partials until
its final, and finals come in the order of the requests. -/
def step (config : BridgeConfig) (bridge : CascadeBridge) : BridgeAction → Option CascadeBridge
  | .speechStart =>
      if bridge.hears .idle then
        some ({ bridge with detector := .speaking }.discardSpeculation config true)
      else none
  | .pauseStart =>
      if bridge.hears .speaking then some { bridge with detector := .paused }.onPauseStart
      else none
  | .pauseCancelled =>
      if bridge.hears .paused then
        some ({ bridge with detector := .speaking }.discardSpeculation config false)
      else none
  | .endOfTurn signal =>
      if bridge.hears .speaking ∨ bridge.hears .paused then
        some ({ bridge with detector := .idle }.onEndOfTurn signal)
      else none
  | .resumeHandler =>
      if bridge.session = .live ∧ bridge.point = .done then bridge.resumeHandler config else none
  | .startTurn =>
      if bridge.runsAt .created then
        some { bridge with
          finalEvent := false
          run := { bridge.run with awaitingFinal := true }
          point := .finalizing false }
      else none
  | .requestSent =>
      if bridge.point = .finalizing false then
        some { bridge with requests := bridge.requests + 1, point := .finalizing true }
      else none
  | .finalizeReturns =>
      if bridge.runsAt (.finalizing true) then some { bridge with point := .waitingFinal }
      else none
  | .finalizeRaises timedOut =>
      if bridge.cancelling = false ∧ bridge.finalizing = true then
        some (bridge.stopWaiting config timedOut)
      else none
  | .stopWaiting timedOut =>
      -- The timer may fire in the very iteration in which the final has set the event.
      if bridge.runsAt .waitingFinal ∧ (timedOut = true ∨ bridge.finalEvent = true) then
        some (bridge.stopWaiting config timedOut)
      else none
  | .brainTimeout =>
      if bridge.runsAt .replying ∧ bridge.brainTask = .running ∧ bridge.run.firstToken = false then
        some (bridge.replyOver config .timeout)
      else none
  | .proceed => if bridge.cancelling = false then bridge.proceed config else none
  | .cancelled =>
      if bridge.cancelling = true then
        some { bridge with cancelling := false, point := .done, brainTask := .none }
      else none
  | .delta text =>
      if bridge.brainTask = .running then some (bridge.onDelta text) else none
  | .brainEnds outcome =>
      if bridge.brainTask = .running ∧ outcome ≠ .timeout then
        some { bridge with brainTask := .ended outcome }
      else none
  | .sttPartial phrase text =>
      if bridge.session ≠ .closed ∧ bridge.sttEnded = false ∧
          bridge.answered ≤ phrase ∧ phrase ≤ bridge.requests then
        some (bridge.pumpPartial phrase text)
      else none
  | .sttFinal phrase text =>
      if bridge.session ≠ .closed ∧ bridge.sttEnded = false ∧
          bridge.answered ≤ phrase ∧ phrase < bridge.requests then
        some (bridge.pumpFinal phrase text)
      else none
  | .sttEnds error =>
      if bridge.session ≠ .closed ∧ bridge.sttEnded = false then some (bridge.pumpEnds error)
      else none
  | .interrupt audioEndMs =>
      if bridge.session = .live then some (bridge.interrupt audioEndMs) else none
  | .close =>
      if bridge.session = .live then
        some { bridge with
          session := .closing
          cancelling := bridge.point ≠ .done
          run := { bridge.run with
            fate := if bridge.run.fate = .running then .closed else bridge.run.fate } }
      else none
  | .closed =>
      if bridge.session = .closing ∧ bridge.point = .done then
        some ({ bridge with session := .closed }.put .sessionClosed)
      else none

def Step (config : BridgeConfig) (bridge : CascadeBridge) (action : BridgeAction)
    (next : CascadeBridge) : Prop :=
  bridge.step config action = some next

/-- The bridge after `connect`. -/
def connected : CascadeBridge := {}

def plainBrain : BridgeConfig where
  brain :=
    { conversation := fun history userText => history ++ [{ role := .user, text := userText }]
      estimateUsage := fun _ _ => {} }

end CascadeBridge
end Assemblix.Realtime
