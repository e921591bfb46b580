import Assemblix.Library.Dict
import Assemblix.Library.Json
import Assemblix.Realtime.CascadeBridge

/-
The half-cascade bridge: the model writes and a synthesizer speaks.

The pump of the inner bridge's events, the calls of `interrupt`, the flush tasks with the steps
chained behind them and the synthesizer's callbacks interleave between the `await`s; every
`await` may suspend. The event queue is unbounded and kept as a log of all that was put, and a
run ends where `close` is called. A flush task has the number of its session.

For the statements sessions carry the turn they were opened in and whether an abort took them,
the log the callbacks that were dropped and the aborts, and the turn's characters the sessions
they come from; the code reads none of these.
-/

namespace Assemblix.Realtime

open Library

/-! ### Events -/

structure TurnEnded where
  inputTokens : Option Nat := none
  outputTokens : Option Nat := none
  speechChars : Option Nat := none
  llmCall : Option Json := none
  usage : Option (Dict String Json) := none
  deriving DecidableEq

inductive ConversationEvent
  | audioDelta (pcm : List UInt8)
  | userTranscript (text : Text) (isFinal : Bool)
  | agentTranscript (text : Text) (isFinal : Bool)
  | speechStarted
  | turnEnded (report : TurnEnded)
  | bridgeError (code : Option String) (message : String) (isFatal : Bool)
  | sessionClosed (reason : String)
  deriving DecidableEq

structure HalfCascadeConfig where
  acceptsLateInterrupt : Bool
  -- `cost_usd`, none where the voice is not in the registry.
  ttsCost : Nat → Option ℚ

def TurnEnded.spoken (config : HalfCascadeConfig) (report : TurnEnded) (chars : Nat) :
    TurnEnded :=
  { report with
    speechChars := if chars = 0 then none else some chars
    usage := report.usage.map (fun usage =>
      (usage.set "ttsChars" (.int chars)).set "ttsCostUsd"
        (match config.ttsCost chars with
          | some cost => .number cost
          | none => .null)) }

/-! ### Sessions, chained steps and the log -/

inductive FlushOutcome
  | returned (chars : Nat)
  | raised
  | cancelled
  deriving DecidableEq

inductive Flush
  | notStarted
  | running
  | ended (outcome : FlushOutcome)
  deriving DecidableEq

structure SpeechSession where
  -- The epoch that its callbacks compare.
  epoch : Nat
  turn : Nat
  sent : Nat := 0
  flush : Flush := .notStarted
  aborted : Bool := false
  deriving DecidableEq

inductive Link
  -- `finish`, and whether it has added up the characters.
  | finish (session sent : Nat) (accounted : Bool)
  | transcript (text : Text)
  | endTurn (turn : Nat) (report : TurnEnded)
  deriving DecidableEq

inductive Happening
  | put (event : ConversationEvent)
  | audio (session turn : Nat) (pcm : List UInt8)
  | dropped (session turn : Nat) (pcm : List UInt8)
  -- An abort begins, after the opening of so many sessions.
  | abort (opened : Nat)
  -- The start of speech, after an abort of its own or without one.
  | speechStarted (cut : Bool) (opened : Nat)
  | turnEnded (turn : Nat) (report : TurnEnded) (chars : Nat) (billed : List Nat)
  deriving DecidableEq

def Happening.event (config : HalfCascadeConfig) : Happening → Option ConversationEvent
  | .put event => some event
  | .audio _ _ pcm => some (.audioDelta pcm)
  | .dropped _ _ _ => none
  | .abort _ => none
  | .speechStarted _ _ => some .speechStarted
  | .turnEnded _ report chars _ => some (.turnEnded (report.spoken config chars))

structure Transcript where
  text : Text
  isFinal : Bool
  deriving DecidableEq

inductive Pump
  | ready
  -- In `_speak`, with the text not handed over yet.
  | draining (transcript : Transcript) (tail : Text)
  | opening (transcript : Transcript) (tail : Text) (session : Nat)
  | sending (transcript : Transcript) (session : Nat)
  -- In `_abort_speech`, for a start of speech.
  | aborting (flush : Option Nat)
  | closing (reason : String)
  | ended
  deriving DecidableEq

/-- A call of `interrupt` in `_abort_speech`. -/
structure Interrupt where
  flush : Option Nat
  audioEndMs : Nat
  deriving DecidableEq

structure HalfCascadeBridge where
  log : List Happening := []
  sessions : List SpeechSession := []
  session : Option Nat := none
  turn : Nat := 0
  cancelledTurn : Option Nat := none
  turnChars : Nat := 0
  counted : List Nat := []
  spoken : Text := []
  speechEpoch : Nat := 0
  sessionChars : Nat := 0
  flushing : Option Nat := none
  pending : List Link := []
  turnOpen : Bool := false
  pump : Pump := .ready
  interrupts : List Interrupt := []
  -- The inner bridge: what it has sent, and the interrupts it was told of.
  received : List ConversationEvent := []
  told : List Nat := []
  deriving DecidableEq

namespace HalfCascadeBridge

def queue (config : HalfCascadeConfig) (bridge : HalfCascadeBridge) : List ConversationEvent :=
  bridge.log.filterMap (Happening.event config)

def note (bridge : HalfCascadeBridge) (happening : Happening) : HalfCascadeBridge :=
  { bridge with log := bridge.log ++ [happening] }

def put (bridge : HalfCascadeBridge) (event : ConversationEvent) : HalfCascadeBridge :=
  bridge.note (.put event)

def flushEnded (bridge : HalfCascadeBridge) (session : Nat) : Bool :=
  match bridge.sessions[session]? with
  | some { flush := .ended _, .. } => true
  | _ => false

/-! ### Steps chained behind a flush -/

def deliver (bridge : HalfCascadeBridge) : Link → HalfCascadeBridge
  | .finish _ _ _ => bridge
  | .transcript text => bridge.put (.agentTranscript text true)
  | .endTurn turn report =>
      { bridge with turnChars := 0, counted := [] }.note
        (.turnEnded turn report bridge.turnChars bridge.counted)

/-- `_in_order`: no link is left exactly where `_pending` is none or done. -/
def inOrder (bridge : HalfCascadeBridge) (link : Link) : HalfCascadeBridge :=
  if bridge.pending = [] then bridge.deliver link
  else { bridge with pending := bridge.pending ++ [link] }

/-- `_start_flush`. -/
def startFlush (bridge : HalfCascadeBridge) (session : Nat) : HalfCascadeBridge :=
  { bridge with
    sessions := bridge.sessions.modify session ({ · with flush := .running })
    flushing := some session
    pending := bridge.pending ++ [.finish session bridge.sessionChars false] }

/-- `finish`, once the flush has ended. -/
def finish (bridge : HalfCascadeBridge) (session sent : Nat) (outcome : FlushOutcome) :
    HalfCascadeBridge :=
  { bridge with
    flushing := if bridge.flushing = some session then none else bridge.flushing
    turnChars := bridge.turnChars +
      (match outcome with
        | .returned chars => chars
        | .raised => sent
        | .cancelled => sent)
    counted := bridge.counted ++ [session] }

/-! ### Aborting -/

def markAborted (sessions : List SpeechSession) (taken : Option Nat) : List SpeechSession :=
  match taken with
  | some session => sessions.modify session ({ · with aborted := true })
  | none => sessions

/-- `_abort_speech` up to its first `await`. -/
def abortSpeech (bridge : HalfCascadeBridge) : HalfCascadeBridge :=
  { bridge with
    speechEpoch := bridge.speechEpoch + 1
    flushing := none
    session := none
    sessions := markAborted (markAborted bridge.sessions bridge.flushing) bridge.session
    turnChars :=
      if bridge.session.isSome then bridge.turnChars + bridge.sessionChars else bridge.turnChars
    counted := bridge.counted ++ bridge.session.toList }.note (.abort bridge.sessions.length)

def abortOver (bridge : HalfCascadeBridge) (flush : Option Nat) : Bool :=
  match flush with
  | some session => bridge.flushEnded session
  | none => true

/-! ### Speaking -/

/-- `_unspoken`. -/
def unspoken (bridge : HalfCascadeBridge) (text : Text) : Text :=
  if bridge.spoken <+: text then text.drop bridge.spoken.length else text

/-- The pump after `_speak`. -/
def spoke (bridge : HalfCascadeBridge) (transcript : Transcript) : HalfCascadeBridge :=
  let ready := { bridge with pump := .ready }
  if transcript.isFinal then ready.inOrder (.transcript transcript.text)
  else ready.put (.agentTranscript transcript.text false)

def textSent (bridge : HalfCascadeBridge) (transcript : Transcript) (session : Nat) :
    HalfCascadeBridge :=
  if transcript.isFinal then
    ({ bridge with session := none, spoken := [] }.startFlush session).spoke transcript
  else bridge.spoke transcript

def sendText (bridge : HalfCascadeBridge) (transcript : Transcript) (tail : Text)
    (session : Nat) : HalfCascadeBridge :=
  if tail = [] then bridge.textSent transcript session
  else
    { bridge with
      sessionChars := bridge.sessionChars + tail.length
      sessions := bridge.sessions.modify session
        (fun speech => { speech with sent := speech.sent + tail.length })
      pump := .sending transcript session }

/-- `_speak`, up to its first `await`. -/
def speak (bridge : HalfCascadeBridge) (transcript : Transcript) : HalfCascadeBridge :=
  if bridge.cancelledTurn = some bridge.turn then bridge.spoke transcript
  else
    let tail := bridge.unspoken transcript.text
    let told := { bridge with spoken := bridge.spoken ++ tail }
    if tail = [] ∧ transcript.isFinal = false then told.spoke transcript
    else
      match bridge.session with
      | none => { told with pump := .draining transcript tail }
      | some session => told.sendText transcript tail session

/-- The new session that `_speak` opens. -/
def openSession (bridge : HalfCascadeBridge) (transcript : Transcript) (tail : Text) :
    HalfCascadeBridge :=
  { bridge with
    sessions := bridge.sessions ++ [{ epoch := bridge.speechEpoch, turn := bridge.turn }]
    session := some bridge.sessions.length
    sessionChars := 0
    pump := .opening transcript tail bridge.sessions.length }

/-! ### The pump -/

def receive (bridge : HalfCascadeBridge) : ConversationEvent → HalfCascadeBridge
  | .agentTranscript text isFinal => { bridge with turnOpen := true }.speak { text, isFinal }
  | .speechStarted =>
      if bridge.session.isSome then
        { bridge with
          cancelledTurn := some bridge.turn
          spoken := []
          pump := .aborting bridge.flushing }.abortSpeech
      else if bridge.flushing.isSome then
        { bridge with pump := .aborting bridge.flushing }.abortSpeech
      else bridge.note (.speechStarted false bridge.sessions.length)
  | .turnEnded report =>
      { bridge with turnOpen := false, turn := bridge.turn + 1, spoken := [] }.inOrder
        (.endTurn bridge.turn report)
  | .sessionClosed reason => { bridge with pump := .closing reason }
  | event => bridge.put event

/-- The pump goes on after an `await`. -/
def resume (bridge : HalfCascadeBridge) : Option HalfCascadeBridge :=
  match bridge.pump with
  | .draining transcript tail =>
      if bridge.pending = [] then some (bridge.openSession transcript tail) else none
  | .opening transcript tail session =>
      if bridge.session = some session then some (bridge.sendText transcript tail session)
      else some (bridge.spoke transcript)
  | .sending transcript session =>
      if bridge.session = some session then some (bridge.textSent transcript session)
      else some (bridge.spoke transcript)
  | .aborting flush =>
      if bridge.abortOver flush then
        some ({ bridge with pump := .ready }.note
          (.speechStarted true bridge.sessions.length))
      else none
  | .closing reason =>
      if bridge.pending = [] then
        some ({ bridge with pump := .ended }.put (.sessionClosed reason))
      else none
  | _ => none

inductive Resumed (bridge : HalfCascadeBridge) : HalfCascadeBridge → Prop
  | openSession (transcript : Transcript) (tail : Text)
      (pump : bridge.pump = .draining transcript tail) (settled : bridge.pending = []) :
      Resumed bridge (bridge.openSession transcript tail)
  | sendText (transcript : Transcript) (tail : Text) (session : Nat)
      (pump : bridge.pump = .opening transcript tail session)
      (isOpen : bridge.session = some session) :
      Resumed bridge (bridge.sendText transcript tail session)
  | unopened (transcript : Transcript) (tail : Text) (session : Nat)
      (pump : bridge.pump = .opening transcript tail session)
      (gone : bridge.session ≠ some session) : Resumed bridge (bridge.spoke transcript)
  | textSent (transcript : Transcript) (session : Nat)
      (pump : bridge.pump = .sending transcript session)
      (isOpen : bridge.session = some session) : Resumed bridge (bridge.textSent transcript session)
  | unsent (transcript : Transcript) (session : Nat)
      (pump : bridge.pump = .sending transcript session)
      (gone : bridge.session ≠ some session) : Resumed bridge (bridge.spoke transcript)
  | aborted (flush : Option Nat) (pump : bridge.pump = .aborting flush)
      (waited : bridge.abortOver flush = true) :
      Resumed bridge ({ bridge with pump := .ready }.note
        (.speechStarted true bridge.sessions.length))
  | closed (reason : String) (pump : bridge.pump = .closing reason)
      (settled : bridge.pending = []) :
      Resumed bridge ({ bridge with pump := .ended }.put (.sessionClosed reason))

theorem resume_some {bridge next : HalfCascadeBridge} (resumed : bridge.resume = some next) :
    Resumed bridge next := by
  unfold resume at resumed
  split at resumed
  case h_1 transcript tail pump =>
    split at resumed
    case isTrue settled => cases resumed; exact .openSession transcript tail pump settled
    case isFalse => cases resumed
  case h_2 transcript tail session pump =>
    split at resumed
    case isTrue isOpen => cases resumed; exact .sendText transcript tail session pump isOpen
    case isFalse gone => cases resumed; exact .unopened transcript tail session pump gone
  case h_3 transcript session pump =>
    split at resumed
    case isTrue isOpen => cases resumed; exact .textSent transcript session pump isOpen
    case isFalse gone => cases resumed; exact .unsent transcript session pump gone
  case h_4 flush pump =>
    split at resumed
    case isTrue waited => cases resumed; exact .aborted flush pump waited
    case isFalse => cases resumed
  case h_5 reason pump =>
    split at resumed
    case isTrue settled => cases resumed; exact .closed reason pump settled
    case isFalse => cases resumed
  case h_6 => cases resumed

end HalfCascadeBridge

/-! ### Steps -/

inductive HalfCascadeAction
  | receive (event : ConversationEvent)
  | innerEnds
  | resume
  -- The task of a flush.
  | flushEnds (session : Nat) (outcome : FlushOutcome)
  -- The first link that has not run, and the `finish` at an index.
  | nextLink
  | finish (index : Nat)
  -- The callbacks of a session.
  | onAudio (session : Nat) (pcm : List UInt8)
  | onError (session : Nat) (message : String)
  | interrupt (audioEndMs : Nat)
  | interruptReturns (index : Nat)
  deriving DecidableEq

namespace HalfCascadeBridge

/-- The next link runs once the one before it is done; `finish` is done when it has added up. -/
def nextLink (bridge : HalfCascadeBridge) : Option HalfCascadeBridge :=
  match bridge.pending with
  | [] => none
  | .finish _ _ false :: _ => none
  | link :: rest => some ({ bridge with pending := rest }.deliver link)

def finishAt (bridge : HalfCascadeBridge) (index : Nat) : Option HalfCascadeBridge :=
  match bridge.pending[index]? with
  | some (.finish session sent false) =>
      match bridge.sessions[session]? with
      | some { flush := .ended outcome, .. } =>
          some ({ bridge with
            pending := bridge.pending.set index (.finish session sent true) }.finish
              session sent outcome)
      | _ => none
  | _ => none

def step (config : HalfCascadeConfig) (bridge : HalfCascadeBridge) :
    HalfCascadeAction → Option HalfCascadeBridge
  | .receive event =>
      if bridge.pump = .ready then
        some ({ bridge with received := bridge.received ++ [event] }.receive event)
      else none
  | .innerEnds =>
      if bridge.pump = .ready then some { bridge with pump := .closing "inner_ended" } else none
  | .resume => bridge.resume
  | .flushEnds session outcome =>
      match bridge.sessions[session]? with
      | some { flush := .running, .. } =>
          some { bridge with
            sessions := bridge.sessions.modify session ({ · with flush := .ended outcome }) }
      | _ => none
  | .nextLink => bridge.nextLink
  | .finish index => bridge.finishAt index
  | .onAudio session pcm =>
      match bridge.sessions[session]? with
      | some speech =>
          if speech.epoch = bridge.speechEpoch then
            some (bridge.note (.audio session speech.turn pcm))
          else some (bridge.note (.dropped session speech.turn pcm))
      | none => none
  | .onError session message =>
      match bridge.sessions[session]? with
      | some speech =>
          if speech.epoch = bridge.speechEpoch then
            some (bridge.put (.bridgeError (some "tts_unavailable") message true))
          else some bridge
      | none => none
  | .interrupt audioEndMs =>
      some { bridge.abortSpeech with
        interrupts := bridge.interrupts ++ [{ flush := bridge.flushing, audioEndMs }] }
  | .interruptReturns index =>
      match bridge.interrupts[index]? with
      | some call =>
          if bridge.abortOver call.flush then
            some { bridge with
              interrupts := bridge.interrupts.eraseIdx index
              told :=
                if bridge.turnOpen || config.acceptsLateInterrupt then
                  bridge.told ++ [call.audioEndMs]
                else bridge.told }
          else none
      | none => none

theorem receive_some {config : HalfCascadeConfig} {bridge next : HalfCascadeBridge}
    {event : ConversationEvent} (taken : bridge.step config (.receive event) = some next) :
    bridge.pump = .ready ∧
      next = { bridge with received := bridge.received ++ [event] }.receive event := by
  simp only [step, Option.ite_none_right_eq_some] at taken
  exact ⟨taken.1, (Option.some.inj taken.2).symm⟩

theorem innerEnds_some {config : HalfCascadeConfig} {bridge next : HalfCascadeBridge}
    (taken : bridge.step config .innerEnds = some next) :
    bridge.pump = .ready ∧ next = { bridge with pump := .closing "inner_ended" } := by
  simp only [step, Option.ite_none_right_eq_some] at taken
  exact ⟨taken.1, (Option.some.inj taken.2).symm⟩

end HalfCascadeBridge

end Assemblix.Realtime
