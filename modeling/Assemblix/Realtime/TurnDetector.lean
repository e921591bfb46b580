import Mathlib.Tactic.NormNum
import Assemblix.Realtime.CascadeBridge
import Assemblix.Library.FrameReader

/-
The turn detector of a cascade call.

Audio comes in chunks of any size and is processed in frames of the VAD. In a long pause the
detector asks whether the turn is complete; until the answer is there it only buffers audio.
Both models keep a state of their own between calls. Probabilities are rationals and samples
the integers that the code divides by 32768.
-/

namespace Assemblix.Realtime

open Library

abbrev Sample := Int

/-- `SAMPLE_RATE`. -/
def sampleRate : Nat := 16000

/-- `_SPEECH_THRESHOLD`. -/
def speechThreshold : ℚ := 1 / 2

/-- `_ONSET_FRAMES`. -/
def onsetFrames : Nat := 2

/-- `_WINDOW_SECONDS`. -/
def windowSeconds : Nat := 8

/-- `_REASK_MS`. -/
def reaskFloorMs : Nat := 150

/-- `_ASKS_PER_PAUSE`. -/
def asksPerPause : Nat := 10

/-- `_THRESHOLD_FLOOR`. -/
def thresholdFloor : ℚ := 15 / 100

/-- `np.frombuffer(frame, dtype=np.int16)`. -/
def samples : List UInt8 → List Sample
  | low :: high :: rest =>
      let word : Int := low.toNat + 256 * high.toNat
      (if word < 32768 then word else word - 65536) :: samples rest
  | _ => []

/-- `items[:stop]`. -/
def sliceTo {A : Type} (items : List A) (stop : Int) : List A :=
  if 0 ≤ stop then items.take stop.toNat else items.take (items.length + stop).toNat

/-- `collections.deque` with its `maxlen`: an item too many pushes out the oldest. -/
structure Deque (A : Type) (maxlen : Nat) where
  items : List A := []
  bounded : items.length ≤ maxlen := by simp

namespace Deque

variable {A : Type} {maxlen : Nat}

def append (deque : Deque A maxlen) (item : A) : Deque A maxlen where
  items := (deque.items ++ [item]).drop (deque.items.length + 1 - maxlen)
  bounded := by
    rw [List.length_drop, List.length_append, List.length_singleton]
    omega

def extend (deque : Deque A maxlen) (items : List A) : Deque A maxlen :=
  items.foldl append deque

end Deque

/-! ### What the detector is built from -/

structure VadModel where
  State : Type
  fresh : State
  frameSamples : Nat
  speechProbability : State → List Sample → ℚ × State

/-- `_frame_ms`. -/
def VadModel.frameMs (vad : VadModel) : Nat := vad.frameSamples * 1000 / sampleRate

/-- How the future of a question ends. -/
inductive Answer
  | probability (value : ℚ)
  | failed
  | cancelled
  deriving DecidableEq

structure Completion where
  State : Type
  fresh : State
  ask : State → List Sample → Answer × State

structure TurnConfig where
  minSilenceMs : Nat := 200
  maxSilenceMs : Nat := 1500
  smartTurn : Bool := true
  smartTurnThreshold : ℚ := 1 / 2
  prerollMs : Nat := 300
  speculative : Bool := true
  minSilenceMs_range : 64 ≤ minSilenceMs ∧ minSilenceMs ≤ 2000 := by decide
  maxSilenceMs_range : 200 ≤ maxSilenceMs ∧ maxSilenceMs ≤ 5000 := by decide
  smartTurnThreshold_range : 0 < smartTurnThreshold ∧ smartTurnThreshold < 1 := by norm_num
  prerollMs_range : prerollMs ≤ 1000 := by decide
  silenceOrder : minSilenceMs ≤ maxSilenceMs := by decide

/-- The arguments of the constructor, which divides by the milliseconds of a frame. -/
structure DetectorSetup where
  vad : VadModel
  completion : Completion
  config : TurnConfig
  frameMs_pos : 0 < vad.frameMs

namespace DetectorSetup

variable (setup : DetectorSetup)

def frameBytes : Nat := setup.vad.frameSamples * 2

def frameMs : Nat := setup.vad.frameMs

def prerollFrames : Nat := max 1 (setup.config.prerollMs / setup.frameMs)

def windowFrames : Nat := windowSeconds * sampleRate / setup.vad.frameSamples

/-- `_reask_ms`. -/
def reaskMs : Nat :=
  max reaskFloorMs ((setup.config.maxSilenceMs - setup.config.minSilenceMs) / asksPerPause)

theorem frameBytes_pos : 0 < setup.frameBytes := by
  have some_ms := setup.frameMs_pos
  unfold VadModel.frameMs at some_ms
  unfold frameBytes
  rcases Nat.eq_zero_or_pos setup.vad.frameSamples with none | some_samples
  · rw [none] at some_ms
    exact absurd some_ms (by decide)
  · omega

end DetectorSetup

/-- `_threshold`: linear decay from the configured threshold at min silence to a floor at max. -/
def TurnConfig.threshold (config : TurnConfig) (silenceMs : Nat) : ℚ :=
  let start := config.smartTurnThreshold
  let floor := min thresholdFloor start
  let span := config.maxSilenceMs - config.minSilenceMs
  if span = 0 then start
  else
    let progress := min 1 (max 0 (((silenceMs : ℚ) - config.minSilenceMs) / span))
    start - (start - floor) * progress

/-! ### Signals and the state between frames -/

inductive Signal
  | speechStart
  | pauseStart
  | pauseCancelled
  | endOfTurn (signal : EndOfTurn)
  deriving DecidableEq

structure TurnUpdate where
  sttAudio : List UInt8 := []
  signals : List Signal := []
  pending : Bool := false
  deriving DecidableEq

/-- What one more step of the loop in `push` adds to its update. -/
def TurnUpdate.add (update added : TurnUpdate) : TurnUpdate :=
  { update with
    sttAudio := update.sttAudio ++ added.sttAudio
    signals := update.signals ++ added.signals }

/-- The detector without its byte buffer. The question in flight carries the answer that its
model gives; when it is there is up to the event loop. -/
structure Listening (setup : DetectorSetup) where
  vad : setup.vad.State := setup.vad.fresh
  completion : setup.completion.State := setup.completion.fresh
  preroll : Deque (List UInt8) setup.prerollFrames := {}
  onset : List (List UInt8) := []
  turnAudio : Deque (List UInt8) setup.windowFrames := {}
  inTurn : Bool := false
  silenceMs : Nat := 0
  ask : Option Answer := none
  askSilenceMs : Nat := 0
  nextAskMs : Nat := setup.config.minSilenceMs
  paused : Bool := false
  turnAsks : Nat := 0
  lastProb : Option ℚ := none

namespace Listening

variable {setup : DetectorSetup}

/-- `_reset_pause`. -/
def resetPause (state : Listening setup) : Listening setup :=
  { state with silenceMs := 0, nextAskMs := setup.config.minSilenceMs, paused := false }

/-- `_end`. -/
def endTurn (state : Listening setup) : Listening setup × TurnUpdate :=
  ({ state with inTurn := false }.resetPause,
    { signals := [.endOfTurn
        { eouMs := state.silenceMs
          smartTurnProb := state.lastProb
          smartTurnAsks := state.turnAsks }] })

/-- `_start_ask`. -/
def startAsk (state : Listening setup) : Listening setup × TurnUpdate :=
  let announces := setup.config.speculative && !state.paused
  let pauseFrames := state.silenceMs / setup.frameMs
  let frames := state.turnAudio.items
  let speech := sliceTo frames (frames.length - pauseFrames)
  let asked := setup.completion.ask state.completion (samples speech.flatten)
  ({ state with
      paused := state.paused || announces
      askSilenceMs := state.silenceMs
      nextAskMs := state.silenceMs + setup.reaskMs
      turnAsks := state.turnAsks + 1
      ask := some asked.1
      completion := asked.2 },
    { signals := if announces then [.pauseStart] else [] })

/-- `_settle_ask`, once the question in flight is done. -/
def settleAsk (state : Listening setup) : Listening setup × TurnUpdate :=
  let cleared := { state with ask := none }
  match state.ask with
  | some (.probability value) =>
      let told := { cleared with lastProb := some value }
      if setup.config.threshold state.askSilenceMs ≤ value then told.endTurn else (told, {})
  | _ => (cleared, {})

/-- `_on_frame` outside a turn. -/
def onFrameOutside (state : Listening setup) (frame : List UInt8) (isSpeech : Bool) :
    Listening setup × TurnUpdate :=
  if isSpeech then
    let onset := state.onset ++ [frame]
    if onset.length < onsetFrames then ({ state with onset := onset }, {})
    else
      let head := state.preroll.items ++ onset
      ({ state with
          preroll := {}
          onset := []
          turnAudio := ({} : Deque _ _).extend head
          inTurn := true
          turnAsks := 0
          lastProb := none }.resetPause,
        { signals := [.speechStart], sttAudio := head.flatten })
  else
    ({ state with preroll := (state.preroll.extend state.onset).append frame, onset := [] }, {})

/-- `_on_frame` inside a turn. -/
def onFrameInside (state : Listening setup) (frame : List UInt8) (isSpeech : Bool) :
    Listening setup × TurnUpdate :=
  let sent : TurnUpdate := { sttAudio := frame }
  let kept := { state with turnAudio := state.turnAudio.append frame }
  if isSpeech then
    (kept.resetPause, sent.add { signals := if state.paused then [.pauseCancelled] else [] })
  else
    let silent := { kept with silenceMs := state.silenceMs + setup.frameMs }
    if setup.config.maxSilenceMs ≤ silent.silenceMs then
      let ended := silent.endTurn
      (ended.1, sent.add ended.2)
    else if setup.config.smartTurn ∧ silent.nextAskMs ≤ silent.silenceMs then
      let asking := silent.startAsk
      (asking.1, sent.add asking.2)
    else (silent, sent)

/-- `_on_frame`. -/
def onFrame (state : Listening setup) (frame : List UInt8) : Listening setup × TurnUpdate :=
  let heard := setup.vad.speechProbability state.vad (samples frame)
  let isSpeech := decide (speechThreshold ≤ heard.1)
  let listening := { state with vad := heard.2 }
  if state.inTurn then listening.onFrameInside frame isSpeech
  else listening.onFrameOutside frame isSpeech

end Listening

/-! ### Pushing audio -/

structure TurnDetector (setup : DetectorSetup) where
  buffer : List UInt8 := []
  listening : Listening setup := {}

namespace TurnDetector

variable {setup : DetectorSetup}

/-- The loop of `push`. `done` says, for each pass, whether the question in flight has been
answered when the pass looks at it. -/
def drain (done : Nat → Bool) :
    Nat → Nat → TurnDetector setup → TurnUpdate → TurnDetector setup × TurnUpdate
  | 0, _, detector, update => (detector, update)
  | fuel + 1, pass, detector, update =>
      if detector.listening.ask.isSome ∧ done pass = false then
        (detector, { update with pending := true })
      else
        let settled := detector.listening.settleAsk
        let answered := update.add settled.2
        if detector.buffer.length < setup.frameBytes then
          ({ detector with listening := settled.1 }, answered)
        else
          let heard := settled.1.onFrame (detector.buffer.take setup.frameBytes)
          drain done fuel (pass + 1)
            { buffer := detector.buffer.drop setup.frameBytes, listening := heard.1 }
            (answered.add heard.2)

/-- A pass that does not end the loop takes a frame from the buffer. -/
def push (detector : TurnDetector setup) (done : Nat → Bool) (pcm : List UInt8) :
    TurnDetector setup × TurnUpdate :=
  let buffer := detector.buffer ++ pcm
  drain done (buffer.length + 1) 0 { detector with buffer := buffer } {}

end TurnDetector

/-- One call of `push`: its chunk, and when the answers are there. -/
structure Delivery where
  pcm : List UInt8
  done : Nat → Bool

def audioOf (deliveries : List Delivery) : List UInt8 := deliveries.flatMap (·.pcm)

namespace TurnDetector

variable {setup : DetectorSetup}

def feed (detector : TurnDetector setup) :
    List Delivery → TurnDetector setup × List TurnUpdate
  | [] => (detector, [])
  | delivery :: rest =>
      let pushed := detector.push delivery.done delivery.pcm
      let fed := pushed.1.feed rest
      (fed.1, pushed.2 :: fed.2)

end TurnDetector

def sentAudio (updates : List TurnUpdate) : List UInt8 := updates.flatMap (·.sttAudio)

def signalsOf (updates : List TurnUpdate) : List Signal := updates.flatMap (·.signals)

/-! ### What the audio itself gives -/

namespace Listening

variable {setup : DetectorSetup}

@[simp] theorem endTurn_ask (state : Listening setup) : state.endTurn.1.ask = state.ask := rfl

@[simp] theorem endTurn_sttAudio (state : Listening setup) : state.endTurn.2.sttAudio = [] := rfl

theorem settleAsk_ask (state : Listening setup) : state.settleAsk.1.ask = none := by
  unfold settleAsk
  rcases asked : state.ask with _ | value | _ | _
  · rfl
  · dsimp only
    split
    · rfl
    · rfl
  · rfl
  · rfl

theorem settleAsk_sttAudio (state : Listening setup) : state.settleAsk.2.sttAudio = [] := by
  unfold settleAsk
  rcases asked : state.ask with _ | value | _ | _
  · rfl
  · dsimp only
    split
    · rfl
    · rfl
  · rfl
  · rfl

theorem settleAsk_of_none {state : Listening setup} (idle : state.ask = none) :
    state.settleAsk = (state, {}) := by
  unfold settleAsk
  rw [idle]
  dsimp only
  rw [← idle]

end Listening

namespace DetectorSetup

variable (setup : DetectorSetup)

def reader : FrameReader (Listening setup) UInt8 TurnUpdate where
  size := setup.frameBytes
  size_pos := setup.frameBytes_pos
  process := fun state frame => ((state.onFrame frame).1, [(state.onFrame frame).2])
  blocked := fun state => state.ask.isSome
  release := fun state => (state.settleAsk.1, [state.settleAsk.2])
  released := by
    intro state
    rw [state.settleAsk_ask]
    rfl

/-- What the first `count` whole frames of some audio, and the answers to the questions asked in
them, put into the updates. -/
def emissions (audio : List UInt8) (count : Nat) : List TurnUpdate :=
  (setup.reader.trace {} audio count).flatten

def frame (audio : List UInt8) (index : Nat) : List UInt8 :=
  (audio.drop (index * setup.frameBytes)).take setup.frameBytes

def signalsAt (audio : List UInt8) (index : Nat) : List Signal :=
  signalsOf (setup.reader.whole (setup.reader.after {} audio index) (setup.frame audio index)).2

/-- The detector after some calls of `push`. -/
def detectorAfter (deliveries : List Delivery) : TurnDetector setup :=
  (TurnDetector.feed {} deliveries).1

def updatesOf (deliveries : List Delivery) : List TurnUpdate :=
  (TurnDetector.feed ({} : TurnDetector setup) deliveries).2

def framesRead (deliveries : List Delivery) : Nat :=
  ((audioOf deliveries).length - (setup.detectorAfter deliveries).buffer.length) /
    setup.frameBytes

/-- The signals that the answer to the question in flight will give. -/
def unanswered (deliveries : List Delivery) : List Signal :=
  signalsOf (setup.reader.awaited (setup.detectorAfter deliveries).listening)

end DetectorSetup

@[simp] theorem TurnUpdate.add_sttAudio (update added : TurnUpdate) :
    (update.add added).sttAudio = update.sttAudio ++ added.sttAudio := rfl

@[simp] theorem TurnUpdate.add_signals (update added : TurnUpdate) :
    (update.add added).signals = update.signals ++ added.signals := rfl

theorem sentAudio_append (earlier later : List TurnUpdate) :
    sentAudio (earlier ++ later) = sentAudio earlier ++ sentAudio later := List.flatMap_append

theorem signalsOf_append (earlier later : List TurnUpdate) :
    signalsOf (earlier ++ later) = signalsOf earlier ++ signalsOf later := List.flatMap_append

@[simp] theorem sentAudio_singleton (update : TurnUpdate) :
    sentAudio [update] = update.sttAudio := List.flatMap_singleton ..

@[simp] theorem signalsOf_singleton (update : TurnUpdate) :
    signalsOf [update] = update.signals := List.flatMap_singleton ..

namespace TurnDetector

variable {setup : DetectorSetup}

/-- The detector has followed `stream`: what it put into updates so far is `emitted`, in steps
of one frame or one answer. -/
structure Heard (stream sent : List UInt8) (signals : List Signal)
    (detector : TurnDetector setup) (emitted : List TurnUpdate) (count : Nat) : Prop where
  follows : setup.reader.Follows {} stream emitted detector.listening detector.buffer count
  sent_eq : sent = sentAudio emitted
  signals_eq : signals = signalsOf emitted

theorem Heard.begun : Heard [] [] [] ({} : TurnDetector setup) [] 0 where
  follows := FrameReader.Follows.begun _ rfl
  sent_eq := rfl
  signals_eq := rfl

variable {stream sent : List UInt8} {signals : List Signal} {detector : TurnDetector setup}
  {emitted : List TurnUpdate} {count : Nat}

section

variable (heard : Heard stream sent signals detector emitted count)
include heard

theorem Heard.arrive (pcm : List UInt8) :
    Heard (stream ++ pcm) sent signals { detector with buffer := detector.buffer ++ pcm }
      emitted count :=
  { heard with follows := heard.follows.arrive pcm }

theorem Heard.settle :
    ∃ emitted, Heard stream (sent ++ detector.listening.settleAsk.2.sttAudio)
      (signals ++ detector.listening.settleAsk.2.signals)
      { detector with listening := detector.listening.settleAsk.1 } emitted count := by
  by_cases waits : detector.listening.ask.isSome = true
  · refine ⟨_, { follows := heard.follows.release waits, sent_eq := ?_, signals_eq := ?_ }⟩
    · rw [sentAudio_append, ← heard.sent_eq]
      exact congrArg _ (sentAudio_singleton _).symm
    · rw [signalsOf_append, ← heard.signals_eq]
      exact congrArg _ (signalsOf_singleton _).symm
  · have idle : detector.listening.ask = none := by simpa using waits
    rw [Listening.settleAsk_of_none idle, List.append_nil, List.append_nil]
    exact ⟨emitted, heard⟩

theorem Heard.onFrame (idle : detector.listening.ask = none)
    (filled : setup.frameBytes ≤ detector.buffer.length) :
    let frame := detector.listening.onFrame (detector.buffer.take setup.frameBytes)
    ∃ emitted, Heard stream (sent ++ frame.2.sttAudio) (signals ++ frame.2.signals)
      { buffer := detector.buffer.drop setup.frameBytes, listening := frame.1 }
      emitted (count + 1) := by
  have free : setup.reader.blocked detector.listening = false := by
    change detector.listening.ask.isSome = false
    rw [idle]
    rfl
  refine ⟨_, { follows := heard.follows.process free filled, sent_eq := ?_, signals_eq := ?_ }⟩
  · rw [sentAudio_append, ← heard.sent_eq]
    exact congrArg _ (sentAudio_singleton _).symm
  · rw [signalsOf_append, ← heard.signals_eq]
    exact congrArg _ (signalsOf_singleton _).symm

end

/-- The loop ends with a question in flight or without a whole frame. -/
def Drained (detector : TurnDetector setup) : Prop :=
  detector.listening.ask.isSome = true ∨
    detector.listening.ask = none ∧ detector.buffer.length < setup.frameBytes

theorem drain_heard (done : Nat → Bool) (fuel pass : Nat) (update : TurnUpdate)
    (enough : detector.buffer.length < fuel)
    (heard : Heard stream (sent ++ update.sttAudio) (signals ++ update.signals) detector
      emitted count) :
    let drained := drain done fuel pass detector update
    drained.1.Drained ∧ ∃ emitted count, Heard stream (sent ++ drained.2.sttAudio)
      (signals ++ drained.2.signals) drained.1 emitted count := by
  induction fuel generalizing pass detector update emitted count with
  | zero => exact absurd enough (Nat.not_lt_zero _)
  | succ fuel ih =>
      rw [drain]
      by_cases waits : detector.listening.ask.isSome ∧ done pass = false
      · rw [if_pos waits]
        exact ⟨Or.inl waits.1, emitted, count, heard⟩
      · rw [if_neg waits]
        obtain ⟨settledEmitted, settled⟩ := heard.settle
        by_cases short : detector.buffer.length < setup.frameBytes
        · rw [if_pos short]
          refine ⟨Or.inr ⟨detector.listening.settleAsk_ask, short⟩, settledEmitted, count, ?_⟩
          simpa only [TurnUpdate.add_sttAudio, TurnUpdate.add_signals, List.append_assoc]
            using settled
        · rw [if_neg short]
          obtain ⟨frameEmitted, processed⟩ :=
            settled.onFrame detector.listening.settleAsk_ask (Nat.le_of_not_lt short)
          refine @ih _ frameEmitted (count + 1) _ _ ?_ ?_
          · have positive := setup.frameBytes_pos
            rw [List.length_drop]
            omega
          · simpa only [TurnUpdate.add_sttAudio, TurnUpdate.add_signals, List.append_assoc]
              using processed

theorem push_heard (done : Nat → Bool) (pcm : List UInt8)
    (heard : Heard stream sent signals detector emitted count) :
    let pushed := detector.push done pcm
    pushed.1.Drained ∧ ∃ emitted count, Heard (stream ++ pcm) (sent ++ pushed.2.sttAudio)
      (signals ++ pushed.2.signals) pushed.1 emitted count := by
  have started : Heard (stream ++ pcm) (sent ++ ({} : TurnUpdate).sttAudio)
      (signals ++ ({} : TurnUpdate).signals)
      { detector with buffer := detector.buffer ++ pcm } emitted count := by
    rw [List.append_nil, List.append_nil]
    exact heard.arrive pcm
  exact drain_heard done _ 0 {} (Nat.lt_succ_self _) started

theorem feed_heard (deliveries : List Delivery) (drained : detector.Drained)
    (heard : Heard stream sent signals detector emitted count) :
    let fed := detector.feed deliveries
    fed.1.Drained ∧ ∃ emitted count, Heard (stream ++ audioOf deliveries)
      (sent ++ sentAudio fed.2) (signals ++ signalsOf fed.2) fed.1 emitted count := by
  induction deliveries generalizing detector stream sent signals emitted count with
  | nil =>
      refine ⟨drained, emitted, count, ?_⟩
      change Heard (stream ++ []) (sent ++ []) (signals ++ []) detector emitted count
      rw [List.append_nil, List.append_nil, List.append_nil]
      exact heard
  | cons delivery rest ih =>
      obtain ⟨pushedDrained, pushedEmitted, pushedCount, pushed⟩ :=
        push_heard delivery.done delivery.pcm heard
      obtain ⟨restDrained, restEmitted, restCount, fed⟩ := ih pushedDrained pushed
      refine ⟨restDrained, restEmitted, restCount, ?_⟩
      rw [List.append_assoc, List.append_assoc, List.append_assoc] at fed
      exact fed

end TurnDetector

namespace DetectorSetup

variable (setup : DetectorSetup)

/-- What some calls put into their updates, as far as the first `shared` whole frames of their
audio go: all of `emitted` and, where they have processed no other frame, nothing else but the
answer still to come. -/
structure EmitsUpTo (shared : Nat) (emitted : List TurnUpdate) (deliveries : List Delivery) :
    Prop where
  sent : sentAudio emitted <+: sentAudio (setup.updatesOf deliveries)
  signalled : signalsOf emitted <+:
    signalsOf (setup.updatesOf deliveries) ++ setup.unanswered deliveries
  exactly : setup.framesRead deliveries = shared →
    sentAudio (setup.updatesOf deliveries) = sentAudio emitted ∧
    signalsOf (setup.updatesOf deliveries) ++ setup.unanswered deliveries = signalsOf emitted

theorem heard_after (deliveries : List Delivery) :
    (setup.detectorAfter deliveries).Drained ∧
      ∃ emitted, TurnDetector.Heard (audioOf deliveries) (sentAudio (setup.updatesOf deliveries))
        (signalsOf (setup.updatesOf deliveries)) (setup.detectorAfter deliveries) emitted
        (setup.framesRead deliveries) := by
  have free : ({} : TurnDetector setup).Drained := Or.inr ⟨rfl, setup.frameBytes_pos⟩
  obtain ⟨drained, emitted, count, heard⟩ :=
    TurnDetector.feed_heard deliveries free TurnDetector.Heard.begun
  have read : setup.framesRead deliveries = count := by
    have buffered := congrArg List.length heard.follows.read
    have fits := heard.follows.arrived
    rw [List.nil_append] at buffered fits
    rw [List.length_drop] at buffered
    change ((audioOf deliveries).length - (TurnDetector.feed {} deliveries).1.buffer.length) /
      setup.frameBytes = count
    change count * setup.frameBytes ≤ (audioOf deliveries).length at fits
    change (audioOf deliveries).length - count * setup.frameBytes = _ at buffered
    rw [← buffered, Nat.sub_sub_self fits]
    exact Nat.mul_div_cancel _ setup.frameBytes_pos
  rw [read]
  exact ⟨drained, emitted, heard⟩

theorem sentAudio_awaited (state : Listening setup) :
    sentAudio (setup.reader.awaited state) = [] := by
  unfold FrameReader.awaited
  by_cases waits : setup.reader.blocked state
  · rw [if_pos waits]
    change sentAudio [state.settleAsk.2] = []
    rw [sentAudio_singleton, state.settleAsk_sttAudio]
  · rw [if_neg waits]
    rfl

theorem updates_eq (deliveries : List Delivery) :
    let emitted := setup.emissions (audioOf deliveries) (setup.framesRead deliveries)
    sentAudio (setup.updatesOf deliveries) = sentAudio emitted ∧
      signalsOf (setup.updatesOf deliveries) ++ setup.unanswered deliveries =
        signalsOf emitted := by
  obtain ⟨_, emitted, heard⟩ := setup.heard_after deliveries
  have given : emitted ++ setup.reader.awaited (setup.detectorAfter deliveries).listening =
      setup.emissions (audioOf deliveries) (setup.framesRead deliveries) := heard.follows.given
  constructor
  · rw [← given, sentAudio_append, setup.sentAudio_awaited, List.append_nil, heard.sent_eq]
  · rw [← given, signalsOf_append, heard.signals_eq]
    rfl

theorem emissions_prefix (audio : List UInt8) {fewer count : Nat} (fits : fewer ≤ count) :
    setup.emissions audio fewer <+: setup.emissions audio count := by
  unfold emissions
  rw [← setup.reader.take_trace {} audio fits]
  exact List.IsPrefix.flatten (List.take_prefix _ _)

theorem emitsUpTo (deliveries : List Delivery) {shared : Nat}
    (fits : shared ≤ setup.framesRead deliveries) :
    setup.EmitsUpTo shared (setup.emissions (audioOf deliveries) shared) deliveries := by
  obtain ⟨sent, signalled⟩ := setup.updates_eq deliveries
  have begins := setup.emissions_prefix (audioOf deliveries) fits
  refine { sent := ?_, signalled := ?_, exactly := ?_ }
  · rw [sent]
    exact begins.flatMap _
  · rw [signalled]
    exact begins.flatMap _
  · intro all
    rw [← all]
    exact ⟨sent, signalled⟩

section

variable (deliveries : List Delivery)
  (idle : (setup.detectorAfter deliveries).listening.ask = none)
include deliveries idle

theorem framesRead_of_idle :
    setup.framesRead deliveries = (audioOf deliveries).length / setup.frameBytes := by
  obtain ⟨drained, emitted, heard⟩ := setup.heard_after deliveries
  rcases drained with waits | ⟨_, short⟩
  · rw [idle] at waits
    cases waits
  · exact heard.follows.count_eq short

theorem detectorAfter_of_idle : let count := (audioOf deliveries).length / setup.frameBytes
    setup.detectorAfter deliveries =
      { buffer := (audioOf deliveries).drop (count * setup.frameBytes)
        listening := setup.reader.after {} (audioOf deliveries) count } := by
  obtain ⟨_, emitted, heard⟩ := setup.heard_after deliveries
  have read := heard.follows.read
  have reached := heard.follows.reached
  have free : setup.reader.blocked (setup.detectorAfter deliveries).listening = false := by
    change (setup.detectorAfter deliveries).listening.ask.isSome = false
    rw [idle]
    rfl
  rw [setup.framesRead_of_idle deliveries idle] at read reached
  rw [setup.reader.settled_of_unblocked free] at reached
  dsimp only
  rw [← reached]
  exact congrArg (fun buffer => ({ buffer, listening := (setup.detectorAfter deliveries).listening }
    : TurnDetector setup)) read.symm

theorem unanswered_of_idle : setup.unanswered deliveries = [] := by
  unfold unanswered FrameReader.awaited
  rw [if_neg]
  · rfl
  · change ¬ (setup.detectorAfter deliveries).listening.ask.isSome = true
    rw [idle]
    exact Bool.false_ne_true

end

/-- However the same audio is cut into chunks and whenever the answers come, the updates agree
on the whole frames that both sides have processed, the answer to a question in flight apart;
with none in flight they agree altogether, and so do the detectors. -/
theorem chunking_invisible (first second : List Delivery)
    (same : audioOf first = audioOf second) :
    let shared := min (setup.framesRead first) (setup.framesRead second)
    let emitted := setup.emissions (audioOf first) shared
    setup.EmitsUpTo shared emitted first ∧ setup.EmitsUpTo shared emitted second ∧
    ((setup.detectorAfter first).listening.ask = none →
      (setup.detectorAfter second).listening.ask = none →
        setup.framesRead first = (audioOf first).length / setup.frameBytes ∧
        setup.detectorAfter first = setup.detectorAfter second ∧
        sentAudio (setup.updatesOf first) = sentAudio (setup.updatesOf second) ∧
        signalsOf (setup.updatesOf first) = signalsOf (setup.updatesOf second)) := by
  refine ⟨setup.emitsUpTo first (Nat.min_le_left _ _), ?_, ?_⟩
  · rw [same]
    exact setup.emitsUpTo second (Nat.min_le_right _ _)
  · intro firstIdle secondIdle
    have firstRead := setup.framesRead_of_idle first firstIdle
    have secondRead := setup.framesRead_of_idle second secondIdle
    obtain ⟨firstSent, firstSignals⟩ := setup.updates_eq first
    obtain ⟨secondSent, secondSignals⟩ := setup.updates_eq second
    rw [setup.unanswered_of_idle first firstIdle, List.append_nil] at firstSignals
    rw [setup.unanswered_of_idle second secondIdle, List.append_nil] at secondSignals
    rw [← same] at secondRead secondSent secondSignals
    refine ⟨firstRead, ?_, ?_, ?_⟩
    · rw [setup.detectorAfter_of_idle first firstIdle,
        setup.detectorAfter_of_idle second secondIdle, same]
    · rw [firstSent, secondSent, firstRead, secondRead]
    · rw [firstSignals, secondSignals, firstRead, secondRead]

end DetectorSetup

/-! A call with frames of a millisecond: speech is a sample other than zero, and the question is
answered by the number of samples asked about. -/

def loudVad : VadModel where
  State := Unit
  fresh := ()
  frameSamples := 16
  speechProbability := fun _ frame => (if frame.all (· = 0) then 1 / 10 else 9 / 10, ())

def patientCompletion : Completion where
  State := Unit
  fresh := ()
  ask := fun _ audio => (.probability (if audio.length < 32 then 1 / 10 else 9 / 10), ())

def briskSetup : DetectorSetup where
  vad := loudVad
  completion := patientCompletion
  config := { minSilenceMs := 64, prerollMs := 2 }
  frameMs_pos := by decide

def loudFrame : List UInt8 := List.replicate 32 1

def quietFrames (count : Nat) : List UInt8 := List.replicate (32 * count) 0

/-- The pause in one chunk, and the question still in flight at the end. -/
def oneChunk : List Delivery :=
  [{ pcm := loudFrame ++ (loudFrame ++ quietFrames 64), done := fun _ => false }]

def cutAudio : List Delivery :=
  [{ pcm := loudFrame ++ loudFrame.take 5, done := fun _ => true },
    { pcm := loudFrame.drop 5 ++ quietFrames 64, done := fun _ => true }]

namespace DetectorSetup

theorem chunking_invisible_cut :
    signalsOf (briskSetup.updatesOf oneChunk) = [.speechStart, .pauseStart] ∧
    briskSetup.unanswered oneChunk =
      [.endOfTurn { eouMs := 64, smartTurnProb := some (9 / 10), smartTurnAsks := 1 }] ∧
    signalsOf (briskSetup.updatesOf cutAudio) =
      [.speechStart, .pauseStart,
        .endOfTurn { eouMs := 64, smartTurnProb := some (9 / 10), smartTurnAsks := 1 }] ∧
    briskSetup.EmitsUpTo (min (briskSetup.framesRead oneChunk) (briskSetup.framesRead cutAudio))
      (briskSetup.emissions (audioOf oneChunk)
        (min (briskSetup.framesRead oneChunk) (briskSetup.framesRead cutAudio))) cutAudio :=
  ⟨by decide +kernel, by decide +kernel, by decide +kernel,
    (briskSetup.chunking_invisible oneChunk cutAudio (by decide +kernel)).2.1⟩

end DetectorSetup

/-! ### The order of the signals

The bridge takes a signal only in the phase that the signals before it have led to, as
`hear_iff_step` says of its steps. -/

def DetectorPhase.hear : DetectorPhase → Signal → Option DetectorPhase
  | .idle, .speechStart => some .speaking
  | .speaking, .pauseStart => some .paused
  | .paused, .pauseCancelled => some .speaking
  | .speaking, .endOfTurn _ => some .idle
  | .paused, .endOfTurn _ => some .idle
  | _, _ => none

def Signal.action : Signal → BridgeAction
  | .speechStart => .speechStart
  | .pauseStart => .pauseStart
  | .pauseCancelled => .pauseCancelled
  | .endOfTurn signal => .endOfTurn signal

theorem DetectorPhase.hear_iff_step (config : BridgeConfig) (bridge : CascadeBridge)
    (signal : Signal) (live : bridge.session = .live) (free : bridge.handler = .idle) :
    (bridge.detector.hear signal).isSome = (bridge.step config signal.action).isSome := by
  have hears (phase : DetectorPhase) : bridge.hears phase ↔ bridge.detector = phase := by
    unfold CascadeBridge.hears
    rw [and_iff_right live, and_iff_right free]
  cases signal with
  | speechStart =>
      cases phase : bridge.detector <;>
        simp [Signal.action, CascadeBridge.step, DetectorPhase.hear, hears, phase]
  | pauseStart =>
      cases phase : bridge.detector <;>
        simp [Signal.action, CascadeBridge.step, DetectorPhase.hear, hears, phase]
  | pauseCancelled =>
      cases phase : bridge.detector <;>
        simp [Signal.action, CascadeBridge.step, DetectorPhase.hear, hears, phase]
  | endOfTurn signal =>
      cases phase : bridge.detector <;>
        simp [Signal.action, CascadeBridge.step, DetectorPhase.hear, hears, phase]

namespace Listening

variable {setup : DetectorSetup}

def phase (state : Listening setup) : DetectorPhase :=
  if state.inTurn then (if state.paused then .paused else .speaking) else .idle

structure Settled (state : Listening setup) : Prop where
  paused : state.inTurn = false → state.paused = false
  asked : state.inTurn = false → state.ask = none

structure Announces (state : Listening setup) (stepped : Listening setup × TurnUpdate) :
    Prop where
  settled : stepped.1.Settled
  signals : stepped.2.signals.foldlM DetectorPhase.hear state.phase = some stepped.1.phase

theorem endTurn_announces {state : Listening setup} (inTurn : state.inTurn = true)
    (idle : state.ask = none) : state.Announces state.endTurn where
  settled := ⟨fun _ => rfl, fun _ => idle⟩
  signals := by
    cases paused : state.paused <;>
      simp [endTurn, phase, resetPause, DetectorPhase.hear, inTurn, paused]

theorem settleAsk_announces {state : Listening setup} (settled : state.Settled) :
    state.Announces state.settleAsk := by
  have cleared : state.Announces ({ state with ask := none }, {}) :=
    ⟨⟨settled.paused, fun _ => rfl⟩, rfl⟩
  unfold settleAsk
  rcases asked : state.ask with _ | value | _ | _
  · exact cleared
  · have inTurn : state.inTurn = true := by
      by_contra outside
      rw [settled.asked (Bool.eq_false_iff.mpr outside)] at asked
      cases asked
    dsimp only
    split
    · let told : Listening setup := { state with ask := none, lastProb := some value }
      have ended : told.Announces told.endTurn := endTurn_announces inTurn rfl
      exact ⟨ended.settled, ended.signals⟩
    · exact ⟨⟨settled.paused, fun _ => rfl⟩, rfl⟩
  · exact cleared
  · exact cleared

theorem startAsk_announces {state : Listening setup} (inTurn : state.inTurn = true) :
    state.Announces state.startAsk where
  settled := by
    constructor <;> intro outside <;> change state.inTurn = false at outside <;>
      rw [inTurn] at outside <;> cases outside
  signals := by
    cases paused : state.paused <;> cases announced : setup.config.speculative <;>
      simp [startAsk, phase, DetectorPhase.hear, inTurn, paused, announced]

theorem onFrameInside_announces {state : Listening setup} (frame : List UInt8) (isSpeech : Bool)
    (inTurn : state.inTurn = true) (idle : state.ask = none) :
    state.Announces (state.onFrameInside frame isSpeech) := by
  unfold onFrameInside
  cases isSpeech with
  | true =>
      have inside : (state.resetPause).inTurn = true := inTurn
      refine ⟨⟨fun _ => rfl, fun _ => idle⟩, ?_⟩
      cases paused : state.paused <;>
        simp [phase, resetPause, TurnUpdate.add, DetectorPhase.hear, inTurn, paused]
  | false =>
      let silent : Listening setup :=
        { state with
          turnAudio := state.turnAudio.append frame
          silenceMs := state.silenceMs + setup.frameMs }
      rw [if_neg Bool.false_ne_true]
      dsimp only
      split
      · have ended : silent.Announces silent.endTurn := endTurn_announces inTurn idle
        exact ⟨ended.settled, ended.signals⟩
      · split
        · have asking : silent.Announces silent.startAsk := startAsk_announces inTurn
          exact ⟨asking.settled, asking.signals⟩
        · refine ⟨⟨fun outside => ?_, fun _ => idle⟩, rfl⟩
          rw [show silent.inTurn = true from inTurn] at outside
          cases outside

theorem onFrameOutside_announces {state : Listening setup} (frame : List UInt8)
    (isSpeech : Bool) (outside : state.inTurn = false) (settled : state.Settled) :
    state.Announces (state.onFrameOutside frame isSpeech) := by
  unfold onFrameOutside
  have idle := settled.asked outside
  cases isSpeech with
  | true =>
      rw [if_pos rfl]
      dsimp only
      split
      · exact ⟨⟨settled.paused, settled.asked⟩, rfl⟩
      · refine ⟨⟨fun _ => rfl, fun _ => idle⟩, ?_⟩
        simp [phase, resetPause, DetectorPhase.hear, outside]
  | false => exact ⟨⟨settled.paused, settled.asked⟩, rfl⟩

theorem onFrame_announces {state : Listening setup} (frame : List UInt8)
    (settled : state.Settled) (idle : state.ask = none) :
    state.Announces (state.onFrame frame) := by
  let probed := setup.vad.speechProbability state.vad (samples frame)
  let isSpeech := decide (speechThreshold ≤ probed.1)
  let listening : Listening setup := { state with vad := probed.2 }
  unfold onFrame
  dsimp only
  split
  case isTrue inTurn =>
    have inside : listening.Announces (listening.onFrameInside frame isSpeech) :=
      onFrameInside_announces frame isSpeech inTurn idle
    exact ⟨inside.settled, inside.signals⟩
  case isFalse outside =>
    have before : listening.Announces (listening.onFrameOutside frame isSpeech) :=
      onFrameOutside_announces frame isSpeech (Bool.eq_false_iff.mpr outside)
        ⟨settled.paused, settled.asked⟩
    exact ⟨before.settled, before.signals⟩

end Listening

namespace TurnDetector

variable {setup : DetectorSetup} {detector : TurnDetector setup}

structure InStep (detector : TurnDetector setup) (signals : List Signal) : Prop where
  settled : detector.listening.Settled
  heard : signals.foldlM DetectorPhase.hear .idle = some detector.listening.phase

theorem InStep.announced {signals : List Signal} {next : Listening setup × TurnUpdate}
    (kept : detector.InStep signals) (announces : detector.listening.Announces next)
    (buffer : List UInt8) :
    InStep { buffer := buffer, listening := next.1 } (signals ++ next.2.signals) where
  settled := announces.settled
  heard := by
    rw [List.foldlM_append, kept.heard]
    exact announces.signals

theorem drain_inStep (done : Nat → Bool) (earlier : List Signal) (fuel pass : Nat)
    (update : TurnUpdate) (kept : detector.InStep (earlier ++ update.signals)) :
    (drain done fuel pass detector update).1.InStep
      (earlier ++ (drain done fuel pass detector update).2.signals) := by
  induction fuel generalizing pass detector update with
  | zero => exact kept
  | succ fuel ih =>
      rw [drain]
      by_cases waits : detector.listening.ask.isSome ∧ done pass = false
      · rw [if_pos waits]
        exact kept
      · rw [if_neg waits]
        have settled := kept.announced (Listening.settleAsk_announces kept.settled)
        by_cases short : detector.buffer.length < setup.frameBytes
        · rw [if_pos short]
          have ended := settled detector.buffer
          rw [List.append_assoc] at ended
          exact ended
        · rw [if_neg short]
          have heard := (settled detector.buffer).announced
            (Listening.onFrame_announces (detector.buffer.take setup.frameBytes)
              (settled detector.buffer).settled detector.listening.settleAsk_ask)
            (detector.buffer.drop setup.frameBytes)
          rw [List.append_assoc, List.append_assoc, ← List.append_assoc update.signals] at heard
          exact ih _ _ heard

theorem feed_inStep {earlier : List Signal} (deliveries : List Delivery)
    (kept : detector.InStep earlier) :
    (detector.feed deliveries).1.InStep (earlier ++ signalsOf (detector.feed deliveries).2) := by
  induction deliveries generalizing detector earlier with
  | nil =>
      change detector.InStep (earlier ++ [])
      rw [List.append_nil]
      exact kept
  | cons delivery rest ih =>
      have arrived : InStep { detector with buffer := detector.buffer ++ delivery.pcm }
          (earlier ++ ({} : TurnUpdate).signals) := by
        rw [List.append_nil]
        exact ⟨kept.settled, kept.heard⟩
      have pushed := drain_inStep delivery.done earlier
        ((detector.buffer ++ delivery.pcm).length + 1) 0 {} arrived
      have fed := ih pushed
      rw [List.append_assoc] at fed
      exact fed

/-- Over any calls the signals come in an order that the bridge takes: each in the phase that
those before it have led to. -/
theorem signals_in_order (setup : DetectorSetup) (deliveries : List Delivery) :
    (signalsOf (setup.updatesOf deliveries)).foldlM DetectorPhase.hear .idle =
      some (setup.detectorAfter deliveries).listening.phase := by
  have fresh : ({} : TurnDetector setup).InStep [] :=
    ⟨⟨fun _ => rfl, fun _ => rfl⟩, rfl⟩
  exact (feed_inStep deliveries fresh).heard

end TurnDetector

end Assemblix.Realtime
