import Assemblix.Library.Run
import Mathlib.Data.Rat.Floor

/-
The two outputs that feed an avatar: a session socket and the streams of a media room.

The calls come from one task, one after another; while one of them waits, only reports of the
avatar come in, and they find what they find before or after it. At 24 kHz nothing is resampled.
A socket that is open takes what it is sent. Durations are exact, in place of floating point
numbers.
-/

namespace Assemblix.AvatarOutput

open Library

/-! ### Where the voice of the agent goes -/

/-- What the avatar call has of an output. A call that raises leaves nothing; the others leave a
state, and the chunks of audio that were sent. -/
structure Output (S : Type) where
  push : ℚ → Nat → List UInt8 → S → Option (S × List (List UInt8))
  endUtterance : ℚ → S → Option (S × List (List UInt8))
  interrupt : ℚ → S → S × Option Int
  playbackFinished : Nat → S → S
  hangUp : S → S
  isOpen : S → Bool

/-- `int(..)`. -/
def truncate (number : ℚ) : Int :=
  if 0 ≤ number then ⌊number⌋ else ⌈number⌉

def avatarSampleRate : Nat := 24000

def bytesPerSample : Nat := 2

/-! ### The session socket -/

/-- `_BYTES_PER_MS`. -/
def bytesPerMs : Nat := avatarSampleRate * bytesPerSample / 1000

structure ChunkSizes where
  firstChunkMs : Nat
  chunkMs : Nat
  first_pos : 0 < firstChunkMs
  chunk_pos : 0 < chunkMs

structure LiveAvatarSocketOutput where
  buffer : List UInt8
  /-- Set while an utterance is open. -/
  utteranceId : Option Nat
  lastUtteranceId : Option Nat
  chunksSent : Nat
  sentMs : ℚ
  startedAt : ℚ
  closed : Bool
  playing : Bool

namespace LiveAvatarSocketOutput

def initial : LiveAvatarSocketOutput := ⟨[], none, none, 0, 0, 0, false, false⟩

def nextChunkBytes (sizes : ChunkSizes) (output : LiveAvatarSocketOutput) : Nat :=
  if output.chunksSent = 0 then sizes.firstChunkMs * bytesPerMs else sizes.chunkMs * bytesPerMs

def beginSpeech (clock : ℚ) (output : LiveAvatarSocketOutput) : LiveAvatarSocketOutput :=
  { output with
    lastUtteranceId := output.utteranceId
    startedAt := if output.playing then output.startedAt else clock
    sentMs := if output.playing then output.sentMs else 0
    playing := true }

def speak (clock : ℚ) (chunk : List UInt8) (output : LiveAvatarSocketOutput) :
    LiveAvatarSocketOutput :=
  let begun := if output.chunksSent = 0 then output.beginSpeech clock else output
  { begun with
    chunksSent := begun.chunksSent + 1
    sentMs := begun.sentMs + (chunk.length : ℚ) / bytesPerMs }

/-- The loop of `push`, which takes at least one letter of the buffer in each round. -/
def drain (sizes : ChunkSizes) (clock : ℚ) :
    Nat → LiveAvatarSocketOutput → LiveAvatarSocketOutput × List (List UInt8)
  | 0, output => (output, [])
  | rounds + 1, output =>
      let size := output.nextChunkBytes sizes
      if size ≤ output.buffer.length then
        let chunk := output.buffer.take size
        let after := drain sizes clock rounds
          (speak clock chunk { output with buffer := output.buffer.drop size })
        (after.1, chunk :: after.2)
      else (output, [])

def openUtterance (fresh : Nat) (output : LiveAvatarSocketOutput) : LiveAvatarSocketOutput :=
  match output.utteranceId with
  | none => { output with utteranceId := some fresh, chunksSent := 0 }
  | some _ => output

def push (sizes : ChunkSizes) (clock : ℚ) (fresh : Nat) (pcm : List UInt8)
    (output : LiveAvatarSocketOutput) :
    Option (LiveAvatarSocketOutput × List (List UInt8)) :=
  if output.closed then none
  else
    let filled := { output with buffer := output.buffer ++ pcm }
    some (drain sizes clock (filled.buffer.length + 1) (filled.openUtterance fresh))

def endUtterance (clock : ℚ) (output : LiveAvatarSocketOutput) :
    Option (LiveAvatarSocketOutput × List (List UInt8)) :=
  if output.closed then none
  else
    match output.utteranceId with
    | none => some (output, [])
    | some _ =>
        let tail := output.buffer
        let emptied := { output with buffer := [] }
        if tail = [] then some ({ emptied with utteranceId := none }, [])
        else some ({ speak clock tail emptied with utteranceId := none }, [tail])

def interrupt (clock : ℚ) (output : LiveAvatarSocketOutput) :
    LiveAvatarSocketOutput × Option Int :=
  if output.utteranceId = none ∧ output.playing = false then (output, none)
  else
    let dropped := { output with buffer := [], utteranceId := none }
    if output.playing = false then (dropped, some 0)
    else ({ dropped with playing := false },
      some (truncate (min output.sentMs ((clock - output.startedAt) * 1000))))

/-- `agent.speak_ended`. -/
def speakEnded (sourceEventId : Nat) (output : LiveAvatarSocketOutput) : LiveAvatarSocketOutput :=
  if output.utteranceId = none ∧ output.lastUtteranceId = some sourceEventId then
    { output with playing := false }
  else output

def device (sizes : ChunkSizes) : Output LiveAvatarSocketOutput where
  push := push sizes
  endUtterance := endUtterance
  interrupt := interrupt
  playbackFinished := speakEnded
  hangUp := fun output => { output with closed := true }
  isOpen := fun output => output.utteranceId.isSome

end LiveAvatarSocketOutput

/-! ### The streams of a media room -/

structure AvatarAudioOutput where
  /-- The stream that is open. -/
  writer : Option Nat
  sentMs : ℚ
  startedAt : ℚ
  playing : Bool

namespace AvatarAudioOutput

def initial : AvatarAudioOutput := ⟨none, 0, 0, false⟩

def durationMs (data : List UInt8) : ℚ :=
  (data.length : ℚ) / bytesPerSample / avatarSampleRate * 1000

def openStream (clock : ℚ) (fresh : Nat) (output : AvatarAudioOutput) : AvatarAudioOutput :=
  match output.writer with
  | none =>
      { writer := some fresh
        startedAt := if output.playing then output.startedAt else clock
        sentMs := if output.playing then output.sentMs else 0
        playing := true }
  | some _ => output

def push (clock : ℚ) (fresh : Nat) (pcm : List UInt8) (output : AvatarAudioOutput) :
    AvatarAudioOutput × List (List UInt8) :=
  let opened := output.openStream clock fresh
  if pcm = [] then (opened, [])
  else ({ opened with sentMs := opened.sentMs + durationMs pcm }, [pcm])

def interrupt (clock : ℚ) (output : AvatarAudioOutput) : AvatarAudioOutput × Option Int :=
  if output.playing = false then (output, none)
  else ({ output with writer := none, playing := false },
    some (truncate (min output.sentMs ((clock - output.startedAt) * 1000))))

/-- `lk.playback_finished`, whatever it is about. -/
def onPlaybackFinished (output : AvatarAudioOutput) : AvatarAudioOutput :=
  match output.writer with
  | none => { output with playing := false }
  | some _ => output

def device : Output AvatarAudioOutput where
  push := fun clock fresh pcm output => some (push clock fresh pcm output)
  endUtterance := fun _ output => some ({ output with writer := none }, [])
  interrupt := interrupt
  playbackFinished := fun _ output => output.onPlaybackFinished
  hangUp := id
  isOpen := fun output => output.writer.isSome

end AvatarAudioOutput

/-! ### A call -/

structure Utterance where
  id : Nat
  audio : List UInt8
  firstSent : Option ℚ
  /-- Reported finished, or interrupted. -/
  past : Bool

def duration (audio : List UInt8) : ℚ := (audio.length : ℚ) / 48

def Utterance.send (clock : ℚ) (audio : List UInt8) (utterance : Utterance) : Utterance where
  id := utterance.id
  audio := utterance.audio ++ audio
  firstSent := if utterance.audio = [] ∧ audio ≠ [] then some clock else utterance.firstSent
  past := utterance.past

structure Playback (S : Type) where
  clock : ℚ
  output : S
  utterances : List Utterance

inductive Event
  | push (pcm : List UInt8)
  | endUtterance
  | interrupt
  | playbackFinished (utterance : Nat)
  | hangUp
  | advance (seconds : ℚ)

def sendLatest (clock : ℚ) (chunks : List (List UInt8)) : List Utterance → List Utterance
  | [] => []
  | latest :: older => latest.send clock chunks.flatten :: older

def finish (utterance : Nat) (utterances : List Utterance) : List Utterance :=
  utterances.map (fun other => { other with past := other.past || decide (other.id = utterance) })

section

variable {S : Type} (device : Output S)

def MayFinish (playback : Playback S) (utterance : Nat) : Prop :=
  (∃ known ∈ playback.utterances, known.id = utterance) ∧
    (∀ other ∈ playback.utterances, other.id < utterance → other.audio ≠ [] → other.past = true) ∧
    (device.isOpen playback.output = true → utterance + 1 ≠ playback.utterances.length)

instance (playback : Playback S) (utterance : Nat) : Decidable (MayFinish device playback utterance) :=
  inferInstanceAs (Decidable (_ ∧ _ ∧ _))

def openLatest (playback : Playback S) : List Utterance :=
  if device.isOpen playback.output then playback.utterances
  else ⟨playback.utterances.length, [], none, false⟩ :: playback.utterances

def step (playback : Playback S) : Event → Option (Playback S)
  | .push pcm =>
      match device.push playback.clock playback.utterances.length pcm playback.output with
      | none => some playback
      | some (output, sent) =>
          some { playback with
            output := output
            utterances := sendLatest playback.clock sent (openLatest device playback) }
  | .endUtterance =>
      match device.endUtterance playback.clock playback.output with
      | none => some playback
      | some (output, sent) =>
          some { playback with
            output := output
            utterances := sendLatest playback.clock sent playback.utterances }
  | .interrupt =>
      some { playback with
        output := (device.interrupt playback.clock playback.output).1
        utterances := playback.utterances.map (fun utterance => { utterance with past := true }) }
  | .playbackFinished utterance =>
      if MayFinish device playback utterance then
        some { playback with
          output := device.playbackFinished utterance playback.output
          utterances := finish utterance playback.utterances }
      else none
  | .hangUp => some { playback with output := device.hangUp playback.output }
  | .advance seconds =>
      if 0 ≤ seconds then some { playback with clock := playback.clock + seconds } else none

def Step (playback : Playback S) (event : Event) (next : Playback S) : Prop :=
  step device playback event = some next

/-- What an answer says: nothing is left to be heard, or no more was heard than was sent of the
latest utterance and than there was time for. -/
def Answers (playback : Playback S) : Option Int → Prop
  | none => device.isOpen playback.output = false ∧
      ∀ utterance ∈ playback.utterances, utterance.audio ≠ [] → utterance.past = true
  | some heard => ∃ latest older, playback.utterances = latest :: older ∧
      (heard : ℚ) ≤ duration latest.audio ∧
        ∀ start ∈ latest.firstSent, (heard : ℚ) ≤ (playback.clock - start) * 1000

end

end Assemblix.AvatarOutput
