import Assemblix.Library.Run
import Mathlib.Algebra.Order.Ring.Nat

/-
The streaming recognizer of a call (`external/voice/stt_stream/yandex.py`).

A stream opens on the first audio and again on the next audio after the server has ended it. Each
stream is billed when it ends, in whole units of 15 seconds.
-/

namespace Assemblix.Realtime

open Library

inductive SttRequest
  | sessionOptions
  | chunk (pcm : List UInt8)
  | eou
  | stop

def sttAudio (requests : List SttRequest) : List UInt8 :=
  requests.flatMap (fun request =>
    match request with
    | .chunk pcm => pcm
    | _ => [])

inductive SttItem
  | result (text : String) (isFinal : Bool)
  | unavailable (error : String)
  | finished

structure YandexSttStream where
  requests : Option (List SttRequest) := none
  streamBytes : Nat := 0
  billed : Nat := 0
  failures : Nat := 0
  closed : Bool := false
  results : List SttItem := []
  -- The requests of the streams that have ended, and all audio that was accepted.
  ended : List (List SttRequest) := []
  accepted : List UInt8 := []

inductive SttAction
  | sendAudio (pcm : List UInt8)
  | finalize
  | receive (result : Option (String × Bool))
  | fails (error : String)
  -- The server ends the stream, or its reader is cancelled.
  | ends
  | close
  | closed

/-- Units of 15 seconds of 16 kHz audio, two bytes each sample. -/
def billedSeconds (bytes : Nat) : Nat := (bytes + 479999) / 480000 * 15

namespace YandexSttStream

variable (stream : YandexSttStream)

def sendAudio (pcm : List UInt8) : YandexSttStream :=
  if stream.closed = true ∨ pcm = [] then stream
  else
    { stream with
      requests := some (stream.requests.getD [.sessionOptions] ++ [.chunk pcm])
      streamBytes := stream.streamBytes + pcm.length
      accepted := stream.accepted ++ pcm }

def endStream (queue : List SttRequest) : YandexSttStream :=
  { stream with
    requests := none
    billed := stream.billed +
      if 0 < stream.streamBytes then billedSeconds stream.streamBytes else 0
    streamBytes := 0
    ended := stream.ended ++ [queue ++ [.stop]] }

def fail (error : String) : YandexSttStream :=
  { stream with
    failures := stream.failures + 1
    results :=
      if 3 ≤ stream.failures + 1 then stream.results ++ [.unavailable error]
      else stream.results }

def receive : Option (String × Bool) → YandexSttStream
  | none => stream
  | some (text, isFinal) =>
      { stream with
        failures := if isFinal then 0 else stream.failures
        results := stream.results ++ [.result text isFinal] }

/-- The reader runs as long as there is a queue of requests. -/
def step : SttAction → Option YandexSttStream
  | .sendAudio pcm => some (stream.sendAudio pcm)
  | .finalize => some { stream with requests := stream.requests.map (· ++ [.eou]) }
  | .receive result => stream.requests.map (fun _ => stream.receive result)
  | .fails error => stream.requests.map (stream.fail error).endStream
  | .ends => stream.requests.map stream.endStream
  | .close =>
      some { stream with closed := true, requests := stream.requests.map (· ++ [.stop]) }
  | .closed =>
      if stream.closed = true ∧ stream.requests.isNone then
        some { stream with results := stream.results ++ [.finished] }
      else none

def Step (stream : YandexSttStream) (action : SttAction) (next : YandexSttStream) : Prop :=
  stream.step action = some next

def current : List UInt8 := sttAudio (stream.requests.getD [])

structure Accounts : Prop where
  audio : (stream.ended.map sttAudio).flatten ++ stream.current = stream.accepted
  bytes : stream.streamBytes = stream.current.length
  billed : stream.billed = (stream.ended.map (fun queue => billedSeconds (sttAudio queue).length)).sum
  finished : SttItem.finished ∈ stream.results → stream.closed = true ∧ stream.requests = none

variable {stream} {next : YandexSttStream}

theorem audioOf_append (first second : List SttRequest) :
    sttAudio (first ++ second) = sttAudio first ++ sttAudio second := List.flatMap_append

/-- A request without audio is added to the open stream, if there is one. -/
theorem current_map {request : SttRequest} (silent : sttAudio [request] = []) :
    sttAudio ((stream.requests.map (· ++ [request])).getD []) = stream.current := by
  unfold current
  cases stream.requests with
  | none => rfl
  | some queue => exact (audioOf_append queue [request]).trans (by rw [silent, List.append_nil]; rfl)

theorem Accounts.endStream (accounts : stream.Accounts) {queue : List SttRequest}
    (reading : stream.requests = some queue) : (stream.endStream queue).Accounts := by
  have sent : stream.current = sttAudio queue := by
    rw [current, reading]
    rfl
  have closing : sttAudio (queue ++ [.stop]) = sttAudio queue :=
    (audioOf_append queue [.stop]).trans (List.append_nil _)
  constructor
  · change ((stream.ended ++ [queue ++ [SttRequest.stop]]).map sttAudio).flatten ++ [] = stream.accepted
    rw [← accounts.audio, sent, List.map_append, List.flatten_append, List.map_singleton,
      List.flatten_singleton, closing, List.append_nil]
  · rfl
  · have amount : (if 0 < stream.streamBytes then billedSeconds stream.streamBytes else 0) =
        billedSeconds (sttAudio queue).length := by
      rw [accounts.bytes, sent]
      split_ifs with some
      · rfl
      · rw [Nat.eq_zero_of_not_pos some]
        rfl
    simp only [YandexSttStream.endStream, List.map_append, List.sum_append, List.map_singleton,
      List.sum_singleton, closing, amount, accounts.billed]
  · intro listed
    have absent := (accounts.finished listed).2
    rw [reading] at absent
    cases absent

theorem Accounts.step (accounts : stream.Accounts) {action : SttAction}
    (taken : stream.Step action next) : next.Accounts := by
  cases action with
  | sendAudio pcm =>
      cases taken
      unfold sendAudio
      split_ifs with ignored
      · exact accounts
      · rw [not_or] at ignored
        have sent : sttAudio (stream.requests.getD [.sessionOptions] ++ [.chunk pcm]) =
            stream.current ++ pcm := by
          unfold current
          rw [audioOf_append]
          cases stream.requests <;> simp [sttAudio]
        refine ⟨?_, ?_, accounts.billed, fun listed => absurd (accounts.finished listed).1 ignored.1⟩
        · rw [← accounts.audio, List.append_assoc, ← sent]
          rfl
        · exact (congrArg (· + pcm.length) accounts.bytes).trans
            ((congrArg List.length sent).trans List.length_append).symm
  | finalize =>
      cases taken
      refine ⟨?_, ?_, accounts.billed, ?_⟩
      · exact (congrArg _ (current_map rfl)).trans accounts.audio
      · exact accounts.bytes.trans (congrArg _ (current_map rfl).symm)
      · intro listed
        obtain ⟨closed, none⟩ := accounts.finished listed
        exact ⟨closed, by rw [none]; rfl⟩
  | receive result =>
      obtain ⟨queue, reading, rfl⟩ := Option.map_eq_some_iff.mp taken
      cases result with
      | none => exact accounts
      | some result =>
          refine ⟨accounts.audio, accounts.bytes, accounts.billed, ?_⟩
          intro listed
          rcases List.mem_append.mp listed with before | now
          · exact accounts.finished before
          · cases List.mem_singleton.mp now
  | fails error =>
      obtain ⟨queue, reading, rfl⟩ := Option.map_eq_some_iff.mp taken
      have failed : (stream.fail error).Accounts := by
        refine ⟨accounts.audio, accounts.bytes, accounts.billed, ?_⟩
        intro listed
        apply accounts.finished
        unfold fail at listed
        dsimp only at listed
        split_ifs at listed
        · exact (List.mem_append.mp listed).resolve_right (by simp)
        · exact listed
      exact failed.endStream reading
  | ends =>
      obtain ⟨queue, reading, rfl⟩ := Option.map_eq_some_iff.mp taken
      exact accounts.endStream reading
  | close =>
      cases taken
      refine ⟨?_, ?_, accounts.billed, ?_⟩
      · exact (congrArg _ (current_map rfl)).trans accounts.audio
      · exact accounts.bytes.trans (congrArg _ (current_map rfl).symm)
      · exact fun listed => ⟨rfl, by rw [(accounts.finished listed).2]; rfl⟩
  | closed =>
      unfold Step YandexSttStream.step at taken
      split_ifs at taken with free
      cases taken
      exact ⟨accounts.audio, accounts.bytes, accounts.billed,
        fun _ => ⟨free.1, Option.isNone_iff_eq_none.mp free.2⟩⟩

theorem sum_bounds (queues : List (List SttRequest)) :
    (queues.map sttAudio).flatten.length ≤
        32000 * (queues.map (fun queue => billedSeconds (sttAudio queue).length)).sum ∧
      32000 * (queues.map (fun queue => billedSeconds (sttAudio queue).length)).sum ≤
        (queues.map sttAudio).flatten.length + 480000 * queues.length := by
  induction queues with
  | nil => exact ⟨Nat.le_refl _, Nat.le_refl _⟩
  | cons queue rest ih =>
      simp only [List.map_cons, List.sum_cons, List.flatten_cons, List.length_append,
        List.length_cons, billedSeconds]
      unfold billedSeconds at ih
      omega

/-- In every run the audio that was accepted is, in its order, that of the streams that have
ended and of the open one. The ended streams are billed for all of it and for less than a unit
more each, and once the recognizer has closed nothing is left unbilled. -/
theorem stt_billed {actions : List SttAction} {last : YandexSttStream}
    (run : Run Step {} actions last) :
    (last.ended.map sttAudio).flatten ++ last.current = last.accepted ∧
      (last.ended.map sttAudio).flatten.length ≤ 32000 * last.billed ∧
      32000 * last.billed ≤
        (last.ended.map sttAudio).flatten.length + 480000 * last.ended.length ∧
      (SttItem.finished ∈ last.results → last.accepted.length ≤ 32000 * last.billed) := by
  have accounts := run.invariant Accounts {} ⟨rfl, rfl, rfl, nofun⟩
    (fun _ _ _ kept taken => kept.step taken)
  obtain ⟨covered, most⟩ := sum_bounds last.ended
  rw [← accounts.billed] at covered most
  refine ⟨accounts.audio, covered, most, ?_⟩
  intro finished
  have nothing : last.current = [] := by
    rw [current, (accounts.finished finished).2]
    rfl
  rw [← accounts.audio, nothing, List.append_nil]
  exact covered

/-- The first stream fails; the second one is open when the call is closed. -/
theorem stt_billed_reopened :
    ∃ last : YandexSttStream, last.billed = 30 ∧
      (last.ended.map sttAudio).flatten ++ last.current = last.accepted := by
  obtain ⟨last, reached, billed⟩ := Run.of_foldlM_map YandexSttStream.step {}
    [.sendAudio [1, 2], .finalize, .fails "reset", .sendAudio [3], .close, .ends, .closed]
    YandexSttStream.billed 30 (by decide +kernel)
  exact ⟨last, billed, (stt_billed reached).1⟩

end YandexSttStream
end Assemblix.Realtime
