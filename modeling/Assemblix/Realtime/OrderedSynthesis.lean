import Assemblix.Library.LaneReader
import Assemblix.Library.Run
import Assemblix.Realtime.CascadeBridge

/-
The session that synthesizes segments ahead and plays them in order.

The caller, the worker that starts a synthesis for each segment, the syntheses, and the forwarder
that plays what they sent interleave between the `await`s; every `await` may suspend. Text comes
cut into segments. A task that has been cancelled may take further steps here before it ends;
the real one takes none. For the statements a segment carries all that its synthesis sent and
how it ended.
-/

namespace Assemblix.Realtime

open Library

def maxInFlight : Nat := 3

inductive AudioItem
  | chunk (data : List UInt8)
  | failure (message : Text)
  | done
  deriving DecidableEq

inductive SynthesisOutcome
  | returned
  | raised (message : Text)
  -- Cancelled, or raised before the stream was read: nothing tells the forwarder.
  | silent
  deriving DecidableEq

def SynthesisOutcome.mark : SynthesisOutcome → List AudioItem
  | .returned => [.done]
  | .raised message => [.failure message]
  | .silent => []

structure Segment where
  text : Text
  audio : List AudioItem := []
  received : List (List UInt8) := []
  outcome : Option SynthesisOutcome := none
  deriving DecidableEq

/-- A task of `_fetches`, until its done callback has run. -/
structure Fetch where
  segment : Nat
  ended : Bool := false
  deriving DecidableEq

inductive UtteranceWorker
  | taking
  | acquiring (segment : Nat)
  -- Out of the loop: waits for the forwarder, then for all that it has cancelled.
  | waiting
  | cleaning
  | ended
  deriving DecidableEq

inductive Forwarder
  | ordering
  | playing (segment : Nat)
  -- In `_on_audio`.
  | handing (segment : Nat)
  -- In `_on_error`.
  | failing
  | ended
  deriving DecidableEq

structure YandexSession where
  segments : List Segment := []
  charsSent : Nat := 0
  -- `_DONE` is none.
  queue : List (Option Nat) := []
  order : List (Option Nat) := []
  slots : Nat := maxInFlight
  fetches : List Fetch := []
  worker : UtteranceWorker := .taking
  forwarder : Forwarder := .ordering
  failed : Bool := false
  closed : Bool := false
  -- The worker has been cancelled.
  cancelled : Bool := false
  forwarded : List (List UInt8) := []
  errors : List Text := []
  deriving DecidableEq

inductive SynthesisAction
  | sendText (text : Text) (segments : List Text)
  | flush (segments : List Text)
  -- `flush_and_close` gives up waiting.
  | abandon
  | close
  | work
  | workerCancelled
  | forward
  | handed (raised : Option Text)
  | errorReported
  | forwarderCancelled
  | chunk (segment : Nat) (data : List UInt8)
  | fetchEnds (segment : Nat) (outcome : SynthesisOutcome)
  | fetchDone (segment : Nat)
  deriving DecidableEq

namespace YandexSession

def setSegment (session : YandexSession) (segment : Nat) (change : Segment → Segment) :
    YandexSession :=
  { session with segments := session.segments.modify segment change }

/-! ### The caller -/

def enqueue (session : YandexSession) (texts : List Text) : YandexSession :=
  { session with
    segments := session.segments ++ texts.map (fun text => { text })
    queue := session.queue ++ (List.range' session.segments.length texts.length).map some }

def sendText (session : YandexSession) (text : Text) (segments : List Text) : YandexSession :=
  if session.failed ∨ session.closed ∨ text = [] then session
  else { session with charsSent := session.charsSent + text.length }.enqueue segments

/-- `flush_and_close`, up to its wait for the worker. -/
def flush (session : YandexSession) (segments : List Text) : YandexSession :=
  let flushed := if session.failed then session else session.enqueue segments
  { flushed with queue := flushed.queue ++ [none] }

/-- `aclose`, up to its wait for the worker. -/
def aclose (session : YandexSession) : YandexSession :=
  { session with
    closed := true
    cancelled := session.cancelled || decide (session.worker ≠ .ended) }

/-! ### The worker -/

def leaveLoop (session : YandexSession) : YandexSession :=
  { session with worker := .waiting, order := session.order ++ [none] }

/-- `_utterance_worker`, up to its next `await`. -/
def work (session : YandexSession) : Option YandexSession :=
  match session.worker with
  | .taking =>
      match session.queue with
      | [] => none
      | none :: rest => some { session with queue := rest }.leaveLoop
      | some segment :: rest =>
          if session.failed then some { session with queue := rest }.leaveLoop
          else some { session with queue := rest, worker := .acquiring segment }
  | .acquiring segment =>
      if session.slots = 0 then none
      else
        some { session with
          slots := session.slots - 1
          fetches := session.fetches ++ [{ segment }]
          order := session.order ++ [some segment]
          worker := .taking }
  | .waiting =>
      if session.forwarder = .ended then some { session with worker := .cleaning } else none
  | .cleaning =>
      if session.forwarder = .ended ∧ session.fetches.all Fetch.ended then
        some { session with worker := .ended }
      else none
  | .ended => none

/-- The cancellation reaches the worker, in its loop or in its `finally`. -/
def workerCancelled (session : YandexSession) : Option YandexSession :=
  if session.cancelled = false then none
  else
    match session.worker with
    | .cleaning => some { session with worker := .ended }
    | .ended => none
    | _ => some { session with worker := .cleaning }

/-! ### The forwarder -/

/-- The `except` of `_forward`, up to `_on_error`. -/
def fail (session : YandexSession) (message : Text) : YandexSession :=
  { session with
    failed := true
    errors := session.errors ++ [message]
    forwarder := .failing }

def popAudio (session : YandexSession) (segment : Nat) : YandexSession :=
  session.setSegment segment (fun found => { found with audio := found.audio.tail })

/-- `_forward`, up to its next `await`. -/
def forward (session : YandexSession) : Option YandexSession :=
  match session.forwarder with
  | .ordering =>
      match session.order with
      | [] => none
      | none :: rest => some { session with order := rest, forwarder := .ended }
      | some segment :: rest => some { session with order := rest, forwarder := .playing segment }
  | .playing segment =>
      match session.segments[segment]? with
      | none => none
      | some found =>
          match found.audio with
          | [] => none
          | .done :: _ => some { session.popAudio segment with forwarder := .ordering }
          | .failure message :: _ => some ((session.popAudio segment).fail message)
          | .chunk data :: _ =>
              if session.closed then some { session.popAudio segment with forwarder := .ended }
              else
                some { session.popAudio segment with
                  forwarder := .handing segment
                  forwarded := session.forwarded ++ [data] }
  | _ => none

/-- `_on_audio` is through. -/
def handed (session : YandexSession) (raised : Option Text) : Option YandexSession :=
  match session.forwarder with
  | .handing segment =>
      match raised with
      | none => some { session with forwarder := .playing segment }
      | some message => some (session.fail message)
  | _ => none

theorem forward_forwarder {session next : YandexSession} (moved : session.forward = some next) :
    session.forwarder = .ordering ∨ ∃ segment, session.forwarder = .playing segment := by
  unfold forward at moved
  split at moved
  case h_1 ordering => exact .inl ordering
  case h_2 segment playing => exact .inr ⟨segment, playing⟩
  case h_3 => cases moved

theorem handed_forwarder {session next : YandexSession} {raised : Option Text}
    (through : session.handed raised = some next) :
    ∃ segment, session.forwarder = .handing segment := by
  unfold handed at through
  split at through
  case h_1 segment handing => exact ⟨segment, handing⟩
  case h_2 => cases through

/-! ### The syntheses -/

def fetching (session : YandexSession) (segment : Nat) : Bool :=
  session.fetches.any (fun fetch => decide (fetch = { segment }))

def receive (segment : Segment) (data : List UInt8) : Segment :=
  { segment with
    received := segment.received ++ [data]
    audio := if data = [] then segment.audio else segment.audio ++ [.chunk data] }

def conclude (segment : Segment) (outcome : SynthesisOutcome) : Segment :=
  { segment with outcome := some outcome, audio := segment.audio ++ outcome.mark }

def markEnded (fetches : List Fetch) (segment : Nat) : List Fetch :=
  fetches.map (fun fetch =>
    if fetch.segment = segment then { fetch with ended := true } else fetch)

def step (session : YandexSession) : SynthesisAction → Option YandexSession
  | .sendText text segments => some (session.sendText text segments)
  | .flush segments => some (session.flush segments)
  | .abandon => some { session with cancelled := true }
  | .close => some session.aclose
  | .work => session.work
  | .workerCancelled => session.workerCancelled
  | .forward => session.forward
  | .handed raised => session.handed raised
  | .errorReported =>
      if session.forwarder = .failing then some { session with forwarder := .ended } else none
  | .forwarderCancelled =>
      if (session.worker = .cleaning ∨ session.worker = .ended) ∧ session.forwarder ≠ .ended then
        some { session with forwarder := .ended }
      else none
  | .chunk segment data =>
      if session.fetching segment then
        some (session.setSegment segment (receive · data))
      else none
  | .fetchEnds segment outcome =>
      if session.fetching segment then
        some { session.setSegment segment (conclude · outcome) with
          fetches := markEnded session.fetches segment }
      else none
  | .fetchDone segment =>
      if { segment, ended := true } ∈ session.fetches then
        some { session with
          fetches := session.fetches.erase { segment, ended := true }
          slots := session.slots + 1 }
      else none

end YandexSession

end Assemblix.Realtime
