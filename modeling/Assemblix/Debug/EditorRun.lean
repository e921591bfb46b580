import Assemblix.Debug.EventStreams
import Assemblix.Editor.DebugStream

/-
A debug run from the server to the panel of the editor.

What a request sends is written as server-sent events, with keepalive comments between them, and
arrives cut into chunks anywhere. `json.dumps` is a parameter: it writes one line, which
`JSON.parse` reads as the event that was sent.
-/

namespace Assemblix.Debug

open Library
open DebugStream (DebugPanel JsonParse Response SseLine consumeStream upToFinal)

variable {R X : Type}

/-! ### What is written -/

def DebugEventType.value : DebugEventType → String
  | .stepStart => "step_start"
  | .stepComplete => "step_complete"
  | .streamDelta => "stream_delta"
  | .audioDelta => "audio_delta"
  | .executionComplete => "execution_complete"
  | .error => "error"

/-- The `event:` line. -/
def Sent.name : Sent X → String
  | .started _ => "execution_started"
  | .event carried => carried.eventType.value
  | .timeout => "error"

/-- The `event_type` field: the payload of the timeout has none. -/
def Sent.typeField : Sent X → String
  | .started _ => "execution_started"
  | .event carried => carried.eventType.value
  | .timeout => ""

theorem Sent.name_oneLine (sent : Sent X) : '\n' ∉ sent.name.toList := by
  cases sent with
  | started _ =>
      change '\n' ∉ "execution_started".toList
      decide
  | event carried =>
      change '\n' ∉ carried.eventType.value.toList
      cases carried.eventType <;> decide
  | timeout =>
      change '\n' ∉ "error".toList
      decide

structure Wire (X : Type) where
  json : JsonParse
  dumps : Sent X → String
  parsed : Sent X → DebugStream.DebugEvent
  oneLine : ∀ sent, '\n' ∉ (dumps sent).toList
  parses : ∀ sent, json.parse (dumps sent) = some (parsed sent)
  typed : ∀ sent, (parsed sent).eventType = sent.typeField

namespace Wire

variable (wire : Wire X)

/-- The lines of a message, or of a keepalive. -/
def linesOf : Option (Sent X) → List SseLine
  | none => [.other ": keepalive".toList, .other []]
  | some sent =>
      [.other ("event: " ++ sent.name).toList, .data true (wire.dumps sent) (wire.parsed sent),
        .other []]

def lines (frames : List (Option (Sent X))) : List SseLine := frames.flatMap wire.linesOf

def bytes (frames : List (Option (Sent X))) : List UInt8 :=
  (((wire.lines frames).map SseLine.letters).flatMap (fun line => line ++ ['\n'])).flatMap
    String.utf8EncodeChar

theorem wellFormed (frames : List (Option (Sent X))) :
    ∀ line ∈ wire.lines frames, line.WellFormed wire.json := by
  intro line member
  obtain ⟨frame, _, listed⟩ := List.mem_flatMap.mp member
  cases frame with
  | none =>
      simp only [linesOf, List.mem_cons, List.not_mem_nil, or_false] at listed
      rcases listed with rfl | rfl
      · exact ⟨by decide, by decide⟩
      · exact ⟨by decide, by decide⟩
  | some sent =>
      simp only [linesOf, List.mem_cons, List.not_mem_nil, or_false] at listed
      rcases listed with rfl | rfl | rfl
      · constructor
        · rw [String.toList_append, List.mem_append, not_or]
          exact ⟨by decide, sent.name_oneLine⟩
        · rw [String.toList_append]
          rintro ⟨rest, same⟩
          have heads : some 'd' = some 'e' := congrArg List.head? same
          cases heads
      · exact ⟨wire.oneLine sent, wire.parses sent⟩
      · exact ⟨by decide, by decide⟩

theorem events (frames : List (Option (Sent X))) :
    (wire.lines frames).filterMap SseLine.event =
      (frames.filterMap id).map wire.parsed := by
  induction frames with
  | nil => rfl
  | cons frame rest ih =>
      rw [lines, List.flatMap_cons, List.filterMap_append]
      cases frame with
      | none => exact ih
      | some sent => exact congrArg (wire.parsed sent :: ·) ih

theorem unmarked (frames : List (Option (Sent X))) :
    (((wire.lines frames).map SseLine.letters).flatMap (fun line => line ++ ['\n'])).head? ≠
      some (Char.ofNat 0xFEFF) := by
  cases frames with
  | nil =>
      intro same
      cases same
  | cons frame rest =>
      cases frame with
      | none => exact fun same => absurd (Option.some.inj same) (by decide)
      | some sent =>
          have first : (("event: " ++ sent.name).toList ++ ['\n']).head? = some 'e' := by
            rw [String.toList_append]
            rfl
          intro same
          rw [lines, List.flatMap_cons, linesOf, List.cons_append, List.map_cons, List.flatMap_cons,
            List.head?_append_of_ne_nil _ (by simp)] at same
          exact absurd (Option.some.inj (first.symm.trans same)) (by decide)

/-- However the bytes are cut, the panel handles what was sent, up to the first final event. -/
theorem consume (frames : List (Option (Sent X))) (assistantMsgId : String) (panel : DebugPanel)
    {response : Response} {chunks : List (List UInt8)} (accepted : response.ok = true)
    (body : response.body = some chunks) (cut : chunks.flatten = wire.bytes frames) :
    consumeStream wire.json assistantMsgId response panel =
      .ok ((upToFinal ((frames.filterMap id).map wire.parsed)).foldl
        (DebugPanel.handleEvent assistantMsgId) panel) := by
  have ended : ∀ line ∈ (wire.lines frames).map SseLine.letters, '\n' ∉ line := by
    intro line member
    obtain ⟨source, listed, rfl⟩ := List.mem_map.mp member
    exact SseLine.not_mem_letters (wire.wellFormed frames source listed)
  rw [consumeStream, if_pos accepted, body]
  dsimp only
  rw [DebugStream.readChunks_eq chunks {} List.not_mem_nil panel, cut, bytes,
    Utf8Decoder.decode_text (wire.unmarked frames), List.nil_append, completeLines_flatMap ended,
    DebugStream.handleLines_events panel (wire.wellFormed frames), wire.events]

end Wire

/-! ### What is sent -/

/-- First the start of the run, then its events. -/
def Request.Opened (request : Request X) : Prop :=
  ∃ executionId, ∃ events : List (DebugEvent X),
    request.sent = .started executionId :: events.map .event

structure Request.Shaped (request : Request X) : Prop where
  sent : request.sent = [] ∨ request.sent = [.timeout] ∨ request.Opened
  attached : ∀ executionId, request.generator.attached = some executionId → request.Opened

theorem Request.Shaped.of_opened {request : Request X} (opened : request.Opened) :
    request.Shaped where
  sent := .inr (.inr opened)
  attached := fun _ _ => opened

/-- What keeps the messages, and takes no stream. -/
theorem Request.Shaped.quiet {request after : Request X} (shaped : request.Shaped)
    (same : after.sent = request.sent)
    (attached : ∀ executionId, after.generator.attached = some executionId →
      request.generator.attached = some executionId) : after.Shaped where
  sent := by
    unfold Request.Opened
    rw [same]
    exact shaped.sent
  attached := by
    intro executionId taken
    unfold Request.Opened
    rw [same]
    exact shaped.attached executionId (attached executionId taken)

namespace DebugEventManager

variable [DecidableEq R] {manager next : DebugEventManager R X} {request : R}

theorem shaped_withRequest {changed : DebugEventManager R X} {after : Request X}
    (shaped : ∀ other, (changed.requests other).Shaped) (here : after.Shaped) (other : R) :
    ((changed.withRequest request after).requests other).Shaped := by
  by_cases same : other = request
  · rw [same, withRequest_self]
    exact here
  · rw [withRequest_of_ne _ same]
    exact shaped other

variable [DecidableEq X]

theorem send_shaped {executionId : X} {event : DebugEvent X}
    (shaped : ∀ other, (manager.requests other).Shaped)
    (opened : (manager.requests request).Opened) (other : R) :
    ((manager.send request executionId event).requests other).Shaped := by
  obtain ⟨started, events, sent⟩ := opened
  have grown (after : Request X)
      (appended : after.sent = (manager.requests request).sent ++ [.event event]) :
      after.Shaped := by
    refine .of_opened ⟨started, events ++ [event], ?_⟩
    rw [appended, sent, List.map_append]
    rfl
  unfold DebugEventManager.send
  split
  · exact shaped_withRequest (fun other => shaped other) (grown _ rfl) other
  · exact shaped_withRequest shaped (grown _ rfl) other

section Shaped

variable (shaped : ∀ other, (manager.requests other).Shaped)
include shaped

theorem emit_shaped {eventType : DebugEventType} {data : Json}
    (taken : manager.step request (.emit eventType data) = some next) (other : R) :
    (next.requests other).Shaped := by
  simp only [step] at taken
  split at taken
  · cases taken
  · split at taken
    · cases taken
    · cases taken
      have told (event : DebugEvent X) (other : R) :
          ((manager.emitEvent event).requests other).Shaped := by
        rw [emitEvent_requests]
        exact (shaped other).quiet rfl (fun _ => id)
      refine shaped_withRequest (told _) ?_ other
      exact (told _ request).quiet rfl (fun _ => id)

theorem poll_shaped (sound : manager.Sound) (taken : manager.step request .poll = some next)
    (other : R) : (next.requests other).Shaped := by
  simp only [step] at taken
  split at taken
  · rename_i left polling
    have attends := (sound.requests request).attends
    rw [polling] at attends
    have unsent := attends.1
    split at taken
    · rename_i executionId _ _
      cases taken
      refine shaped_withRequest shaped (.of_opened ⟨executionId, [], ?_⟩) other
      rw [unsent]
      rfl
    · cases taken
      refine shaped_withRequest shaped ?_ other
      split
      · refine ⟨.inr (.inl ?_), fun _ attached => by cases attached⟩
        rw [unsent]
        rfl
      · exact (shaped request).quiet rfl (fun _ attached => by cases attached)
  · cases taken

theorem deliver_shaped (taken : manager.step request .deliver = some next) (other : R) :
    (next.requests other).Shaped := by
  have own := shaped request
  simp only [step] at taken
  split at taken
  · rename_i executionId drains
    split at taken
    · cases taken
    · split at taken
      · cases taken
      · cases taken
        apply send_shaped
        · exact fun other => shaped other
        · exact own.attached executionId (by rw [drains]; rfl)
  · rename_i executionId hears
    split at taken
    · cases taken
    · cases taken
      apply send_shaped
      · exact shaped_withRequest shaped (own.quiet rfl (fun _ => id))
      · rw [withRequest_self]
        exact own.attached executionId (by rw [hears]; rfl)
  · cases taken
    refine shaped_withRequest (fun other => shaped other) ?_ other
    exact own.quiet rfl (fun _ attached => by cases attached)
  · cases taken

theorem step_shaped {action : DebugAction X} (sound : manager.Sound)
    (taken : manager.step request action = some next) (other : R) :
    (next.requests other).Shaped := by
  have own := shaped request
  cases action with
  | dispatch =>
      simp only [step] at taken
      split at taken
      · cases taken
        refine shaped_withRequest shaped ?_ other
        exact own.quiet rfl (fun _ attached => by cases attached)
      · cases taken
  | createStream executionId =>
      simp only [step] at taken
      split at taken
      · cases taken
      · cases taken
      · split at taken
        · cases taken
        · cases taken
          refine shaped_withRequest (fun other => shaped other) ?_ other
          exact own.quiet rfl (fun _ => id)
  | emit eventType data => exact emit_shaped shaped taken other
  | poll => exact poll_shaped shaped sound taken other
  | subscribe =>
      simp only [step] at taken
      split at taken
      · rename_i executionId drains
        split at taken
        · cases taken
          refine shaped_withRequest shaped ?_ other
          refine own.quiet rfl ?_
          intro executionId attached
          rw [drains]
          exact attached
        · cases taken
      · cases taken
  | deliver => exact deliver_shaped shaped taken other
  | keepalive =>
      simp only [step] at taken
      split at taken
      · rename_i executionId hears _
        cases taken
        refine shaped_withRequest shaped ?_ other
        refine own.quiet rfl ?_
        intro executionId attached
        rw [hears]
        exact attached
      · cases taken
  | disconnect =>
      simp only [step] at taken
      split at taken
      · cases taken
        refine shaped_withRequest (fun other => shaped other) ?_ other
        exact own.quiet rfl (fun _ attached => by cases attached)
      · split at taken
        · cases taken
          refine shaped_withRequest shaped ?_ other
          exact own.quiet rfl (fun _ attached => by cases attached)
        · cases taken
  | expire =>
      simp only [step] at taken
      split at taken
      · split at taken
        · cases taken
          exact shaped other
        · cases taken
      · cases taken

end Shaped

/-! ### What the panel shows -/

omit [DecidableEq X] in
/-- The final event of a run is its last one, so the panel stops where the run does. -/
theorem upToFinal_opened (wire : Wire X) (executionId : X) {events emitted : List (DebugEvent X)}
    (first : events <+: emitted)
    (last : ∀ before event after, emitted = before ++ event :: after →
      event.eventType.terminal = true → after = []) :
    upToFinal ((Sent.started executionId :: events.map .event).map wire.parsed) =
      (Sent.started executionId :: events.map .event).map wire.parsed := by
  have final (carried : DebugEvent X) (is : (wire.parsed (.event carried)).IsFinal) :
      carried.eventType.terminal = true := by
    unfold DebugStream.DebugEvent.IsFinal at is
    rw [wire.typed] at is
    change carried.eventType.value = _ ∨ carried.eventType.value = _ at is
    revert is
    cases carried.eventType <;> decide
  have started : ¬ (wire.parsed (.started executionId)).IsFinal := by
    unfold DebugStream.DebugEvent.IsFinal
    rw [wire.typed]
    change ¬ ("execution_started" = _ ∨ "execution_started" = _)
    decide
  have whole : ∀ before after : List (DebugEvent X), events = before ++ after →
      upToFinal ((after.map Sent.event).map wire.parsed) =
        (after.map Sent.event).map wire.parsed := by
    intro before after
    induction after generalizing before with
    | nil => exact fun _ => rfl
    | cons carried rest ih =>
        intro same
        rw [List.map_cons, List.map_cons, upToFinal]
        split
        case isTrue is =>
          obtain ⟨more, same'⟩ := first
          have ended := last before carried (rest ++ more)
            (by rw [← same', same, List.append_assoc, List.cons_append]) (final carried is)
          rw [(List.append_eq_nil_iff.mp ended).1]
          rfl
        case isFalse =>
          rw [ih (before ++ [carried]) (by rw [same, List.append_assoc]; rfl)]
  rw [List.map_cons, upToFinal, if_neg started, whole [] events rfl]

/-- Where every request finds its own stream first and no subscription is late or idle, the panel
of a request handles, however its response is cut and however many keepalives stand in it, the start
of the request's own run and then the run's events in their order, and all of them when the response
ended by itself. -/
theorem panel_follows_run {hasRedisTransport : Bool} {labels : List (R × DebugAction X)}
    {last : DebugEventManager R X} (run : Run CarefulStep (initial hasRedisTransport) labels last)
    (request : R) (wire : Wire X)
    {frames : List (Option (Sent X))} (written : frames.filterMap id = (last.requests request).sent)
    {response : Response} {chunks : List (List UInt8)} (accepted : response.ok = true)
    (body : response.body = some chunks) (cut : chunks.flatten = wire.bytes frames)
    (assistantMsgId : String) (panel : DebugPanel) :
    consumeStream wire.json assistantMsgId response panel =
        .ok (((last.requests request).sent.map wire.parsed).foldl
          (DebugPanel.handleEvent assistantMsgId) panel) ∧
      ((last.requests request).sent = [] ∨ (last.requests request).sent = [.timeout] ∨
        ∃ executionId, ∃ events : List (DebugEvent X),
          (last.requests request).execution = some executionId ∧
          (last.requests request).sent = .started executionId :: events.map .event ∧
          events <+: (last.requests request).emitted ∧
          ((last.requests request).generator = .closed true →
            events = (last.requests request).emitted)) := by
  obtain ⟨sound, shaped⟩ := run.invariant
    (fun manager => manager.Sound ∧ ∀ other, (manager.requests other).Shaped)
    (initial hasRedisTransport)
    ⟨initial_sound, fun _ => ⟨.inl rfl, fun _ attached => by cases attached⟩⟩
    (by
      rintro manager label next ⟨sound, shaped⟩ ⟨taken, careful⟩
      exact ⟨CarefulStep.sound sound ⟨taken, careful⟩, step_shaped shaped sound taken⟩)
  have own := sound.requests request
  rw [wire.consume frames assistantMsgId panel accepted body cut, written]
  rcases (shaped request).sent with none | late | ⟨executionId, events, sent⟩
  · rw [none]
    exact ⟨rfl, .inl rfl⟩
  · rw [late]
    refine ⟨?_, .inr (.inl rfl)⟩
    have open_ended : ¬ (wire.parsed .timeout).IsFinal := by
      unfold DebugStream.DebugEvent.IsFinal
      rw [wire.typed]
      change ¬ ("" = _ ∨ "" = _)
      decide
    rw [List.map_cons, upToFinal, if_neg open_ended]
    rfl
  · have delivered : (last.requests request).delivered = events := by
      rw [Request.delivered, sent, List.filterMap_cons, List.filterMap_map]
      exact List.filterMap_some
    have first := own.inOrder
    rw [delivered] at first
    refine ⟨?_, .inr (.inr ⟨executionId, events, ?_, sent, first, ?_⟩)⟩
    · rw [sent, upToFinal_opened wire executionId first own.terminalLast]
    · exact own.own _ (sent ▸ List.mem_cons_self) executionId rfl
    · intro closed
      rw [← delivered]
      have attends := own.attends
      rw [closed] at attends
      exact (attends rfl).1

/-! Payloads of which only the type is read. -/

def payloadTypes : List String :=
  ["execution_started", "step_start", "step_complete", "stream_delta", "audio_delta",
    "execution_complete", "error", ""]

def payload (eventType : String) : String := "\x7b\"event_type\": \"" ++ eventType ++ "\"\x7d"

theorem payload_known : ∀ eventType ∈ payloadTypes,
    JsText.trim (payload eventType) = payload eventType ∧ '\n' ∉ (payload eventType).toList ∧
    payloadTypes.find? (fun other => payload other = payload eventType) = some eventType := by
  decide +kernel

omit [DecidableEq X] in
theorem typeField_known (sent : Sent X) : sent.typeField ∈ payloadTypes := by
  cases sent with
  | started _ => exact List.mem_cons_self
  | event carried =>
      change carried.eventType.value ∈ payloadTypes
      cases carried.eventType <;> decide
  | timeout =>
      change "" ∈ payloadTypes
      decide

def typeOnly (eventType : String) : DebugStream.DebugEvent where
  eventType := eventType
  executionId := "1"
  timestamp := ""
  data := none
  workflowId := none
  sessionId := none

def typeWire : Wire Nat where
  json :=
    { parse := fun text =>
        (payloadTypes.find? (fun other => payload other = text)).map typeOnly
      empty := by decide +kernel
      trimmed := by
        intro text eventData parsed
        obtain ⟨eventType, found, rfl⟩ := Option.map_eq_some_iff.mp parsed
        have known := List.find?_some found
        have same : payload eventType = text := of_decide_eq_true known
        have kept := (payload_known eventType (List.mem_of_find?_eq_some found)).1
        rw [same] at kept
        rw [kept, found]
        rfl }
  dumps := fun sent => payload sent.typeField
  parsed := fun sent => typeOnly sent.typeField
  oneLine := fun sent => (payload_known _ (typeField_known sent)).2.1
  parses := fun sent =>
    congrArg (Option.map typeOnly) (payload_known _ (typeField_known sent)).2.2
  typed := fun _ => rfl

def briefSent : List (Sent Nat) :=
  [.started 1, .event ⟨.stepStart, 1, .null⟩, .event ⟨.executionComplete, 1, .null⟩]

def briefFrames : List (Option (Sent Nat)) := briefSent.flatMap (fun sent => [some sent, none])

def briefRun : List (Bool × DebugAction Nat) :=
  [(true, .dispatch), (true, .createStream 1), (true, .poll), (true, .emit .stepStart .null),
    (true, .deliver), (true, .emit .executionComplete .null), (true, .deliver)]

/-- Two events with keepalives between them; the body is cut within a line. -/
theorem panel_follows_run_brief :
    ∃ last : DebugEventManager Bool Nat,
      (last.requests true).generator = .closed true ∧
      consumeStream typeWire.json "answer"
        { ok := true
          status := 200
          body := some [(typeWire.bytes briefFrames).take 40, (typeWire.bytes briefFrames).drop 40] }
        DebugStream.emptyPanel =
      .ok (((last.requests true).sent.map typeWire.parsed).foldl
        (DebugPanel.handleEvent "answer") DebugStream.emptyPanel) := by
  obtain ⟨last, run, seen⟩ := Run.of_guardedStep
    (fun (manager : DebugEventManager Bool Nat) label => manager.step label.1 label.2)
    (fun manager label => manager.careful label.1 label.2 = true) (initial false) briefRun
    (fun last => ((last.requests true).generator, (last.requests true).sent))
    (.closed true, briefSent) (by decide +kernel)
  have written : briefFrames.filterMap id = (last.requests true).sent :=
    (congrArg Prod.snd seen).symm
  refine ⟨last, congrArg Prod.fst seen, ?_⟩
  refine (panel_follows_run run true typeWire written rfl rfl ?_ "answer" _).1
  rw [List.flatten_cons, List.flatten_singleton, List.take_append_drop]

end DebugEventManager
end Assemblix.Debug
