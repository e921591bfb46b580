import Assemblix.Library.Dict
import Assemblix.Library.Json
import Assemblix.Library.JsText
import Assemblix.Library.TextStream

/-
The stream of a debug run: what the editor reads and how it shows the events in it.

`JSON.parse` is a parameter: it reads no empty text, blanks around a text change nothing, and what
it reads is an event. The callbacks for the avatar return.
-/

namespace Assemblix.DebugStream

open Library

/-! ### Events -/

structure DebugEvent where
  eventType : String
  executionId : String
  timestamp : String
  data : Option (Dict String Json)
  workflowId : Option String
  sessionId : Option String

/-- `eventData.data?.key` -/
def DebugEvent.read (eventData : DebugEvent) (key : String) : Option Json :=
  eventData.data.bind (fun fields => fields.lookup key)

def truthy : Option Json → Bool
  | some (.arr _) => true
  | some (.obj _) => true
  | some value => value.truthy
  | none => false

inductive NodeStatus
  | running
  | completed
  | error

inductive ItemType
  | user
  | assistant
  deriving DecidableEq

structure HistoryItem where
  id : String
  type : ItemType
  content : Option String
  events : Option (List DebugEvent)
  audioUrl : Option String

inductive PanelAction
  | setExecutionId (executionId : String)
  | resetPlayer
  | onAudioDelta (audio : Json)
  | pushChunk (audio : Option Json)
  | updateNodeStatus (nodeId : Json) (status : NodeStatus)
  | onAvatarNodeComplete
  | applyExecutionUpdate (agentState projectState : Option Json)
  | setError (message : Json)
  | setIsSessionClosed

structure DebugPanel where
  history : List HistoryItem
  avatarNodeIds : List Json
  sessionId : Option Json
  actions : List PanelAction

namespace DebugPanel

def act (panel : DebugPanel) (action : PanelAction) : DebugPanel :=
  { panel with actions := panel.actions ++ [action] }

def actIf (panel : DebugPanel) (condition : Bool) (action : PanelAction) : DebugPanel :=
  if condition then panel.act action else panel

def remember (panel : DebugPanel) (assistantMsgId : String) (eventData : DebugEvent) :
    DebugPanel :=
  { panel with
      history := panel.history.map (fun item =>
        if item.id = assistantMsgId ∧ item.type = .assistant then
          { item with events := some (item.events.getD [] ++ [eventData]) }
        else item) }

def markNode (panel : DebugPanel) (nodeId : Option Json) (status : NodeStatus) : DebugPanel :=
  match nodeId with
  | some node => panel.actIf (truthy nodeId) (.updateNodeStatus node status)
  | none => panel

def playAudio (panel : DebugPanel) (eventData : DebugEvent) : DebugPanel :=
  match eventData.read "audio" with
  | some audio =>
      if truthy (eventData.read "avatar") ∧ truthy (some audio) then
        match eventData.read "node_id" with
        | some node =>
            { panel with
                avatarNodeIds :=
                  if truthy (some node) then panel.avatarNodeIds.insert node
                  else panel.avatarNodeIds }.act (.onAudioDelta audio)
        | none => panel.act (.onAudioDelta audio)
      else panel.act (.pushChunk (some audio))
  | none => panel.act (.pushChunk none)

def closeAudio (panel : DebugPanel) (nodeId : Option Json) : DebugPanel :=
  match nodeId with
  | some node =>
      if truthy (some node) ∧ node ∈ panel.avatarNodeIds then
        { panel with avatarNodeIds := panel.avatarNodeIds.erase node }.act .onAvatarNodeComplete
      else panel
  | none => panel

def updateStates (panel : DebugPanel) (agentState projectState : Option Json) : DebugPanel :=
  panel.actIf (truthy agentState || truthy projectState)
    (.applyExecutionUpdate agentState projectState)

def handleEvent (assistantMsgId : String) (panel : DebugPanel) (eventData : DebugEvent) :
    DebugPanel :=
  let panel := panel.remember assistantMsgId eventData
  match eventData.eventType with
  | "execution_started" =>
      { (panel.act (.setExecutionId eventData.executionId)).act .resetPlayer with
          avatarNodeIds := [] }
  | "audio_delta" => panel.playAudio eventData
  | "step_start" => panel.markNode (eventData.read "node_id") .running
  | "step_complete" =>
      ((panel.markNode (eventData.read "node_id") .completed).closeAudio
        (eventData.read "node_id")).updateStates
          (eventData.read "state_after") (eventData.read "project_state_after")
  | "error" =>
      (panel.markNode (eventData.read "failed_node_id") .error).act
        (.setError (if truthy (eventData.read "error_message") then
          (eventData.read "error_message").getD .null else .str "Произошла ошибка"))
  | "execution_complete" =>
      ({ panel with
          sessionId :=
            if truthy (eventData.read "session_id") then eventData.read "session_id"
            else panel.sessionId }.actIf
        (truthy (eventData.read "is_session_closed")) .setIsSessionClosed).updateStates
          (eventData.read "final_state") (eventData.read "final_project_state")
  | _ => panel

end DebugPanel

def DebugEvent.IsFinal (eventData : DebugEvent) : Prop :=
  eventData.eventType = "execution_complete" ∨ eventData.eventType = "error"

instance (eventData : DebugEvent) : Decidable eventData.IsFinal :=
  inferInstanceAs (Decidable (_ ∨ _))

/-! ### Reading -/

structure JsonParse where
  parse : String → Option DebugEvent
  empty : parse "" = none
  trimmed : ∀ text eventData, parse text = some eventData →
    parse (JsText.trim text) = some eventData

section Reading

variable (json : JsonParse) (assistantMsgId : String)

/-- A line, and whether reading stops after it. An error is caught and logged. -/
def handleLine (panel : DebugPanel) (line : List Char) : DebugPanel × Bool :=
  if "data:".toList <+: line then
    let jsonStr := JsText.trim (String.ofList (line.drop 5))
    if jsonStr = "" then (panel, false)
    else
      match json.parse jsonStr with
      | some eventData => (panel.handleEvent assistantMsgId eventData, decide eventData.IsFinal)
      | none => (panel, false)
  else (panel, false)

def handleLines : DebugPanel → List (List Char) → DebugPanel × Bool
  | panel, [] => (panel, false)
  | panel, line :: rest =>
      let handled := handleLine json assistantMsgId panel line
      if handled.2 then handled else handleLines handled.1 rest

def readChunks : Utf8Decoder → List Char → DebugPanel → List (List UInt8) → DebugPanel
  | _, _, panel, [] => panel
  | decoder, buffer, panel, value :: rest =>
      let decoded := decoder.decode value
      let text := buffer ++ decoded.2
      -- The last line is not complete: it stays in the buffer.
      let handled := handleLines json assistantMsgId panel (completeLines '\n' text)
      if handled.2 then handled.1
      else readChunks decoded.1 (unfinished '\n' text) handled.1 rest

structure Response where
  ok : Bool
  status : Nat
  body : Option (List (List UInt8))

def consumeStream (response : Response) (panel : DebugPanel) : Except String DebugPanel :=
  if response.ok then
    match response.body with
    | some chunks => .ok (readChunks json assistantMsgId {} [] panel chunks)
    | none => .error "Response body is null"
  else .error s!"HTTP error! status: {response.status}"

end Reading

/-! ### What is sent -/

inductive SseLine
  | data (spaced : Bool) (value : String) (eventData : DebugEvent)
  | other (text : List Char)

namespace SseLine

def letters : SseLine → List Char
  | data spaced value _ => "data:".toList ++ if spaced then ' ' :: value.toList else value.toList
  | other text => text

def event : SseLine → Option DebugEvent
  | data _ _ eventData => some eventData
  | other _ => none

def WellFormed (json : JsonParse) : SseLine → Prop
  | data _ value eventData => '\n' ∉ value.toList ∧ json.parse value = some eventData
  | other text => '\n' ∉ text ∧ ¬ "data:".toList <+: text

end SseLine

structure SseStream (json : JsonParse) where
  marked : Bool := false
  lines : List SseLine
  wellFormed : ∀ line ∈ lines, line.WellFormed json
  unmarked : marked = false →
    ((lines.map SseLine.letters).flatMap (fun line => line ++ ['\n'])).head? ≠
      some (Char.ofNat 0xFEFF)

namespace SseStream

variable {json : JsonParse} (stream : SseStream json)

def letters : List Char :=
  (stream.lines.map SseLine.letters).flatMap (fun line => line ++ ['\n'])

def bytes : List UInt8 :=
  (if stream.marked then String.utf8EncodeChar (Char.ofNat 0xFEFF) else []) ++
    stream.letters.flatMap String.utf8EncodeChar

def events : List DebugEvent := stream.lines.filterMap SseLine.event

end SseStream

def upToFinal : List DebugEvent → List DebugEvent
  | [] => []
  | eventData :: rest => if eventData.IsFinal then [eventData] else eventData :: upToFinal rest

/-! ### Lines and events -/

section Lines

variable {json : JsonParse} {assistantMsgId : String}

theorem handleLines_append (panel : DebugPanel) (first second : List (List Char)) :
    handleLines json assistantMsgId panel (first ++ second) =
      if (handleLines json assistantMsgId panel first).2 then
        handleLines json assistantMsgId panel first
      else
        handleLines json assistantMsgId (handleLines json assistantMsgId panel first).1 second := by
  induction first generalizing panel with
  | nil => rfl
  | cons line rest ih =>
      rw [List.cons_append, handleLines, handleLines]
      by_cases final : (handleLine json assistantMsgId panel line).2 = true
      · rw [if_pos final, if_pos final, if_pos final]
      · rw [if_neg final, if_neg final, ih]

theorem trim_spaced (spaced : Bool) (value : String) :
    JsText.trim (String.ofList (if spaced then ' ' :: value.toList else value.toList)) =
      JsText.trim value := by
  cases spaced with
  | false =>
      rw [if_neg Bool.false_ne_true, String.ofList_toList]
  | true =>
      have blank : JsText.isSpace ' ' = true := by decide
      rw [if_pos rfl, JsText.trim, JsText.trim, String.toList_ofList, strip, strip,
        List.dropWhile_cons_of_pos blank]

theorem SseLine.not_mem_letters {line : SseLine} (wellFormed : line.WellFormed json) :
    '\n' ∉ line.letters := by
  cases line with
  | data spaced value eventData =>
      have value : '\n' ∉ value.toList := wellFormed.1
      rw [letters, List.mem_append, not_or]
      refine ⟨by decide, ?_⟩
      split
      · rw [List.mem_cons, not_or]
        exact ⟨by decide, value⟩
      · exact value
  | other text => exact wellFormed.1

theorem handleLine_data (panel : DebugPanel) (spaced : Bool) {value : String}
    {eventData : DebugEvent} (parsed : json.parse value = some eventData) :
    handleLine json assistantMsgId panel (SseLine.data spaced value eventData).letters =
      (panel.handleEvent assistantMsgId eventData, decide eventData.IsFinal) := by
  have read := json.trimmed value eventData parsed
  have filled : JsText.trim value ≠ "" := by
    intro blank
    rw [blank, json.empty] at read
    cases read
  have rest : (SseLine.data spaced value eventData).letters.drop 5 =
      if spaced then ' ' :: value.toList else value.toList := List.drop_left' (by decide)
  have begins : "data:".toList <+: (SseLine.data spaced value eventData).letters :=
    List.prefix_append _ _
  rw [handleLine, if_pos begins, rest, trim_spaced]
  dsimp only
  rw [if_neg filled, read]

theorem handleLines_events {lines : List SseLine} (panel : DebugPanel)
    (wellFormed : ∀ line ∈ lines, line.WellFormed json) :
    (handleLines json assistantMsgId panel (lines.map SseLine.letters)).1 =
      (upToFinal (lines.filterMap SseLine.event)).foldl
        (DebugPanel.handleEvent assistantMsgId) panel := by
  induction lines generalizing panel with
  | nil => rfl
  | cons line rest ih =>
      obtain ⟨here, later⟩ := List.forall_mem_cons.mp wellFormed
      rw [List.map_cons, handleLines]
      cases line with
      | data spaced value eventData =>
          have found : (SseLine.data spaced value eventData).event = some eventData := rfl
          rw [handleLine_data panel spaced here.2, List.filterMap_cons_some found, upToFinal]
          by_cases final : eventData.IsFinal
          · rw [if_pos (decide_eq_true final), if_pos final]
            rfl
          · rw [if_neg (by rw [decide_eq_false final]; exact Bool.false_ne_true), if_neg final,
              ih _ later]
            rfl
      | other text =>
          have ignored : handleLine json assistantMsgId panel (SseLine.other text).letters =
              (panel, false) := if_neg here.2
          have none_found : (SseLine.other text).event = none := rfl
          rw [ignored, List.filterMap_cons_none none_found]
          exact ih panel later

theorem readChunks_eq (chunks : List (List UInt8)) (decoder : Utf8Decoder) {buffer : List Char}
    (open_line : '\n' ∉ buffer) (panel : DebugPanel) :
    readChunks json assistantMsgId decoder buffer panel chunks =
      (handleLines json assistantMsgId panel
        (completeLines '\n' (buffer ++ (decoder.decode chunks.flatten).2))).1 := by
  induction chunks generalizing decoder buffer panel with
  | nil =>
      rw [List.flatten_nil, Utf8Decoder.decode, List.append_nil, completeLines_of_not_mem open_line]
      rfl
  | cons value rest ih =>
      rw [List.flatten_cons, Utf8Decoder.decode_append, ← List.append_assoc, completeLines_append,
        handleLines_append, readChunks]
      split
      · rfl
      · exact ih _ (not_mem_unfinished _) _

end Lines

/-- A response whose chunks are those of a stream, however it was cut: the events are handled in
their order, up to and including the first final one. -/
theorem consumeStream_eq {json : JsonParse} (stream : SseStream json) (assistantMsgId : String)
    (panel : DebugPanel) {response : Response} {chunks : List (List UInt8)}
    (accepted : response.ok = true) (body : response.body = some chunks)
    (cut : chunks.flatten = stream.bytes) :
    consumeStream json assistantMsgId response panel =
      .ok ((upToFinal stream.events).foldl (DebugPanel.handleEvent assistantMsgId) panel) := by
  have text : (Utf8Decoder.decode {} stream.bytes).2 = stream.letters := by
    rw [SseStream.bytes]
    cases mark : stream.marked with
    | true => exact Utf8Decoder.decode_marked _
    | false => exact Utf8Decoder.decode_text (stream.unmarked mark)
  have ended : ∀ line ∈ stream.lines.map SseLine.letters, '\n' ∉ line := by
    intro line member
    obtain ⟨source, listed, rfl⟩ := List.mem_map.mp member
    exact SseLine.not_mem_letters (stream.wellFormed source listed)
  rw [consumeStream, if_pos accepted, body]
  dsimp only
  rw [readChunks_eq chunks {} List.not_mem_nil panel, cut, text, List.nil_append,
    SseStream.letters, completeLines_flatMap ended, handleLines_events panel stream.wellFormed]
  rfl

/-! ### A character cut in two -/

def failedText : String := "\x7b\"event_type\": \"error\"\x7d"

def failedEvent : DebugEvent where
  eventType := "error"
  executionId := "run"
  timestamp := ""
  data := none
  workflowId := none
  sessionId := none

def failedParse : JsonParse where
  parse text := if text = failedText then some failedEvent else none
  empty := by decide
  trimmed := by
    intro text eventData
    split
    · rename_i same
      have kept : JsText.trim failedText = failedText := by decide +kernel
      rw [same, kept, if_pos rfl]
      exact id
    · exact nofun

theorem failedParse_parse : failedParse.parse failedText = some failedEvent := by
  dsimp only [failedParse]
  rw [if_pos rfl]

/-- A comment, an error, and an event that comes too late. -/
def failedStream : SseStream failedParse where
  lines := [.other ": é".toList, .data true failedText failedEvent, .other [],
    .data false failedText failedEvent]
  wellFormed := by
    simp only [List.forall_mem_cons, List.not_mem_nil, SseLine.WellFormed]
    exact ⟨by decide, ⟨by decide, failedParse_parse⟩, by decide, ⟨by decide, failedParse_parse⟩,
      nofun⟩
  unmarked _ := by decide

def emptyPanel : DebugPanel where
  history := [⟨"answer", .assistant, none, some [], none⟩]
  avatarNodeIds := []
  sessionId := none
  actions := []

/-- The first chunk ends within a character. -/
theorem consumeStream_cut :
    consumeStream failedParse "answer"
        { ok := true
          status := 200
          body := some [failedStream.bytes.take 3, failedStream.bytes.drop 3] } emptyPanel =
      .ok (emptyPanel.handleEvent "answer" failedEvent) :=
  consumeStream_eq failedStream "answer" emptyPanel rfl rfl (by
    rw [List.flatten_cons, List.flatten_singleton, List.take_append_drop])

end Assemblix.DebugStream
