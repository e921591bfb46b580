import Assemblix.Realtime.BargeIn
import Assemblix.Realtime.GeminiLiveBridge

/-
What the synthesizer hears of a reply.

The OpenAI bridge sends the fragments of a reply and then the whole, the Gemini bridge the text
so far with each event. `_unspoken` tells the two apart by whether a text begins with what was
spoken, which a fragment may do as well: the reply is heard as it is exactly where it begins
with its own part from the last such fragment on.
-/

namespace Assemblix.Realtime

open Library

/-! ### The events of the OpenAI connection -/

inductive OpenAIEvent
  | inputSpeechStarted
  | inputTranscriptionDelta (delta : Text)
  | inputTranscriptionCompleted (transcript : Text)
  | responseCreated
  | outputItemAdded (role : Option String) (id : String)
  | outputTextDelta (delta : Text)
  | outputTextDone (text : Text)
  -- The bytes of the delta, decoded.
  | outputAudioDelta (pcm : List UInt8)
  | outputAudioTranscriptDelta (delta : Text)
  | outputAudioTranscriptDone (transcript : Text)
  -- The input and the output tokens.
  | responseDone (usage : Option (Nat × Nat))
  | error (code : Option String) (message : String) (type : String)
  | other (type : String)

structure OpenAIRealtimeBridge where
  textOutput : Bool
  activeItemId : Option String := none
  responseActive : Bool := false
  deriving DecidableEq

namespace OpenAIRealtimeBridge

/-- `_map_event`. -/
def mapEvent (bridge : OpenAIRealtimeBridge) :
    OpenAIEvent → OpenAIRealtimeBridge × Option ConversationEvent
  | .inputSpeechStarted => (bridge, some .speechStarted)
  | .inputTranscriptionDelta delta => (bridge, some (.userTranscript delta false))
  | .inputTranscriptionCompleted transcript => (bridge, some (.userTranscript transcript true))
  | .responseCreated => ({ bridge with responseActive := true, activeItemId := none }, none)
  | .outputItemAdded role id =>
      let active := { bridge with responseActive := true }
      if bridge.textOutput = false ∧ role = some "assistant" then
        ({ active with activeItemId := some id }, none)
      else (active, none)
  | .outputTextDelta delta => (bridge, some (.agentTranscript delta false))
  | .outputTextDone text => (bridge, some (.agentTranscript text true))
  | .outputAudioDelta pcm => (bridge, some (.audioDelta pcm))
  | .outputAudioTranscriptDelta delta => (bridge, some (.agentTranscript delta false))
  | .outputAudioTranscriptDone transcript => (bridge, some (.agentTranscript transcript true))
  | .responseDone usage =>
      ({ bridge with responseActive := false },
        some (.turnEnded
          { inputTokens := usage.map Prod.fst, outputTokens := usage.map Prod.snd }))
  | .error code message type =>
      (bridge, some (.bridgeError code message (decide (type = "server_error"))))
  | .other _ => (bridge, none)

def mapEvents (bridge : OpenAIRealtimeBridge) : List OpenAIEvent → List ConversationEvent
  | [] => []
  | event :: rest => (bridge.mapEvent event).2.toList ++ (bridge.mapEvent event).1.mapEvents rest

end OpenAIRealtimeBridge

/-! ### The two conventions -/

/-- What the text of an agent transcript holds: a fragment with the OpenAI bridge, as
`openAI_transcripts` says of its events, and the text so far with the Gemini bridge, as
`gemini_transcripts` does. -/
inductive Convention
  | deltas
  | accumulated
  deriving DecidableEq

def soFar (before : Text) : List Text → List Text
  | [] => []
  | one :: rest => (before ++ one) :: soFar (before ++ one) rest

def Convention.drafts : Convention → List Text → List Text
  | .deltas, fragments => fragments
  | .accumulated, fragments => soFar [] fragments

def Convention.transcripts (convention : Convention) (fragments : List Text) :
    List Transcript :=
  (convention.drafts fragments).map (fun text => { text, isFinal := false }) ++
    [{ text := fragments.flatten, isFinal := true }]

def Transcript.event (transcript : Transcript) : ConversationEvent :=
  .agentTranscript transcript.text transcript.isFinal

theorem openAI_transcripts (bridge : OpenAIRealtimeBridge) (fragments : List Text) :
    bridge.mapEvents (fragments.map .outputTextDelta ++ [.outputTextDone fragments.flatten]) =
      (Convention.deltas.transcripts fragments).map Transcript.event := by
  have mapped : ∀ texts : List Text, ∀ done : Text,
      bridge.mapEvents (texts.map .outputTextDelta ++ [.outputTextDone done]) =
        (texts.map (fun text => ConversationEvent.agentTranscript text false)) ++
          [.agentTranscript done true] := by
    intro texts done
    induction texts with
    | nil => rfl
    | cons text rest ih => exact congrArg (ConversationEvent.agentTranscript text false :: ·) ih
  rw [mapped]
  simp [Convention.transcripts, Convention.drafts, Transcript.event]

def replyMessage (text : Text) : ServerMessage :=
  { serverContent := some { modelTurn := some [{ text := some text }] } }

def turnComplete : ServerMessage :=
  { serverContent := some { turnComplete := true } }

theorem gemini_transcripts (fragments : List Text) (spoken : ∀ one ∈ fragments, one ≠ []) :
    ∀ before : Text, before ≠ [] ∨ fragments ≠ [] →
      (GeminiLiveBridge.mapMessages { agentText := before }
        (fragments.map replyMessage ++ [turnComplete])).events =
        (soFar before fragments).map (fun text => ConversationEvent.agentTranscript text false) ++
          [.agentTranscript (before ++ fragments.flatten) true, .turnEnded {}] := by
  induction fragments with
  | nil =>
      intro before said
      have held : before ≠ [] := said.resolve_right (absurd rfl)
      simp [GeminiLiveBridge.mapMessages, GeminiLiveBridge.mapMessage, turnComplete, soFar,
        Mapped.onUsage, Mapped.onContent, Mapped.onInterrupted, Mapped.onInput, Mapped.onOutput,
        Mapped.onModelTurn, Mapped.onTurnComplete, Mapped.finalizeUser, Mapped.finalizeAgent,
        Mapped.finalize, GeminiLiveBridge.text, GeminiLiveBridge.setText, Speaker.transcript,
        held]
  | cons one rest ih =>
      intro before _
      have said : one ≠ [] := spoken one List.mem_cons_self
      have mapped : GeminiLiveBridge.mapMessage { agentText := before } (replyMessage one) =
          { bridge := { agentText := before ++ one }
            events := [.agentTranscript (before ++ one) false] } := by
        simp [GeminiLiveBridge.mapMessage, replyMessage, Mapped.onUsage, Mapped.onContent,
          Mapped.onInterrupted, Mapped.onInput, Mapped.onOutput, Mapped.onModelTurn,
          Mapped.onPart, Mapped.onTurnComplete, Mapped.finalizeUser, Mapped.finalize, Mapped.add,
          Mapped.draft, Mapped.emit, GeminiLiveBridge.text, GeminiLiveBridge.setText,
          Speaker.transcript, said]
      have after := ih (fun other member => spoken other (List.mem_cons_of_mem one member))
        (before ++ one) (.inl (by simp [said]))
      rw [List.map_cons, List.cons_append, GeminiLiveBridge.mapMessages, mapped]
      dsimp only
      rw [after]
      simp [soFar]

/-! ### What is let through -/

/-- What `_unspoken` makes of the spoken text. -/
def extend (spoken text : Text) : Text :=
  spoken ++ if spoken <+: text then text.drop spoken.length else text

theorem extend_of_begins {spoken text : Text} (begins : spoken <+: text) :
    extend spoken text = text := by
  obtain ⟨rest, rfl⟩ := begins
  rw [extend, if_pos (List.prefix_append _ _), List.drop_left]

theorem extend_of_apart {spoken text : Text} (apart : ¬ spoken <+: text) :
    extend spoken text = spoken ++ text := by
  rw [extend, if_neg apart]

def spokenOf (texts : List Text) : Text :=
  texts.foldl extend []

def sinceRestart (fragments : List Text) : List Text :=
  fragments.foldl
    (fun since one => if since.flatten <+: one then [one] else since ++ [one]) []

theorem spokenOf_deltas (fragments : List Text) :
    spokenOf fragments = (sinceRestart fragments).flatten := by
  have folded : ∀ since : List Text,
      fragments.foldl extend since.flatten =
        (fragments.foldl
          (fun since one => if since.flatten <+: one then [one] else since ++ [one])
          since).flatten := by
    induction fragments with
    | nil => exact fun _ => rfl
    | cons one rest ih =>
        intro since
        rw [List.foldl_cons, List.foldl_cons]
        split
        · rename_i begins
          rw [extend_of_begins begins, ← ih [one], List.flatten_singleton]
        · rename_i apart
          rw [extend_of_apart apart, ← ih (since ++ [one]), List.flatten_append,
            List.flatten_singleton]
  exact folded []

theorem spokenOf_soFar (fragments : List Text) :
    ∀ before, (soFar before fragments).foldl extend before = before ++ fragments.flatten := by
  induction fragments with
  | nil => exact fun before => (List.append_nil before).symm
  | cons one rest ih =>
      intro before
      rw [soFar, List.foldl_cons, extend_of_begins (List.prefix_append before one), ih,
        List.flatten_cons, List.append_assoc]

theorem spokenOf_concat (texts : List Text) (text : Text) :
    spokenOf (texts ++ [text]) = extend (spokenOf texts) text := by
  rw [spokenOf, List.foldl_append]
  rfl

theorem extend_eq_iff (spoken reply : Text) : extend spoken reply = reply ↔ spoken <+: reply := by
  constructor
  · intro whole
    by_contra apart
    rw [extend_of_apart apart] at whole
    have silent : spoken = [] := List.append_left_eq_self.mp whole
    exact apart (silent ▸ List.nil_prefix)
  · exact extend_of_begins

namespace HalfCascadeBridge

/-- The piece that `_unspoken` lets through in a step. -/
def piece (bridge : HalfCascadeBridge) : HalfCascadeAction → Option Text
  | .receive (.agentTranscript text _) =>
      if bridge.cancelledTurn = some bridge.turn then none else some (bridge.unspoken text)
  | _ => none

def listen (config : HalfCascadeConfig) (heard : HalfCascadeBridge × List Text)
    (action : HalfCascadeAction) : Option (HalfCascadeBridge × List Text) :=
  (heard.1.step config action).map fun next =>
    (next, heard.2 ++ (heard.1.piece action).toList)

end HalfCascadeBridge

def HalfCascadeAction.transcript : HalfCascadeAction → Option Transcript
  | .receive (.agentTranscript text isFinal) => some { text, isFinal }
  | _ => none

theorem HalfCascadeBridge.piece_none {bridge : HalfCascadeBridge} {action : HalfCascadeAction}
    (other : action.transcript = none) : bridge.piece action = none := by
  unfold HalfCascadeAction.transcript at other
  unfold piece
  split at other
  · cases other
  · rfl

theorem receive_of_transcript {action : HalfCascadeAction} {text : Text} {isFinal : Bool}
    (received : action.transcript = some { text, isFinal }) :
    action = .receive (.agentTranscript text isFinal) := by
  unfold HalfCascadeAction.transcript at received
  split at received
  · cases received
    rfl
  · cases received

def HalfCascadeAction.withinReply : HalfCascadeAction → Bool
  | .receive .speechStarted => false
  | .receive (.turnEnded _) => false
  | _ => true

namespace HalfCascadeBridge

variable {config : HalfCascadeConfig} {bridge middle next : HalfCascadeBridge}

structure OpensReply (bridge : HalfCascadeBridge) : Prop where
  ready : bridge.pump = .ready
  silent : bridge.spoken = []
  live : bridge.cancelledTurn ≠ some bridge.turn

theorem opensReply_fresh : OpensReply {} where
  ready := rfl
  silent := rfl
  live := nofun

structure Drafting (bridge next : HalfCascadeBridge) : Prop where
  spoken : next.spoken = bridge.spoken
  turn : next.turn = bridge.turn
  cancelledTurn : next.cancelledTurn = bridge.cancelledTurn
  draft : ∀ transcript, next.pump.transcript = some transcript → transcript.isFinal = false

namespace Drafting

theorem of_ready (spoken : next.spoken = bridge.spoken) (turn : next.turn = bridge.turn)
    (cancelledTurn : next.cancelledTurn = bridge.cancelledTurn) (ready : next.pump = .ready) :
    Drafting bridge next := by
  refine ⟨spoken, turn, cancelledTurn, fun transcript held => ?_⟩
  rw [ready] at held
  cases held

variable {transcript : Transcript} (draft : transcript.isFinal = false)

include draft

theorem spoke (bridge : HalfCascadeBridge) : Drafting bridge (bridge.spoke transcript) := by
  unfold HalfCascadeBridge.spoke
  rw [draft, if_neg Bool.false_ne_true]
  exact of_ready rfl rfl rfl rfl

theorem textSent (bridge : HalfCascadeBridge) (session : Nat) :
    Drafting bridge (bridge.textSent transcript session) := by
  unfold HalfCascadeBridge.textSent
  rw [draft, if_neg Bool.false_ne_true]
  exact spoke draft bridge

theorem held {pump : Pump} (carried : pump.transcript = some transcript)
    (spoken : next.spoken = bridge.spoken) (turn : next.turn = bridge.turn)
    (cancelledTurn : next.cancelledTurn = bridge.cancelledTurn) (pumps : next.pump = pump) :
    Drafting bridge next := by
  refine ⟨spoken, turn, cancelledTurn, fun other here => ?_⟩
  rw [pumps, carried] at here
  cases here
  exact draft

theorem sendText (bridge : HalfCascadeBridge) (tail : Text) (session : Nat) :
    Drafting bridge (bridge.sendText transcript tail session) := by
  unfold HalfCascadeBridge.sendText
  split
  · exact textSent draft bridge session
  · exact held draft (rfl : (Pump.sending transcript session).transcript = _) rfl rfl rfl rfl

omit draft

theorem speak (bridge : HalfCascadeBridge) (draft : transcript.isFinal = false)
    (live : bridge.cancelledTurn ≠ some bridge.turn) :
    Drafting { bridge with spoken := extend bridge.spoken transcript.text }
      (bridge.speak transcript) := by
  unfold HalfCascadeBridge.speak
  rw [if_neg live]
  dsimp only
  split
  · exact spoke draft _
  · cases isOpen : bridge.session with
    | none =>
        exact held draft (rfl : (Pump.draining transcript _).transcript = _) rfl rfl rfl rfl
    | some session => exact sendText draft _ _ session

theorem of_same (same : bridge.Drafting bridge) (spoken : next.spoken = bridge.spoken)
    (turn : next.turn = bridge.turn) (cancelledTurn : next.cancelledTurn = bridge.cancelledTurn)
    (pump : next.pump = bridge.pump) : Drafting bridge next where
  spoken := spoken
  turn := turn
  cancelledTurn := cancelledTurn
  draft := by
    intro transcript here
    exact same.draft transcript (pump ▸ here)

theorem resume (same : bridge.Drafting bridge) (resumed : bridge.resume = some next) :
    Drafting bridge next := by
  cases resume_some resumed with
  | openSession transcript tail pump _ =>
      have draft := same.draft transcript (pump ▸ rfl)
      exact held draft (rfl : (Pump.opening transcript tail _).transcript = _) rfl rfl rfl rfl
  | sendText transcript tail session pump _ =>
      have draft := same.draft transcript (pump ▸ rfl)
      exact sendText draft bridge tail session
  | unopened transcript tail session pump _ =>
      have draft := same.draft transcript (pump ▸ rfl)
      exact spoke draft bridge
  | textSent transcript session pump _ =>
      have draft := same.draft transcript (pump ▸ rfl)
      exact textSent draft bridge session
  | unsent transcript session pump _ =>
      have draft := same.draft transcript (pump ▸ rfl)
      exact spoke draft bridge
  | aborted flush _ _ =>
      exact of_ready rfl rfl rfl rfl
  | closed reason _ _ =>
      exact ⟨rfl, rfl, rfl, fun _ held => nomatch held⟩

end Drafting

theorem step_drafting {action : HalfCascadeAction} (same : bridge.Drafting bridge)
    (within : action.withinReply = true) (other : action.transcript = none)
    (taken : bridge.step config action = some next) : Drafting bridge next := by
  cases action with
  | receive event =>
      obtain ⟨_, rfl⟩ := receive_some taken
      cases event with
      | agentTranscript text isFinal => cases other
      | speechStarted => cases within
      | turnEnded report => cases within
      | sessionClosed reason => exact ⟨rfl, rfl, rfl, fun _ held => nomatch held⟩
      | audioDelta pcm => exact same.of_same rfl rfl rfl rfl
      | userTranscript text isFinal => exact same.of_same rfl rfl rfl rfl
      | bridgeError code message isFatal => exact same.of_same rfl rfl rfl rfl
  | innerEnds =>
      obtain ⟨_, rfl⟩ := innerEnds_some taken
      exact ⟨rfl, rfl, rfl, fun _ held => nomatch held⟩
  | resume => exact same.resume taken
  | flushEnds session outcome =>
      obtain ⟨_, _, _, rfl⟩ := flushEnds_some taken
      exact same.of_same rfl rfl rfl rfl
  | nextLink =>
      obtain ⟨link, rest, _, _, rfl⟩ := nextLink_some taken
      cases link <;> exact same.of_same rfl rfl rfl rfl
  | finish index =>
      obtain ⟨session, sent, _, outcome, _, _, _, rfl⟩ := finishAt_some taken
      exact same.of_same rfl rfl rfl rfl
  | onAudio session pcm =>
      obtain ⟨_, _, ⟨_, rfl⟩ | ⟨_, rfl⟩⟩ := onAudio_some taken
      · exact same.of_same rfl rfl rfl rfl
      · exact same.of_same rfl rfl rfl rfl
  | onError session message =>
      rcases onError_some taken with rfl | rfl
      · exact same
      · exact same.of_same rfl rfl rfl rfl
  | interrupt audioEndMs =>
      cases taken
      exact same.of_same rfl rfl rfl rfl
  | interruptReturns index =>
      obtain ⟨_, _, rfl⟩ := interruptReturns_some taken
      exact same.of_same rfl rfl rfl rfl

/-! ### A reply -/

structure Follows (texts : List Text) (state : HalfCascadeBridge × List Text) : Prop where
  heard : state.2.flatten = spokenOf texts
  spoken : state.1.spoken = spokenOf texts
  live : state.1.cancelledTurn ≠ some state.1.turn
  drafting : state.1.Drafting state.1

namespace Follows

variable {texts : List Text} {state after : HalfCascadeBridge × List Text}
  {action : HalfCascadeAction}

theorem opens (opens : bridge.OpensReply) : Follows [] (bridge, []) where
  heard := rfl
  spoken := opens.silent
  live := opens.live
  drafting := Drafting.of_ready rfl rfl rfl opens.ready

theorem other (follows : Follows texts state) (within : action.withinReply = true)
    (other : action.transcript = none) (taken : listen config state action = some after) :
    Follows texts after := by
  obtain ⟨next, stepped, rfl⟩ := Option.map_eq_some_iff.mp taken
  have drafting := step_drafting follows.drafting within other stepped
  refine
    { heard := ?_, spoken := drafting.spoken.trans follows.spoken, live := ?_
      drafting := ⟨rfl, rfl, rfl, drafting.draft⟩ }
  · rw [piece_none other]
    exact (congrArg List.flatten (List.append_nil _)).trans follows.heard
  · dsimp only
    rw [drafting.cancelledTurn, drafting.turn]
    exact follows.live

theorem piece {text : Text} {isFinal : Bool} (follows : Follows texts state)
    (taken : listen config state (.receive (.agentTranscript text isFinal)) = some after) :
    after.2.flatten = extend (spokenOf texts) text := by
  obtain ⟨next, _, rfl⟩ := Option.map_eq_some_iff.mp taken
  rw [HalfCascadeBridge.piece, if_neg follows.live, List.flatten_append, follows.heard,
    unspoken, follows.spoken]
  simp [extend]

theorem draft {text : Text} (follows : Follows texts state)
    (taken : listen config state (.receive (.agentTranscript text false)) = some after) :
    Follows (texts ++ [text]) after := by
  have heard := follows.piece taken
  obtain ⟨next, stepped, rfl⟩ := Option.map_eq_some_iff.mp taken
  obtain ⟨_, received⟩ := Option.ite_none_right_eq_some.mp stepped
  cases received
  have isDraft : (Transcript.mk text false).isFinal = false := rfl
  have drafting := Drafting.speak
    { state.1 with
      received := state.1.received ++ [.agentTranscript text false]
      turnOpen := true } isDraft follows.live
  refine
    { heard := ?_, spoken := ?_, live := ?_, drafting := ⟨rfl, rfl, rfl, drafting.draft⟩ }
  · rw [spokenOf_concat]
    exact heard
  · rw [spokenOf_concat, ← follows.spoken]
    exact drafting.spoken
  · have turn := drafting.turn
    have cancelledTurn := drafting.cancelledTurn
    exact fun cancelled => follows.live (cancelledTurn ▸ turn ▸ cancelled)

end Follows

variable {first : HalfCascadeBridge} {last : HalfCascadeBridge × List Text}
  {actions : List HalfCascadeAction}

def Listens (config : HalfCascadeConfig) (first : HalfCascadeBridge)
    (actions : List HalfCascadeAction) (last : HalfCascadeBridge × List Text) : Prop :=
  Run (fun state action after => listen config state action = some after) (first, []) actions last

theorem follows_of_drafts (opens : first.OpensReply)
    (run : Listens config first actions last)
    (within : ∀ action ∈ actions, action.withinReply = true) :
    ∀ texts : List Text,
      actions.filterMap HalfCascadeAction.transcript =
        texts.map (fun text => { text, isFinal := false }) →
      Follows texts last := by
  induction run with
  | nil =>
      intro texts sent
      cases texts with
      | nil => exact Follows.opens opens
      | cons text rest => cases sent
  | @snoc labels state last action run taken ih =>
      intro texts sent
      rw [List.filterMap_append] at sent
      have before := ih (fun other member => within other (List.mem_append_left _ member))
      have here := within action (List.mem_append_right _ List.mem_cons_self)
      cases received : action.transcript with
      | none =>
          rw [List.filterMap_cons_none received, List.filterMap_nil, List.append_nil] at sent
          exact (before texts sent).other here received taken
      | some transcript =>
          rw [List.filterMap_cons_some received, List.filterMap_nil] at sent
          obtain ⟨earlier, final, rfl, drafts, ended⟩ := List.map_eq_append_iff.mp sent.symm
          obtain ⟨text, rfl, draft⟩ := List.map_eq_singleton_iff.mp ended
          have receives : action = .receive (.agentTranscript text false) :=
            receive_of_transcript (received.trans (congrArg some draft.symm))
          exact (before earlier drafts.symm).draft (receives ▸ taken)

theorem heard_of_transcripts (opens : first.OpensReply)
    (run : Listens config first actions last)
    (within : ∀ action ∈ actions, action.withinReply = true) (texts : List Text) (reply : Text)
    (sent : actions.filterMap HalfCascadeAction.transcript =
      texts.map (fun text => { text, isFinal := false }) ++
        [{ text := reply, isFinal := true }]) :
    last.2.flatten = extend (spokenOf texts) reply := by
  induction run with
  | nil => exact absurd sent (by simp)
  | @snoc labels state last action run taken ih =>
      rw [List.filterMap_append] at sent
      have inside := fun other member => within other (List.mem_append_left [action] member)
      cases received : action.transcript with
      | none =>
          rw [List.filterMap_cons_none received, List.filterMap_nil, List.append_nil] at sent
          obtain ⟨next, _, rfl⟩ := Option.map_eq_some_iff.mp taken
          rw [piece_none received]
          exact (congrArg List.flatten (List.append_nil _)).trans (ih inside sent)
      | some transcript =>
          rw [List.filterMap_cons_some received, List.filterMap_nil] at sent
          obtain ⟨drafts, ended⟩ := List.append_inj' sent rfl
          cases ended
          exact (follows_of_drafts opens run inside texts drafts).piece
            (receive_of_transcript received ▸ taken)

/-- However the steps of the turn interleave, the synthesizer hears the reply as it is exactly
where the events accumulate it or it begins with its own part since the last fragment that
begins with all that came since the one before. -/
theorem heard_iff {fragments : List Text} {convention : Convention} (opens : first.OpensReply)
    (run : Listens config first actions last)
    (within : ∀ action ∈ actions, action.withinReply = true)
    (sent : actions.filterMap HalfCascadeAction.transcript = convention.transcripts fragments) :
    last.2.flatten = fragments.flatten ↔
      convention = .accumulated ∨ (sinceRestart fragments).flatten <+: fragments.flatten := by
  have heard := heard_of_transcripts opens run within _ _ sent
  rw [heard, extend_eq_iff]
  cases convention with
  | deltas =>
      change spokenOf fragments <+: _ ↔ _
      rw [spokenOf_deltas]
      simp
  | accumulated =>
      change spokenOf (soFar [] fragments) <+: _ ↔ _
      rw [spokenOf, spokenOf_soFar]
      simp

def silentVoice : HalfCascadeConfig where
  acceptsLateInterrupt := false
  ttsCost := fun _ => none

def twoFragments (one two : String) : List HalfCascadeAction :=
  [.receive (.agentTranscript one.toList false), .resume, .resume, .resume,
    .receive (.agentTranscript two.toList false), .resume,
    .receive (.agentTranscript (one.toList ++ two.toList) true)]

theorem greeting_heard :
    ∃ last, Listens silentVoice {} (twoFragments "Hel" "lo") last ∧
      last.2.flatten = "Hello".toList := by
  obtain ⟨last, run, _⟩ := Run.of_foldlM_map (listen silentVoice) ({}, [])
    (twoFragments "Hel" "lo") (fun _ => ()) () (by decide +kernel)
  refine ⟨last, run, ?_⟩
  have fragments : List.filterMap HalfCascadeAction.transcript (twoFragments "Hel" "lo") =
      Convention.deltas.transcripts ["Hel".toList, "lo".toList] := by decide +kernel
  exact (heard_iff opensReply_fresh run (by decide +kernel) fragments).mpr
    (.inr (by decide +kernel))

/-- The second fragment of the OpenAI bridge begins with the first: one digit is lost, and the
whole reply is spoken after what is left. -/
theorem digits_heard_wrong :
    OpenAIRealtimeBridge.mapEvents { textOutput := true }
        [.outputTextDelta "1".toList, .outputTextDelta "10".toList,
          .outputTextDone "110".toList] =
      (Convention.deltas.transcripts ["1".toList, "10".toList]).map Transcript.event ∧
    ∃ last, OpensReply {} ∧ Listens silentVoice {} (twoFragments "1" "10") last ∧
      (∀ action ∈ twoFragments "1" "10", action.withinReply = true) ∧
      (twoFragments "1" "10").filterMap HalfCascadeAction.transcript =
        Convention.deltas.transcripts ["1".toList, "10".toList] ∧
      last.2.flatten = "10110".toList ∧
      last.2.flatten ≠ (["1".toList, "10".toList] : List Text).flatten := by
  obtain ⟨last, run, heard⟩ := Run.of_foldlM_map (listen silentVoice) ({}, [])
    (twoFragments "1" "10") (fun last => last.2.flatten) "10110".toList (by decide +kernel)
  refine ⟨openAI_transcripts _ ["1".toList, "10".toList], last, opensReply_fresh, run,
    by decide +kernel, by decide +kernel, heard, ?_⟩
  rw [heard]
  decide +kernel

end HalfCascadeBridge

end Assemblix.Realtime
