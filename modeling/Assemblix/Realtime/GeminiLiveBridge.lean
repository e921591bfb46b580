import Assemblix.Realtime.HalfCascade

/-
The bridge to Gemini Live: transcription comes as fragments, and the bridge decides where a
sentence ends.

A call is what `receive` gives, round by round: it ends with a round without a message, or with
the failure of the transport. The fields of a server message that the bridge does not read are
left out; a part carries audio or text.
-/

namespace Assemblix.Realtime

/-! ### Server messages -/

structure Transcription where
  text : Option Text
  finished : Bool := false
  deriving DecidableEq

structure Part where
  inlineData : Option (List UInt8) := none
  text : Option Text := none
  deriving DecidableEq

structure ServerContent where
  interrupted : Bool := false
  inputTranscription : Option Transcription := none
  outputTranscription : Option Transcription := none
  modelTurn : Option (List Part) := none
  turnComplete : Bool := false
  deriving DecidableEq

structure ServerMessage where
  -- The prompt and the response tokens.
  usageMetadata : Option (Option Nat × Option Nat) := none
  serverContent : Option ServerContent := none
  deriving DecidableEq

/-- What the session delivers until the call is over. -/
inductive LiveCall
  -- A round of `receive` without a message.
  | closed
  | failed (messages : List ServerMessage) (reason : String)
  | round (first : ServerMessage) (rest : List ServerMessage) (call : LiveCall)

/-! ### The bridge -/

inductive Speaker
  | user
  | agent
  deriving DecidableEq

def Speaker.transcript (speaker : Speaker) (text : Text) (isFinal : Bool) : ConversationEvent :=
  match speaker with
  | .user => .userTranscript text isFinal
  | .agent => .agentTranscript text isFinal

structure GeminiLiveBridge where
  userText : Text := []
  agentText : Text := []
  usage : Option Nat × Option Nat := (none, none)

namespace GeminiLiveBridge

def text (bridge : GeminiLiveBridge) : Speaker → Text
  | .user => bridge.userText
  | .agent => bridge.agentText

def setText (bridge : GeminiLiveBridge) (speaker : Speaker) (text : Text) : GeminiLiveBridge :=
  match speaker with
  | .user => { bridge with userText := text }
  | .agent => { bridge with agentText := text }

end GeminiLiveBridge

structure Mapped where
  bridge : GeminiLiveBridge
  events : List ConversationEvent := []

namespace Mapped

def emit (mapped : Mapped) (event : ConversationEvent) : Mapped :=
  { mapped with events := mapped.events ++ [event] }

def add (mapped : Mapped) (speaker : Speaker) (fragment : Text) : Mapped :=
  { mapped with
    bridge := mapped.bridge.setText speaker (mapped.bridge.text speaker ++ fragment) }

/-- `_finalize_user` and `_finalize_agent`. -/
def finalize (mapped : Mapped) (speaker : Speaker) : Mapped :=
  if mapped.bridge.text speaker = [] then mapped
  else
    { bridge := mapped.bridge.setText speaker []
      events := mapped.events ++ [speaker.transcript (mapped.bridge.text speaker) true] }

def finalizeUser (mapped : Mapped) : Mapped :=
  mapped.finalize .user

def finalizeAgent (mapped : Mapped) : Mapped :=
  mapped.finalize .agent

def draft (mapped : Mapped) (speaker : Speaker) : Mapped :=
  mapped.emit (speaker.transcript (mapped.bridge.text speaker) false)

def transcribe (mapped : Mapped) (speaker : Speaker) (transcription : Transcription) : Mapped :=
  let told := mapped.add speaker (transcription.text.getD [])
  if transcription.finished then told.finalize speaker else told.draft speaker

def onUsage (mapped : Mapped) (message : ServerMessage) : Mapped :=
  match message.usageMetadata with
  | some usage => { mapped with bridge := { mapped.bridge with usage } }
  | none => mapped

def onInterrupted (mapped : Mapped) (content : ServerContent) : Mapped :=
  if content.interrupted then (mapped.emit .speechStarted).finalizeAgent else mapped

def onInput (mapped : Mapped) (content : ServerContent) : Mapped :=
  match content.inputTranscription with
  | some transcription => mapped.transcribe .user transcription
  | none => mapped

/-- The agent answering is the end of the caller's utterance. -/
def onOutput (mapped : Mapped) (content : ServerContent) : Mapped :=
  match content.outputTranscription with
  | some transcription => mapped.finalizeUser.transcribe .agent transcription
  | none => mapped

def onPart (mapped : Mapped) (part : Part) : Mapped :=
  if part.inlineData.getD [] ≠ [] then
    mapped.finalizeUser.emit (.audioDelta (part.inlineData.getD []))
  else if part.text.getD [] ≠ [] then
    (mapped.finalizeUser.add .agent (part.text.getD [])).draft .agent
  else mapped

def onModelTurn (mapped : Mapped) (content : ServerContent) : Mapped :=
  (content.modelTurn.getD []).foldl onPart mapped

def onTurnComplete (mapped : Mapped) (content : ServerContent) : Mapped :=
  if content.turnComplete then
    let said := mapped.finalizeUser.finalizeAgent
    { bridge := { said.bridge with usage := (none, none) }
      events := said.events ++ [.turnEnded
        { inputTokens := said.bridge.usage.1, outputTokens := said.bridge.usage.2 }] }
  else mapped

def onContent (mapped : Mapped) (content : ServerContent) : Mapped :=
  (((mapped.onInterrupted content).onInput content).onOutput content).onModelTurn content

end Mapped

namespace GeminiLiveBridge

/-- `_map_message`. -/
def mapMessage (bridge : GeminiLiveBridge) (message : ServerMessage) : Mapped :=
  let mapped := Mapped.onUsage { bridge } message
  match message.serverContent with
  | none => mapped
  | some content => (mapped.onContent content).onTurnComplete content

def mapMessages (bridge : GeminiLiveBridge) : List ServerMessage → Mapped
  | [] => { bridge }
  | message :: rest =>
      let mapped := bridge.mapMessage message
      let after := mapped.bridge.mapMessages rest
      { after with events := mapped.events ++ after.events }

/-- What a call cut off in the middle of a sentence still said, and its close. -/
def trailing (bridge : GeminiLiveBridge) (reason : String) : List ConversationEvent :=
  (Mapped.finalizeAgent (Mapped.finalizeUser { bridge })).events ++ [.sessionClosed reason]

def events (bridge : GeminiLiveBridge) : LiveCall → List ConversationEvent
  | .closed => bridge.trailing "closed"
  | .failed messages reason =>
      let mapped := bridge.mapMessages messages
      mapped.events ++ mapped.bridge.trailing reason
  | .round first rest call =>
      let mapped := bridge.mapMessages (first :: rest)
      mapped.events ++ mapped.bridge.events call

end GeminiLiveBridge

/-! ### The turns of a call and what is said in them -/

namespace LiveCall

def messages : LiveCall → List ServerMessage
  | .closed => []
  | .failed messages _ => messages
  | .round first rest call => first :: rest ++ call.messages

def reason : LiveCall → String
  | .closed => "closed"
  | .failed _ reason => reason
  | .round _ _ call => call.reason

end LiveCall

def ServerMessage.completesTurn (message : ServerMessage) : Bool :=
  (message.serverContent.map ServerContent.turnComplete).getD false

/-- The messages turn by turn, after `started` in the first of them, and what follows the last
turn that is complete. -/
def turnsFrom (started : List ServerMessage) :
    List ServerMessage → List (List ServerMessage) × List ServerMessage
  | [] => ([], started)
  | message :: rest =>
      if message.completesTurn then
        ((started ++ [message]) :: (turnsFrom [] rest).1, (turnsFrom [] rest).2)
      else turnsFrom (started ++ [message]) rest

def fragment (text : Option Text) : List Text :=
  if text.getD [] = [] then [] else [text.getD []]

def Part.fragments (part : Part) : List Text :=
  if part.inlineData.getD [] ≠ [] then [] else fragment part.text

namespace ServerContent

/-- What a message brings of what somebody said, in its order. -/
def fragments (content : ServerContent) : Speaker → List Text
  | .user => fragment (content.inputTranscription.bind Transcription.text)
  | .agent =>
      fragment (content.outputTranscription.bind Transcription.text) ++
        (content.modelTurn.getD []).flatMap Part.fragments

end ServerContent

def ServerMessage.fragments (message : ServerMessage) (speaker : Speaker) : List Text :=
  (message.serverContent.map (fun content => content.fragments speaker)).getD []

def fragmentsOf (messages : List ServerMessage) (speaker : Speaker) : List Text :=
  messages.flatMap (fun message => message.fragments speaker)

def ConversationEvent.final : ConversationEvent → Speaker → Option Text
  | .userTranscript text true, .user => some text
  | .agentTranscript text true, .agent => some text
  | _, _ => none

def finals (events : List ConversationEvent) (speaker : Speaker) : List Text :=
  events.filterMap (fun event => event.final speaker)

def ConversationEvent.endsTurn : ConversationEvent → Bool
  | .turnEnded _ => true
  | .sessionClosed _ => true
  | _ => false

/-- The final transcripts of everybody take the fragments of the messages apart into groups,
each with the text of its group. -/
def Grouped (messages : List ServerMessage) (events : List ConversationEvent) : Prop :=
  ∀ speaker, ∃ groups : List (List Text),
    groups.flatten = fragmentsOf messages speaker ∧ (∀ group ∈ groups, group ≠ []) ∧
      finals events speaker = groups.map List.flatten

structure Transcribed (messages : List ServerMessage) (events : List ConversationEvent) :
    Prop where
  grouped : Grouped messages events
  within : ∀ event ∈ events, event.endsTurn = false

/-! ### What the bridge holds back -/

theorem fragment_nonempty {text : Option Text} : ∀ one ∈ fragment text, one ≠ [] := by
  intro one held
  unfold fragment at held
  split at held
  · cases held
  · rename_i spoken
    rw [List.mem_singleton] at held
    exact held ▸ spoken

theorem flatten_fragment (text : Option Text) : (fragment text).flatten = text.getD [] := by
  unfold fragment
  split
  · rename_i silent
    exact silent.symm
  · simp

def HoldsBack (bridge : GeminiLiveBridge) (told : List Text) (events : List ConversationEvent)
    (speaker : Speaker) : Prop :=
  ∃ (groups : List (List Text)) (pending : List Text),
    groups.flatten ++ pending = told ∧ (∀ group ∈ groups, group ≠ []) ∧
      finals events speaker = groups.map List.flatten ∧
      bridge.text speaker = pending.flatten

structure Ongoing (bridge : GeminiLiveBridge) (told : Speaker → List Text)
    (events : List ConversationEvent) : Prop where
  spoken : ∀ speaker, ∀ one ∈ told speaker, one ≠ []
  held : ∀ speaker, HoldsBack bridge (told speaker) events speaker
  within : ∀ event ∈ events, event.endsTurn = false

namespace GeminiLiveBridge

variable (bridge : GeminiLiveBridge)

@[simp]
theorem text_setText (speaker : Speaker) (text : Text) :
    (bridge.setText speaker text).text speaker = text := by
  cases speaker <;> rfl

theorem text_setText_other {speaker other : Speaker} (text : Text) (apart : other ≠ speaker) :
    (bridge.setText speaker text).text other = bridge.text other := by
  cases speaker <;> cases other <;> first | rfl | exact absurd rfl apart

end GeminiLiveBridge

@[simp]
theorem final_transcript (speaker : Speaker) (text : Text) :
    (speaker.transcript text true).final speaker = some text := by
  cases speaker <;> rfl

theorem final_transcript_other {speaker other : Speaker} (text : Text)
    (apart : other ≠ speaker) : (speaker.transcript text true).final other = none := by
  cases speaker <;> cases other <;> first | rfl | exact absurd rfl apart

theorem final_draft (speaker other : Speaker) (text : Text) :
    (speaker.transcript text false).final other = none := by
  cases speaker <;> cases other <;> rfl

@[simp]
theorem endsTurn_transcript (speaker : Speaker) (text : Text) (isFinal : Bool) :
    (speaker.transcript text isFinal).endsTurn = false := by
  cases speaker <;> rfl

theorem finals_append (events more : List ConversationEvent) (speaker : Speaker) :
    finals (events ++ more) speaker = finals events speaker ++ finals more speaker :=
  List.filterMap_append

/-- `Ongoing` while a message is mapped, after the events of the turn before it. -/
def Mapped.Ongoing (mapped : Mapped) (earlier : List ConversationEvent)
    (told : Speaker → List Text) : Prop :=
  Realtime.Ongoing mapped.bridge told (earlier ++ mapped.events)

namespace Mapped.Ongoing

variable {mapped : Mapped} {earlier : List ConversationEvent} {told : Speaker → List Text}

section

variable (ongoing : mapped.Ongoing earlier told)
include ongoing

theorem emit {event : ConversationEvent} (silent : ∀ speaker, event.final speaker = none)
    (inside : event.endsTurn = false) : (mapped.emit event).Ongoing earlier told where
  spoken := ongoing.spoken
  held := by
    intro speaker
    obtain ⟨groups, pending, parted, kept, said, remaining⟩ := ongoing.held speaker
    refine ⟨groups, pending, parted, kept, ?_, remaining⟩
    have none : finals [event] speaker = [] := by simp [finals, silent speaker]
    change finals (earlier ++ (mapped.events ++ [event])) speaker = _
    rw [← List.append_assoc, finals_append, none, List.append_nil, said]
  within := by
    intro other emitted
    change other ∈ earlier ++ (mapped.events ++ [event]) at emitted
    rw [← List.append_assoc, List.mem_append, List.mem_singleton] at emitted
    rcases emitted with before | rfl
    · exact ongoing.within other before
    · exact inside

theorem draft (speaker : Speaker) : (mapped.draft speaker).Ongoing earlier told :=
  ongoing.emit (fun other => final_draft speaker other _) (endsTurn_transcript _ _ _)

theorem add (speaker : Speaker) (text : Option Text) :
    (mapped.add speaker (text.getD [])).Ongoing earlier
      (fun other => told other ++ if other = speaker then fragment text else []) where
  spoken := by
    intro other one member
    rcases List.mem_append.mp member with before | added
    · exact ongoing.spoken other one before
    · split at added
      · exact fragment_nonempty one added
      · cases added
  held := by
    intro other
    obtain ⟨groups, pending, parted, kept, said, remaining⟩ := ongoing.held other
    by_cases same : other = speaker
    · subst same
      refine ⟨groups, pending ++ fragment text, ?_, kept, said, ?_⟩
      · rw [if_pos rfl, ← List.append_assoc, parted]
      · rw [List.flatten_append, flatten_fragment, ← remaining]
        exact GeminiLiveBridge.text_setText _ _ _
    · refine ⟨groups, pending, ?_, kept, said, ?_⟩
      · rw [if_neg same, List.append_nil, parted]
      · rw [← remaining]
        exact GeminiLiveBridge.text_setText_other _ _ same
  within := ongoing.within

theorem finalize (speaker : Speaker) : (mapped.finalize speaker).Ongoing earlier told := by
  unfold Mapped.finalize
  split
  · exact ongoing
  · rename_i said
    refine { spoken := ongoing.spoken, held := ?_, within := ?_ }
    · intro other
      obtain ⟨groups, pending, parted, kept, said', remaining⟩ := ongoing.held other
      dsimp only
      by_cases same : other = speaker
      · subst same
        -- What was pending is one more group.
        have pends : pending ≠ [] := by
          rintro rfl
          exact said remaining
        refine ⟨groups ++ [pending], [], ?_, ?_, ?_, GeminiLiveBridge.text_setText _ _ _⟩
        · simpa using parted
        · intro group member
          rcases List.mem_append.mp member with before | last
          · exact kept group before
          · exact List.mem_singleton.mp last ▸ pends
        · rw [← List.append_assoc, finals_append, said', remaining]
          simp [finals]
      · refine ⟨groups, pending, parted, kept, ?_, ?_⟩
        · have none : finals [speaker.transcript (mapped.bridge.text speaker) true] other = [] := by
            simp [finals, final_transcript_other _ same]
          rw [← List.append_assoc, finals_append, none, List.append_nil, said']
        · rw [← remaining]
          exact GeminiLiveBridge.text_setText_other _ _ same
    · intro event emitted
      dsimp only at emitted
      rw [← List.append_assoc, List.mem_append, List.mem_singleton] at emitted
      rcases emitted with before | rfl
      · exact ongoing.within event before
      · exact endsTurn_transcript _ _ _

theorem transcribe (speaker : Speaker) (transcription : Transcription) :
    (mapped.transcribe speaker transcription).Ongoing earlier
      (fun other => told other ++ if other = speaker then fragment transcription.text else []) := by
  have added := ongoing.add speaker transcription.text
  unfold Mapped.transcribe
  dsimp only
  split
  · exact added.finalize speaker
  · exact added.draft speaker

theorem onUsage (message : ServerMessage) : (mapped.onUsage message).Ongoing earlier told := by
  unfold Mapped.onUsage
  cases message.usageMetadata with
  | none => exact ongoing
  | some usage =>
      refine { spoken := ongoing.spoken, held := ?_, within := ongoing.within }
      intro speaker
      have held := ongoing.held speaker
      cases speaker <;> exact held

theorem onInterrupted (content : ServerContent) :
    (mapped.onInterrupted content).Ongoing earlier told := by
  unfold Mapped.onInterrupted
  split
  · exact (ongoing.emit (fun speaker => by cases speaker <;> rfl) rfl).finalize .agent
  · exact ongoing

theorem of_eq {other : Speaker → List Text} (same : ∀ speaker, told speaker = other speaker) :
    mapped.Ongoing earlier other :=
  (funext same : told = other) ▸ ongoing

theorem onTranscription (speaker : Speaker) (transcription : Option Transcription) :
    (match transcription with
      | some one => mapped.transcribe speaker one
      | none => mapped).Ongoing earlier
      (fun other => told other ++
        if other = speaker then fragment (transcription.bind Transcription.text) else []) := by
  cases transcription with
  | none =>
      refine ongoing.of_eq (fun other => ?_)
      split
      · exact (List.append_nil _).symm
      · exact (List.append_nil _).symm
  | some one => exact ongoing.transcribe speaker one

theorem onInput (content : ServerContent) :
    (mapped.onInput content).Ongoing earlier
      (fun other => told other ++
        if other = .user then
          fragment (content.inputTranscription.bind Transcription.text)
        else []) :=
  ongoing.onTranscription .user content.inputTranscription

theorem onOutput (content : ServerContent) :
    (mapped.onOutput content).Ongoing earlier
      (fun other => told other ++
        if other = .agent then
          fragment (content.outputTranscription.bind Transcription.text)
        else []) := by
  unfold Mapped.onOutput
  cases transcribed : content.outputTranscription with
  | none => simpa [transcribed] using ongoing.onTranscription .agent none
  | some transcription =>
      exact (ongoing.finalize .user).transcribe .agent transcription

theorem onPart (part : Part) :
    (mapped.onPart part).Ongoing earlier
      (fun other => told other ++ if other = .agent then part.fragments else []) := by
  unfold Mapped.onPart Part.fragments
  by_cases audio : part.inlineData.getD [] ≠ []
  · rw [if_pos audio, if_pos audio]
    refine of_eq ((ongoing.finalize .user).emit (fun speaker => by cases speaker <;> rfl) rfl)
      (fun other => ?_)
    rw [ite_self, List.append_nil]
  · rw [if_neg audio, if_neg audio]
    by_cases text : part.text.getD [] ≠ []
    · rw [if_pos text]
      exact ((ongoing.finalize .user).add .agent part.text).draft .agent
    · rw [if_neg text]
      have silent : fragment part.text = [] := if_pos (not_not.mp text)
      refine ongoing.of_eq (fun other => ?_)
      rw [silent, ite_self, List.append_nil]

end

theorem onParts (parts : List Part) :
    ∀ {mapped : Mapped} {told : Speaker → List Text}, mapped.Ongoing earlier told →
      (parts.foldl Mapped.onPart mapped).Ongoing earlier
        (fun other => told other ++
          if other = .agent then parts.flatMap Part.fragments else []) := by
  induction parts with
  | nil =>
      intro mapped told ongoing
      refine ongoing.of_eq (fun other => ?_)
      rw [List.flatMap_nil, ite_self, List.append_nil]
  | cons part rest ih =>
      intro mapped told ongoing
      refine (ih (ongoing.onPart part)).of_eq (fun other => ?_)
      rw [List.append_assoc]
      split
      · rw [List.flatMap_cons]
      · rfl

theorem onContent (ongoing : mapped.Ongoing earlier told) (content : ServerContent) :
    (mapped.onContent content).Ongoing earlier
      (fun other => told other ++ content.fragments other) := by
  have input := (ongoing.onInterrupted content).onInput content
  refine of_eq (onParts (content.modelTurn.getD []) (input.onOutput content)) (fun other => ?_)
  cases other with
  | user => simp [ServerContent.fragments]
  | agent => simp [ServerContent.fragments]

end Mapped.Ongoing

/-! ### A message, a turn and a call -/

namespace Mapped

@[simp]
theorem text_finalize (mapped : Mapped) (speaker : Speaker) :
    (mapped.finalize speaker).bridge.text speaker = [] := by
  unfold finalize
  split
  · assumption
  · exact GeminiLiveBridge.text_setText _ _ _

theorem text_finalize_silent (mapped : Mapped) (speaker : Speaker) {other : Speaker}
    (silent : mapped.bridge.text other = []) :
    (mapped.finalize speaker).bridge.text other = [] := by
  by_cases same : other = speaker
  · exact same ▸ text_finalize mapped other
  · unfold finalize
    split
    · exact silent
    · exact (GeminiLiveBridge.text_setText_other _ _ same).trans silent

theorem text_finalized (mapped : Mapped) (speaker : Speaker) :
    mapped.finalizeUser.finalizeAgent.bridge.text speaker = [] := by
  cases speaker with
  | user => exact text_finalize_silent _ _ (text_finalize mapped .user)
  | agent => exact text_finalize mapped.finalizeUser .agent

end Mapped

theorem flatten_eq_nil {pending : List Text} (spoken : ∀ one ∈ pending, one ≠ [])
    (empty : pending.flatten = []) : pending = [] := by
  cases pending with
  | nil => rfl
  | cons one rest =>
      exact absurd (List.flatten_eq_nil_iff.mp empty one List.mem_cons_self)
        (spoken one List.mem_cons_self)

namespace Ongoing

variable {bridge : GeminiLiveBridge} {told : Speaker → List Text}
  {events : List ConversationEvent}

theorem fresh (silent : ∀ speaker, bridge.text speaker = []) :
    Ongoing bridge (fragmentsOf []) [] where
  spoken := fun _ _ member => nomatch member
  held := fun speaker => ⟨[], [], rfl, fun _ member => (nomatch member), rfl, silent speaker⟩
  within := fun _ member => nomatch member

theorem transcribed {messages : List ServerMessage}
    (ongoing : Ongoing bridge (fragmentsOf messages) events)
    (silent : ∀ speaker, bridge.text speaker = []) : Transcribed messages events where
  grouped := by
    intro speaker
    obtain ⟨groups, pending, parted, kept, said, remaining⟩ := ongoing.held speaker
    have none : pending = [] := by
      refine flatten_eq_nil (fun one member => ?_) (remaining ▸ silent speaker)
      exact ongoing.spoken speaker one (parted ▸ List.mem_append_right _ member)
    refine ⟨groups, ?_, kept, said⟩
    rw [← parted, none, List.append_nil]
  within := ongoing.within

end Ongoing

theorem fragmentsOf_append (messages more : List ServerMessage) (speaker : Speaker) :
    fragmentsOf (messages ++ more) speaker =
      fragmentsOf messages speaker ++ fragmentsOf more speaker :=
  List.flatMap_append

theorem fragmentsOf_concat (messages : List ServerMessage) (message : ServerMessage)
    (speaker : Speaker) :
    fragmentsOf (messages ++ [message]) speaker =
      fragmentsOf messages speaker ++ message.fragments speaker := by
  rw [fragmentsOf_append]
  simp [fragmentsOf]

namespace GeminiLiveBridge

variable {bridge : GeminiLiveBridge} {started : List ServerMessage}
  {earlier : List ConversationEvent} {message : ServerMessage}

section

variable (ongoing : Ongoing bridge (fragmentsOf started) earlier)
include ongoing

theorem ongoing_content {content : ServerContent} (carried : message.serverContent = some content) :
    ((Mapped.onUsage { bridge } message).onContent content).Ongoing earlier
      (fragmentsOf (started ++ [message])) := by
  have before : Mapped.Ongoing { bridge } earlier (fragmentsOf started) := by
    change Ongoing bridge (fragmentsOf started) (earlier ++ [])
    rwa [List.append_nil]
  refine ((before.onUsage message).onContent content).of_eq (fun speaker => ?_)
  rw [fragmentsOf_concat]
  simp [ServerMessage.fragments, carried]

theorem mapMessage_ongoing (goesOn : message.completesTurn = false) :
    Ongoing (bridge.mapMessage message).bridge (fragmentsOf (started ++ [message]))
      (earlier ++ (bridge.mapMessage message).events) := by
  unfold mapMessage
  cases carried : message.serverContent with
  | none =>
      have before : Mapped.Ongoing { bridge } earlier (fragmentsOf started) := by
        change Ongoing bridge (fragmentsOf started) (earlier ++ [])
        rwa [List.append_nil]
      refine (before.onUsage message).of_eq (fun speaker => ?_)
      rw [fragmentsOf_concat]
      simp [ServerMessage.fragments, carried]
  | some content =>
      have incomplete : content.turnComplete = false := by
        simpa [ServerMessage.completesTurn, carried] using goesOn
      have mapped := ongoing_content ongoing carried
      dsimp only
      rw [Mapped.onTurnComplete, incomplete, if_neg Bool.false_ne_true]
      exact mapped

theorem mapMessage_complete (completes : message.completesTurn = true) :
    ∃ events report, (bridge.mapMessage message).events = events ++ [.turnEnded report] ∧
      Transcribed (started ++ [message]) (earlier ++ events) ∧
      ∀ speaker, (bridge.mapMessage message).bridge.text speaker = [] := by
  cases carried : message.serverContent with
  | none => simp [ServerMessage.completesTurn, carried] at completes
  | some content =>
      have complete : content.turnComplete = true := by
        simpa [ServerMessage.completesTurn, carried] using completes
      have mapped := ongoing_content ongoing carried
      have finalized := (mapped.finalize .user).finalize .agent
      have silent := Mapped.text_finalized
        ((Mapped.onUsage { bridge } message).onContent content)
      unfold mapMessage
      rw [carried]
      dsimp only
      rw [Mapped.onTurnComplete, if_pos complete]
      exact ⟨_, _, rfl, finalized.transcribed silent,
        fun speaker => by cases speaker with
          | user => exact silent .user
          | agent => exact silent .agent⟩

end

def closed (blocks : List (List ConversationEvent × TurnEnded)) : List ConversationEvent :=
  blocks.flatMap (fun block => block.1 ++ [.turnEnded block.2])

theorem mapMessages_turns (messages : List ServerMessage) :
    ∀ {bridge : GeminiLiveBridge} {started : List ServerMessage}
      {earlier : List ConversationEvent},
      Ongoing bridge (fragmentsOf started) earlier →
      ∃ blocks last,
        earlier ++ (bridge.mapMessages messages).events = closed blocks ++ last ∧
        List.Forall₂ (fun turn block => Transcribed turn block.1)
          (turnsFrom started messages).1 blocks ∧
        Ongoing (bridge.mapMessages messages).bridge
          (fragmentsOf (turnsFrom started messages).2) last := by
  induction messages with
  | nil =>
      intro bridge started earlier ongoing
      exact ⟨[], earlier, List.append_nil _, .nil, ongoing⟩
  | cons message rest ih =>
      intro bridge started earlier ongoing
      cases completes : message.completesTurn with
      | false =>
          obtain ⟨blocks, last, parted, turns, after⟩ := ih (mapMessage_ongoing ongoing completes)
          rw [turnsFrom, completes, if_neg Bool.false_ne_true]
          exact ⟨blocks, last, by rw [← parted, List.append_assoc]; rfl, turns, after⟩
      | true =>
          obtain ⟨events, report, ended, transcribed, silent⟩ :=
            mapMessage_complete ongoing completes
          obtain ⟨blocks, last, parted, turns, after⟩ := ih (Ongoing.fresh silent)
          rw [turnsFrom, completes, if_pos rfl]
          refine ⟨(earlier ++ events, report) :: blocks, last, ?_,
            .cons transcribed turns, after⟩
          change earlier ++ ((bridge.mapMessage message).events ++ _) =
            (earlier ++ events ++ [.turnEnded report] ++ closed blocks) ++ last
          rw [ended, List.append_assoc _ (closed blocks), ← parted]
          simp

theorem mapMessages_append (messages more : List ServerMessage) :
    ∀ bridge : GeminiLiveBridge,
      bridge.mapMessages (messages ++ more) =
        { (bridge.mapMessages messages).bridge.mapMessages more with
          events := (bridge.mapMessages messages).events ++
            ((bridge.mapMessages messages).bridge.mapMessages more).events } := by
  induction messages with
  | nil => exact fun bridge => rfl
  | cons message rest ih =>
      intro bridge
      rw [List.cons_append, mapMessages, mapMessages, ih]
      simp

theorem fresh_silent (speaker : Speaker) : text {} speaker = [] := by
  cases speaker <;> rfl

theorem events_eq (call : LiveCall) :
    ∀ bridge : GeminiLiveBridge,
      bridge.events call = (bridge.mapMessages call.messages).events ++
        (bridge.mapMessages call.messages).bridge.trailing call.reason := by
  induction call with
  | closed => exact fun bridge => rfl
  | failed messages reason => exact fun bridge => rfl
  | round first rest call ih =>
      intro bridge
      rw [events, LiveCall.messages, LiveCall.reason, mapMessages_append]
      dsimp only
      rw [ih, List.append_assoc]

end GeminiLiveBridge

theorem turnsFrom_flatten (messages : List ServerMessage) :
    ∀ started, (turnsFrom started messages).1.flatten ++ (turnsFrom started messages).2 =
      started ++ messages := by
  induction messages with
  | nil => exact fun started => (List.append_nil _).symm
  | cons message rest ih =>
      intro started
      rw [turnsFrom]
      split
      · simp [ih []]
      · simp [ih (started ++ [message])]

namespace Grouped

variable {messages more : List ServerMessage} {events after : List ConversationEvent}

theorem append (first : Grouped messages events) (second : Grouped more after) :
    Grouped (messages ++ more) (events ++ after) := by
  intro speaker
  obtain ⟨groups, parted, kept, said⟩ := first speaker
  obtain ⟨others, parted', kept', said'⟩ := second speaker
  refine ⟨groups ++ others, ?_, ?_, ?_⟩
  · rw [List.flatten_append, parted, parted', fragmentsOf_append]
  · intro group member
    exact (List.mem_append.mp member).elim (kept group) (kept' group)
  · rw [finals_append, said, said', List.map_append]

theorem silent (quiet : ∀ speaker, finals events speaker = []) : Grouped [] events :=
  fun speaker => ⟨[], rfl, fun _ member => (nomatch member), quiet speaker⟩

theorem closed {turns : List (List ServerMessage)}
    {blocks : List (List ConversationEvent × TurnEnded)}
    (transcribed : List.Forall₂ (fun turn block => Transcribed turn block.1) turns blocks) :
    Grouped turns.flatten (GeminiLiveBridge.closed blocks) := by
  induction transcribed with
  | nil => exact silent (fun _ => rfl)
  | @cons turn block _ _ transcribed _ ih =>
      have ended : Grouped [] [.turnEnded block.2] :=
        silent (fun speaker => by cases speaker <;> rfl)
      have turn := transcribed.grouped.append ended
      rw [List.append_nil] at turn
      exact turn.append ih

end Grouped

namespace GeminiLiveBridge

/-- Whatever the server sends and however the call ends: every fragment is in exactly one final
transcript of its speaker and in its order, and those of a turn come before its end. -/
theorem transcripts_conserved (call : LiveCall) :
    Grouped call.messages (events {} call) ∧
      ∃ (blocks : List (List ConversationEvent × TurnEnded)) (last : List ConversationEvent),
        events {} call = closed blocks ++ last ++ [.sessionClosed call.reason] ∧
        List.Forall₂ (fun turn block => Transcribed turn block.1)
          (turnsFrom [] call.messages).1 blocks ∧
        Transcribed (turnsFrom [] call.messages).2 last := by
  obtain ⟨blocks, last, parted, turns, ongoing⟩ :=
    mapMessages_turns call.messages (Ongoing.fresh fresh_silent)
  rw [List.nil_append] at parted
  have started : Mapped.Ongoing { bridge := (mapMessages {} call.messages).bridge } last
      (fragmentsOf (turnsFrom [] call.messages).2) := by
    change Ongoing _ _ (last ++ [])
    rwa [List.append_nil]
  -- The close transcribes what the bridge still holds.
  have transcribed := ((started.finalize .user).finalize .agent).transcribed
    (Mapped.text_finalized _)
  have whole : events {} call = closed blocks ++
      (last ++ (Mapped.finalizeAgent (Mapped.finalizeUser
        { bridge := (mapMessages {} call.messages).bridge })).events) ++
      [.sessionClosed call.reason] := by
    rw [events_eq, parted, trailing]
    simp
  refine ⟨?_, blocks, _, whole, turns, transcribed⟩
  have ended : Grouped [] [.sessionClosed call.reason] :=
    Grouped.silent (fun speaker => by cases speaker <;> rfl)
  have grouped := ((Grouped.closed turns).append transcribed.grouped).append ended
  rw [turnsFrom_flatten, List.nil_append, List.append_nil] at grouped
  exact whole ▸ grouped

end GeminiLiveBridge

end Assemblix.Realtime
