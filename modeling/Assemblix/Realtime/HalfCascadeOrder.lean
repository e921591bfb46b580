import Mathlib.Algebra.GroupWithZero.Nat
import Mathlib.Algebra.BigOperators.Group.List.Basic
import Assemblix.Realtime.BargeIn

/-
The order of a half-cascade call.

Final transcripts and turn ends are on the queue, in the chain or in the pump's hand, in the
order in which they came. The bridge's own steps use up its work, and where none is left all
that came is on the queue.
-/

namespace Assemblix.Realtime

open Library

/-! ### Events in order -/

def ConversationEvent.isOrdered : ConversationEvent → Bool
  | .agentTranscript _ isFinal => isFinal
  | .turnEnded _ => true
  | _ => false

def Happening.ordered : Happening → Option ConversationEvent
  | .put (.agentTranscript text true) => some (.agentTranscript text true)
  | .turnEnded _ report _ _ => some (.turnEnded report)
  | _ => none

def Link.ordered : Link → Option ConversationEvent
  | .finish _ _ _ => none
  | .transcript text => some (.agentTranscript text true)
  | .endTurn _ report => some (.turnEnded report)

def Transcript.ordered (transcript : Transcript) : List ConversationEvent :=
  if transcript.isFinal then [.agentTranscript transcript.text true] else []

def Pump.ordered (pump : Pump) : List ConversationEvent :=
  match pump.transcript with
  | some transcript => transcript.ordered
  | none => []

namespace HalfCascadeBridge

/-- The final transcripts and turn ends on the queue. -/
def emitted (bridge : HalfCascadeBridge) : List ConversationEvent :=
  bridge.log.filterMap Happening.ordered

/-- Those on the queue and in the chain behind it. -/
def accepted (bridge : HalfCascadeBridge) : List ConversationEvent :=
  bridge.emitted ++ bridge.pending.filterMap Link.ordered

variable {config : HalfCascadeConfig} {bridge next : HalfCascadeBridge}

theorem accepted_note (happening : Happening) (silent : happening.ordered = none) :
    (bridge.note happening).accepted = bridge.accepted := by
  unfold accepted emitted note
  rw [List.filterMap_append, List.filterMap_cons_none silent, List.filterMap_nil,
    List.append_nil]

theorem accepted_deliver (link : Link) (empty : bridge.pending = []) :
    (bridge.deliver link).accepted = bridge.accepted ++ link.ordered.toList := by
  cases link with
  | finish session sent accounted => exact (List.append_nil _).symm
  | transcript text =>
      unfold accepted emitted deliver put note
      dsimp only
      rw [empty, List.filterMap_append]
      simp [Happening.ordered, Link.ordered]
  | endTurn turn report =>
      unfold accepted emitted deliver note
      dsimp only
      rw [empty, List.filterMap_append]
      simp [Happening.ordered, Link.ordered]

theorem accepted_inOrder (link : Link) :
    (bridge.inOrder link).accepted = bridge.accepted ++ link.ordered.toList := by
  unfold inOrder
  split
  · exact accepted_deliver link ‹_›
  · unfold accepted emitted
    dsimp only
    rw [List.filterMap_append, List.append_assoc]
    cases link <;> rfl

theorem accepted_spoke (transcript : Transcript) :
    (bridge.spoke transcript).accepted = bridge.accepted ++ transcript.ordered := by
  unfold spoke Transcript.ordered
  dsimp only
  split
  · exact accepted_inOrder _
  · rw [List.append_nil]
    exact accepted_note _ rfl

theorem accepted_startFlush (session : Nat) (spoken : Text) :
    ({ bridge with session := none, spoken := spoken }.startFlush session).accepted =
      bridge.accepted := by
  unfold accepted emitted startFlush
  dsimp only
  rw [List.filterMap_append]
  simp [Link.ordered]

theorem accepted_textSent (transcript : Transcript) (session : Nat) :
    (bridge.textSent transcript session).accepted = bridge.accepted ++ transcript.ordered := by
  unfold textSent
  split
  · rw [accepted_spoke, accepted_startFlush]
  · exact accepted_spoke transcript

def known (bridge : HalfCascadeBridge) : List ConversationEvent :=
  bridge.accepted ++ bridge.pump.ordered

theorem known_of_ready (ready : next.pump = .ready) : next.known = next.accepted := by
  unfold known
  rw [ready]
  exact List.append_nil _

theorem known_spoke (transcript : Transcript) :
    (bridge.spoke transcript).known = bridge.accepted ++ transcript.ordered := by
  rw [known_of_ready (PumpSound.spoke_pump transcript), accepted_spoke]

theorem known_textSent (transcript : Transcript) (session : Nat) :
    (bridge.textSent transcript session).known = bridge.accepted ++ transcript.ordered := by
  rw [known_of_ready (PumpSound.textSent_pump transcript session), accepted_textSent]

theorem known_sendText (transcript : Transcript) (tail : Text) (session : Nat) :
    (bridge.sendText transcript tail session).known = bridge.accepted ++ transcript.ordered := by
  unfold sendText
  split
  · exact known_textSent transcript session
  · rfl

theorem known_speak (transcript : Transcript) :
    (bridge.speak transcript).known = bridge.accepted ++ transcript.ordered := by
  unfold speak
  split
  · exact known_spoke transcript
  · dsimp only
    split
    · exact known_spoke transcript
    · split
      · rfl
      · exact known_sendText transcript _ _

theorem known_receive (ready : bridge.pump = .ready) (event : ConversationEvent) :
    (bridge.receive event).known = bridge.known ++ [event].filter ConversationEvent.isOrdered := by
  rw [known_of_ready ready]
  have passed (silent : (Happening.put event).ordered = none) (kind : event.isOrdered = false) :
      (bridge.put event).known =
        bridge.accepted ++ [event].filter ConversationEvent.isOrdered := by
    have still : (bridge.put event).pump = .ready := ready
    rw [List.filter_singleton, kind, known_of_ready still]
    exact (accepted_note _ silent).trans (List.append_nil _).symm
  cases event with
  | agentTranscript text isFinal =>
      refine (known_speak _).trans ?_
      cases isFinal <;> rfl
  | speechStarted =>
      rw [List.filter_singleton]
      refine Eq.trans ?_ (List.append_nil _).symm
      unfold receive
      dsimp only
      split
      · exact (List.append_nil _).trans (accepted_note _ rfl)
      · split
        · exact (List.append_nil _).trans (accepted_note _ rfl)
        · have started : (bridge.note (.speechStarted false bridge.sessions.length)).pump =
              .ready := ready
          exact (known_of_ready started).trans (accepted_note _ rfl)
  | turnEnded report =>
      let past : HalfCascadeBridge :=
        { bridge with turnOpen := false, turn := bridge.turn + 1, spoken := [] }
      have still : (past.inOrder (.endTurn bridge.turn report)).pump = .ready :=
        (PumpSound.inOrder_pump _).trans ready
      exact (known_of_ready still).trans (accepted_inOrder _)
  | sessionClosed reason => rfl
  | audioDelta pcm => exact passed rfl rfl
  | userTranscript text isFinal => exact passed rfl rfl
  | bridgeError code message isFatal => exact passed rfl rfl

theorem known_resume (resumed : bridge.resume = some next) : next.known = bridge.known := by
  cases resume_some resumed with
  | openSession transcript tail pump _ =>
      unfold known
      rw [pump]
      rfl
  | sendText transcript tail session pump _ =>
      have held : bridge.known = bridge.accepted ++ transcript.ordered := by
        unfold known
        rw [pump]
        rfl
      exact (known_sendText transcript tail session).trans held.symm
  | unopened transcript tail session pump _ =>
      have held : bridge.known = bridge.accepted ++ transcript.ordered := by
        unfold known
        rw [pump]
        rfl
      exact (known_spoke transcript).trans held.symm
  | textSent transcript session pump _ =>
      have held : bridge.known = bridge.accepted ++ transcript.ordered := by
        unfold known
        rw [pump]
        rfl
      exact (known_textSent transcript session).trans held.symm
  | unsent transcript session pump _ =>
      have held : bridge.known = bridge.accepted ++ transcript.ordered := by
        unfold known
        rw [pump]
        rfl
      exact (known_spoke transcript).trans held.symm
  | aborted flush pump _ =>
      unfold known
      rw [pump]
      exact congrArg (· ++ []) (accepted_note _ rfl)
  | closed reason pump _ =>
      unfold known
      rw [pump]
      exact congrArg (· ++ []) (accepted_note _ rfl)

def InOrder (bridge : HalfCascadeBridge) : Prop :=
  bridge.known = bridge.received.filter ConversationEvent.isOrdered

theorem received_textSent (transcript : Transcript) (session : Nat) :
    (bridge.textSent transcript session).received = bridge.received := by
  unfold textSent
  split
  · exact (Aside.spoke _ transcript).received
  · exact (Aside.spoke bridge transcript).received

theorem received_sendText (transcript : Transcript) (tail : Text) (session : Nat) :
    (bridge.sendText transcript tail session).received = bridge.received := by
  unfold sendText
  split
  · exact received_textSent transcript session
  · rfl

theorem received_receive (event : ConversationEvent) :
    (bridge.receive event).received = bridge.received := by
  cases event with
  | agentTranscript text isFinal =>
      unfold receive speak
      dsimp only
      split
      · exact (Aside.spoke _ _).received
      · split
        · exact (Aside.spoke _ _).received
        · split
          · rfl
          · exact received_sendText _ _ _
  | speechStarted =>
      unfold receive
      dsimp only
      split
      · rfl
      · split <;> rfl
  | turnEnded report => exact (Aside.inOrder _ _).received
  | _ => rfl

theorem received_resume (resumed : bridge.resume = some next) :
    next.received = bridge.received := by
  cases resume_some resumed with
  | openSession transcript tail _ _ =>
      rfl
  | sendText transcript tail session _ _ =>
      exact received_sendText transcript tail session
  | unopened transcript tail session _ _ =>
      exact (Aside.spoke bridge transcript).received
  | textSent transcript session _ _ =>
      exact received_textSent transcript session
  | unsent transcript session _ _ =>
      exact (Aside.spoke bridge transcript).received
  | aborted flush _ _ =>
      rfl
  | closed reason _ _ =>
      rfl

theorem InOrder.of_known (inOrder : bridge.InOrder) (known : next.known = bridge.known)
    (received : next.received = bridge.received) : next.InOrder := by
  unfold InOrder
  rw [known, received]
  exact inOrder

theorem known_nextLink {link : Link} {rest : List Link} (chain : bridge.pending = link :: rest) :
    ({ bridge with pending := rest }.deliver link).known = bridge.known := by
  unfold known accepted emitted
  rw [chain]
  cases link with
  | finish session sent accounted => rfl
  | transcript text =>
      change (bridge.log ++ [_]).filterMap _ ++ rest.filterMap _ ++ bridge.pump.ordered = _
      rw [List.filterMap_append]
      simp [Happening.ordered, Link.ordered]
  | endTurn turn report =>
      change (bridge.log ++ [_]).filterMap _ ++ rest.filterMap _ ++ bridge.pump.ordered = _
      rw [List.filterMap_append]
      simp [Happening.ordered, Link.ordered]

theorem InOrder.step {action : HalfCascadeAction} (inOrder : bridge.InOrder)
    (kept : bridge.Kept) (taken : bridge.step config action = some next) : next.InOrder := by
  have noted (happening : Happening) (silent : happening.ordered = none) :
      (bridge.note happening).InOrder :=
    inOrder.of_known (congrArg (· ++ bridge.pump.ordered) (accepted_note happening silent)) rfl
  cases action with
  | receive event =>
      obtain ⟨ready, rfl⟩ := receive_some taken
      let heard : HalfCascadeBridge := { bridge with received := bridge.received ++ [event] }
      have stillReady : heard.pump = .ready := ready
      change (heard.receive event).known = _
      rw [known_receive stillReady, received_receive, List.filter_append]
      exact congrArg (· ++ _) inOrder
  | innerEnds =>
      obtain ⟨ready, rfl⟩ := innerEnds_some taken
      refine inOrder.of_known ?_ rfl
      rw [known_of_ready ready]
      exact List.append_nil _
  | resume => exact inOrder.of_known (known_resume taken) (received_resume taken)
  | flushEnds session outcome =>
      obtain ⟨_, _, _, rfl⟩ := flushEnds_some taken
      exact inOrder
  | nextLink =>
      obtain ⟨link, rest, chain, _, rfl⟩ := nextLink_some taken
      exact inOrder.of_known (known_nextLink chain) (Aside.deliver _ link).received
  | finish index =>
      obtain ⟨session, sent, _, outcome, linked, _, _, rfl⟩ := finishAt_some taken
      obtain ⟨rfl, rest, chain⟩ := kept.sound.finish_first linked
      refine inOrder.of_known ?_ rfl
      unfold known accepted
      rw [chain, List.set_cons_zero]
      rfl
  | onAudio session pcm =>
      obtain ⟨_, _, ⟨_, rfl⟩ | ⟨_, rfl⟩⟩ := onAudio_some taken
      · exact noted _ rfl
      · exact noted _ rfl
  | onError session message =>
      rcases onError_some taken with rfl | rfl
      · exact inOrder
      · exact noted _ rfl
  | interrupt audioEndMs =>
      cases taken
      exact (noted (.abort bridge.sessions.length) rfl).of_known rfl rfl
  | interruptReturns index =>
      obtain ⟨_, _, rfl⟩ := interruptReturns_some taken
      exact inOrder

/-! ### The bridge's own steps -/

end HalfCascadeBridge

/-- A step that waits neither for the inner bridge nor for a caller: the pump goes on, a flush
ends and what is chained behind it runs. -/
def HalfCascadeAction.isOwn : HalfCascadeAction → Bool
  | .resume => true
  | .flushEnds _ _ => true
  | .nextLink => true
  | .finish _ => true
  | _ => false

def Link.work : Link → Nat
  | .finish _ _ false => 3
  | _ => 1

def SpeechSession.work (speech : SpeechSession) : Nat :=
  if speech.flush = .running then 1 else 0

def Pump.work : Pump → Nat
  | .draining _ _ => 12
  | .opening _ _ _ => 11
  | .sending _ _ => 10
  | .aborting _ => 1
  | .closing _ => 1
  | _ => 0

namespace HalfCascadeBridge

def work (bridge : HalfCascadeBridge) : Nat :=
  bridge.pump.work + (bridge.pending.map Link.work).sum +
    (bridge.sessions.map SpeechSession.work).sum

variable {config : HalfCascadeConfig} {bridge next : HalfCascadeBridge}

theorem work_deliver (link : Link) : (bridge.deliver link).work = bridge.work := by
  cases link <;> rfl

theorem work_spoke (transcript : Transcript) :
    (bridge.spoke transcript).work + bridge.pump.work ≤ bridge.work + 1 := by
  unfold spoke inOrder
  dsimp only
  split
  · split
    · rw [work_deliver]
      unfold work
      simp only [Pump.work]
      omega
    · unfold work
      simp only [Pump.work, List.map_append, List.sum_append, List.map_singleton,
        List.sum_singleton, Link.work]
      omega
  · unfold work put note
    simp only [Pump.work]
    omega

theorem work_textSent (transcript : Transcript) {session : Nat} (sound : bridge.Sound)
    (isOpen : bridge.session = some session) :
    (bridge.textSent transcript session).work + bridge.pump.work ≤ bridge.work + 5 := by
  unfold textSent
  split
  · obtain ⟨speech, known, notStarted, _⟩ := sound.opened session isOpen
    have flushed := sum_modify SpeechSession.work known ({ · with flush := .running })
    have started : ({ bridge with session := none, spoken := [] }.startFlush session).work ≤
        bridge.work + 4 := by
      unfold work startFlush
      simp only [List.map_append, List.sum_append, List.map_singleton, List.sum_singleton,
        Link.work]
      simp only [SpeechSession.work, notStarted] at flushed ⊢
      simp at flushed
      omega
    have spoken := ({ bridge with session := none, spoken := [] }.startFlush
      session).work_spoke transcript
    change _ + bridge.pump.work ≤ _ at spoken
    omega
  · have spoken := bridge.work_spoke transcript
    omega

theorem work_sendText (transcript : Transcript) (tail : Text) {session : Nat}
    (sound : bridge.Sound) (isOpen : bridge.session = some session) :
    (bridge.sendText transcript tail session).work + bridge.pump.work ≤ bridge.work + 10 := by
  unfold sendText
  split
  · have spoken := bridge.work_textSent transcript sound isOpen
    omega
  · obtain ⟨speech, known, _⟩ := sound.opened session isOpen
    have handed := sum_modify SpeechSession.work known
      (fun speech => { speech with sent := speech.sent + tail.length })
    unfold work
    simp only [SpeechSession.work, Pump.work] at handed ⊢
    omega

theorem work_resume (sound : bridge.Sound) (resumed : bridge.resume = some next) :
    next.work < bridge.work := by
  cases resume_some resumed with
  | openSession transcript tail pump _ =>
      unfold work openSession
      simp [pump, Pump.work, SpeechSession.work]
  | sendText transcript tail session pump isOpen =>
      have here : bridge.pump.work = 11 := by rw [pump]; rfl
      have sent := bridge.work_sendText transcript tail sound isOpen
      omega
  | unopened transcript tail session pump _ =>
      have here : bridge.pump.work = 11 := by rw [pump]; rfl
      have spoken := bridge.work_spoke transcript
      omega
  | textSent transcript session pump isOpen =>
      have here : bridge.pump.work = 10 := by rw [pump]; rfl
      have sent := bridge.work_textSent transcript sound isOpen
      omega
  | unsent transcript session pump _ =>
      have here : bridge.pump.work = 10 := by rw [pump]; rfl
      have spoken := bridge.work_spoke transcript
      omega
  | aborted flush pump _ =>
      unfold work note
      simp only [pump, Pump.work]
      omega
  | closed reason pump _ =>
      unfold work put note
      simp only [pump, Pump.work]
      omega

theorem own_step {action : HalfCascadeAction} (kept : bridge.Kept) (own : action.isOwn = true)
    (taken : bridge.step config action = some next) :
    next.work < bridge.work ∧ next.received = bridge.received := by
  cases action with
  | resume => exact ⟨work_resume kept.sound taken, received_resume taken⟩
  | flushEnds session outcome =>
      obtain ⟨speech, known, running, rfl⟩ := flushEnds_some taken
      refine ⟨?_, rfl⟩
      have ended := sum_modify SpeechSession.work known ({ · with flush := .ended outcome })
      unfold work
      simp only [SpeechSession.work, running] at ended ⊢
      simp at ended
      omega
  | nextLink =>
      obtain ⟨link, rest, chain, _, rfl⟩ := nextLink_some taken
      refine ⟨?_, (Aside.deliver _ link).received⟩
      rw [work_deliver]
      have some_work : 0 < link.work := by
        unfold Link.work
        split <;> decide
      unfold work
      rw [chain, List.map_cons, List.sum_cons]
      dsimp only
      omega
  | finish index =>
      obtain ⟨session, sent, _, outcome, linked, _, _, rfl⟩ := finishAt_some taken
      obtain ⟨rfl, rest, chain⟩ := kept.sound.finish_first linked
      refine ⟨?_, rfl⟩
      unfold work HalfCascadeBridge.finish
      rw [chain, List.set_cons_zero]
      simp only [List.map_cons, List.sum_cons, Link.work]
      omega
  | receive event => cases own
  | innerEnds => cases own
  | onAudio session pcm => cases own
  | onError session message => cases own
  | interrupt audioEndMs => cases own
  | interruptReturns index => cases own

def AtRest (config : HalfCascadeConfig) (bridge : HalfCascadeBridge) : Prop :=
  ∀ action : HalfCascadeAction, action.isOwn = true → bridge.step config action = none

theorem flushEnds_enabled {session : Nat} {speech : SpeechSession} (outcome : FlushOutcome)
    (known : bridge.sessions[session]? = some speech) (running : speech.flush = .running) :
    bridge.step config (.flushEnds session outcome) ≠ none := by
  obtain ⟨epoch, turn, sent, flush, aborted⟩ := speech
  cases running
  simp [step, known]

theorem chain_enabled (config : HalfCascadeConfig) (sound : bridge.Sound) {link : Link} {rest : List Link}
    (chain : bridge.pending = link :: rest) :
    ∃ action : HalfCascadeAction, action.isOwn = true ∧ bridge.step config action ≠ none := by
  cases link with
  | transcript text => exact ⟨.nextLink, rfl, by simp [step, nextLink, chain]⟩
  | endTurn turn report => exact ⟨.nextLink, rfl, by simp [step, nextLink, chain]⟩
  | finish session sent accounted =>
      cases accounted with
      | true => exact ⟨.nextLink, rfl, by simp [step, nextLink, chain]⟩
      | false =>
          obtain ⟨speech, known, started, _⟩ := sound.linked session sent (by rw [chain]; rfl)
          obtain ⟨epoch, turn, chars, flush, aborted⟩ := speech
          cases flush with
          | notStarted => exact absurd rfl started
          | running =>
              exact ⟨.flushEnds session .raised, rfl, flushEnds_enabled .raised known rfl⟩
          | ended outcome =>
              exact ⟨.finish 0, rfl, by simp [step, finishAt, chain, known]⟩

theorem pump_enabled (config : HalfCascadeConfig) (kept : bridge.Kept) (empty : bridge.pending = [])
    (busy : bridge.pump ≠ .ready ∧ bridge.pump ≠ .ended) :
    ∃ action : HalfCascadeAction, action.isOwn = true ∧ bridge.step config action ≠ none := by
  cases pump : bridge.pump with
  | ready => exact absurd pump busy.1
  | ended => exact absurd pump busy.2
  | draining transcript tail =>
      exact ⟨.resume, rfl, by simp [step, resume, pump, empty]⟩
  | opening transcript tail session =>
      refine ⟨.resume, rfl, ?_⟩
      simp only [step, resume, pump]
      split <;> simp
  | sending transcript session =>
      refine ⟨.resume, rfl, ?_⟩
      simp only [step, resume, pump]
      split <;> simp
  | closing reason => exact ⟨.resume, rfl, by simp [step, resume, pump, empty]⟩
  | aborting flush =>
      cases flush with
      | none => exact ⟨.resume, rfl, by simp [step, resume, pump, abortOver]⟩
      | some session =>
          obtain ⟨speech, known, started⟩ := kept.pumps.awaited session pump
          obtain ⟨epoch, turn, chars, flush, aborted⟩ := speech
          cases flush with
          | notStarted => exact absurd rfl started
          | running =>
              exact ⟨.flushEnds session .raised, rfl, flushEnds_enabled .raised known rfl⟩
          | ended outcome =>
              exact ⟨.resume, rfl, by simp [step, resume, pump, abortOver, flushEnded, known]⟩

theorem InOrder.at_rest (inOrder : bridge.InOrder) (kept : bridge.Kept)
    (rest : bridge.AtRest config) :
    bridge.emitted = bridge.received.filter ConversationEvent.isOrdered := by
  have empty : bridge.pending = [] := by
    cases chain : bridge.pending with
    | nil => rfl
    | cons link links =>
        obtain ⟨action, own, enabled⟩ := chain_enabled config kept.sound chain
        exact absurd (rest action own) enabled
  have idle : bridge.pump = .ready ∨ bridge.pump = .ended := by
    by_contra busy
    rw [not_or] at busy
    obtain ⟨action, own, enabled⟩ := pump_enabled config kept empty busy
    exact enabled (rest action own)
  rw [← inOrder]
  unfold known accepted
  rw [empty]
  rcases idle with ready | ended
  · rw [ready]
    simp [Pump.ordered, Pump.transcript]
  · rw [ended]
    simp [Pump.ordered, Pump.transcript]

/-! ### Runs -/

def Step (config : HalfCascadeConfig) (bridge : HalfCascadeBridge) (action : HalfCascadeAction)
    (next : HalfCascadeBridge) : Prop :=
  bridge.step config action = some next

def RegularStep (config : HalfCascadeConfig) (bridge : HalfCascadeBridge)
    (action : HalfCascadeAction) (next : HalfCascadeBridge) : Prop :=
  bridge.Step config action next ∧ bridge.Regular action

/-- What holds in every run from connect. -/
structure Reached (bridge : HalfCascadeBridge) : Prop where
  kept : bridge.Kept
  past : bridge.TurnsPast
  severed : bridge.Severed
  inOrder : bridge.InOrder

theorem Reached.initial : Reached {} where
  kept := .initial
  past := by intro turn report member; cases member
  severed := .initial
  inOrder := rfl

theorem Reached.step {action : HalfCascadeAction} (reached : bridge.Reached)
    (taken : bridge.Step config action next) : next.Reached where
  kept := reached.kept.step taken
  past := reached.past.step reached.kept taken
  severed := reached.severed.logged (step_logged reached.kept reached.past taken)
  inOrder := reached.inOrder.step reached.kept taken

theorem Reached.run {start last : HalfCascadeBridge} {actions : List HalfCascadeAction}
    (reached : start.Reached) (run : Run (Step config) start actions last) : last.Reached :=
  run.invariant Reached start reached (fun _ _ _ reached taken => reached.step taken)

/-- What holds besides under the assumptions, and the callbacks that were made. -/
theorem regular_run {last : HalfCascadeBridge} {actions : List HalfCascadeAction}
    (run : Run (RegularStep config) {} actions last) :
    last.Reached ∧ last.Disciplined ∧ last.Voiced ∧
      ∀ session, calledBack session last.log = callbacksOf session actions := by
  induction run with
  | nil => exact ⟨.initial, .initial, .initial, fun _ => rfl⟩
  | @snoc actions bridge next action _ step ih =>
      obtain ⟨reached, disciplined, voiced, called⟩ := ih
      obtain ⟨taken, regular⟩ := step
      have logged := step_logged reached.kept reached.past taken
      refine ⟨reached.step taken, disciplined.step reached.kept regular taken,
        voiced.logged reached.kept.sound logged ?_, ?_⟩
      · intro happening added
        exact step_fitting reached.kept disciplined regular taken added
      · intro session
        rw [calledBack_step reached.kept reached.past taken session, called]
        exact List.filterMap_append.symm

theorem Reached.own_run {start last : HalfCascadeBridge} {actions : List HalfCascadeAction}
    (reached : start.Reached) (run : Run (Step config) start actions last)
    (own : ∀ action ∈ actions, action.isOwn = true) :
    last.work + actions.length ≤ start.work ∧ last.received = start.received := by
  induction run with
  | nil => exact ⟨Nat.le_refl _, rfl⟩
  | @snoc actions bridge next action before taken ih =>
      obtain ⟨bound, received⟩ := ih (fun earlier member =>
        own earlier (List.mem_append_left _ member))
      have kept := (reached.run before).kept
      obtain ⟨less, same⟩ := own_step kept (own action (by simp)) taken
      refine ⟨?_, same.trans received⟩
      rw [List.length_append, List.length_singleton]
      omega

/-- In every run, where speech is a synthesis session: no audio of a session follows an abort that
came after its opening, nor the start of speech that the abort was for; final transcripts and turn
ends are emitted as the inner bridge sent them, all of them once its own steps, of which there are
only so many, are done; at most one session is live. Under the assumptions audio follows neither
audio of a later session nor the end of its turn, a cancelled turn has no open session, and every
callback of a session that is not aborted is emitted. -/
theorem barge_in_clean (config : HalfCascadeConfig) (actions : List HalfCascadeAction)
    (last : HalfCascadeBridge) (run : Run (Step config) {} actions last) :
    EachPrefix CutOff last.log ∧
      last.emitted <+: last.received.filter ConversationEvent.isOrdered ∧
      (∀ more rest, Run (Step config) last more rest →
        (∀ action ∈ more, action.isOwn = true) →
          more.length ≤ last.work ∧
          (rest.AtRest config →
            rest.emitted = last.received.filter ConversationEvent.isOrdered)) ∧
      (∀ (first second : Nat) (one other : SpeechSession),
        last.sessions[first]? = some one → one.Live →
          last.sessions[second]? = some other → other.Live → first = second) ∧
      (Run (RegularStep config) {} actions last →
        EachPrefix InTurn last.log ∧
          (last.cancelledTurn = some last.turn → last.session = none) ∧
          ∀ (session : Nat) (speech : SpeechSession), last.sessions[session]? = some speech →
            speech.aborted = false →
              audioOf session last.log = callbacksOf session actions) := by
  have reached := Reached.initial.run run
  refine ⟨reached.severed.silent, ?_, ?_, ?_, ?_⟩
  · rw [← reached.inOrder]
    unfold known accepted
    rw [List.append_assoc]
    exact List.prefix_append _ _
  · intro more rest further own
    obtain ⟨bound, received⟩ := reached.own_run further own
    have final := reached.run further
    refine ⟨by omega, ?_⟩
    intro atRest
    rw [← received]
    exact final.inOrder.at_rest final.kept atRest
  · intro first second one other firstKnown firstLive secondKnown secondLive
    exact reached.kept.sound.live_unique firstKnown firstLive secondKnown secondLive
  · intro regular
    obtain ⟨_, disciplined, voiced, called⟩ := regular_run regular
    refine ⟨voiced.inTurn, disciplined.silenced, ?_⟩
    intro session speech known fresh
    rw [voiced.heard_in_full known fresh, called]

def plainSynthesis : HalfCascadeConfig where
  acceptsLateInterrupt := false
  ttsCost := fun _ => none

def interruptedCall : List HalfCascadeAction :=
  [.receive (.agentTranscript ['a', 'b'] false), .resume, .resume, .resume, .onAudio 0 [1],
    .receive .speechStarted, .onAudio 0 [2], .resume, .interrupt 40, .interruptReturns 0,
    .receive (.agentTranscript ['a', 'b', 'c'] true), .receive (.turnEnded {}),
    .receive (.agentTranscript ['d'] true), .resume, .resume, .resume,
    .receive (.turnEnded {}), .onAudio 1 [3], .flushEnds 1 (.returned 1), .finish 0, .nextLink,
    .nextLink, .nextLink]

instance (bridge : HalfCascadeBridge) :
    (action : HalfCascadeAction) → Decidable (bridge.Regular action)
  | .receive (.turnEnded _) => inferInstanceAs (Decidable (unfinished bridge.received = false))
  | .onAudio session _ => inferInstanceAs (Decidable
      (∀ speech ∈ bridge.sessions[session]?, speech.aborted = true ∨ speech.flush.hasEnded = false))
  | .receive (.audioDelta _) | .receive (.userTranscript _ _) | .receive (.agentTranscript _ _)
  | .receive .speechStarted | .receive (.bridgeError _ _ _) | .receive (.sessionClosed _)
  | .innerEnds | .resume | .flushEnds _ _ | .nextLink | .finish _ | .onError _ _ | .interrupt _
  | .interruptReturns _ => isTrue trivial

theorem barge_in_clean_interrupted :
    ∃ last, Run (RegularStep plainSynthesis) {} interruptedCall last ∧
      EachPrefix CutOff last.log ∧
      last.emitted <+: last.received.filter ConversationEvent.isOrdered ∧
      EachPrefix InTurn last.log ∧
      ∀ (session : Nat) (speech : SpeechSession), last.sessions[session]? = some speech →
        speech.aborted = false →
          audioOf session last.log = callbacksOf session interruptedCall := by
  obtain ⟨last, regular, -⟩ := Run.of_guardedStep (step plainSynthesis) Regular {} interruptedCall
    (fun _ => ()) () (by decide +kernel)
  have run : Run (Step plainSynthesis) {} interruptedCall last :=
    regular.mono (fun _ _ _ taken => taken.1)
  obtain ⟨cutOff, inOrder, _, _, voiced⟩ :=
    barge_in_clean plainSynthesis interruptedCall last run
  obtain ⟨inTurn, _, heard⟩ := voiced regular
  exact ⟨last, regular, cutOff, inOrder, inTurn, heard⟩

end HalfCascadeBridge

end Assemblix.Realtime
