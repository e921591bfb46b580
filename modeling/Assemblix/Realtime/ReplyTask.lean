import Assemblix.Realtime.CascadeBridge

/-
What the reply task, the signal handlers and the turn detector know of each other.

A part of the bridge that emits is first written as one update of the state. The invariant
then says, for each point the task can be at, what its run has collected, released and been
told, and which of handler, detector and `_run` may be waiting for it.
-/

namespace Assemblix.Realtime

open Library

namespace CascadeBridge

/-! ### The parts of a step as one update -/

def opening (bridge : CascadeBridge) : List BridgeEvent :=
  .userTranscript bridge.run.userText true ::
    (if bridge.run.firstToken && bridge.run.sttDone then
      .turnTimings bridge.run.signal bridge.run.speculative ::
        (if bridge.replyText = [] then [] else [.agentTranscript bridge.replyText false])
    else [])

def putAll (bridge : CascadeBridge) (events : List BridgeEvent) : List (Option Nat × BridgeEvent) :=
  bridge.emitted ++ events.map (fun event => (some bridge.run.number, event))

section Updates

variable {bridge : CascadeBridge} {config : BridgeConfig}

theorem release_of_released (released : bridge.run.released = true) : bridge.release = bridge := by
  unfold release
  rw [if_pos released]

theorem release_eq (unreleased : bridge.run.released = false) :
    bridge.release =
      { bridge with
        run := { bridge.run with released := true }
        pendingUser := []
        history := bridge.history ++
          [{ turn := { role := .user, text := bridge.run.userText }
             run := bridge.run.number
             heard := bridge.pendingUser }]
        emitted := bridge.putAll bridge.opening } := by
  unfold release opening putAll
  rw [unreleased]
  by_cases told : (bridge.run.firstToken && bridge.run.sttDone) = true
  · by_cases silent : bridge.replyText = []
    · simp [commitUser, putTurn, told, silent]
    · simp [commitUser, putTurn, told, silent]
  · simp [commitUser, putTurn, told]

/-- The events of `_finish_reply`. -/
def closing (bridge : CascadeBridge) (usage : BrainUsage) (outcome : CallOutcome)
    (error : Option String) : List BridgeEvent :=
  (if bridge.replyText = [] then [] else [.agentTranscript bridge.replyText true]) ++
    [.turnEnded (some usage.inputTokens) (some usage.outputTokens)
      (bridge.callRecord bridge.replyText usage outcome error)]

def answer (bridge : CascadeBridge) : List Entry :=
  if bridge.replyText = [] then []
  else
    [{ turn := { role := .assistant, text := bridge.replyText }
       run := bridge.run.number
       heard := [] }]

theorem finishReply_eq (usage : BrainUsage) (outcome : CallOutcome) (error : Option String) :
    bridge.finishReply usage outcome error =
      { bridge with
        replyText := []
        brainCostUsd := bridge.brainCostUsd + usage.costUsd
        call := none
        history := bridge.history ++ bridge.answer
        interruptedIndex :=
          if bridge.replyText = [] then bridge.interruptedIndex else some bridge.history.length
        interruptedText :=
          if bridge.replyText = [] then bridge.interruptedText else bridge.replyText
        emitted := bridge.putAll (bridge.closing usage outcome error) } := by
  unfold finishReply closing answer putAll
  by_cases silent : bridge.replyText = []
  · simp [putTurn, silent]
  · simp [putTurn, silent]

end Updates
end CascadeBridge

namespace ReplyOutcome

def usage : ReplyOutcome → BrainUsage
  | .ok usage => usage
  | _ => {}

def callOutcome : ReplyOutcome → CallOutcome
  | .ok _ => .ok
  | .failed _ => .brainFailed
  | .timeout => .brainTimeout

def error (config : BridgeConfig) : ReplyOutcome → Option String
  | .ok _ => none
  | .failed message => some message
  | .timeout => some s!"No reply text within {config.firstTokenTimeout} s"

def failure (config : BridgeConfig) : ReplyOutcome → List BridgeEvent
  | .ok _ => []
  | .failed message => [.bridgeError .brainFailed message false]
  | .timeout =>
      [.bridgeError .brainTimeout s!"No reply text within {config.firstTokenTimeout} s" false]

end ReplyOutcome

namespace CascadeBridge

section Updates

variable {bridge : CascadeBridge} {config : BridgeConfig}

def concluded (config : BridgeConfig) (bridge : CascadeBridge) (outcome : ReplyOutcome) :
    CascadeBridge :=
  { bridge with
    run := { bridge.run with fate := .finished }
    point := .done
    brainTask := .none
    replyText := []
    brainCostUsd := bridge.brainCostUsd + outcome.usage.costUsd
    call := none
    history := bridge.history ++ bridge.answer
    interruptedIndex :=
      if bridge.replyText = [] then bridge.interruptedIndex else some bridge.history.length
    interruptedText :=
      if bridge.replyText = [] then bridge.interruptedText else bridge.replyText
    emitted := bridge.putAll
      (bridge.closing outcome.usage outcome.callOutcome (outcome.error config) ++
        outcome.failure config) }

theorem conclude_eq (outcome : ReplyOutcome) :
    bridge.conclude config outcome = bridge.release.concluded config outcome := by
  unfold conclude concluded
  cases outcome with
  | ok usage =>
      dsimp only
      rw [finishReply_eq]
      simp [settle, putAll, ReplyOutcome.usage, ReplyOutcome.callOutcome, ReplyOutcome.error,
        ReplyOutcome.failure]
  | failed message =>
      dsimp only [failReply]
      rw [finishReply_eq]
      simp [settle, putTurn, putAll, ReplyOutcome.usage, ReplyOutcome.callOutcome,
        ReplyOutcome.error, ReplyOutcome.failure]
  | timeout =>
      dsimp only [failReply]
      rw [finishReply_eq]
      simp [settle, putTurn, putAll, ReplyOutcome.usage, ReplyOutcome.callOutcome,
        ReplyOutcome.error, ReplyOutcome.failure]

def cutAnswer (bridge : CascadeBridge) : Entry :=
  { turn :=
      { role := .assistant
        text :=
          match bridge.earlyHeardMs with
          | none => []
          | some audioEndMs => heardPrefix bridge.replyText audioEndMs }
    run := bridge.run.number
    heard := [] }

def cutting (bridge : CascadeBridge) : List BridgeEvent :=
  let usage := if bridge.held then bridge.run.usage.getD {} else {}
  [.agentTranscript bridge.replyText true,
    .turnEnded none none (bridge.callRecord bridge.replyText usage .cancelled none)]

theorem modify_snoc {A : Type} (items : List A) (last : A) (change : A → A) :
    (items ++ [last]).modify items.length change = items ++ [change last] := by
  induction items with
  | nil => rfl
  | cons item rest ih =>
      rw [List.cons_append, List.length_cons, List.modify_succ_cons, ih, List.cons_append]

theorem finishBargeIn_of_silent (silent : bridge.replyText = []) :
    bridge.finishBargeIn =
      { bridge with
        brainCostUsd := bridge.brainCostUsd +
          (if bridge.held then bridge.run.usage.getD {} else {}).costUsd
        bargeInPending := false
        handler := .idle
        call := none
        run := { bridge.run with fate := .cutOff }
        point := .done
        brainTask := .none } := by
  unfold finishBargeIn
  dsimp only
  rw [if_pos silent]
  rfl

theorem finishBargeIn_of_spoken (spoken : bridge.replyText ≠ []) :
    bridge.finishBargeIn =
      { bridge with
        brainCostUsd := bridge.brainCostUsd +
          (if bridge.held then bridge.run.usage.getD {} else {}).costUsd
        bargeInPending := false
        handler := .idle
        call := none
        history := bridge.history ++ [bridge.cutAnswer]
        interruptedIndex :=
          if bridge.earlyHeardMs = none then some bridge.history.length else none
        interruptedText := bridge.replyText
        earlyHeardMs := none
        replyText := []
        emitted := bridge.putAll bridge.cutting
        run := { bridge.run with fate := .interrupted }
        point := .done
        brainTask := .none } := by
  unfold finishBargeIn cutAnswer cutting
  dsimp only
  rw [if_neg spoken]
  cases early : bridge.earlyHeardMs with
  | none => simp [settle, putTurn, putAll]
  | some audioEndMs => simp [settle, putTurn, putAll, applyHeard, modify_snoc]

end Updates

/-! ### The invariant -/

end CascadeBridge

/-- Before the texts are collected. -/
def TaskPoint.early : TaskPoint → Bool
  | .created | .finalizing _ | .waitingFinal => true
  | _ => false

/-- From the start of the reply. -/
def TaskPoint.late : TaskPoint → Bool
  | .replying | .waitingConfirm _ => true
  | _ => false

theorem TaskPoint.early_of_late {point : TaskPoint} (late : point.late = true) :
    point.early = false := by
  cases point with
  | replying => rfl
  | waitingConfirm outcome => rfl
  | created => cases late
  | finalizing sent => cases late
  | waitingFinal => cases late
  | done => cases late

theorem TaskPoint.late_of_early {point : TaskPoint} (early : point.early = true) :
    point.late = false := by
  cases late : point.late with
  | false => rfl
  | true =>
      rw [early_of_late late] at early
      cases early

theorem TaskPoint.late_of_replying {point : TaskPoint} (replying : point = .replying) :
    point.late = true := by
  rw [replying]
  rfl

theorem TaskPoint.late_of_waiting {point : TaskPoint} {outcome : ReplyOutcome}
    (waiting : point = .waitingConfirm outcome) : point.late = true := by
  rw [waiting]
  rfl

theorem TaskPoint.ne_done_of_early {point : TaskPoint} (early : point.early = true) :
    point ≠ .done := by
  intro done
  rw [done] at early
  cases early

theorem TaskPoint.ne_done_of_late {point : TaskPoint} (late : point.late = true) :
    point ≠ .done := by
  intro done
  rw [done] at late
  cases late

def Fate.unsettled : Fate → Bool
  | .running | .closed => true
  | _ => false

namespace CascadeBridge

/-! ### The steps, one by one -/

section Moves

variable {bridge next : CascadeBridge} {config : BridgeConfig}

/-- Everything a step can do. -/
inductive Moves (config : BridgeConfig) (bridge : CascadeBridge) :
    BridgeAction → CascadeBridge → Prop
  | speechStart (hears : bridge.hears .idle) :
      Moves config bridge .speechStart
        ({ bridge with detector := .speaking }.discardSpeculation config true)
  | pauseStart (hears : bridge.hears .speaking) :
      Moves config bridge .pauseStart { bridge with detector := .paused }.onPauseStart
  | pauseCancelled (hears : bridge.hears .paused) :
      Moves config bridge .pauseCancelled
        ({ bridge with detector := .speaking }.discardSpeculation config false)
  | endOfTurn (signal : EndOfTurn) (hears : bridge.hears .speaking ∨ bridge.hears .paused) :
      Moves config bridge (.endOfTurn signal)
        ({ bridge with detector := .idle }.onEndOfTurn signal)
  | bargedIn (live : bridge.session = .live) (waiting : bridge.handler = .bargingIn)
      (done : bridge.point = .done) : Moves config bridge .resumeHandler bridge.finishBargeIn
  | discarded (live : bridge.session = .live) (thenStart : Bool)
      (waiting : bridge.handler = .discarding thenStart) (done : bridge.point = .done) :
      Moves config bridge .resumeHandler
        (if thenStart then (bridge.finishDiscard config).startSpeech
        else bridge.finishDiscard config)
  | startTurn (ready : bridge.runsAt .created) :
      Moves config bridge .startTurn
        { bridge with
          finalEvent := false
          run := { bridge.run with awaitingFinal := true }
          point := .finalizing false }
  | requestSent (ready : bridge.point = .finalizing false) :
      Moves config bridge .requestSent
        { bridge with requests := bridge.requests + 1, point := .finalizing true }
  | finalizeReturns (ready : bridge.runsAt (.finalizing true)) :
      Moves config bridge .finalizeReturns { bridge with point := .waitingFinal }
  | finalizeRaises (timedOut : Bool) (calm : bridge.cancelling = false)
      (early : bridge.point.early = true) :
      Moves config bridge (.finalizeRaises timedOut) (bridge.stopWaiting config timedOut)
  | stopWaiting (timedOut : Bool) (calm : bridge.cancelling = false)
      (early : bridge.point.early = true) :
      Moves config bridge (.stopWaiting timedOut) (bridge.stopWaiting config timedOut)
  | brainTimeout (calm : bridge.cancelling = false) (replying : bridge.point = .replying) :
      Moves config bridge .brainTimeout (bridge.replyOver config .timeout)
  | replied (outcome : ReplyOutcome) (calm : bridge.cancelling = false)
      (replying : bridge.point = .replying) (ended : bridge.brainTask = .ended outcome) :
      Moves config bridge .proceed (bridge.replyOver config outcome)
  | confirmed (outcome : ReplyOutcome) (calm : bridge.cancelling = false)
      (waiting : bridge.point = .waitingConfirm outcome) (confirmed : bridge.run.confirmed = true) :
      Moves config bridge .proceed (bridge.conclude config outcome)
  | cancelled (cancelling : bridge.cancelling = true) :
      Moves config bridge .cancelled
        { bridge with cancelling := false, point := .done, brainTask := .none }
  | delta (text : Text) (running : bridge.brainTask = .running) :
      Moves config bridge (.delta text) (bridge.onDelta text)
  | brainEnds (outcome : ReplyOutcome) (running : bridge.brainTask = .running) :
      Moves config bridge (.brainEnds outcome) { bridge with brainTask := .ended outcome }
  | sttPartial (phrase : Nat) (text : Text) (listening : bridge.sttEnded = false)
      (unanswered : bridge.answered ≤ phrase) (asked : phrase ≤ bridge.requests) :
      Moves config bridge (.sttPartial phrase text) (bridge.pumpPartial phrase text)
  | sttFinal (phrase : Nat) (text : Text) (listening : bridge.sttEnded = false)
      (unanswered : bridge.answered ≤ phrase) (asked : phrase < bridge.requests) :
      Moves config bridge (.sttFinal phrase text) (bridge.pumpFinal phrase text)
  | sttEnds (error : Option (ErrorCode × String)) (listening : bridge.sttEnded = false) :
      Moves config bridge (.sttEnds error) (bridge.pumpEnds error)
  | interrupt (audioEndMs : Nat) (live : bridge.session = .live) :
      Moves config bridge (.interrupt audioEndMs) (bridge.interrupt audioEndMs)
  | close (live : bridge.session = .live) :
      Moves config bridge .close
        { bridge with
          session := .closing
          cancelling := bridge.point ≠ .done
          run := { bridge.run with
            fate := if bridge.run.fate = .running then .closed else bridge.run.fate } }
  | closed (closing : bridge.session = .closing) (done : bridge.point = .done) :
      Moves config bridge .closed ({ bridge with session := .closed }.put .sessionClosed)

theorem early_of_finalizing (finalizing : bridge.finalizing = true) :
    bridge.point.early = true := by
  unfold CascadeBridge.finalizing at finalizing
  cases point : bridge.point <;> rw [point] at finalizing <;> first | rfl | cases finalizing

theorem proceed_moves (calm : bridge.cancelling = false)
    (went : bridge.proceed config = some next) : Moves config bridge .proceed next := by
  unfold proceed at went
  split at went
  case h_1 replying =>
    split at went
    case h_1 outcome ended =>
      cases went
      exact .replied outcome calm replying ended
    case h_2 => cases went
  case h_2 outcome waiting =>
    split at went
    case isTrue said =>
      cases went
      exact .confirmed outcome calm waiting said
    case isFalse => cases went
  case h_3 => cases went

theorem resume_moves (live : bridge.session = .live) (done : bridge.point = .done)
    (resumed : bridge.resumeHandler config = some next) :
    Moves config bridge .resumeHandler next := by
  unfold resumeHandler at resumed
  cases waiting : bridge.handler with
  | idle =>
      rw [waiting] at resumed
      cases resumed
  | bargingIn =>
      rw [waiting] at resumed
      cases resumed
      exact .bargedIn live waiting done
  | discarding thenStart =>
      rw [waiting] at resumed
      cases resumed
      exact .discarded live thenStart waiting done

theorem guarded {A : Type} {guard : Prop} [Decidable guard] {value result : A}
    (taken : (if guard then some value else none) = some result) : guard ∧ value = result := by
  obtain ⟨passed, same⟩ := Option.ite_none_right_eq_some.mp taken
  exact ⟨passed, Option.some.inj same⟩

theorem Step.moves {action : BridgeAction} (taken : bridge.Step config action next) :
    Moves config bridge action next := by
  unfold Step step at taken
  cases action with
  | speechStart =>
      obtain ⟨hears, rfl⟩ := guarded taken
      exact .speechStart hears
  | pauseStart =>
      obtain ⟨hears, rfl⟩ := guarded taken
      exact .pauseStart hears
  | pauseCancelled =>
      obtain ⟨hears, rfl⟩ := guarded taken
      exact .pauseCancelled hears
  | endOfTurn signal =>
      obtain ⟨hears, rfl⟩ := guarded taken
      exact .endOfTurn signal hears
  | resumeHandler =>
      obtain ⟨⟨live, done⟩, resumed⟩ := Option.ite_none_right_eq_some.mp taken
      exact resume_moves live done resumed
  | startTurn =>
      obtain ⟨ready, rfl⟩ := guarded taken
      exact .startTurn ready
  | requestSent =>
      obtain ⟨ready, rfl⟩ := guarded taken
      exact .requestSent ready
  | finalizeReturns =>
      obtain ⟨ready, rfl⟩ := guarded taken
      exact .finalizeReturns ready
  | finalizeRaises timedOut =>
      obtain ⟨⟨calm, finalizing⟩, rfl⟩ := guarded taken
      exact .finalizeRaises timedOut calm (early_of_finalizing finalizing)
  | stopWaiting timedOut =>
      obtain ⟨⟨⟨calm, waiting⟩, _⟩, rfl⟩ := guarded taken
      exact .stopWaiting timedOut calm (by rw [waiting]; rfl)
  | brainTimeout =>
      obtain ⟨⟨⟨calm, replying⟩, _⟩, rfl⟩ := guarded taken
      exact .brainTimeout calm replying
  | proceed =>
      obtain ⟨calm, went⟩ := Option.ite_none_right_eq_some.mp taken
      exact proceed_moves calm went
  | cancelled =>
      obtain ⟨cancelling, rfl⟩ := guarded taken
      exact .cancelled cancelling
  | delta text =>
      obtain ⟨running, rfl⟩ := guarded taken
      exact .delta text running
  | brainEnds outcome =>
      obtain ⟨⟨running, _⟩, rfl⟩ := guarded taken
      exact .brainEnds outcome running
  | sttPartial phrase text =>
      obtain ⟨⟨_, listening, unanswered, asked⟩, rfl⟩ := guarded taken
      exact .sttPartial phrase text listening unanswered asked
  | sttFinal phrase text =>
      obtain ⟨⟨_, listening, unanswered, asked⟩, rfl⟩ := guarded taken
      exact .sttFinal phrase text listening unanswered asked
  | sttEnds error =>
      obtain ⟨⟨_, listening⟩, rfl⟩ := guarded taken
      exact .sttEnds error listening
  | interrupt audioEndMs =>
      obtain ⟨live, rfl⟩ := guarded taken
      exact .interrupt audioEndMs live
  | close =>
      obtain ⟨live, rfl⟩ := guarded taken
      exact .close live
  | closed =>
      obtain ⟨⟨closing, done⟩, rfl⟩ := guarded taken
      exact .closed closing done

end Moves

structure Told (bridge : CascadeBridge) : Prop where
  trimmed : ∀ heard ∈ bridge.pendingUser, Trimmed isSpace heard.text
  early : bridge.point.early = true → bridge.run.firstToken = false ∧
    bridge.run.released = false ∧ bridge.run.userText = [] ∧ bridge.replyText = []
  late : bridge.point.late = true → bridge.run.sttDone = true ∧ bridge.run.userText ≠ []
  spoken : bridge.run.fate.unsettled = true →
    (bridge.run.firstToken = true ↔ bridge.replyText ≠ [])
  told : bridge.run.fate.unsettled = true → bridge.run.released = false →
    bridge.run.userText = [] ∨ bridge.run.userText = bridge.pendingText
  heard : bridge.run.firstToken = true → bridge.run.sttDone = true ∧ bridge.run.userText ≠ []
  settled : bridge.run.fate.unsettled = false → bridge.point = .done ∧ bridge.replyText = []
  quiet : bridge.run.fate = .empty → bridge.run.firstToken = false
  calling : bridge.brainTask ≠ .none → bridge.point.late = true
  asked : bridge.point = .replying → bridge.brainTask ≠ .none
  unconfirmed : bridge.run.confirmed = false →
    bridge.run.fate.unsettled = true ∨ bridge.run.fate = .empty ∨ bridge.run.fate = .discarded

/-- Who waits for the reply task, and at which signal. -/
structure Attended (bridge : CascadeBridge) : Prop where
  alive : bridge.session = .live → bridge.run.fate ≠ .closed
  dropped : bridge.run.fate = .discarded → bridge.held = false
  cancels : bridge.cancelling = true → bridge.point ≠ .done
  free : bridge.session = .live → bridge.handler = .idle →
    bridge.cancelling = false ∧
    (bridge.point = .done → bridge.run.fate.unsettled = false) ∧
    (bridge.held = false → bridge.point = .done) ∧
    (bridge.held = true → bridge.run.confirmed = false → bridge.detector = .paused) ∧
    (bridge.point ≠ .done → bridge.run.confirmed = true → bridge.detector = .idle)
  busy : bridge.session = .live → bridge.handler ≠ .idle →
    bridge.run.fate = .running ∧ bridge.detector = .speaking ∧
    (bridge.cancelling = false → bridge.point = .done) ∧
    (bridge.handler = .bargingIn → bridge.run.confirmed = true) ∧
    (bridge.handler ≠ .bargingIn → bridge.held = false ∧ bridge.run.confirmed = false)

def Shown (bridge : CascadeBridge) : Prop :=
  bridge.run.fate.unsettled = true →
    (bridge.run.released = true ↔ bridge.run.confirmed = true ∧ bridge.run.firstToken = true)

structure Coherent (bridge : CascadeBridge) : Prop where
  toldKept : bridge.Told
  shown : bridge.Shown
  attended : bridge.Attended

section Told

variable {bridge next : CascadeBridge} {config : BridgeConfig}

theorem Told.unsettled (kept : bridge.Told) (busy : bridge.point ≠ .done) :
    bridge.run.fate.unsettled = true := by
  by_contra ended
  exact busy (kept.settled (eq_false_of_ne_true ended)).1

theorem Told.no_call (kept : bridge.Told) (done : bridge.point = .done) :
    bridge.brainTask = .none := by
  by_contra calling
  exact TaskPoint.ne_done_of_late (kept.calling calling) done

theorem Told.of_settled (trimmed : ∀ heard ∈ bridge.pendingUser, Trimmed isSpace heard.text)
    (ended : bridge.run.fate.unsettled = false) (done : bridge.point = .done)
    (taken : bridge.replyText = []) (idle : bridge.brainTask = .none)
    (heard : bridge.run.firstToken = true → bridge.run.sttDone = true ∧ bridge.run.userText ≠ [])
    (quiet : bridge.run.fate = .empty → bridge.run.firstToken = false)
    (unconfirmed : bridge.run.confirmed = false →
      bridge.run.fate = .empty ∨ bridge.run.fate = .discarded) : bridge.Told where
  trimmed := trimmed
  early := by
    intro early
    exact absurd done (TaskPoint.ne_done_of_early early)
  late := by
    intro late
    exact absurd done (TaskPoint.ne_done_of_late late)
  spoken := by
    intro unsettled
    rw [ended] at unsettled
    cases unsettled
  told := by
    intro unsettled
    rw [ended] at unsettled
    cases unsettled
  heard := heard
  settled := fun _ => ⟨done, taken⟩
  quiet := quiet
  calling := fun calling => absurd idle calling
  asked := by
    intro replying
    rw [done] at replying
    cases replying
  unconfirmed := fun held => Or.inr (unconfirmed held)

theorem Told.atEarly (kept : bridge.Told) (early : bridge.point.early = true) (point : TaskPoint)
    (still : point.early = true) : { bridge with point := point }.Told :=
  { kept with
    early := fun _ => kept.early early
    late := by
      intro late
      rw [TaskPoint.late_of_early still] at late
      cases late
    settled := by
      intro ended
      exact absurd (kept.settled ended).1 (TaskPoint.ne_done_of_early early)
    calling := by
      intro calling
      have late := kept.calling calling
      rw [TaskPoint.late_of_early early] at late
      cases late
    asked := by
      intro replying
      have same : point = .replying := replying
      rw [same] at still
      cases still }

theorem Told.atConfirm (kept : bridge.Told) (late : bridge.point.late = true)
    (outcome : ReplyOutcome) : { bridge with point := .waitingConfirm outcome }.Told :=
  { kept with
    early := fun early => by cases early
    late := fun _ => kept.late late
    settled := by
      intro ended
      exact absurd (kept.settled ended).1 (TaskPoint.ne_done_of_late late)
    calling := fun _ => rfl
    asked := fun replying => by cases replying }

theorem Told.cancelled (kept : bridge.Told) :
    { bridge with cancelling := false, point := .done, brainTask := .none }.Told :=
  { kept with
    early := fun early => by cases early
    late := fun late => by cases late
    settled := fun ended => ⟨rfl, (kept.settled ended).2⟩
    calling := fun calling => absurd rfl calling
    asked := fun replying => by cases replying }

theorem Told.speak (kept : bridge.Told) (late : bridge.point.late = true) {text : Text}
    (nonempty : text ≠ []) : (bridge.speak text).Told := by
  have unsettled : bridge.run.fate.unsettled = true :=
    kept.unsettled (TaskPoint.ne_done_of_late late)
  exact
    { kept with
      early := by
        intro early
        have still : bridge.point.early = true := early
        rw [TaskPoint.early_of_late late] at still
        cases still
      spoken := by
        intro _
        simp [CascadeBridge.speak, nonempty]
      heard := fun _ => kept.late late
      settled := by
        intro ended
        have same : bridge.run.fate.unsettled = false := ended
        rw [same] at unsettled
        cases unsettled
      quiet := by
        intro empty
        have same : bridge.run.fate = .empty := empty
        rw [same] at unsettled
        cases unsettled }

theorem Told.release (kept : bridge.Told) (begun : bridge.point.early = false) :
    bridge.release.Told := by
  cases out : bridge.run.released with
  | true =>
      rw [release_of_released out]
      exact kept
  | false =>
      rw [release_eq out]
      exact
        { kept with
          trimmed := fun heard member => absurd member List.not_mem_nil
          early := by
            intro early
            rw [begun] at early
            cases early
          told := by
            intro _ unreleased
            cases unreleased }

theorem Told.onDelta (kept : bridge.Told) (running : bridge.brainTask = .running)
    (text : Text) : (bridge.onDelta text).Told := by
  have late : bridge.point.late = true := kept.calling (by simp [running])
  unfold CascadeBridge.onDelta
  split
  case isTrue => exact kept
  case isFalse nonempty =>
    have spoken := kept.speak late nonempty
    split
    case isTrue => exact { spoken with }
    case isFalse =>
      split
      case isTrue => exact spoken.release (TaskPoint.early_of_late late)
      case isFalse => exact spoken

theorem release_run : bridge.release.run = { bridge.run with released := true } := by
  cases out : bridge.run.released with
  | true => rw [release_of_released out, ← out]
  | false => rw [release_eq out]

theorem Told.concluded (kept : bridge.Told) (confirmed : bridge.run.confirmed = true)
    (outcome : ReplyOutcome) : (bridge.concluded config outcome).Told := by
  refine @Told.of_settled (bridge.concluded config outcome) kept.trimmed rfl rfl rfl rfl
    kept.heard ?_ ?_
  · intro empty
    cases empty
  · intro unconfirmed
    have same : bridge.run.confirmed = false := unconfirmed
    rw [confirmed] at same
    cases same

theorem Told.conclude (kept : bridge.Told) (confirmed : bridge.run.confirmed = true)
    (late : bridge.point.late = true) (outcome : ReplyOutcome) :
    (bridge.conclude config outcome).Told := by
  rw [conclude_eq]
  apply (kept.release (TaskPoint.early_of_late late)).concluded
  rw [release_run]
  exact confirmed

theorem Told.keepUsage (kept : bridge.Told) (outcome : ReplyOutcome) :
    (bridge.keepUsage outcome).Told := by
  cases outcome with
  | ok usage => exact { kept with }
  | failed message => exact kept
  | timeout => exact kept

theorem keepUsage_confirmed (outcome : ReplyOutcome) :
    (bridge.keepUsage outcome).run.confirmed = bridge.run.confirmed := by
  cases outcome <;> rfl

theorem keepUsage_point (outcome : ReplyOutcome) :
    (bridge.keepUsage outcome).point = bridge.point := by
  cases outcome <;> rfl

/-! ### Collecting -/

theorem hearing_trimmed {fragment : Fragment} (member : fragment ∈ bridge.hearing)
    (finals : ∀ fragment ∈ bridge.finals, Trimmed isSpace fragment.text) :
    Trimmed isSpace fragment.text := by
  unfold hearing at member
  obtain ⟨listed, nonempty⟩ := List.mem_filter.mp member
  rcases List.mem_append.mp listed with old | new
  · exact finals fragment old
  · rw [List.mem_singleton.mp new] at nonempty ⊢
    exact Trimmed.strip (of_decide_eq_true nonempty)

theorem heardPending_cases :
    bridge.heardPending = bridge.pendingUser ∧
        stripText (joinTexts (bridge.hearing.map Fragment.text)) = [] ∨
      ∃ heard : Heard, bridge.heardPending = bridge.pendingUser ++ [heard] ∧
        heard.fragments = bridge.hearing ∧
        heard.text = stripText (joinTexts (bridge.hearing.map Fragment.text)) ∧
        Trimmed isSpace heard.text := by
  unfold heardPending
  dsimp only
  split
  case isTrue silent => exact Or.inl ⟨rfl, silent⟩
  case isFalse words => exact Or.inr ⟨_, rfl, rfl, rfl, Trimmed.strip words⟩

theorem Told.heardPending (kept : bridge.Told) :
    ∀ heard ∈ bridge.heardPending, Trimmed isSpace heard.text := by
  intro heard member
  rcases bridge.heardPending_cases with ⟨same, _⟩ | ⟨new, added, _, _, trimmed⟩
  · rw [same] at member
    exact kept.trimmed heard member
  · rw [added] at member
    rcases List.mem_append.mp member with old | last
    · exact kept.trimmed heard old
    · rw [List.mem_singleton.mp last]
      exact trimmed

def gathered (bridge : CascadeBridge) : CascadeBridge :=
  { bridge with
    pendingUser := bridge.heardPending
    finals := []
    partialText := { bridge.partialText with text := [] }
    run := { bridge.run with
      awaitingFinal := false
      sttDone := true
      userText := userTextOf bridge.heardPending } }

theorem collect_eq : bridge.collect config =
    if userTextOf bridge.heardPending = [] then bridge.gathered.settle .empty
    else bridge.gathered.startReply config := rfl

section

variable (kept : bridge.Told)
include kept

theorem Told.collect (early : bridge.point.early = true) : (bridge.collect config).Told := by
  obtain ⟨silent, unreleased, _, noReply⟩ := kept.early early
  have unsettled := kept.unsettled (TaskPoint.ne_done_of_early early)
  rw [collect_eq]
  split
  case isTrue =>
    refine @Told.of_settled (bridge.gathered.settle .empty) kept.heardPending rfl rfl noReply rfl
      ?_ (fun _ => silent) (fun _ => Or.inl rfl)
    intro spoken
    have still : bridge.run.firstToken = true := spoken
    rw [silent] at still
    cases still
  case isFalse words =>
    exact
      { trimmed := kept.heardPending
        early := fun early => by cases early
        late := fun _ => ⟨rfl, words⟩
        spoken := by
          intro _
          constructor
          · intro spoken
            have still : bridge.run.firstToken = true := spoken
            rw [silent] at still
            cases still
          · intro spoken
            exact absurd noReply spoken
        told := fun _ _ => Or.inr rfl
        heard := fun _ => ⟨rfl, words⟩
        settled := by
          intro ended
          have same : bridge.run.fate.unsettled = false := ended
          rw [same] at unsettled
          cases unsettled
        quiet := fun _ => silent
        calling := fun _ => rfl
        asked := fun _ none => by cases none
        unconfirmed := fun _ => Or.inl unsettled }

/-! ### The signals -/

theorem Told.startRun (ended : bridge.run.fate.unsettled = false) (speculative confirmed : Bool)
    (signal : EndOfTurn) : (bridge.startRun speculative confirmed signal).Told where
  trimmed := kept.trimmed
  early := fun _ => ⟨rfl, rfl, rfl, (kept.settled ended).2⟩
  late := fun late => by cases late
  spoken := fun _ => by simp [CascadeBridge.startRun, (kept.settled ended).2]
  told := fun _ _ => Or.inl rfl
  heard := fun spoken => by cases spoken
  settled := fun settled => by cases settled
  quiet := fun _ => rfl
  calling := fun calling => absurd (kept.no_call (kept.settled ended).1) calling
  asked := fun replying => by cases replying
  unconfirmed := fun _ => Or.inl rfl

theorem Told.startSpeech : bridge.startSpeech.Told := by
  unfold CascadeBridge.startSpeech
  split <;> exact { kept with }

theorem Told.finishDiscard : (bridge.finishDiscard config).Told :=
  @Told.of_settled (bridge.finishDiscard config) kept.trimmed rfl rfl rfl rfl kept.heard
    (fun empty => by cases empty) (fun _ => Or.inr rfl)

theorem Told.discardSpeculation (thenStart : Bool) :
    (bridge.discardSpeculation config thenStart).Told := by
  unfold CascadeBridge.discardSpeculation
  split
  case isTrue =>
    split
    · exact kept.startSpeech
    · exact kept
  case isFalse =>
    split
    case isTrue =>
      have unheld : { bridge with held := false }.Told := { kept with }
      have discarded : ({ bridge with held := false }.finishDiscard config).Told :=
        unheld.finishDiscard
      split
      · exact discarded.startSpeech
      · exact discarded
    case isFalse => exact { kept with }

theorem Told.finishBargeIn (confirmed : bridge.run.confirmed = true) :
    bridge.finishBargeIn.Told := by
  by_cases silent : bridge.replyText = []
  · rw [finishBargeIn_of_silent silent]
    refine @Told.of_settled _ kept.trimmed rfl rfl silent rfl kept.heard
      (fun empty => by cases empty) ?_
    intro unconfirmed
    have same : bridge.run.confirmed = false := unconfirmed
    rw [confirmed] at same
    cases same
  · rw [finishBargeIn_of_spoken silent]
    refine @Told.of_settled _ kept.trimmed rfl rfl rfl rfl kept.heard
      (fun empty => by cases empty) ?_
    intro unconfirmed
    have same : bridge.run.confirmed = false := unconfirmed
    rw [confirmed] at same
    cases same

theorem Told.unsettled_of_held (holding : (bridge.held && !bridge.run.confirmed) = true)
    (dropped : bridge.run.fate = .discarded → bridge.held = false)
    (spoken : bridge.run.firstToken = true) : bridge.run.fate.unsettled = true := by
  obtain ⟨held, unconfirmed⟩ := Bool.and_eq_true_iff.mp holding
  rcases kept.unconfirmed (by simpa using unconfirmed) with still | empty | discarded
  · exact still
  · rw [kept.quiet empty] at spoken
    cases spoken
  · rw [dropped discarded] at held
    cases held

theorem Told.onEndOfTurn (signal : EndOfTurn)
    (ended : bridge.held = false ∨ bridge.run.confirmed = true →
      bridge.run.fate.unsettled = false) : (bridge.onEndOfTurn signal).Told := by
  have heard : { bridge with interruptedIndex := none }.Told := { kept with }
  unfold CascadeBridge.onEndOfTurn
  dsimp only
  split
  case isTrue =>
    have confirmed : Told
        { bridge with
          interruptedIndex := none
          run := { bridge.run with confirmed := true, signal := signal } } :=
      { kept with unconfirmed := fun unconfirmed => by cases unconfirmed }
    split
    case isTrue spoken =>
      apply confirmed.release
      by_contra early
      rw [(kept.early (eq_true_of_ne_false early)).1] at spoken
      cases spoken
    case isFalse => exact confirmed
  case isFalse free =>
    apply heard.startRun
    apply ended
    cases held : bridge.held with
    | false => exact Or.inl rfl
    | true =>
        rw [held] at free
        exact Or.inr (by simpa using free)

end

end Told

section Attended

variable {bridge next : CascadeBridge} {config : BridgeConfig}

theorem Attended.atPoint (kept : bridge.Attended) (busy : bridge.point ≠ .done)
    (point : TaskPoint) (still : point ≠ .done) : { bridge with point := point }.Attended :=
  { kept with
    cancels := fun _ => still
    free := by
      intro live idle
      obtain ⟨calm, _, unheld, held, confirmed⟩ := kept.free live idle
      exact ⟨calm, fun done => absurd done still, fun dropped => absurd (unheld dropped) busy,
        held, fun _ => confirmed busy⟩
    busy := by
      intro live waited
      obtain ⟨running, speaking, done, rest⟩ := kept.busy live waited
      exact ⟨running, speaking, fun calm => absurd (done calm) busy, rest⟩ }

theorem Attended.release (kept : bridge.Attended) : bridge.release.Attended := by
  cases out : bridge.run.released with
  | true =>
      rw [release_of_released out]
      exact kept
  | false =>
      rw [release_eq out]
      exact { kept with }

theorem Attended.settle (kept : bridge.Attended) (calm : bridge.cancelling = false)
    (busy : bridge.point ≠ .done) {fate : Fate} (ended : fate.unsettled = false)
    (notDropped : fate ≠ .discarded) : (bridge.settle fate).Attended where
  alive := by
    intro _ closed
    have same : fate = .closed := closed
    rw [same] at ended
    cases ended
  dropped := fun dropped => absurd dropped notDropped
  cancels := by
    intro cancelling
    have same : bridge.cancelling = true := cancelling
    rw [calm] at same
    cases same
  free := by
    intro live idle
    obtain ⟨_, _, _, held, _⟩ := kept.free live idle
    exact ⟨calm, fun _ => ended, fun _ => rfl, held, fun still => absurd rfl still⟩
  busy := by
    intro live waited
    obtain ⟨_, _, done, _⟩ := kept.busy live waited
    exact absurd (done calm) busy

theorem Attended.cancelled (kept : bridge.Attended) (cancelling : bridge.cancelling = true) :
    { bridge with cancelling := false, point := .done, brainTask := .none }.Attended :=
  { kept with
    cancels := by
      intro still
      cases still
    free := by
      intro live idle
      rw [(kept.free live idle).1] at cancelling
      cases cancelling
    busy := by
      intro live waited
      obtain ⟨running, speaking, _, rest⟩ := kept.busy live waited
      exact ⟨running, speaking, fun _ => rfl, rest⟩ }

theorem Attended.close (kept : bridge.Attended) (session : Session)
    (shut : session ≠ .live) (fate : Fate) (same : fate = .discarded → bridge.run.fate = .discarded) :
    Attended
      { bridge with
        session := session
        cancelling := bridge.point ≠ .done
        run := { bridge.run with fate := fate } } where
  alive := fun live => absurd live shut
  dropped := fun dropped => kept.dropped (same dropped)
  cancels := of_decide_eq_true
  free := fun live => absurd live shut
  busy := fun live => absurd live shut

theorem Coherent.running (kept : bridge.Coherent) (live : bridge.session = .live)
    (busy : bridge.point ≠ .done) : bridge.run.fate = .running := by
  have unsettled := kept.toldKept.unsettled busy
  have open' := kept.attended.alive live
  cases fate : bridge.run.fate with
  | running => rfl
  | closed => exact absurd fate open'
  | empty => rw [fate] at unsettled; cases unsettled
  | finished => rw [fate] at unsettled; cases unsettled
  | interrupted => rw [fate] at unsettled; cases unsettled
  | cutOff => rw [fate] at unsettled; cases unsettled
  | discarded => rw [fate] at unsettled; cases unsettled

theorem Coherent.startSpeech (kept : bridge.Coherent) (live : bridge.session = .live)
    (idle : bridge.handler = .idle) (held : bridge.held = true → bridge.run.confirmed = true) :
    ({ bridge with detector := .speaking }.startSpeech).Coherent := by
  obtain ⟨calm, ended, unheld, _, _⟩ := kept.attended.free live idle
  have told : { bridge with detector := .speaking }.Told := { kept.toldKept with }
  refine ⟨told.startSpeech, ?_, ?_⟩
  · unfold CascadeBridge.startSpeech
    split <;> exact kept.shown
  · unfold CascadeBridge.startSpeech
    split
    case isTrue done =>
      exact
        { kept.attended with
          free := by
            intro _ _
            refine ⟨calm, ended, unheld, ?_, fun busy => absurd done busy⟩
            intro held' unconfirmed
            have still : bridge.run.confirmed = false := unconfirmed
            rw [held held'] at still
            cases still
          busy := fun _ waited => absurd rfl waited }
    case isFalse busy =>
      have confirmed : bridge.run.confirmed = true := by
        apply held
        by_contra dropped
        exact busy (unheld (eq_false_of_ne_true dropped))
      exact
        { kept.attended with
          cancels := fun _ => busy
          free := by
            intro _ idle
            cases idle
          busy := by
            intro _ _
            refine ⟨kept.running live busy, rfl, ?_, fun _ => confirmed, ?_⟩
            · intro calm
              cases calm
            · intro other
              exact absurd rfl other }

theorem Attended.finishDiscard (calm : bridge.cancelling = false) (dropped : bridge.held = false) :
    (bridge.finishDiscard config).Attended where
  alive := by
    intro _ closed
    cases closed
  dropped := fun _ => dropped
  cancels := by
    intro cancelling
    have same : bridge.cancelling = true := cancelling
    rw [calm] at same
    cases same
  free := by
    intro _ _
    refine ⟨calm, fun _ => rfl, fun _ => rfl, ?_, fun busy => absurd rfl busy⟩
    intro held
    have same : bridge.held = true := held
    rw [dropped] at same
    cases same
  busy := fun _ waited => absurd rfl waited

theorem Shown.of_settled (ended : bridge.run.fate.unsettled = false) : bridge.Shown := by
  intro unsettled
  rw [ended] at unsettled
  cases unsettled

theorem Coherent.finishDiscard (kept : bridge.Told) (calm : bridge.cancelling = false)
    (dropped : bridge.held = false) : (bridge.finishDiscard config).Coherent where
  toldKept := kept.finishDiscard
  shown := Shown.of_settled rfl
  attended := .finishDiscard calm dropped

theorem Coherent.onSpeechStart (kept : bridge.Coherent) (hears : bridge.hears .idle) :
    ({ bridge with detector := .speaking }.discardSpeculation config true).Coherent := by
  obtain ⟨live, idle, silent⟩ := hears
  have held : bridge.held = true → bridge.run.confirmed = true := by
    intro held
    by_contra unconfirmed
    obtain ⟨_, _, _, paused, _⟩ := kept.attended.free live idle
    rw [paused held (eq_false_of_ne_true unconfirmed)] at silent
    cases silent
  have returns : (!bridge.held || bridge.run.confirmed) = true := by
    cases held' : bridge.held with
    | false => rfl
    | true => simp [held held']
  unfold CascadeBridge.discardSpeculation
  rw [if_pos returns, if_pos rfl]
  exact kept.startSpeech live idle held

theorem Coherent.onPauseCancelled (kept : bridge.Coherent) (hears : bridge.hears .paused) :
    ({ bridge with detector := .speaking }.discardSpeculation config false).Coherent := by
  obtain ⟨live, idle, paused⟩ := hears
  obtain ⟨calm, ended, unheld, _, confirmed⟩ := kept.attended.free live idle
  have told : { bridge with detector := .speaking }.Told := { kept.toldKept with }
  have notIdle : bridge.detector ≠ .idle := by
    rw [paused]
    decide
  refine ⟨told.discardSpeculation false, ?_, ?_⟩
  · unfold CascadeBridge.discardSpeculation
    split
    case isTrue => exact kept.shown
    case isFalse =>
      split
      case isTrue => exact Shown.of_settled rfl
      case isFalse => exact kept.shown
  · unfold CascadeBridge.discardSpeculation
    split
    case isTrue returns =>
      have settled : bridge.held = true → bridge.run.confirmed = true := by
        intro held
        rw [held] at returns
        exact returns
      exact
        { kept.attended with
          free := by
            intro _ _
            refine ⟨calm, ended, unheld, ?_, ?_⟩
            · intro held unconfirmed
              have still : bridge.run.confirmed = false := unconfirmed
              rw [settled held] at still
              cases still
            · intro busy said
              exact absurd (confirmed busy said) notIdle
          busy := fun _ waited => absurd idle waited }
    case isFalse dropping =>
      have unconfirmed : bridge.run.confirmed = false := by
        by_contra said
        exact dropping (by simp [eq_true_of_ne_false said])
      split
      case isTrue => exact .finishDiscard calm rfl
      case isFalse busy =>
        exact
          { kept.attended with
            dropped := fun _ => rfl
            cancels := fun _ => busy
            free := by
              intro _ idle
              cases idle
            busy := by
              intro _ _
              refine ⟨kept.running live busy, rfl, ?_, ?_, fun _ => ⟨rfl, unconfirmed⟩⟩
              · intro calm
                cases calm
              · intro barging
                cases barging }

theorem Coherent.no_task (kept : bridge.Coherent) (live : bridge.session = .live)
    (idle : bridge.handler = .idle) (inTurn : bridge.detector ≠ .idle)
    (free : bridge.held = true → bridge.run.confirmed = false → bridge.detector ≠ .paused) :
    bridge.point = .done := by
  obtain ⟨_, _, unheld, paused, confirmed⟩ := kept.attended.free live idle
  by_contra busy
  cases held : bridge.held with
  | false => exact busy (unheld held)
  | true =>
      cases said : bridge.run.confirmed with
      | true => exact inTurn (confirmed busy said)
      | false => exact free held said (paused held said)

theorem Coherent.ended_of_speaking (kept : bridge.Coherent) (hears : bridge.hears .speaking) :
    bridge.run.fate.unsettled = false := by
  obtain ⟨live, idle, speaking⟩ := hears
  apply (kept.attended.free live idle).2.1
  apply kept.no_task live idle <;> simp [speaking]

theorem Coherent.onPauseStart (kept : bridge.Coherent) (hears : bridge.hears .speaking) :
    ({ bridge with detector := .paused }.onPauseStart).Coherent := by
  obtain ⟨live, idle, speaking⟩ := hears
  obtain ⟨calm, ended, unheld, _, _⟩ := kept.attended.free live idle
  have done : bridge.point = .done := by
    apply kept.no_task live idle
    · rw [speaking]
      decide
    · intro _ _
      rw [speaking]
      decide
  unfold CascadeBridge.onPauseStart
  split
  case isTrue =>
    exact
      { toldKept := { kept.toldKept with }
        shown := kept.shown
        attended :=
          { kept.attended with
            free := fun _ _ =>
              ⟨calm, ended, unheld, fun _ _ => rfl, fun busy => absurd done busy⟩
            busy := fun _ waited => absurd idle waited } }
  case isFalse =>
    have counted : { bridge with
        detector := .paused, speculations := bridge.speculations + 1 }.Told :=
      { kept.toldKept with }
    exact
      { toldKept := counted.startRun (ended done) true false {}
        shown := by
          intro _
          constructor
          · intro released
            cases released
          · rintro ⟨confirmed, _⟩
            cases confirmed
        attended :=
          { alive := by
              intro _ closed
              cases closed
            dropped := by
              intro dropped
              cases dropped
            cancels := by
              intro _ done
              cases done
            free := by
              intro _ _
              refine ⟨calm, ?_, ?_, fun _ _ => rfl, ?_⟩
              · intro done
                cases done
              · intro dropped
                cases dropped
              · intro _ confirmed
                cases confirmed
            busy := fun _ waited => absurd idle waited } }

theorem hears_in_turn (hears : bridge.hears .speaking ∨ bridge.hears .paused) :
    bridge.session = .live ∧ bridge.handler = .idle ∧ bridge.detector ≠ .idle := by
  rcases hears with ⟨live, idle, phase⟩ | ⟨live, idle, phase⟩
  · exact ⟨live, idle, by simp [phase]⟩
  · exact ⟨live, idle, by simp [phase]⟩

theorem Coherent.ended_of_free (kept : bridge.Coherent) (live : bridge.session = .live)
    (idle : bridge.handler = .idle) (inTurn : bridge.detector ≠ .idle)
    (free : bridge.held = false ∨ bridge.run.confirmed = true) :
    bridge.run.fate.unsettled = false := by
  apply (kept.attended.free live idle).2.1
  apply kept.no_task live idle inTurn
  intro held unconfirmed
  rcases free with dropped | confirmed
  · rw [held] at dropped
    cases dropped
  · rw [unconfirmed] at confirmed
    cases confirmed

theorem Coherent.onEndOfTurn (kept : bridge.Coherent)
    (hears : bridge.hears .speaking ∨ bridge.hears .paused) (signal : EndOfTurn) :
    ({ bridge with detector := .idle }.onEndOfTurn signal).Coherent := by
  obtain ⟨live, idle, inTurn⟩ := hears_in_turn hears
  obtain ⟨calm, ended, unheld, _, _⟩ := kept.attended.free live idle
  have told : { bridge with detector := .idle }.Told := { kept.toldKept with }
  refine ⟨told.onEndOfTurn signal (kept.ended_of_free live idle inTurn), ?_, ?_⟩
  · unfold CascadeBridge.onEndOfTurn
    dsimp only
    split
    case isTrue holding =>
      have unconfirmed : bridge.run.confirmed = false := by
        by_contra said
        rw [eq_true_of_ne_false said] at holding
        simp at holding
      split
      case isTrue spoken =>
        intro _
        rw [release_run]
        exact ⟨fun _ => ⟨rfl, spoken⟩, fun _ => rfl⟩
      case isFalse silent =>
        intro unsettled
        constructor
        · intro released
          have said := ((kept.shown unsettled).mp released).1
          rw [unconfirmed] at said
          cases said
        · intro both
          exact absurd both.2 silent
    case isFalse =>
      intro _
      constructor
      · intro released
        cases released
      · rintro ⟨_, spoken⟩
        cases spoken
  · unfold CascadeBridge.onEndOfTurn
    dsimp only
    split
    case isTrue holding =>
      have held : bridge.held = true := by
        by_contra dropped
        rw [eq_false_of_ne_true dropped] at holding
        cases holding
      have confirmed : Attended
          { bridge with
            detector := .idle
            interruptedIndex := none
            run := { bridge.run with confirmed := true, signal := signal } } :=
        { kept.attended with
          free := by
            intro _ _
            refine ⟨calm, ended, unheld, ?_, fun _ _ => rfl⟩
            intro _ unconfirmed
            cases unconfirmed
          busy := fun _ waited => absurd idle waited }
      split
      case isTrue => exact confirmed.release
      case isFalse => exact confirmed
    case isFalse =>
      exact
        { alive := by
            intro _ closed
            cases closed
          dropped := by
            intro dropped
            cases dropped
          cancels := by
            intro _ done
            cases done
          free := by
            intro _ _
            refine ⟨calm, ?_, ?_, ?_, fun _ _ => rfl⟩
            · intro done
              cases done
            · intro dropped
              cases dropped
            · intro _ unconfirmed
              cases unconfirmed
          busy := fun _ waited => absurd idle waited }

theorem Coherent.finishBargeIn (kept : bridge.Coherent) (live : bridge.session = .live)
    (barging : bridge.handler = .bargingIn) (done : bridge.point = .done) :
    bridge.finishBargeIn.Coherent := by
  obtain ⟨_, _, _, confirmed, _⟩ := kept.attended.busy live (by
    rw [barging]
    decide)
  have calm : bridge.cancelling = false := by
    by_contra cancelling
    exact kept.attended.cancels (eq_true_of_ne_false cancelling) done
  have free (fate : Fate) (ended : fate.unsettled = false) :
      bridge.cancelling = false ∧
      (TaskPoint.done = .done → fate.unsettled = false) ∧
      (bridge.held = false → TaskPoint.done = .done) ∧
      (bridge.held = true → bridge.run.confirmed = false → bridge.detector = .paused) ∧
      (TaskPoint.done ≠ .done → bridge.run.confirmed = true → bridge.detector = .idle) := by
    refine ⟨calm, fun _ => ended, fun _ => rfl, ?_, fun busy => absurd rfl busy⟩
    intro _ unconfirmed
    rw [confirmed barging] at unconfirmed
    cases unconfirmed
  have quiet : ¬ bridge.cancelling = true := by
    rw [calm]
    decide
  refine ⟨kept.toldKept.finishBargeIn (confirmed barging), ?_, ?_⟩
  · by_cases silent : bridge.replyText = []
    · rw [finishBargeIn_of_silent silent]
      exact Shown.of_settled rfl
    · rw [finishBargeIn_of_spoken silent]
      exact Shown.of_settled rfl
  · by_cases silent : bridge.replyText = []
    · rw [finishBargeIn_of_silent silent]
      exact
        { alive := fun _ closed => by cases closed
          dropped := fun dropped => by cases dropped
          cancels := fun cancelling => absurd cancelling quiet
          free := fun _ _ => free .cutOff rfl
          busy := fun _ waited => absurd rfl waited }
    · rw [finishBargeIn_of_spoken silent]
      exact
        { alive := fun _ closed => by cases closed
          dropped := fun dropped => by cases dropped
          cancels := fun cancelling => absurd cancelling quiet
          free := fun _ _ => free .interrupted rfl
          busy := fun _ waited => absurd rfl waited }

theorem Coherent.finishDiscard_of_waiting (kept : bridge.Coherent) (live : bridge.session = .live)
    (done : bridge.point = .done) {thenStart : Bool}
    (waiting : bridge.handler = .discarding thenStart) :
    Coherent (if thenStart then (bridge.finishDiscard config).startSpeech
      else bridge.finishDiscard config) := by
  have calm : bridge.cancelling = false := by
    by_contra cancelling
    exact kept.attended.cancels (eq_true_of_ne_false cancelling) done
  obtain ⟨_, speaking, _, _, dropping⟩ := kept.attended.busy live (by simp [waiting])
  have dropped : bridge.held = false := (dropping (by simp [waiting])).1
  have discarded : (bridge.finishDiscard config).Coherent :=
    .finishDiscard kept.toldKept calm dropped
  have held : bridge.held = true → (bridge.finishDiscard config).run.confirmed = true := by
    rw [dropped]
    intro impossible
    cases impossible
  split
  · have started := discarded.startSpeech live rfl held
    rw [← speaking] at started
    exact started
  · exact discarded

/-! ### Runs -/

theorem Attended.concluded (kept : bridge.Attended) (calm : bridge.cancelling = false)
    (busy : bridge.point ≠ .done) (outcome : ReplyOutcome) :
    (bridge.concluded config outcome).Attended :=
  { kept.settle calm busy (rfl : Fate.finished.unsettled = false) (by decide) with }

theorem release_cancelling : bridge.release.cancelling = bridge.cancelling := by
  cases out : bridge.run.released with
  | true => rw [release_of_released out]
  | false => rw [release_eq out]

theorem release_point : bridge.release.point = bridge.point := by
  cases out : bridge.run.released with
  | true => rw [release_of_released out]
  | false => rw [release_eq out]

theorem Attended.conclude (kept : bridge.Attended) (calm : bridge.cancelling = false)
    (busy : bridge.point ≠ .done) (outcome : ReplyOutcome) :
    (bridge.conclude config outcome).Attended := by
  rw [conclude_eq]
  apply kept.release.concluded
  · rw [release_cancelling]
    exact calm
  · rw [release_point]
    exact busy

theorem Shown.conclude (outcome : ReplyOutcome) : (bridge.conclude config outcome).Shown := by
  rw [conclude_eq]
  exact Shown.of_settled rfl

theorem Coherent.keepUsage (kept : bridge.Coherent) (outcome : ReplyOutcome) :
    (bridge.keepUsage outcome).Coherent := by
  refine ⟨kept.toldKept.keepUsage outcome, ?_, ?_⟩
  · cases outcome <;> exact kept.shown
  · cases outcome with
    | ok usage => exact { kept.attended with }
    | failed message => exact kept.attended
    | timeout => exact kept.attended

theorem Coherent.conclude (kept : bridge.Coherent) (calm : bridge.cancelling = false)
    (late : bridge.point.late = true) (confirmed : bridge.run.confirmed = true)
    (outcome : ReplyOutcome) : (bridge.conclude config outcome).Coherent where
  toldKept := kept.toldKept.conclude confirmed late outcome
  shown := .conclude outcome
  attended := kept.attended.conclude calm (TaskPoint.ne_done_of_late late) outcome

theorem keepUsage_cancelling (outcome : ReplyOutcome) :
    (bridge.keepUsage outcome).cancelling = bridge.cancelling := by
  cases outcome <;> rfl

section

variable (kept : bridge.Coherent)
include kept

theorem Coherent.replyOver (calm : bridge.cancelling = false) (late : bridge.point.late = true)
    (outcome : ReplyOutcome) : (bridge.replyOver config outcome).Coherent := by
  have answered := kept.keepUsage outcome
  have still : (bridge.keepUsage outcome).point.late = true := by
    rw [keepUsage_point]
    exact late
  unfold CascadeBridge.replyOver
  split
  case isTrue confirmed =>
    apply answered.conclude _ still
    · rw [keepUsage_confirmed]
      exact confirmed
    · rw [keepUsage_cancelling]
      exact calm
  case isFalse =>
    exact
      { toldKept := answered.toldKept.atConfirm still _
        shown := answered.shown
        attended := answered.attended.atPoint (TaskPoint.ne_done_of_late still) _ (by simp) }

theorem Coherent.collect (calm : bridge.cancelling = false) (early : bridge.point.early = true) :
    (bridge.collect config).Coherent := by
  have busy := TaskPoint.ne_done_of_early early
  refine ⟨kept.toldKept.collect early, ?_, ?_⟩
  · rw [collect_eq]
    split
    · exact Shown.of_settled rfl
    · exact kept.shown
  · have gathered : bridge.gathered.Attended := { kept.attended with }
    rw [collect_eq]
    split
    · exact gathered.settle calm busy rfl (by decide)
    · exact { gathered.atPoint busy .replying (by decide) with }

theorem Coherent.stopWaiting (calm : bridge.cancelling = false)
    (early : bridge.point.early = true) (timedOut : Bool) :
    (bridge.stopWaiting config timedOut).Coherent := by
  unfold CascadeBridge.stopWaiting
  split
  case isTrue =>
    have counted : { bridge with staleFinals := bridge.staleFinals + 1 }.Coherent :=
      { toldKept := { kept.toldKept with }
        shown := kept.shown
        attended := { kept.attended with } }
    exact counted.collect calm early
  case isFalse => exact kept.collect calm early

theorem Coherent.onDelta (running : bridge.brainTask = .running) (text : Text) :
    (bridge.onDelta text).Coherent := by
  refine ⟨kept.toldKept.onDelta running text, ?_, ?_⟩
  · unfold CascadeBridge.onDelta
    split
    case isTrue => exact kept.shown
    case isFalse =>
      split
      case isTrue released =>
        intro unsettled
        exact ⟨fun _ => ⟨((kept.shown unsettled).mp released).1, rfl⟩, fun _ => released⟩
      case isFalse unreleased =>
        split
        case isTrue confirmed =>
          intro _
          rw [release_run]
          exact ⟨fun _ => ⟨confirmed, rfl⟩, fun _ => rfl⟩
        case isFalse unconfirmed =>
          intro _
          exact ⟨fun released => absurd released unreleased, fun both => absurd both.1 unconfirmed⟩
  · have spoken : (bridge.speak text).Attended := { kept.attended with }
    unfold CascadeBridge.onDelta
    split
    case isTrue => exact kept.attended
    case isFalse =>
      split
      case isTrue => exact { spoken with }
      case isFalse =>
        split
        case isTrue => exact spoken.release
        case isFalse => exact spoken

/-- A change of nothing that the invariant speaks of. -/
theorem Coherent.of_same (pending : next.pendingUser = bridge.pendingUser)
    (reply : next.replyText = bridge.replyText) (run : next.run = bridge.run)
    (held : next.held = bridge.held) (point : next.point = bridge.point)
    (cancelling : next.cancelling = bridge.cancelling) (brain : next.brainTask = bridge.brainTask)
    (handler : next.handler = bridge.handler) (detector : next.detector = bridge.detector)
    (session : next.session = bridge.session) : next.Coherent := by
  obtain ⟨told, shown, attended⟩ := kept
  cases next
  cases pending
  cases reply
  cases run
  cases held
  cases point
  cases cancelling
  cases brain
  cases handler
  cases detector
  cases session
  exact ⟨{ told with }, shown, { attended with }⟩

theorem pumpPartial_coherent (phrase : Nat) (text : Text) :
    (bridge.pumpPartial phrase text).Coherent := by
  unfold pumpPartial
  dsimp only
  split <;> exact kept.of_same rfl rfl rfl rfl rfl rfl rfl rfl rfl rfl

theorem pumpFinal_coherent (phrase : Nat) (text : Text) :
    (bridge.pumpFinal phrase text).Coherent := by
  unfold pumpFinal
  dsimp only
  split
  · exact kept.of_same rfl rfl rfl rfl rfl rfl rfl rfl rfl rfl
  · split <;> split <;> exact kept.of_same rfl rfl rfl rfl rfl rfl rfl rfl rfl rfl

theorem interrupt_coherent (audioEndMs : Nat) : (bridge.interrupt audioEndMs).Coherent := by
  unfold interrupt applyHeard
  split
  · split
    · exact kept.of_same rfl rfl rfl rfl rfl rfl rfl rfl rfl rfl
    · exact kept
  · split
    · exact kept
    · exact kept.of_same rfl rfl rfl rfl rfl rfl rfl rfl rfl rfl

theorem Coherent.close :
    Coherent
      { bridge with
        session := .closing
        cancelling := bridge.point ≠ .done
        run := { bridge.run with
          fate := if bridge.run.fate = .running then .closed else bridge.run.fate } } := by
  by_cases running : bridge.run.fate = .running
  · rw [if_pos running]
    have unsettled : bridge.run.fate.unsettled = true := by
      rw [running]
      rfl
    exact
      { toldKept :=
          { kept.toldKept with
            spoken := fun _ => kept.toldKept.spoken unsettled
            told := fun _ => kept.toldKept.told unsettled
            settled := fun ended => by cases ended
            quiet := fun empty => by cases empty
            unconfirmed := fun _ => Or.inl rfl }
        shown := fun _ => kept.shown unsettled
        attended := kept.attended.close .closing (by decide) .closed (fun same => by cases same) }
  · rw [if_neg running]
    exact
      { toldKept := { kept.toldKept with }
        shown := kept.shown
        attended := kept.attended.close .closing (by decide) bridge.run.fate id }

theorem Coherent.step {action : BridgeAction} (taken : bridge.Step config action next) :
    next.Coherent := by
  cases taken.moves with
  | speechStart hears => exact kept.onSpeechStart hears
  | pauseStart hears => exact kept.onPauseStart hears
  | pauseCancelled hears => exact kept.onPauseCancelled hears
  | endOfTurn signal hears => exact kept.onEndOfTurn hears signal
  | bargedIn live waiting done => exact kept.finishBargeIn live waiting done
  | discarded live thenStart waiting done => exact kept.finishDiscard_of_waiting live done waiting
  | startTurn ready =>
      have early : bridge.point.early = true := by
        rw [ready.2]
        rfl
      have busy := TaskPoint.ne_done_of_early early
      exact
        { toldKept := { kept.toldKept.atEarly early (.finalizing false) rfl with }
          shown := kept.shown
          attended := { kept.attended.atPoint busy (.finalizing false) (by decide) with } }
  | requestSent ready =>
      have early : bridge.point.early = true := by
        rw [ready]
        rfl
      have busy := TaskPoint.ne_done_of_early early
      exact
        { toldKept := { kept.toldKept.atEarly early (.finalizing true) rfl with }
          shown := kept.shown
          attended := { kept.attended.atPoint busy (.finalizing true) (by decide) with } }
  | finalizeReturns ready =>
      have early : bridge.point.early = true := by
        rw [ready.2]
        rfl
      have busy := TaskPoint.ne_done_of_early early
      exact
        { toldKept := kept.toldKept.atEarly early .waitingFinal rfl
          shown := kept.shown
          attended := kept.attended.atPoint busy .waitingFinal (by decide) }
  | finalizeRaises timedOut calm early => exact kept.stopWaiting calm early timedOut
  | stopWaiting timedOut calm early => exact kept.stopWaiting calm early timedOut
  | brainTimeout calm replying =>
      exact kept.replyOver calm (TaskPoint.late_of_replying replying) .timeout
  | replied outcome calm replying =>
      exact kept.replyOver calm (TaskPoint.late_of_replying replying) outcome
  | confirmed outcome calm waiting confirmed =>
      exact kept.conclude calm (TaskPoint.late_of_waiting waiting) confirmed outcome
  | cancelled cancelling =>
      exact
        { toldKept := kept.toldKept.cancelled
          shown := kept.shown
          attended := kept.attended.cancelled cancelling }
  | delta text running => exact kept.onDelta running text
  | brainEnds outcome running =>
      have late : bridge.point.late = true := kept.toldKept.calling (by simp [running])
      exact
        { toldKept :=
            { kept.toldKept with
              calling := fun _ => late
              asked := fun _ none => by cases none }
          shown := kept.shown
          attended := { kept.attended with } }
  | sttPartial phrase text => exact pumpPartial_coherent kept phrase text
  | sttFinal phrase text => exact pumpFinal_coherent kept phrase text
  | sttEnds error =>
      unfold pumpEnds
      dsimp only
      split <;> exact kept.of_same rfl rfl rfl rfl rfl rfl rfl rfl rfl rfl
  | interrupt audioEndMs => exact interrupt_coherent kept audioEndMs
  | close => exact kept.close
  | closed =>
      exact
        { toldKept := { kept.toldKept with }
          shown := kept.shown
          attended :=
            { kept.attended with
              alive := fun live => by cases live
              free := fun live => by cases live
              busy := fun live => by cases live } }

end

theorem connected_coherent : connected.Coherent where
  toldKept :=
    @Told.of_settled connected (fun heard member => absurd member List.not_mem_nil) rfl rfl rfl rfl
      (fun spoken => by cases spoken) (fun _ => rfl) (fun _ => Or.inl rfl)
  shown := Shown.of_settled rfl
  attended :=
    { alive := fun _ closed => by cases closed
      dropped := fun _ => rfl
      cancels := fun cancelling => by cases cancelling
      free := by
        intro _ _
        refine ⟨rfl, fun _ => rfl, fun _ => rfl, ?_, fun busy => absurd rfl busy⟩
        intro held
        cases held
      busy := fun _ waited => absurd rfl waited }

theorem coherent_of_run {actions : List BridgeAction} {last : CascadeBridge}
    (run : Run (Step config) connected actions last) : last.Coherent :=
  run.invariant Coherent connected connected_coherent (fun _ _ _ kept taken => kept.step taken)

/-- A pause starts a reply; speech resumes and the reply is cancelled. -/
theorem coherent_of_run_resumed :
    ∃ last : CascadeBridge, last.cancelling = true ∧ last.held = false ∧ last.Coherent := by
  obtain ⟨last, reached, seen⟩ := Run.of_foldlM_map (CascadeBridge.step plainBrain) connected
    [.speechStart, .pauseStart, .startTurn, .requestSent, .pauseCancelled]
    (fun last => (last.cancelling, last.held)) (true, false) (by decide +kernel)
  exact ⟨last, congrArg Prod.fst seen, congrArg Prod.snd seen, coherent_of_run reached⟩

end Attended
end CascadeBridge
end Assemblix.Realtime
