import Mathlib.Tactic.Ring
import Assemblix.Realtime.ReplyTask

/-
The calls of the brain and what the meter gets for each.

A record beside the bridge lists the calls, newest first, with the text each has given, the
usage it has reported and what the meter was charged while it was the last one. What is owed for
a call is its reported usage, or its estimate where it has reported none.
-/

namespace Assemblix.Realtime

open Library

structure StartedCall where
  run : Nat
  messages : List Turn
  response : Text := []
  reported : Option BrainUsage := none
  charged : ℚ := 0
  deriving DecidableEq

def StartedCall.due (config : BridgeConfig) (started : StartedCall) : ℚ :=
  (started.reported.getD
    (config.brain.estimateUsage started.messages started.response)).costUsd

def ReplyOutcome.bare : ReplyOutcome → Bool
  | .ok _ => false
  | _ => true

theorem Fate.closed_unsettled (fate : Fate) :
    (if fate = .running then Fate.closed else fate).unsettled = fate.unsettled := by
  split
  case isTrue running =>
    rw [running]
    rfl
  case isFalse => rfl

namespace CascadeBridge

def recordCalls (bridge : CascadeBridge) (action : BridgeAction) (next : CascadeBridge)
    (calls : List StartedCall) : List StartedCall :=
  let paid := calls.modifyHead fun started =>
    { started with charged := started.charged + (next.brainCostUsd - bridge.brainCostUsd) }
  match action with
  | .delta text => paid.modifyHead fun started =>
      { started with response := started.response ++ text }
  | .brainEnds (.ok usage) => paid.modifyHead fun started =>
      { started with reported := some usage }
  | .finalizeRaises _ | .stopWaiting _ =>
      match next.call with
      | none => paid
      | some call => { run := next.run.number, messages := call.messages } :: paid
  | _ => paid

def ended (bridge : CascadeBridge) (calls : List StartedCall) : List StartedCall :=
  if bridge.call.isSome && bridge.session ≠ .closed then calls.tail else calls

def keptUsage (bridge : CascadeBridge) : Option BrainUsage :=
  if bridge.held then bridge.run.usage else none

def inFlight (bridge : CascadeBridge) (calls : List StartedCall) : Option StartedCall :=
  if bridge.call.isSome then calls.head? else none

def outcomeAtHand (bridge : CascadeBridge) : Option ReplyOutcome :=
  match bridge.point, bridge.brainTask with
  | .waitingConfirm outcome, _ => some outcome
  | .replying, .ended outcome => some outcome
  | _, _ => none

/-- The call in flight ends with nothing charged for it: its confirmed reply has failed or timed
out, a barge-in comes before its usage was read, or the session ends. -/
def endsUnpriced (bridge : CascadeBridge) : BridgeAction → Bool
  | .resumeHandler => bridge.handler = .bargingIn && bridge.keptUsage.isNone
  | .proceed => bridge.run.confirmed && bridge.outcomeAtHand.any ReplyOutcome.bare
  | .brainTimeout => bridge.run.confirmed
  | .closed => true
  | _ => false

def endsEstimated (bridge : CascadeBridge) : BridgeAction → Bool
  | .resumeHandler => bridge.handler ≠ .bargingIn && bridge.run.usage.isNone
  | _ => false

/-- A call that ends with nothing charged owes nothing, and one that ends with its estimate has
not reported another cost. -/
def Accounts (config : BridgeConfig) (state : CascadeBridge × List StartedCall)
    (action : BridgeAction) : Prop :=
  ∀ started ∈ state.1.inFlight state.2,
    (state.1.endsUnpriced action = true → started.due config = 0) ∧
      (state.1.endsEstimated action = true → ∀ usage ∈ started.reported,
        usage.costUsd =
          (config.brain.estimateUsage started.messages started.response).costUsd)

def Metered (config : BridgeConfig) (state : CascadeBridge × List StartedCall) : Prop :=
  ∀ started ∈ state.1.ended state.2, started.charged = started.due config

/-! ### The call in flight -/

structure Tracks (number : Nat) (usage : Option BrainUsage) (replyText : Text)
    (brainTask : BrainTask) (point : TaskPoint) (call : BrainCall) (started : StartedCall) :
    Prop where
  run : started.run = number
  messages : started.messages = call.messages
  response : started.response = replyText
  charged : started.charged = 0
  ended : ∀ said, brainTask = .ended (.ok said) → started.reported = some said
  waiting : ∀ said, point = .waitingConfirm (.ok said) → usage = some said
  used : ∀ said, usage = some said → started.reported = some said ∧ brainTask ≠ .running

structure Ledgered (state : CascadeBridge × List StartedCall) : Prop where
  attributed : state.1.brainCostUsd = (state.2.map StartedCall.charged).sum
  asked : state.1.point.late = true → state.1.call ≠ none
  unended : state.1.call ≠ none →
    state.1.run.fate.unsettled = true ∧ state.1.point.early = false
  shut : state.1.session = .closed → state.1.point = .done
  used : state.1.run.fate.unsettled = true → state.1.run.usage ≠ none → state.1.call ≠ none
  tracked : ∀ call, state.1.call = some call →
    ∃ started rest, state.2 = started :: rest ∧
      Tracks state.1.run.number state.1.run.usage state.1.replyText state.1.brainTask
        state.1.point call started

section Records

variable {bridge next : CascadeBridge} {config : BridgeConfig} {calls : List StartedCall}
  {action : BridgeAction}

/-- The record changes with the meter, the reply and the usage only. -/
def BridgeAction.silent : BridgeAction → Bool
  | .delta _ | .brainEnds _ | .finalizeRaises _ | .stopWaiting _ => false
  | _ => true

theorem modifyHead_charged (calls : List StartedCall) {amount : ℚ} (nothing : amount = 0) :
    calls.modifyHead (fun started => { started with charged := started.charged + amount }) =
      calls := by
  cases calls with
  | nil => rfl
  | cons started rest => rw [List.modifyHead_cons, nothing, add_zero]

theorem recordCalls_of_silent (silent : BridgeAction.silent action = true) :
    recordCalls bridge action next calls =
      calls.modifyHead fun started =>
        { started with
          charged := started.charged + (next.brainCostUsd - bridge.brainCostUsd) } := by
  unfold recordCalls
  cases action <;> first | rfl | cases silent

theorem recordCalls_of_free (silent : BridgeAction.silent action = true)
    (free : next.brainCostUsd = bridge.brainCostUsd) :
    recordCalls bridge action next calls = calls := by
  rw [recordCalls_of_silent silent]
  exact modifyHead_charged calls (by rw [free, sub_self])

theorem Ledgered.attributed_paid (kept : Ledgered (bridge, calls))
    (unpaid : bridge.call = none → next.brainCostUsd = bridge.brainCostUsd) :
    next.brainCostUsd =
      ((calls.modifyHead fun started =>
        { started with
          charged := started.charged + (next.brainCostUsd - bridge.brainCostUsd) }).map
        StartedCall.charged).sum := by
  have before : bridge.brainCostUsd = (calls.map StartedCall.charged).sum := kept.attributed
  cases inFlight : bridge.call with
  | none =>
      have same := unpaid inFlight
      rw [modifyHead_charged calls (by rw [same, sub_self]), same, before]
  | some call =>
      obtain ⟨started, rest, listed, _⟩ := kept.tracked call inFlight
      have listed : calls = started :: rest := listed
      rw [listed, List.map_cons, List.sum_cons] at before
      rw [listed, List.modifyHead_cons, List.map_cons, List.sum_cons, before]
      dsimp only
      ring

theorem Ledgered.of_settled
    (attributed : next.brainCostUsd = (calls.map StartedCall.charged).sum)
    (closed : next.call = none) (done : next.point = .done)
    (settled : next.run.fate.unsettled = false) : Ledgered (next, calls) where
  attributed := attributed
  asked := by
    intro late
    exact absurd done (TaskPoint.ne_done_of_late late)
  unended := fun inFlight => absurd closed inFlight
  shut := fun _ => done
  used := by
    intro unsettled
    change next.run.fate.unsettled = true at unsettled
    rw [settled] at unsettled
    cases unsettled
  tracked := by
    intro call inFlight
    change next.call = some call at inFlight
    rw [closed] at inFlight
    cases inFlight

section

variable (kept : Ledgered (bridge, calls))
include kept

theorem Ledgered.settle (silent : BridgeAction.silent action = true)
    (unpaid : bridge.call = none → next.brainCostUsd = bridge.brainCostUsd)
    (closed : next.call = none) (done : next.point = .done)
    (settled : next.run.fate.unsettled = false) :
    Ledgered (next, recordCalls bridge action next calls) := by
  rw [recordCalls_of_silent silent]
  exact .of_settled (kept.attributed_paid unpaid) closed done settled

theorem Ledgered.no_call (early : bridge.point.early = true) : bridge.call = none := by
  by_contra inFlight
  have begun := (kept.unended inFlight).2
  change bridge.point.early = false at begun
  rw [early] at begun
  cases begun

theorem Ledgered.no_call_of_settled (settled : bridge.run.fate.unsettled = false) :
    bridge.call = none := by
  by_contra inFlight
  have unsettled := (kept.unended inFlight).1
  change bridge.run.fate.unsettled = true at unsettled
  rw [settled] at unsettled
  cases unsettled

theorem Ledgered.in_flight (late : bridge.point.late = true) : ∃ call, bridge.call = some call :=
  Option.ne_none_iff_exists'.mp (kept.asked late)

/-! ### Steps -/

theorem Ledgered.startSpeech : Ledgered (bridge.startSpeech, calls) := by
  unfold CascadeBridge.startSpeech
  split
  · exact { kept with }
  · exact { kept with }

end

theorem startSpeech_call : bridge.startSpeech.call = bridge.call := by
  unfold CascadeBridge.startSpeech
  split <;> rfl

theorem startSpeech_cost : bridge.startSpeech.brainCostUsd = bridge.brainCostUsd := by
  unfold CascadeBridge.startSpeech
  split <;> rfl

theorem finishDiscard_cost_of_none (closed : bridge.call = none) :
    (bridge.finishDiscard config).brainCostUsd = bridge.brainCostUsd := by
  unfold finishDiscard
  rw [closed]
  exact add_zero _

theorem Ledgered.finishDiscard (config : BridgeConfig) (kept : Ledgered (bridge, calls)) :
    Ledgered (bridge.finishDiscard config,
      recordCalls bridge .resumeHandler (bridge.finishDiscard config) calls) :=
  kept.settle rfl finishDiscard_cost_of_none rfl rfl rfl

theorem Ledgered.discardSpeculation (config : BridgeConfig) (kept : Ledgered (bridge, calls))
    (ended : bridge.point = .done → bridge.run.fate.unsettled = false) (thenStart : Bool) :
    Ledgered (bridge.discardSpeculation config thenStart, calls) ∧
      (bridge.discardSpeculation config thenStart).brainCostUsd = bridge.brainCostUsd := by
  unfold CascadeBridge.discardSpeculation
  split
  case isTrue =>
    split
    · exact ⟨kept.startSpeech, startSpeech_cost⟩
    · exact ⟨kept, rfl⟩
  case isFalse =>
    split
    case isTrue done =>
      -- The task was done before the discard, and has no call to charge.
      have closed := kept.no_call_of_settled (ended done)
      have free : ({ bridge with held := false }.finishDiscard config).brainCostUsd =
          bridge.brainCostUsd := finishDiscard_cost_of_none closed
      have discarded : Ledgered ({ bridge with held := false }.finishDiscard config, calls) := by
        refine .of_settled ?_ rfl rfl rfl
        rw [free]
        exact kept.attributed
      split
      · exact ⟨discarded.startSpeech, startSpeech_cost.trans free⟩
      · exact ⟨discarded, free⟩
    case isFalse => exact ⟨{ kept with }, rfl⟩

theorem finishBargeIn_cost : bridge.finishBargeIn.brainCostUsd =
    bridge.brainCostUsd + (bridge.keptUsage.getD {}).costUsd := by
  have kept : (if bridge.held then bridge.run.usage.getD {} else {}) =
      bridge.keptUsage.getD {} := by
    unfold keptUsage
    split <;> rfl
  by_cases silent : bridge.replyText = []
  · rw [finishBargeIn_of_silent silent, ← kept]
  · rw [finishBargeIn_of_spoken silent, ← kept]

theorem finishBargeIn_call : bridge.finishBargeIn.call = none := by
  by_cases silent : bridge.replyText = []
  · rw [finishBargeIn_of_silent silent]
  · rw [finishBargeIn_of_spoken silent]

theorem Ledgered.finishBargeIn_free (kept : Ledgered (bridge, calls))
    (running : bridge.run.fate = .running) (closed : bridge.call = none) :
    bridge.finishBargeIn.brainCostUsd = bridge.brainCostUsd := by
  have unused : bridge.run.usage = none := by
    by_contra used
    exact kept.used (by rw [running]; rfl) used closed
  have nothing : bridge.keptUsage = none := by
    unfold keptUsage
    rw [unused, ite_self]
  rw [finishBargeIn_cost, nothing]
  exact add_zero bridge.brainCostUsd

theorem Ledgered.finishBargeIn (kept : Ledgered (bridge, calls))
    (running : bridge.run.fate = .running) :
    Ledgered (bridge.finishBargeIn,
      recordCalls bridge .resumeHandler bridge.finishBargeIn calls) := by
  apply kept.settle rfl (kept.finishBargeIn_free running) finishBargeIn_call
  · by_cases silent : bridge.replyText = []
    · rw [finishBargeIn_of_silent silent]
    · rw [finishBargeIn_of_spoken silent]
  · by_cases silent : bridge.replyText = []
    · rw [finishBargeIn_of_silent silent]
      rfl
    · rw [finishBargeIn_of_spoken silent]
      rfl

theorem Ledgered.release (kept : Ledgered (bridge, calls)) : Ledgered (bridge.release, calls) := by
  cases out : bridge.run.released with
  | true =>
      rw [release_of_released out]
      exact kept
  | false =>
      rw [release_eq out]
      exact { kept with }

theorem release_cost : bridge.release.brainCostUsd = bridge.brainCostUsd := by
  cases out : bridge.run.released with
  | true => rw [release_of_released out]
  | false => rw [release_eq out]

theorem release_call : bridge.release.call = bridge.call := by
  cases out : bridge.run.released with
  | true => rw [release_of_released out]
  | false => rw [release_eq out]

theorem conclude_cost (outcome : ReplyOutcome) :
    (bridge.conclude config outcome).brainCostUsd =
      bridge.brainCostUsd + outcome.usage.costUsd := by
  rw [conclude_eq]
  change bridge.release.brainCostUsd + outcome.usage.costUsd = _
  rw [release_cost]

theorem conclude_call (outcome : ReplyOutcome) : (bridge.conclude config outcome).call = none := by
  rw [conclude_eq]
  rfl

theorem conclude_done (outcome : ReplyOutcome) :
    (bridge.conclude config outcome).point = .done := by
  rw [conclude_eq]
  rfl

theorem conclude_settled (outcome : ReplyOutcome) :
    (bridge.conclude config outcome).run.fate.unsettled = false := by
  rw [conclude_eq]
  rfl

theorem Ledgered.conclude (config : BridgeConfig) (kept : Ledgered (bridge, calls))
    (late : bridge.point.late = true) (silent : BridgeAction.silent action = true)
    (outcome : ReplyOutcome) :
    Ledgered (bridge.conclude config outcome,
      recordCalls bridge action (bridge.conclude config outcome) calls) := by
  apply kept.settle silent _ (conclude_call outcome) (conclude_done outcome)
    (conclude_settled outcome)
  intro closed
  exact absurd closed (kept.asked late)

theorem keepUsage_cost (outcome : ReplyOutcome) :
    (bridge.keepUsage outcome).brainCostUsd = bridge.brainCostUsd := by
  cases outcome <;> rfl

theorem Ledgered.keepUsage (kept : Ledgered (bridge, calls)) (replying : bridge.point = .replying)
    (outcome : ReplyOutcome)
    (ended : ∀ usage, outcome = .ok usage → bridge.brainTask = .ended outcome) :
    Ledgered (bridge.keepUsage outcome, calls) := by
  cases outcome with
  | failed message => exact kept
  | timeout => exact kept
  | ok usage =>
      have said : bridge.brainTask = .ended (.ok usage) := ended usage rfl
      exact
        { kept with
          used := fun _ _ => kept.asked (TaskPoint.late_of_replying replying)
          tracked := by
            intro call inFlight
            obtain ⟨started, rest, listed, tracks⟩ := kept.tracked call inFlight
            refine ⟨started, rest, listed, { tracks with waiting := ?_, used := ?_ }⟩
            · intro other waiting
              have here : bridge.point = .waitingConfirm (.ok other) := waiting
              rw [replying] at here
              cases here
            · intro other same
              cases same
              refine ⟨tracks.ended usage said, ?_⟩
              intro running
              have here : bridge.brainTask = .running := running
              rw [said] at here
              cases here }

theorem Ledgered.replyOver (kept : Ledgered (bridge, calls)) (replying : bridge.point = .replying)
    (silent : BridgeAction.silent action = true) (outcome : ReplyOutcome)
    (ended : ∀ usage, outcome = .ok usage → bridge.brainTask = .ended outcome) :
    Ledgered (bridge.replyOver config outcome,
      recordCalls bridge action (bridge.replyOver config outcome) calls) := by
  have answered := kept.keepUsage replying outcome ended
  have late : (bridge.keepUsage outcome).point.late = true := by
    rw [keepUsage_point]
    exact TaskPoint.late_of_replying replying
  unfold CascadeBridge.replyOver
  split
  case isTrue confirmed =>
    have concluded := answered.conclude config late silent outcome
    rw [recordCalls_of_silent silent, keepUsage_cost] at concluded
    rw [recordCalls_of_silent silent]
    exact concluded
  case isFalse =>
    have free : { bridge.keepUsage outcome with
        point := .waitingConfirm outcome }.brainCostUsd = bridge.brainCostUsd :=
      keepUsage_cost outcome
    rw [recordCalls_of_free silent free]
    exact
      { answered with
        asked := fun _ => answered.asked late
        unended := fun inFlight => ⟨(answered.unended inFlight).1, rfl⟩
        shut := by
          intro shut
          exact absurd (answered.shut shut) (TaskPoint.ne_done_of_late late)
        tracked := by
          intro call inFlight
          obtain ⟨started, rest, listed, tracks⟩ := answered.tracked call inFlight
          refine ⟨started, rest, listed, { tracks with waiting := ?_ }⟩
          intro said waiting
          cases waiting
          rfl }

theorem modifyHead_response (calls : List StartedCall) :
    calls.modifyHead (fun started => { started with response := started.response ++ [] }) =
      calls := by
  cases calls with
  | nil => rfl
  | cons started rest => rw [List.modifyHead_cons, List.append_nil]

theorem recordCalls_delta {text : Text} (free : next.brainCostUsd = bridge.brainCostUsd) :
    recordCalls bridge (.delta text) next calls =
      calls.modifyHead fun started => { started with response := started.response ++ text } := by
  unfold recordCalls
  dsimp only
  rw [modifyHead_charged calls (by rw [free, sub_self])]

theorem onDelta_cost (text : Text) : (bridge.onDelta text).brainCostUsd = bridge.brainCostUsd := by
  unfold onDelta
  split
  · rfl
  · split
    · rfl
    · split
      · exact release_cost
      · rfl

theorem Ledgered.speak (kept : Ledgered (bridge, calls)) (late : bridge.point.late = true)
    (text : Text) :
    Ledgered (bridge.speak text,
      calls.modifyHead fun started => { started with response := started.response ++ text }) := by
  obtain ⟨call, inFlight⟩ := kept.in_flight late
  obtain ⟨started, rest, listed, tracks⟩ := kept.tracked call inFlight
  have listed : calls = started :: rest := listed
  have attributed := kept.attributed
  rw [listed] at attributed ⊢
  exact
    { kept with
      attributed := attributed
      tracked := by
        intro other same
        have here : bridge.call = some other := same
        rw [inFlight] at here
        cases here
        refine ⟨{ started with response := started.response ++ text }, rest, rfl,
          { tracks with response := ?_ }⟩
        change started.response ++ text = bridge.replyText ++ text
        rw [tracks.response] }

theorem Ledgered.onDelta (kept : Ledgered (bridge, calls)) (late : bridge.point.late = true)
    (text : Text) :
    Ledgered (bridge.onDelta text,
      recordCalls bridge (.delta text) (bridge.onDelta text) calls) := by
  rw [recordCalls_delta (onDelta_cost text)]
  have spoken := kept.speak late text
  unfold CascadeBridge.onDelta
  split
  case isTrue silent =>
    rw [silent, modifyHead_response]
    exact kept
  case isFalse =>
    split
    case isTrue => exact { spoken with }
    case isFalse =>
      split
      case isTrue => exact spoken.release
      case isFalse => exact spoken

theorem recordCalls_brainEnds (outcome : ReplyOutcome)
    (free : next.brainCostUsd = bridge.brainCostUsd) :
    recordCalls bridge (.brainEnds outcome) next calls =
      match outcome with
      | .ok usage => calls.modifyHead fun started => { started with reported := some usage }
      | _ => calls := by
  unfold recordCalls
  dsimp only
  rw [modifyHead_charged calls (by rw [free, sub_self])]
  cases outcome <;> rfl

theorem Ledgered.brainEnds (kept : Ledgered (bridge, calls)) (late : bridge.point.late = true)
    (running : bridge.brainTask = .running) (outcome : ReplyOutcome) :
    Ledgered ({ bridge with brainTask := .ended outcome },
      recordCalls bridge (.brainEnds outcome) { bridge with brainTask := .ended outcome }
        calls) := by
  obtain ⟨call, inFlight⟩ := kept.in_flight late
  obtain ⟨started, rest, listed, tracks⟩ := kept.tracked call inFlight
  have listed : calls = started :: rest := listed
  have unused (said : BrainUsage) : bridge.run.usage ≠ some said := by
    intro used
    exact (tracks.used said used).2 running
  have only (other : BrainCall) (same : bridge.call = some other) : other = call := by
    rw [inFlight] at same
    exact (Option.some.inj same).symm
  have attributed := kept.attributed
  have after (same : StartedCall) (charged : same.charged = started.charged)
      (tracks : Tracks bridge.run.number bridge.run.usage bridge.replyText (.ended outcome)
        bridge.point call same) :
      Ledgered ({ bridge with brainTask := .ended outcome }, same :: rest) :=
    { kept with
      attributed := by
        rw [List.map_cons, charged, ← List.map_cons, ← listed]
        exact attributed
      tracked := by
        intro other taken
        rw [only other taken]
        exact ⟨same, rest, rfl, tracks⟩ }
  have free : { bridge with brainTask := .ended outcome }.brainCostUsd = bridge.brainCostUsd := rfl
  rw [recordCalls_brainEnds outcome free, listed]
  cases outcome with
  | ok usage =>
      apply after { started with reported := some usage } rfl
      refine { tracks with ended := ?_, used := fun said used => absurd used (unused said) }
      intro said ended
      cases ended
      rfl
  | failed message =>
      apply after started rfl
      exact
        { tracks with
          ended := fun said ended => by cases ended
          used := fun said used => absurd used (unused said) }
  | timeout =>
      apply after started rfl
      exact
        { tracks with
          ended := fun said ended => by cases ended
          used := fun said used => absurd used (unused said) }

/-! ### The start of a call -/

theorem recordCalls_wait (waits : (∃ timedOut, action = .finalizeRaises timedOut) ∨
      ∃ timedOut, action = .stopWaiting timedOut)
    (free : next.brainCostUsd = bridge.brainCostUsd) :
    recordCalls bridge action next calls =
      match next.call with
      | none => calls
      | some call => { run := next.run.number, messages := call.messages } :: calls := by
  rcases waits with ⟨timedOut, rfl⟩ | ⟨timedOut, rfl⟩
  · unfold recordCalls
    dsimp only
    rw [modifyHead_charged calls (by rw [free, sub_self])]
  · unfold recordCalls
    dsimp only
    rw [modifyHead_charged calls (by rw [free, sub_self])]

theorem Ledgered.collect (config : BridgeConfig) (kept : Ledgered (bridge, calls))
    (told : bridge.Told) (early : bridge.point.early = true) :
    (bridge.collect config).brainCostUsd = bridge.brainCostUsd ∧
      Ledgered (bridge.collect config,
        match (bridge.collect config).call with
        | none => calls
        | some call =>
            { run := (bridge.collect config).run.number, messages := call.messages } :: calls) := by
  have closed := kept.no_call early
  have unsettled := told.unsettled (TaskPoint.ne_done_of_early early)
  rw [collect_eq]
  split
  case isTrue =>
    refine ⟨rfl, ?_⟩
    have none : (bridge.gathered.settle .empty).call = none := closed
    rw [none]
    exact .of_settled kept.attributed none rfl rfl
  case isFalse =>
    refine ⟨rfl, ?_⟩
    exact
      { attributed := by
          change bridge.brainCostUsd = 0 + (calls.map StartedCall.charged).sum
          rw [zero_add]
          exact kept.attributed
        asked := fun _ none => by cases none
        unended := fun _ => ⟨unsettled, rfl⟩
        shut := by
          intro shut
          exact absurd (kept.shut shut) (TaskPoint.ne_done_of_early early)
        used := fun _ _ none => by cases none
        tracked := by
          intro call inFlight
          cases inFlight
          refine ⟨_, calls, rfl, ?_⟩
          exact
            { run := rfl
              messages := rfl
              response := (told.early early).2.2.2.symm
              charged := rfl
              ended := fun _ ended => by cases ended
              waiting := fun _ waiting => by cases waiting
              used := by
                intro said used
                have unused : bridge.run.usage ≠ some said := by
                  intro same
                  exact kept.used unsettled (by simp [same]) closed
                exact absurd used unused } }

theorem Ledgered.stopWaiting (kept : Ledgered (bridge, calls)) (told : bridge.Told)
    (early : bridge.point.early = true) (timedOut : Bool)
    (waits : (∃ timedOut, action = .finalizeRaises timedOut) ∨
      ∃ timedOut, action = .stopWaiting timedOut) :
    Ledgered (bridge.stopWaiting config timedOut,
      recordCalls bridge action (bridge.stopWaiting config timedOut) calls) := by
  unfold CascadeBridge.stopWaiting
  split
  case isTrue =>
    have counted : Ledgered ({ bridge with staleFinals := bridge.staleFinals + 1 }, calls) :=
      { kept with }
    have still : { bridge with staleFinals := bridge.staleFinals + 1 }.Told := { told with }
    obtain ⟨same, collected⟩ := counted.collect config still early
    have free : ({ bridge with
        staleFinals := bridge.staleFinals + 1 }.collect config).brainCostUsd =
          bridge.brainCostUsd := same
    rw [recordCalls_wait waits free]
    exact collected
  case isFalse =>
    obtain ⟨free, collected⟩ := kept.collect config told early
    rw [recordCalls_wait waits free]
    exact collected

theorem Ledgered.startRun (kept : Ledgered (bridge, calls)) (live : bridge.session = .live)
    (ended : bridge.run.fate.unsettled = false) (speculative confirmed : Bool)
    (signal : EndOfTurn) :
    Ledgered (bridge.startRun speculative confirmed signal, calls) := by
  have closed := kept.no_call_of_settled ended
  exact
    { attributed := kept.attributed
      asked := fun late => by cases late
      unended := fun inFlight => absurd closed inFlight
      shut := by
        intro shut
        have here : bridge.session = .closed := shut
        rw [live] at here
        cases here
      used := fun _ used => absurd rfl used
      tracked := by
        intro call inFlight
        have here : bridge.call = some call := inFlight
        rw [closed] at here
        cases here }

theorem Ledgered.free (after : Ledgered (next, calls))
    (silent : BridgeAction.silent action = true)
    (free : next.brainCostUsd = bridge.brainCostUsd) :
    Ledgered (next, recordCalls bridge action next calls) := by
  rw [recordCalls_of_free silent free]
  exact after

theorem Ledgered.of_same (kept : Ledgered (bridge, calls))
    (silent : BridgeAction.silent action = true) (call : next.call = bridge.call)
    (cost : next.brainCostUsd = bridge.brainCostUsd) (run : next.run = bridge.run)
    (reply : next.replyText = bridge.replyText) (brain : next.brainTask = bridge.brainTask)
    (point : next.point = bridge.point) (session : next.session = bridge.session) :
    Ledgered (next, recordCalls bridge action next calls) := by
  rw [recordCalls_of_free silent cost]
  obtain ⟨attributed, asked, unended, shut, used, tracked⟩ := kept
  dsimp only at attributed asked unended shut used tracked
  rw [← cost] at attributed
  rw [← call, ← point] at asked
  rw [← call, ← point, ← run] at unended
  rw [← session, ← point] at shut
  rw [← run, ← call] at used
  rw [← call, ← run, ← reply, ← brain, ← point] at tracked
  exact ⟨attributed, asked, unended, shut, used, tracked⟩

theorem Ledgered.wait (kept : Ledgered (bridge, calls)) (early : bridge.point.early = true)
    {point : TaskPoint} (still : point.early = true) :
    Ledgered ({ bridge with point := point }, calls) := by
  have closed := kept.no_call early
  exact
    { kept with
      asked := by
        intro late
        have here : point.late = true := late
        rw [TaskPoint.late_of_early still] at here
        cases here
      unended := fun inFlight => absurd closed inFlight
      shut := by
        intro shut
        exact absurd (kept.shut shut) (TaskPoint.ne_done_of_early early)
      tracked := by
        intro call inFlight
        have here : bridge.call = some call := inFlight
        rw [closed] at here
        cases here }

theorem Ledgered.onEndOfTurn (kept : Ledgered (bridge, calls)) (live : bridge.session = .live)
    (ended : bridge.held = false ∨ bridge.run.confirmed = true →
      bridge.run.fate.unsettled = false) (signal : EndOfTurn) :
    (bridge.onEndOfTurn signal).brainCostUsd = bridge.brainCostUsd ∧
      Ledgered (bridge.onEndOfTurn signal, calls) := by
  unfold CascadeBridge.onEndOfTurn
  dsimp only
  split
  case isTrue =>
    have confirmed : Ledgered
        ({ bridge with
          interruptedIndex := none
          run := { bridge.run with confirmed := true, signal := signal } }, calls) :=
      { kept with }
    split
    · exact ⟨release_cost, confirmed.release⟩
    · exact ⟨rfl, confirmed⟩
  case isFalse free =>
    have heard : Ledgered ({ bridge with interruptedIndex := none }, calls) := { kept with }
    refine ⟨rfl, heard.startRun live (ended ?_) false true signal⟩
    cases held : bridge.held with
    | false => exact Or.inl rfl
    | true =>
        rw [held] at free
        exact Or.inr (by simpa using free)

theorem Ledgered.step (kept : Ledgered (bridge, calls)) (coherent : bridge.Coherent)
    (taken : bridge.Step config action next) :
    Ledgered (next, recordCalls bridge action next calls) := by
  cases taken.moves with
  | speechStart hears =>
      have heard : Ledgered ({ bridge with detector := .speaking }, calls) := { kept with }
      obtain ⟨discarded, same⟩ := heard.discardSpeculation config
        (coherent.attended.free hears.1 hears.2.1).2.1 true
      have free : ({ bridge with detector := .speaking }.discardSpeculation config
          true).brainCostUsd = bridge.brainCostUsd := same
      exact discarded.free rfl free
  | pauseStart hears =>
      have counted : Ledgered ({ bridge with
          detector := .paused, speculations := bridge.speculations + 1 }, calls) :=
        { kept with }
      unfold CascadeBridge.onPauseStart
      split
      · refine Ledgered.free ?_ rfl rfl
        exact { kept with }
      · refine Ledgered.free ?_ rfl rfl
        exact counted.startRun hears.1 (coherent.ended_of_speaking hears) true false {}
  | pauseCancelled hears =>
      have heard : Ledgered ({ bridge with detector := .speaking }, calls) := { kept with }
      obtain ⟨discarded, same⟩ := heard.discardSpeculation config
        (coherent.attended.free hears.1 hears.2.1).2.1 false
      have free : ({ bridge with detector := .speaking }.discardSpeculation config
          false).brainCostUsd = bridge.brainCostUsd := same
      exact discarded.free rfl free
  | endOfTurn signal hears =>
      obtain ⟨live, idle, inTurn⟩ := hears_in_turn hears
      have heard : Ledgered ({ bridge with detector := .idle }, calls) := { kept with }
      obtain ⟨same, told⟩ := heard.onEndOfTurn live
        (coherent.ended_of_free live idle inTurn) signal
      have free : ({ bridge with detector := .idle }.onEndOfTurn signal).brainCostUsd =
          bridge.brainCostUsd := same
      exact told.free rfl free
  | bargedIn live waiting done =>
      exact kept.finishBargeIn (coherent.attended.busy live (by simp [waiting])).1
  | discarded live thenStart waiting done =>
      have discarded := kept.finishDiscard config
      split
      · have paid := discarded.startSpeech
        rw [recordCalls_of_silent rfl, ← startSpeech_cost] at paid
        rw [recordCalls_of_silent rfl]
        exact paid
      · exact discarded
  | startTurn ready =>
      refine Ledgered.free ?_ rfl rfl
      have waits := kept.wait (by rw [ready.2]; rfl)
        (rfl : (TaskPoint.finalizing false).early = true)
      exact { waits with }
  | requestSent ready =>
      refine Ledgered.free ?_ rfl rfl
      have waits := kept.wait (by rw [ready]; rfl)
        (rfl : (TaskPoint.finalizing true).early = true)
      exact { waits with }
  | finalizeReturns ready =>
      refine Ledgered.free ?_ rfl rfl
      exact kept.wait (by rw [ready.2]; rfl) (rfl : TaskPoint.waitingFinal.early = true)
  | finalizeRaises timedOut calm early =>
      exact kept.stopWaiting coherent.toldKept early timedOut (Or.inl ⟨timedOut, rfl⟩)
  | stopWaiting timedOut calm early =>
      exact kept.stopWaiting coherent.toldKept early timedOut (Or.inr ⟨timedOut, rfl⟩)
  | brainTimeout calm replying =>
      exact kept.replyOver replying rfl .timeout (fun _ same => by cases same)
  | replied outcome calm replying ended =>
      exact kept.replyOver replying rfl outcome (fun _ _ => ended)
  | confirmed outcome calm waiting confirmed =>
      exact kept.conclude config (TaskPoint.late_of_waiting waiting) rfl outcome
  | cancelled cancelling =>
      refine Ledgered.free ?_ rfl rfl
      exact
        { kept with
          asked := fun late => by cases late
          unended := fun inFlight => ⟨(kept.unended inFlight).1, rfl⟩
          shut := fun _ => rfl
          tracked := by
            intro call inFlight
            obtain ⟨started, rest, listed, tracks⟩ := kept.tracked call inFlight
            refine ⟨started, rest, listed,
              { tracks with ended := ?_, waiting := ?_, used := ?_ }⟩
            · intro said ended
              cases ended
            · intro said waiting
              cases waiting
            · intro said used
              exact ⟨(tracks.used said used).1, fun running => by cases running⟩ }
  | delta text running =>
      exact kept.onDelta (coherent.toldKept.calling (by simp [running])) text
  | brainEnds outcome running =>
      exact kept.brainEnds (coherent.toldKept.calling (by simp [running])) running outcome
  | sttPartial phrase text =>
      unfold pumpPartial
      dsimp only
      split
      · exact kept.of_same rfl rfl rfl rfl rfl rfl rfl rfl
      · exact kept.of_same rfl rfl rfl rfl rfl rfl rfl rfl
  | sttFinal phrase text =>
      unfold pumpFinal
      dsimp only
      split
      · exact kept.of_same rfl rfl rfl rfl rfl rfl rfl rfl
      · split <;> split <;> exact kept.of_same rfl rfl rfl rfl rfl rfl rfl rfl
  | sttEnds error =>
      unfold pumpEnds
      dsimp only
      split
      · exact kept.of_same rfl rfl rfl rfl rfl rfl rfl rfl
      · exact kept.of_same rfl rfl rfl rfl rfl rfl rfl rfl
  | interrupt audioEndMs =>
      unfold CascadeBridge.interrupt applyHeard
      split
      · split
        · exact kept.of_same rfl rfl rfl rfl rfl rfl rfl rfl
        · exact kept.of_same rfl rfl rfl rfl rfl rfl rfl rfl
      · split
        · exact kept.of_same rfl rfl rfl rfl rfl rfl rfl rfl
        · exact kept.of_same rfl rfl rfl rfl rfl rfl rfl rfl
  | close live =>
      refine Ledgered.free ?_ rfl rfl
      exact
        { kept with
          unended := by
            intro inFlight
            obtain ⟨unsettled, begun⟩ := kept.unended inFlight
            exact ⟨(bridge.run.fate.closed_unsettled).trans unsettled, begun⟩
          shut := fun shut => by cases shut
          used := by
            intro unsettled
            exact kept.used ((bridge.run.fate.closed_unsettled).symm.trans unsettled) }
  | closed closing done =>
      refine Ledgered.free ?_ rfl rfl
      exact { kept with shut := fun _ => done }

end Records

/-! ### What a step charges -/

section Charges

variable {bridge next : CascadeBridge} {config : BridgeConfig} {calls : List StartedCall}
  {action : BridgeAction}

theorem ended_of_in_flight {call : BrainCall} (inFlight : bridge.call = some call)
    (unclosed : bridge.session ≠ .closed) : bridge.ended calls = calls.tail := by
  unfold ended
  rw [if_pos (by simp [inFlight, unclosed])]

theorem ended_of_none (closed : bridge.call = none) : bridge.ended calls = calls := by
  unfold ended
  rw [if_neg (by simp [closed])]

theorem ended_of_closed (closed : bridge.session = .closed) : bridge.ended calls = calls := by
  unfold ended
  rw [if_neg (by simp [closed])]

theorem Ledgered.unclosed (kept : Ledgered (bridge, calls)) (busy : bridge.point ≠ .done) :
    bridge.session ≠ .closed := fun closed => busy (kept.shut closed)

theorem accounts_of_none (closed : bridge.call = none) :
    Accounts config (bridge, calls) action := by
  intro started found
  unfold inFlight at found
  dsimp only at found
  rw [closed] at found
  cases found

theorem accounts_of_plain (priced : bridge.endsUnpriced action = false)
    (read : bridge.endsEstimated action = false) : Accounts config (bridge, calls) action := by
  intro started _
  constructor
  · intro unpriced
    change bridge.endsUnpriced action = true at unpriced
    rw [priced] at unpriced
    cases unpriced
  · intro estimated
    change bridge.endsEstimated action = true at estimated
    rw [read] at estimated
    cases estimated

theorem accounts_iff {call : BrainCall} {started : StartedCall} {rest : List StartedCall}
    (inFlight : bridge.call = some call) (listed : calls = started :: rest) :
    Accounts config (bridge, calls) action ↔
      (bridge.endsUnpriced action = true → started.due config = 0) ∧
        (bridge.endsEstimated action = true → ∀ usage ∈ started.reported,
          usage.costUsd =
            (config.brain.estimateUsage started.messages started.response).costUsd) := by
  unfold Accounts CascadeBridge.inFlight
  dsimp only
  rw [inFlight, listed]
  simp

theorem metered_iff_of_same (same : next.ended (recordCalls bridge action next calls) =
      bridge.ended calls) (accounts : Accounts config (bridge, calls) action) :
    Metered config (next, recordCalls bridge action next calls) ↔
      Metered config (bridge, calls) ∧ Accounts config (bridge, calls) action := by
  unfold Metered
  dsimp only
  rw [same]
  exact ⟨fun metered => ⟨metered, accounts⟩, fun both => both.1⟩

theorem metered_iff_of_steady (silent : BridgeAction.silent action = true)
    (free : next.brainCostUsd = bridge.brainCostUsd) (call : next.call = bridge.call)
    (session : next.session = .closed ↔ bridge.session = .closed)
    (priced : bridge.endsUnpriced action = false) (read : bridge.endsEstimated action = false) :
    Metered config (next, recordCalls bridge action next calls) ↔
      Metered config (bridge, calls) ∧ Accounts config (bridge, calls) action := by
  apply metered_iff_of_same _ (accounts_of_plain priced read)
  rw [recordCalls_of_free silent free]
  unfold ended
  rw [call]
  simp only [ne_eq, session]

theorem metered_iff_of_going (silent : (recordCalls bridge action next calls).tail = calls.tail)
    {call : BrainCall} (inFlight : bridge.call = some call) (call' : next.call = bridge.call)
    (unclosed : bridge.session ≠ .closed) (session : next.session = bridge.session)
    (priced : bridge.endsUnpriced action = false) (read : bridge.endsEstimated action = false) :
    Metered config (next, recordCalls bridge action next calls) ↔
      Metered config (bridge, calls) ∧ Accounts config (bridge, calls) action := by
  apply metered_iff_of_same _ (accounts_of_plain priced read)
  rw [ended_of_in_flight inFlight unclosed, ended_of_in_flight (call'.trans inFlight), silent]
  rw [session]
  exact unclosed

theorem metered_iff_of_charge (silent : BridgeAction.silent action = true) {call : BrainCall}
    {started : StartedCall} {rest : List StartedCall} (inFlight : bridge.call = some call)
    (listed : calls = started :: rest) (uncharged : started.charged = 0)
    (unclosed : bridge.session ≠ .closed) (closed : next.call = none) {charge : ℚ}
    (charged : next.brainCostUsd = bridge.brainCostUsd + charge) :
    Metered config (next, recordCalls bridge action next calls) ↔
      Metered config (bridge, calls) ∧ charge = started.due config := by
  have amount : started.charged + (next.brainCostUsd - bridge.brainCostUsd) = charge := by
    rw [uncharged, charged]
    ring
  unfold Metered
  dsimp only
  rw [recordCalls_of_silent silent, ended_of_none closed, ended_of_in_flight inFlight unclosed,
    listed, List.modifyHead_cons, List.tail_cons, amount]
  constructor
  · intro metered
    exact ⟨fun other member => metered other (List.mem_cons_of_mem _ member),
      metered _ List.mem_cons_self⟩
  · rintro ⟨earlier, paid⟩ other member
    rcases List.mem_cons.mp member with last | old
    · rw [last]
      exact paid
    · exact earlier other old

theorem Ledgered.metered_iff_of_reply (kept : Ledgered (bridge, calls))
    (outcome : ReplyOutcome) (silent : BridgeAction.silent action = true)
    (late : bridge.point.late = true) (closed : next.call = none)
    (charged : next.brainCostUsd = bridge.brainCostUsd + outcome.usage.costUsd)
    (bare : bridge.endsUnpriced action = outcome.bare)
    (read : bridge.endsEstimated action = false)
    (reported : ∀ usage, outcome = .ok usage → ∀ call started, Tracks bridge.run.number
      bridge.run.usage bridge.replyText bridge.brainTask bridge.point call started →
        started.reported = some usage) :
    Metered config (next, recordCalls bridge action next calls) ↔
      Metered config (bridge, calls) ∧ Accounts config (bridge, calls) action := by
  obtain ⟨call, inFlight⟩ := kept.in_flight late
  obtain ⟨started, rest, listed, tracks⟩ := kept.tracked call inFlight
  have unclosed := kept.unclosed (TaskPoint.ne_done_of_late late)
  rw [metered_iff_of_charge silent inFlight listed tracks.charged unclosed closed charged,
    accounts_iff inFlight listed, bare, read]
  have priced : outcome.usage.costUsd = started.due config ↔
      (outcome.bare = true → started.due config = 0) := by
    cases outcome with
    | ok usage =>
        have said := reported usage rfl call started tracks
        unfold StartedCall.due
        rw [said]
        exact ⟨fun _ impossible => (by cases impossible), fun _ => rfl⟩
    | failed message => exact ⟨fun same _ => same.symm, fun owed => (owed rfl).symm⟩
    | timeout => exact ⟨fun same _ => same.symm, fun owed => (owed rfl).symm⟩
  rw [priced]
  simp

theorem Ledgered.metered_iff_of_bargeIn (kept : Ledgered (bridge, calls))
    (live : bridge.session = .live) (waiting : bridge.handler = .bargingIn)
    (running : bridge.run.fate = .running) :
    Metered config
        (bridge.finishBargeIn, recordCalls bridge .resumeHandler bridge.finishBargeIn calls) ↔
      Metered config (bridge, calls) ∧ Accounts config (bridge, calls) .resumeHandler := by
  have read : bridge.endsEstimated .resumeHandler = false := by
    unfold endsEstimated
    simp [waiting]
  have unclosed : bridge.session ≠ .closed := by
    rw [live]
    decide
  cases inFlight : bridge.call with
  | none =>
      apply metered_iff_of_same _ (accounts_of_none inFlight)
      rw [recordCalls_of_free rfl (kept.finishBargeIn_free running inFlight),
        ended_of_none finishBargeIn_call, ended_of_none inFlight]
  | some call =>
      obtain ⟨started, rest, listed, tracks⟩ := kept.tracked call inFlight
      rw [metered_iff_of_charge rfl inFlight listed tracks.charged unclosed finishBargeIn_call
        finishBargeIn_cost, accounts_iff inFlight listed, read]
      have priced : (bridge.keptUsage.getD {}).costUsd = started.due config ↔
          (bridge.endsUnpriced .resumeHandler = true → started.due config = 0) := by
        unfold endsUnpriced
        cases kept : bridge.keptUsage with
        | none =>
            simp only [waiting]
            exact ⟨fun same _ => same.symm, fun owed => (owed rfl).symm⟩
        | some usage =>
            have held : bridge.run.usage = some usage := by
              unfold keptUsage at kept
              split at kept
              · exact kept
              · cases kept
            unfold StartedCall.due
            rw [(tracks.used usage held).1]
            simp
      rw [priced]
      simp

theorem finishDiscard_cost {call : BrainCall} (inFlight : bridge.call = some call) :
    (bridge.finishDiscard config).brainCostUsd =
      bridge.brainCostUsd +
        (bridge.run.usage.getD
          (config.brain.estimateUsage call.messages bridge.replyText)).costUsd := by
  unfold finishDiscard
  rw [inFlight]
  rfl

theorem Ledgered.metered_iff_of_discard (kept : Ledgered (bridge, calls))
    (live : bridge.session = .live) {thenStart : Bool}
    (waiting : bridge.handler = .discarding thenStart) (closed : next.call = none)
    (charged : next.brainCostUsd = (bridge.finishDiscard config).brainCostUsd) :
    Metered config (next, recordCalls bridge .resumeHandler next calls) ↔
      Metered config (bridge, calls) ∧ Accounts config (bridge, calls) .resumeHandler := by
  have priced : bridge.endsUnpriced .resumeHandler = false := by
    unfold endsUnpriced
    simp [waiting]
  have unclosed : bridge.session ≠ .closed := by
    rw [live]
    decide
  cases inFlight : bridge.call with
  | none =>
      apply metered_iff_of_same _ (accounts_of_none inFlight)
      rw [recordCalls_of_free rfl (charged.trans (finishDiscard_cost_of_none inFlight)),
        ended_of_none closed, ended_of_none inFlight]
  | some call =>
      obtain ⟨started, rest, listed, tracks⟩ := kept.tracked call inFlight
      rw [metered_iff_of_charge rfl inFlight listed tracks.charged unclosed closed
        (charged.trans (finishDiscard_cost inFlight)), accounts_iff inFlight listed, priced]
      have messages : started.messages = call.messages := tracks.messages
      have response : started.response = bridge.replyText := tracks.response
      rw [← messages, ← response]
      have read : (bridge.run.usage.getD
            (config.brain.estimateUsage started.messages started.response)).costUsd =
          started.due config ↔
          (bridge.endsEstimated .resumeHandler = true → ∀ usage ∈ started.reported,
            usage.costUsd =
              (config.brain.estimateUsage started.messages started.response).costUsd) := by
        unfold endsEstimated
        unfold StartedCall.due
        cases used : bridge.run.usage with
        | some usage =>
            rw [(tracks.used usage used).1]
            simp
        | none =>
            cases reported : started.reported with
            | none => simp
            | some usage => simp [waiting, eq_comm]
      rw [read]
      simp

theorem Ledgered.metered_iff_of_closed (kept : Ledgered (bridge, calls))
    (unclosed : bridge.session ≠ .closed) (shut : next.session = .closed)
    (free : next.brainCostUsd = bridge.brainCostUsd) :
    Metered config (next, recordCalls bridge .closed next calls) ↔
      Metered config (bridge, calls) ∧ Accounts config (bridge, calls) .closed := by
  cases inFlight : bridge.call with
  | none =>
      apply metered_iff_of_same _ (accounts_of_none inFlight)
      rw [recordCalls_of_free rfl free, ended_of_closed shut, ended_of_none inFlight]
  | some call =>
      obtain ⟨started, rest, listed, tracks⟩ := kept.tracked call inFlight
      rw [accounts_iff inFlight listed]
      unfold Metered
      dsimp only
      rw [recordCalls_of_free rfl free, ended_of_closed shut,
        ended_of_in_flight inFlight unclosed]
      have listed : calls = started :: rest := listed
      rw [listed, List.tail_cons, List.forall_mem_cons, tracks.charged]
      constructor
      · rintro ⟨paid, earlier⟩
        exact ⟨earlier, fun _ => paid.symm, fun impossible => by cases impossible⟩
      · rintro ⟨earlier, owed, _⟩
        exact ⟨(owed rfl).symm, earlier⟩

theorem Ledgered.metered_iff_of_wait (kept : Ledgered (bridge, calls))
    (early : bridge.point.early = true)
    (waits : (∃ timedOut, action = .finalizeRaises timedOut) ∨
      ∃ timedOut, action = .stopWaiting timedOut)
    (free : next.brainCostUsd = bridge.brainCostUsd) (session : next.session = bridge.session) :
    Metered config (next, recordCalls bridge action next calls) ↔
      Metered config (bridge, calls) ∧ Accounts config (bridge, calls) action := by
  have closed := kept.no_call early
  have unclosed := kept.unclosed (TaskPoint.ne_done_of_early early)
  apply metered_iff_of_same _ (accounts_of_none closed)
  rw [recordCalls_wait waits free, ended_of_none closed]
  cases started : next.call with
  | none => exact ended_of_none started
  | some call =>
      rw [ended_of_in_flight started (by rw [session]; exact unclosed)]
      rfl

theorem recordCalls_going_tail (going : (∃ text, action = .delta text) ∨
      ∃ outcome, action = .brainEnds outcome) :
    (recordCalls bridge action next calls).tail = calls.tail := by
  rcases going with ⟨text, rfl⟩ | ⟨outcome, rfl⟩
  · unfold recordCalls
    simp
  · unfold recordCalls
    cases outcome <;> simp

theorem discardSpeculation_call (done : bridge.point = .done → bridge.call = none)
    (thenStart : Bool) :
    (bridge.discardSpeculation config thenStart).call = bridge.call := by
  unfold discardSpeculation
  split
  · split
    · exact startSpeech_call
    · rfl
  · split
    case isTrue ended =>
      have none : ({ bridge with held := false }.finishDiscard config).call = bridge.call :=
        (done ended).symm
      split
      · exact startSpeech_call.trans none
      · exact none
    case isFalse => rfl

/-! ### The session -/

theorem startSpeech_session : bridge.startSpeech.session = bridge.session := by
  unfold startSpeech
  split <;> rfl

theorem discardSpeculation_session (thenStart : Bool) :
    (bridge.discardSpeculation config thenStart).session = bridge.session := by
  unfold discardSpeculation
  split
  · split
    · exact startSpeech_session
    · rfl
  · split
    · split
      · exact startSpeech_session
      · rfl
    · rfl

theorem release_session : bridge.release.session = bridge.session := by
  cases out : bridge.run.released with
  | true => rw [release_of_released out]
  | false => rw [release_eq out]

theorem onEndOfTurn_session (signal : EndOfTurn) :
    (bridge.onEndOfTurn signal).session = bridge.session := by
  unfold onEndOfTurn
  dsimp only
  split
  · split
    · exact release_session
    · rfl
  · rfl

theorem onDelta_session (text : Text) : (bridge.onDelta text).session = bridge.session := by
  unfold onDelta
  split
  · rfl
  · split
    · rfl
    · split
      · exact release_session
      · rfl

theorem stopWaiting_session (timedOut : Bool) :
    (bridge.stopWaiting config timedOut).session = bridge.session := by
  have collected (before : CascadeBridge) :
      (before.collect config).session = before.session := by
    rw [collect_eq]
    split <;> rfl
  unfold stopWaiting
  split
  · exact collected _
  · exact collected _

theorem onEndOfTurn_call (signal : EndOfTurn) :
    (bridge.onEndOfTurn signal).call = bridge.call := by
  unfold onEndOfTurn
  dsimp only
  split
  · split
    · exact release_call
    · rfl
  · rfl

theorem onDelta_call (text : Text) : (bridge.onDelta text).call = bridge.call := by
  unfold onDelta
  split
  · rfl
  · split
    · rfl
    · split
      · exact release_call
      · rfl

theorem stopWaiting_cost (timedOut : Bool) :
    (bridge.stopWaiting config timedOut).brainCostUsd = bridge.brainCostUsd := by
  have collected (before : CascadeBridge) :
      (before.collect config).brainCostUsd = before.brainCostUsd := by
    rw [collect_eq]
    split <;> rfl
  unfold stopWaiting
  split
  · exact collected _
  · exact collected _

theorem keepUsage_call (outcome : ReplyOutcome) :
    (bridge.keepUsage outcome).call = bridge.call := by
  cases outcome <;> rfl

theorem keepUsage_session (outcome : ReplyOutcome) :
    (bridge.keepUsage outcome).session = bridge.session := by
  cases outcome <;> rfl

theorem Ledgered.metered_iff_of_replyOver (kept : Ledgered (bridge, calls))
    (silent : BridgeAction.silent action = true) (replying : bridge.point = .replying)
    (outcome : ReplyOutcome)
    (bare : bridge.endsUnpriced action = (bridge.run.confirmed && outcome.bare))
    (read : bridge.endsEstimated action = false)
    (ended : ∀ usage, outcome = .ok usage → bridge.brainTask = .ended outcome) :
    Metered config (bridge.replyOver config outcome,
        recordCalls bridge action (bridge.replyOver config outcome) calls) ↔
      Metered config (bridge, calls) ∧ Accounts config (bridge, calls) action := by
  have late := TaskPoint.late_of_replying replying
  unfold CascadeBridge.replyOver
  split
  case isTrue confirmed =>
    refine kept.metered_iff_of_reply outcome silent late (conclude_call outcome) ?_ ?_ read ?_
    · rw [conclude_cost, keepUsage_cost]
    · rw [bare, confirmed, Bool.true_and]
    · rintro usage rfl call started tracks
      exact tracks.ended usage (ended usage rfl)
  case isFalse unconfirmed =>
    refine metered_iff_of_steady silent (keepUsage_cost outcome) (keepUsage_call outcome) ?_ ?_ read
    · change (bridge.keepUsage outcome).session = .closed ↔ _
      rw [keepUsage_session]
    · rw [bare, eq_false_of_ne_true unconfirmed, Bool.false_and]

/-- A step leaves each call that is over charged what it costs exactly when it meets its
condition. -/
theorem Ledgered.metered_iff (kept : Ledgered (bridge, calls)) (coherent : bridge.Coherent)
    (taken : bridge.Step config action next) :
    Metered config (next, recordCalls bridge action next calls) ↔
      Metered config (bridge, calls) ∧ Accounts config (bridge, calls) action := by
  cases taken.moves with
  | speechStart hears =>
      have heard : Ledgered ({ bridge with detector := .speaking }, calls) := { kept with }
      have ended := (coherent.attended.free hears.1 hears.2.1).2.1
      refine metered_iff_of_steady rfl (heard.discardSpeculation config ended true).2
        (discardSpeculation_call ?_ true) ?_ rfl rfl
      · exact fun done => kept.no_call_of_settled (ended done)
      · rw [discardSpeculation_session]
  | pauseStart hears =>
      unfold CascadeBridge.onPauseStart
      split
      · exact metered_iff_of_steady rfl rfl rfl Iff.rfl rfl rfl
      · exact metered_iff_of_steady rfl rfl rfl Iff.rfl rfl rfl
  | pauseCancelled hears =>
      have heard : Ledgered ({ bridge with detector := .speaking }, calls) := { kept with }
      have ended := (coherent.attended.free hears.1 hears.2.1).2.1
      refine metered_iff_of_steady rfl (heard.discardSpeculation config ended false).2
        (discardSpeculation_call ?_ false) ?_ rfl rfl
      · exact fun done => kept.no_call_of_settled (ended done)
      · rw [discardSpeculation_session]
  | endOfTurn signal hears =>
      obtain ⟨live, idle, inTurn⟩ := hears_in_turn hears
      have heard : Ledgered ({ bridge with detector := .idle }, calls) := { kept with }
      refine metered_iff_of_steady rfl
        (heard.onEndOfTurn live (coherent.ended_of_free live idle inTurn) signal).1
        (onEndOfTurn_call signal) ?_ rfl rfl
      rw [onEndOfTurn_session]
  | bargedIn live waiting done =>
      exact kept.metered_iff_of_bargeIn live waiting
        (coherent.attended.busy live (by simp [waiting])).1
  | discarded live thenStart waiting done =>
      split
      · exact kept.metered_iff_of_discard live waiting startSpeech_call startSpeech_cost
      · exact kept.metered_iff_of_discard live waiting rfl rfl
  | startTurn ready => exact metered_iff_of_steady rfl rfl rfl Iff.rfl rfl rfl
  | requestSent ready => exact metered_iff_of_steady rfl rfl rfl Iff.rfl rfl rfl
  | finalizeReturns ready => exact metered_iff_of_steady rfl rfl rfl Iff.rfl rfl rfl
  | finalizeRaises timedOut calm early =>
      exact kept.metered_iff_of_wait early (Or.inl ⟨timedOut, rfl⟩) (stopWaiting_cost timedOut)
        (stopWaiting_session timedOut)
  | stopWaiting timedOut calm early =>
      exact kept.metered_iff_of_wait early (Or.inr ⟨timedOut, rfl⟩) (stopWaiting_cost timedOut)
        (stopWaiting_session timedOut)
  | brainTimeout calm replying =>
      refine kept.metered_iff_of_replyOver rfl replying .timeout ?_ rfl
        (fun _ same => by cases same)
      exact (Bool.and_true _).symm
  | replied outcome calm replying ended =>
      refine kept.metered_iff_of_replyOver rfl replying outcome ?_ rfl (fun _ _ => ended)
      unfold endsUnpriced outcomeAtHand
      simp [replying, ended]
  | confirmed outcome calm waiting confirmed =>
      have late := TaskPoint.late_of_waiting waiting
      refine kept.metered_iff_of_reply outcome rfl late (conclude_call outcome)
        (conclude_cost outcome) ?_ rfl ?_
      · unfold endsUnpriced outcomeAtHand
        simp [confirmed, waiting]
      · rintro usage rfl call started tracks
        exact (tracks.used usage (tracks.waiting usage waiting)).1
  | cancelled cancelling => exact metered_iff_of_steady rfl rfl rfl Iff.rfl rfl rfl
  | delta text running =>
      have late : bridge.point.late = true := coherent.toldKept.calling (by simp [running])
      obtain ⟨call, inFlight⟩ := kept.in_flight late
      exact metered_iff_of_going (recordCalls_going_tail (Or.inl ⟨text, rfl⟩)) inFlight
        (onDelta_call text) (kept.unclosed (TaskPoint.ne_done_of_late late))
        (onDelta_session text) rfl rfl
  | brainEnds outcome running =>
      have late : bridge.point.late = true := coherent.toldKept.calling (by simp [running])
      obtain ⟨call, inFlight⟩ := kept.in_flight late
      exact metered_iff_of_going (recordCalls_going_tail (Or.inr ⟨outcome, rfl⟩)) inFlight
        rfl (kept.unclosed (TaskPoint.ne_done_of_late late)) rfl rfl rfl
  | sttPartial phrase text =>
      unfold pumpPartial
      dsimp only
      split
      · exact metered_iff_of_steady rfl rfl rfl Iff.rfl rfl rfl
      · exact metered_iff_of_steady rfl rfl rfl Iff.rfl rfl rfl
  | sttFinal phrase text =>
      unfold pumpFinal
      dsimp only
      split
      · exact metered_iff_of_steady rfl rfl rfl Iff.rfl rfl rfl
      · split <;> split <;> exact metered_iff_of_steady rfl rfl rfl Iff.rfl rfl rfl
  | sttEnds error =>
      unfold pumpEnds
      dsimp only
      split
      · exact metered_iff_of_steady rfl rfl rfl Iff.rfl rfl rfl
      · exact metered_iff_of_steady rfl rfl rfl Iff.rfl rfl rfl
  | interrupt audioEndMs =>
      unfold CascadeBridge.interrupt applyHeard
      split
      · split
        · exact metered_iff_of_steady rfl rfl rfl Iff.rfl rfl rfl
        · exact metered_iff_of_steady rfl rfl rfl Iff.rfl rfl rfl
      · split
        · exact metered_iff_of_steady rfl rfl rfl Iff.rfl rfl rfl
        · exact metered_iff_of_steady rfl rfl rfl Iff.rfl rfl rfl
  | close live =>
      refine metered_iff_of_steady rfl rfl rfl ?_ rfl rfl
      rw [live]
      simp
  | closed closing done =>
      refine kept.metered_iff_of_closed ?_ rfl rfl
      rw [closing]
      decide

theorem connected_ledgered : Ledgered (connected, []) where
  attributed := rfl
  asked := fun late => by cases late
  unended := fun inFlight => absurd rfl inFlight
  shut := fun _ => rfl
  used := fun _ used => absurd rfl used
  tracked := by
    intro call inFlight
    cases inFlight

/-- In every run the meter has what the calls were charged; each call that is over was charged
what it costs exactly when every step of the run has met its condition. -/
theorem brain_calls_metered_iff (config : BridgeConfig) (actions : List BridgeAction)
    (last : CascadeBridge) (calls : List StartedCall)
    (run : Run (Run.observed (Step config) recordCalls) (connected, []) actions (last, calls)) :
    last.brainCostUsd = (calls.map StartedCall.charged).sum ∧
      ((∀ started ∈ last.ended calls, started.charged = started.due config) ↔
        Run (fun state action next => Run.observed (Step config) recordCalls state action next ∧
          Accounts config state action) (connected, []) actions (last, calls)) := by
  have preserved : ∀ state action next, state.1.Coherent ∧ Ledgered state →
      Run.observed (Step config) recordCalls state action next →
        next.1.Coherent ∧ Ledgered next := by
    rintro ⟨bridge, calls⟩ action ⟨next, after⟩ ⟨coherent, kept⟩ ⟨taken, recorded⟩
    have same : after = recordCalls bridge action next calls := recorded
    subst same
    exact ⟨coherent.step taken, kept.step coherent taken⟩
  have kept := run.invariant (fun state => state.1.Coherent ∧ Ledgered state) (connected, [])
    ⟨connected_coherent, connected_ledgered⟩ preserved
  refine ⟨kept.2.attributed, ?_⟩
  refine Run.guarded_iff (fun state => state.1.Coherent ∧ Ledgered state) (Metered config)
    (Accounts config) ⟨connected_coherent, connected_ledgered⟩ preserved ?_ ?_ run
  · intro started member
    cases member
  · rintro ⟨bridge, calls⟩ action ⟨next, after⟩ ⟨coherent, kept⟩ ⟨taken, recorded⟩
    have same : after = recordCalls bridge action next calls := recorded
    subst same
    exact kept.metered_iff coherent taken

end Charges

section Calls

def observedStep (config : BridgeConfig) (state : CascadeBridge × List StartedCall)
    (action : BridgeAction) : Option (CascadeBridge × List StartedCall) :=
  (state.1.step config action).map
    (fun next => (next, recordCalls state.1 action next state.2))

theorem observed_of_observedStep {config : BridgeConfig}
    {state next : CascadeBridge × List StartedCall} {action : BridgeAction}
    (taken : observedStep config state action = some next) :
    Run.observed (Step config) recordCalls state action next := by
  obtain ⟨bridge, reached, same⟩ := Option.map_eq_some_iff.mp taken
  cases same
  exact ⟨reached, rfl⟩

theorem observed_of_foldlM {config : BridgeConfig} {actions : List BridgeAction}
    {last : CascadeBridge × List StartedCall}
    (computed : actions.foldlM (observedStep config) (connected, []) = some last) :
    Run (Run.observed (Step config) recordCalls) (connected, []) actions last :=
  (Run.of_foldlM _ _ _ computed).mono (fun _ _ _ taken => observed_of_observedStep taken)

def letterBrain : BridgeConfig where
  brain :=
    { conversation := fun history userText => history ++ [{ role := .user, text := userText }]
      estimateUsage := fun _ response => { costUsd := response.length } }

def startedReply : List BridgeAction :=
  [.speechStart, .sttPartial 0 ['a'], .endOfTurn {}, .startTurn, .requestSent, .finalizeReturns,
    .stopWaiting true, .delta ['x', 'y']]

def finishedRun : List BridgeAction :=
  startedReply ++ [.brainEnds (.ok { costUsd := 3 }), .proceed, .close, .closed]

theorem brain_calls_metered_iff_finished :
    ∃ last calls,
      Run (Run.observed (Step letterBrain) recordCalls) (connected, []) finishedRun
          (last, calls) ∧
        last.brainCostUsd = (calls.map StartedCall.charged).sum ∧
        ((∀ started ∈ last.ended calls, started.charged = started.due letterBrain) ↔
          Run (fun state action next =>
            Run.observed (Step letterBrain) recordCalls state action next ∧
              Accounts letterBrain state action) (connected, []) finishedRun (last, calls)) := by
  have possible : (finishedRun.foldlM (observedStep letterBrain)
      (connected, [])).isSome = true := by decide +kernel
  obtain ⟨⟨last, calls⟩, reached⟩ := Option.isSome_iff_exists.mp possible
  have run := observed_of_foldlM reached
  exact ⟨last, calls, run, brain_calls_metered_iff letterBrain finishedRun last calls run⟩

def bargedRun : List BridgeAction :=
  startedReply ++ [.speechStart, .cancelled, .resumeHandler, .close, .closed]

theorem brain_call_unmetered :
    ∃ last calls,
      Run (Run.observed (Step letterBrain) recordCalls) (connected, []) bargedRun (last, calls) ∧
        last.session = .closed ∧ last.brainCostUsd = 0 ∧
        (calls.map (StartedCall.due letterBrain)).sum = 2 := by
  have computed : (bargedRun.foldlM (observedStep letterBrain) (connected, [])).map
      (fun last => (decide (last.1.session = .closed), last.1.brainCostUsd,
        (last.2.map (StartedCall.due letterBrain)).sum)) = some (true, 0, 2) := by
    decide +kernel
  obtain ⟨⟨last, calls⟩, reached, said⟩ := Option.map_eq_some_iff.mp computed
  obtain ⟨closed, rest⟩ := Prod.mk.inj said
  obtain ⟨cost, due⟩ := Prod.mk.inj rest
  exact ⟨last, calls, observed_of_foldlM reached, of_decide_eq_true closed, cost, due⟩

end Calls
end CascadeBridge
end Assemblix.Realtime
