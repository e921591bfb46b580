import Assemblix.Library.ListUpdate
import Assemblix.Library.Run
import Assemblix.Realtime.HalfCascade

/-
The end of a voice call and its final hook.

`VoiceSessionRuntime.run` from the moment the bridge is connected: the two pumps, the wait for
them and the clean-up with its `await`s, each of which may raise. A pump that has been cancelled
may take further steps here before it ends; the real one takes none. Of a transcript line the
role, the text and the debugging records are kept, its timings are not.
-/

namespace Assemblix.Realtime

open Library

/-- What an `await` of the call may raise. -/
inductive CallFailure
  | avatar (reason : String)
  | other (message : String)
  deriving DecidableEq

structure CallLine where
  role : Role
  text : Text
  llmCall : Option Json := none
  usage : Option (Dict String Json) := none
  deriving DecidableEq

structure SpokenLine where
  role : Role
  text : Text
  deriving DecidableEq

def CallLine.spoken (line : CallLine) : SpokenLine :=
  { role := line.role, text := line.text }

inductive RuntimePump
  | client
  | bridge
  deriving DecidableEq

inductive PumpOutcome
  | returned
  | cancelled
  | raised (failure : CallFailure)
  deriving DecidableEq

inductive PumpState
  | notStarted
  | running
  | cancelling
  | ended (outcome : PumpOutcome)
  deriving DecidableEq

def PumpState.alive : PumpState → Bool
  | .running => true
  | .cancelling => true
  | _ => false

/-- Where `run` is. -/
inductive CallPhase
  -- Connected; the ready frame is on its way.
  | connected
  | waiting
  -- Waits for a pump that it has cancelled; the rest is still to be cancelled.
  | stopping (awaited : RuntimePump) (rest done : List RuntimePump)
  -- In the `finally`: `bridge.close`, `on_stopped`, the farewell frame, `dispatch_final`.
  | closing
  | tearing
  | farewell (reason : String)
  | dispatching
  | ended
  deriving DecidableEq

inductive CallEntry
  | closeBridge
  | mediaStopped
  | farewell (reason : String)
  | dispatchFinal (transcript : List SpokenLine) (reason : String)
  deriving DecidableEq

structure CallConfig where
  hasDispatcher : Bool
  hasOnStopped : Bool

structure VoiceCall where
  phase : CallPhase := .connected
  client : PumpState := .notStarted
  bridge : PumpState := .notStarted
  closedReason : Option String := none
  transcript : List CallLine := []
  turnStart : Nat := 0
  -- What `run` raises at its end.
  failure : Option CallFailure := none
  log : List CallEntry := []
  deriving DecidableEq

inductive CallAction
  | readySent (raised : Option CallFailure)
  -- `asyncio.wait` returns, by the time limit or by a pump.
  | wake (timedOut clientFirst : Bool)
  | stopped
  | bridgeClosed (raised : Option CallFailure)
  | mediaStopped (raised : Option CallFailure)
  | farewellSent (raised : Option CallFailure)
  | dispatched
  -- The client's pump.
  | hangUp
  | clientEnds (outcome : PumpOutcome)
  -- The bridge's pump.
  | transcript (role : Role) (text : Text) (isFinal : Bool)
  | turnEnded (llmCall : Option Json) (usage : Option (Dict String Json))
  | bridgeError (isFatal : Bool)
  | sessionClosed (reason : String)
  | bridgeEnds (outcome : PumpOutcome)
  deriving DecidableEq

namespace VoiceCall

def pump (call : VoiceCall) : RuntimePump → PumpState
  | .client => call.client
  | .bridge => call.bridge

def setPump (call : VoiceCall) (pump : RuntimePump) (state : PumpState) : VoiceCall :=
  match pump with
  | .client => { call with client := state }
  | .bridge => { call with bridge := state }

def note (call : VoiceCall) (entry : CallEntry) : VoiceCall :=
  { call with log := call.log ++ [entry] }

/-! ### The wait and the stopping of the pumps -/

/-- Into the `finally`, with what is raised again after it. -/
def enterFinally (call : VoiceCall) (failure : Option CallFailure) : VoiceCall :=
  { call with phase := .closing, failure := failure }.note .closeBridge

/-- `task.result()` of the pumps that were done. -/
def results (call : VoiceCall) : List RuntimePump → VoiceCall
  | [] => call.enterFinally none
  | pump :: rest =>
      match call.pump pump with
      | .ended (.raised (.avatar reason)) =>
          { call with closedReason := some reason }.enterFinally (some (.avatar reason))
      | .ended (.raised (.other message)) => call.enterFinally (some (.other message))
      | _ => call.results rest

def stopPending (call : VoiceCall) (done : List RuntimePump) : List RuntimePump → VoiceCall
  | [] => call.results done
  | pump :: rest =>
      let cancelled :=
        if (call.pump pump).alive then call.setPump pump .cancelling else call
      { cancelled with phase := .stopping pump rest done }

/-- `asyncio.wait` gives two sets, so the order in each is arbitrary. -/
def wake (call : VoiceCall) (clientFirst : Bool) : VoiceCall :=
  let pumps := if clientFirst then [RuntimePump.client, .bridge] else [.bridge, .client]
  let done := pumps.filter (fun pump => !(call.pump pump).alive)
  let pending := pumps.filter (fun pump => (call.pump pump).alive)
  let limited := if done = [] then { call with closedReason := some "timeout" } else call
  limited.stopPending done pending

/-! ### The clean-up -/

/-- `self._closed_reason or "completed"`. -/
def reason (call : VoiceCall) : String :=
  match call.closedReason with
  | some "" => "completed"
  | some reason => reason
  | none => "completed"

def sayFarewell (call : VoiceCall) : VoiceCall :=
  { call with phase := .farewell call.reason }

def dispatchFinal (config : CallConfig) (call : VoiceCall) (reason : String) : VoiceCall :=
  if config.hasDispatcher then
    { call with phase := .dispatching }.note
      (.dispatchFinal (call.transcript.map CallLine.spoken) reason)
  else { call with phase := .ended }

/-! ### The bridge's pump -/

/-- `_on_transcript`, up to its frame to the client. -/
def onTranscript (call : VoiceCall) (role : Role) (text : Text) (isFinal : Bool) :
    VoiceCall :=
  if isFinal then { call with transcript := call.transcript ++ [{ role, text }] } else call

def lastLine (call : VoiceCall) (role : Role) : Option Nat :=
  (List.range call.transcript.length).reverse.find? (fun index =>
    decide (call.turnStart ≤ index ∧
      call.transcript[index]?.map CallLine.role = some role))

/-- `_attach_turn_record`. -/
def attachTurnRecord (call : VoiceCall) (llmCall : Option Json)
    (usage : Option (Dict String Json)) : VoiceCall :=
  let ended := { call with turnStart := call.transcript.length }
  if llmCall = none ∧ usage = none then ended
  else
    match (call.lastLine .assistant).or (call.lastLine .user) with
    | none => ended
    | some index =>
        { ended with
          transcript := call.transcript.modify index (fun line =>
            { line with llmCall := llmCall.or line.llmCall, usage := usage.or line.usage }) }

/-! ### Steps -/

def pumpEnds (call : VoiceCall) (pump : RuntimePump) (outcome : PumpOutcome) :
    Option VoiceCall :=
  if (call.pump pump).alive ∧
      (outcome = .cancelled → call.pump pump = .cancelling) then
    some (call.setPump pump (.ended outcome))
  else none

def step (config : CallConfig) (call : VoiceCall) : CallAction → Option VoiceCall
  | .readySent raised =>
      if call.phase = .connected then
        match raised with
        | none => some { call with phase := .waiting, client := .running, bridge := .running }
        | some failure => some { call with phase := .ended, failure := some failure }
      else none
  | .wake timedOut clientFirst =>
      if call.phase = .waiting ∧
          (timedOut ∨ call.client.alive = false ∨ call.bridge.alive = false) then
        some (call.wake clientFirst)
      else none
  | .stopped =>
      match call.phase with
      | .stopping pump rest done =>
          match call.pump pump with
          | .ended (.raised failure) => some (call.enterFinally (some failure))
          | .ended _ => some (call.stopPending done rest)
          | _ => none
      | _ => none
  | .bridgeClosed raised =>
      if call.phase = .closing then
        match raised with
        | some failure => some { call with phase := .ended, failure := some failure }
        | none =>
            if config.hasOnStopped then some { call with phase := .tearing }
            else some call.sayFarewell
      else none
  | .mediaStopped _ =>
      if call.phase = .tearing then some (call.note .mediaStopped).sayFarewell else none
  | .farewellSent _ =>
      match call.phase with
      | .farewell reason => some ((call.note (.farewell reason)).dispatchFinal config reason)
      | _ => none
  | .dispatched => if call.phase = .dispatching then some { call with phase := .ended } else none
  | .hangUp =>
      if call.client.alive then
        some { call with closedReason := some "user_hangup", client := .ended .returned }
      else none
  | .clientEnds outcome => call.pumpEnds .client outcome
  | .transcript role text isFinal =>
      if call.bridge.alive then
        some (call.onTranscript role text isFinal)
      else none
  | .turnEnded llmCall usage =>
      if call.bridge.alive then
        some (call.attachTurnRecord llmCall usage)
      else none
  | .bridgeError isFatal =>
      if call.bridge.alive then
        if isFatal then
          some { call with closedReason := some "error", bridge := .ended .returned }
        else some call
      else none
  | .sessionClosed reason =>
      if call.bridge.alive then
        some { call with closedReason := some reason, bridge := .ended .returned }
      else none
  | .bridgeEnds outcome => call.pumpEnds .bridge outcome

def Step (config : CallConfig) (call : VoiceCall) (action : CallAction) (next : VoiceCall) :
    Prop :=
  call.step config action = some next

end VoiceCall

/-! ### What the final hook gets -/

def CallEntry.isDispatch : CallEntry → Bool
  | .dispatchFinal _ _ => true
  | _ => false

/-- `run` is past the clean-up of the bridge and the media, for better or worse. -/
def CallPhase.isOver : CallPhase → Bool
  | .dispatching => true
  | .ended => true
  | _ => false

namespace VoiceCall

variable {config : CallConfig} {call next : VoiceCall}

/-- The final lines received so far, as the final hook is to get them. -/
def lines (call : VoiceCall) : List SpokenLine :=
  call.transcript.map CallLine.spoken

/-- The final hook was dispatched exactly once, with every final line, after the bridge was asked
to close and the media was torn down. -/
def Hooked (config : CallConfig) (call : VoiceCall) : Prop :=
  ∃ before after reason, call.log = before ++ .dispatchFinal call.lines reason :: after ∧
    (∀ entry ∈ before ++ after, entry.isDispatch = false) ∧ .closeBridge ∈ before ∧
      (config.hasOnStopped = true → .mediaStopped ∈ before)

def cleanUp (config : CallConfig) : List CallEntry :=
  .closeBridge :: if config.hasOnStopped then [.mediaStopped] else []

def Hooking (config : CallConfig) (call : VoiceCall) (given : List SpokenLine) : Prop :=
  given <+: call.lines ∧ ∃ reason,
    call.log = cleanUp config ++ [.farewell reason] ++ [.dispatchFinal given reason]

def Tracked (config : CallConfig) (call : VoiceCall) : Prop :=
  match call.phase with
  | .connected => call.log = []
  | .waiting => call.log = []
  | .stopping _ _ _ => call.log = []
  | .closing => call.log = [.closeBridge]
  | .tearing => config.hasOnStopped = true ∧ call.log = [.closeBridge]
  | .farewell _ => call.log = cleanUp config
  | .dispatching => ∃ given, call.Hooking config given
  | .ended => (∀ entry ∈ call.log, entry.isDispatch = false) ∨ ∃ given, call.Hooking config given

theorem cleanUp_quiet : ∀ entry ∈ cleanUp config, entry.isDispatch = false := by
  intro entry member
  rcases List.mem_cons.mp member with rfl | later
  · rfl
  · split at later
    · rw [List.mem_singleton.mp later]
      rfl
    · cases later

theorem not_hooked (quiet : ∀ entry ∈ call.log, entry.isDispatch = false) :
    ¬ call.Hooked config := by
  rintro ⟨before, after, reason, listed, _⟩
  have dispatched := quiet (.dispatchFinal call.lines reason) (by rw [listed]; simp)
  cases dispatched

theorem Hooking.hooked_iff {given : List SpokenLine} (hooking : call.Hooking config given) :
    call.Hooked config ↔ given = call.lines := by
  obtain ⟨_, reason, logged⟩ := hooking
  constructor
  · rintro ⟨before, after, reason', listed, _⟩
    have member : CallEntry.dispatchFinal call.lines reason' ∈
        cleanUp config ++ [.farewell reason] ++ [.dispatchFinal given reason] := by
      rw [← logged, listed]
      simp
    rcases List.mem_append.mp member with earlier | last
    · rcases List.mem_append.mp earlier with cleaned | farewell
      · have quiet := cleanUp_quiet _ cleaned
        cases quiet
      · cases List.mem_singleton.mp farewell
    · cases List.mem_singleton.mp last
      rfl
  · intro all
    subst all
    refine ⟨cleanUp config ++ [.farewell reason], [], reason, logged, ?_, ?_, ?_⟩
    · intro entry member
      rw [List.append_nil] at member
      rcases List.mem_append.mp member with cleaned | farewell
      · exact cleanUp_quiet entry cleaned
      · rw [List.mem_singleton.mp farewell]
        rfl
    · exact List.mem_append_left _ List.mem_cons_self
    · intro media
      refine List.mem_append_left _ (List.mem_cons_of_mem _ ?_)
      rw [if_pos media]
      exact List.mem_cons_self

def Unbroken (config : CallConfig) (call : VoiceCall) : CallAction → Prop
  | .readySent raised => raised = none
  | .bridgeClosed raised => raised = none
  | .farewellSent _ => config.hasDispatcher = true
  | .transcript _ _ isFinal => isFinal = true → call.phase.isOver = false
  | _ => True

def OnCourse (config : CallConfig) (call : VoiceCall) : Prop :=
  call.phase.isOver = true → call.Hooked config

theorem Tracked.hooked (tracked : call.Tracked config) (ended : call.phase.isOver = true) :
    (∀ entry ∈ call.log, entry.isDispatch = false) ∨ ∃ given, call.Hooking config given := by
  unfold Tracked at tracked
  split at tracked
  case h_7 => exact Or.inr tracked
  case h_8 => exact tracked
  all_goals
    rename_i phase
    rw [phase] at ended
    cases ended

/-! ### The pumps -/

/-- A step beside `run` itself. -/
structure Beside (call next : VoiceCall) : Prop where
  phase : next.phase = call.phase
  log : next.log = call.log
  lines : call.lines <+: next.lines

namespace Beside

theorem of_same (phase : next.phase = call.phase) (log : next.log = call.log)
    (transcript : next.transcript = call.transcript) : Beside call next where
  phase := phase
  log := log
  lines := by
    unfold VoiceCall.lines
    rw [transcript]

theorem tracked (beside : Beside call next) (tracked : call.Tracked config) :
    next.Tracked config := by
  have hooking {given : List SpokenLine} (hooking : call.Hooking config given) :
      next.Hooking config given := by
    obtain ⟨some, reason, logged⟩ := hooking
    exact ⟨some.trans beside.lines, reason, beside.log.trans logged⟩
  unfold Tracked at tracked ⊢
  rw [beside.phase, beside.log]
  split at tracked
  case h_7 =>
    obtain ⟨given, here⟩ := tracked
    exact ⟨given, hooking here⟩
  case h_8 =>
    rcases tracked with quiet | ⟨given, here⟩
    · exact Or.inl quiet
    · exact Or.inr ⟨given, hooking here⟩
  all_goals exact tracked

theorem onCourse_iff (beside : Beside call next) (same : next.lines = call.lines) :
    next.OnCourse config ↔ call.OnCourse config := by
  unfold OnCourse Hooked
  rw [beside.phase, beside.log, same]

end Beside

theorem setPump_beside (pump : RuntimePump) (state : PumpState) :
    Beside call (call.setPump pump state) := by
  cases pump with
  | client => exact .of_same rfl rfl rfl
  | bridge => exact .of_same rfl rfl rfl

theorem setPump_lines (pump : RuntimePump) (state : PumpState) :
    (call.setPump pump state).lines = call.lines := by
  cases pump <;> rfl

theorem pumpEnds_beside {pump : RuntimePump} {outcome : PumpOutcome}
    (ended : call.pumpEnds pump outcome = some next) :
    Beside call next ∧ next.lines = call.lines := by
  simp only [pumpEnds, Option.ite_none_right_eq_some] at ended
  obtain ⟨_, same⟩ := ended
  cases same
  exact ⟨setPump_beside pump _, setPump_lines pump _⟩

theorem attachTurnRecord_beside (call : VoiceCall) (llmCall : Option Json) (usage : Option (Dict String Json)) :
    Beside call (call.attachTurnRecord llmCall usage) ∧
      (call.attachTurnRecord llmCall usage).lines = call.lines := by
  unfold attachTurnRecord
  dsimp only
  split
  · exact ⟨.of_same rfl rfl rfl, rfl⟩
  · split
    · exact ⟨.of_same rfl rfl rfl, rfl⟩
    · rename_i index _
      have same : (call.transcript.modify index (fun line =>
          { line with llmCall := llmCall.or line.llmCall, usage := usage.or line.usage })).map
            CallLine.spoken = call.transcript.map CallLine.spoken :=
        map_modify_of_same CallLine.spoken call.transcript index (fun _ => rfl)
      refine ⟨⟨rfl, rfl, ?_⟩, same⟩
      change call.lines <+: (call.transcript.modify index _).map CallLine.spoken
      rw [same]
      exact List.prefix_refl _

theorem onTranscript_lines (call : VoiceCall) (role : Role) (text : Text) :
    (call.onTranscript role text true).lines = call.lines ++ [SpokenLine.mk role text] := by
  unfold onTranscript VoiceCall.lines
  rw [if_pos rfl, List.map_append]
  rfl

theorem late_line (tracked : call.Tracked config) (role : Role) (text : Text)
    (ended : call.phase.isOver = true) :
    ¬ (call.onTranscript role text true).Hooked config := by
  have longer := onTranscript_lines call role text
  have same : (call.onTranscript role text true).log = call.log := by
    unfold onTranscript
    rw [if_pos rfl]
  rcases tracked.hooked ended with quiet | ⟨given, some, reason, logged⟩
  · refine not_hooked ?_
    rw [same]
    exact quiet
  · have still : (call.onTranscript role text true).Hooking config given := by
      refine ⟨?_, reason, same.trans logged⟩
      rw [longer]
      exact some.trans (List.prefix_append _ _)
    rw [still.hooked_iff, longer]
    intro all
    have short := some.length_le
    rw [all, List.length_append, List.length_singleton] at short
    omega

/-! ### Into the clean-up -/

def Stopping (call next : VoiceCall) : Prop :=
  (∃ awaited rest done, next.phase = .stopping awaited rest done) ∧ next.log = call.log ∨
    next.phase = .closing ∧ next.log = call.log ++ [.closeBridge]

theorem results_stopping (done : List RuntimePump) : Stopping call (call.results done) := by
  induction done with
  | nil => exact Or.inr ⟨rfl, rfl⟩
  | cons pump rest ih =>
      unfold results
      split
      · exact Or.inr ⟨rfl, rfl⟩
      · exact Or.inr ⟨rfl, rfl⟩
      · exact ih

theorem stopPending_stopping (call : VoiceCall) (done pending : List RuntimePump) :
    Stopping call (call.stopPending done pending) := by
  cases pending with
  | nil => exact results_stopping done
  | cons pump rest =>
      refine Or.inl ⟨⟨pump, rest, done, rfl⟩, ?_⟩
      unfold stopPending
      dsimp only
      split
      · exact (setPump_beside pump _).log
      · rfl

theorem wake_stopping (clientFirst : Bool) : Stopping call (call.wake clientFirst) := by
  unfold wake
  dsimp only
  generalize (if clientFirst then [RuntimePump.client, .bridge] else [.bridge, .client]) = pumps
  split
  · let limited : VoiceCall := { call with closedReason := some "timeout" }
    exact stopPending_stopping limited _ _
  · exact stopPending_stopping call _ _

theorem Stopping.tracked (stopping : Stopping call next) (before : call.log = []) :
    next.Tracked config ∧ next.phase.isOver = false := by
  unfold Tracked
  rcases stopping with ⟨⟨awaited, rest, done, phase⟩, log⟩ | ⟨phase, log⟩
  · rw [before] at log
    rw [phase]
    exact ⟨log, rfl⟩
  · rw [before] at log
    rw [phase]
    exact ⟨log, rfl⟩

/-! ### Every step -/

theorem onCourse_of_not_over (early : call.phase.isOver = false) : call.OnCourse config := by
  intro ended
  rw [early] at ended
  cases ended

/-- What one step does to the record and to the hook. -/
def Follows (config : CallConfig) (call : VoiceCall) (action : CallAction) (next : VoiceCall) :
    Prop :=
  next.Tracked config ∧
    (next.OnCourse config ↔ call.OnCourse config ∧ call.Unbroken config action)

section Follows

variable {action : CallAction}

theorem Beside.follows (beside : Beside call next) (same : next.lines = call.lines)
    (tracked : call.Tracked config) (unbroken : call.Unbroken config action) :
    Follows config call action next := by
  refine ⟨beside.tracked tracked, ?_⟩
  rw [beside.onCourse_iff same]
  exact ⟨fun onCourse => ⟨onCourse, unbroken⟩, fun both => both.1⟩

theorem Follows.of_early (tracked : next.Tracked config) (before : call.phase.isOver = false)
    (after : next.phase.isOver = false) (unbroken : call.Unbroken config action) :
    Follows config call action next :=
  ⟨tracked, fun _ => ⟨onCourse_of_not_over before, unbroken⟩, fun _ => onCourse_of_not_over after⟩

theorem Follows.of_lost (tracked : next.Tracked config) (ended : next.phase.isOver = true)
    (missing : ¬ next.Hooked config) (broken : ¬ call.Unbroken config action) :
    Follows config call action next :=
  ⟨tracked, fun onCourse => absurd (onCourse ended) missing, fun both => absurd both.2 broken⟩

/-- The call breaks off before its hook. -/
theorem Follows.of_quiet (ended : next.phase = .ended)
    (quiet : ∀ entry ∈ next.log, entry.isDispatch = false)
    (broken : ¬ call.Unbroken config action) : Follows config call action next := by
  have tracked : next.Tracked config := by
    unfold Tracked
    rw [ended]
    exact Or.inl quiet
  exact .of_lost tracked (by rw [ended]; rfl) (not_hooked quiet) broken

end Follows

variable (tracked : call.Tracked config)
include tracked

theorem readySent_follows {raised : Option CallFailure}
    (taken : call.step config (.readySent raised) = some next) :
    Follows config call (.readySent raised) next := by
  obtain ⟨phase, same⟩ := Option.ite_none_right_eq_some.mp taken
  unfold Tracked at tracked
  rw [phase] at tracked
  cases raised with
  | none =>
      cases same
      exact .of_early tracked (by rw [phase]; rfl) rfl rfl
  | some failure =>
      cases same
      refine .of_quiet rfl ?_ (fun kept => by cases kept)
      change ∀ entry ∈ call.log, _
      rw [tracked]
      intro entry member
      cases member

theorem stopped_follows (taken : call.step config .stopped = some next) :
    Follows config call .stopped next := by
  simp only [step] at taken
  split at taken
  · rename_i pump rest done phase
    unfold Tracked at tracked
    rw [phase] at tracked
    have before : call.phase.isOver = false := by rw [phase]; rfl
    split at taken
    · rename_i failure _
      cases taken
      have after : (call.enterFinally (some failure)).Tracked config := by
        change call.log ++ _ = _
        rw [tracked]
        rfl
      exact .of_early after before rfl trivial
    · cases taken
      obtain ⟨after, notOver⟩ := (stopPending_stopping call done rest).tracked tracked
      exact .of_early after before notOver trivial
    · cases taken
  · cases taken

theorem bridgeClosed_follows {raised : Option CallFailure}
    (taken : call.step config (.bridgeClosed raised) = some next) :
    Follows config call (.bridgeClosed raised) next := by
  obtain ⟨phase, same⟩ := Option.ite_none_right_eq_some.mp taken
  unfold Tracked at tracked
  rw [phase] at tracked
  have before : call.phase.isOver = false := by rw [phase]; rfl
  cases raised with
  | some failure =>
      cases same
      refine .of_quiet rfl ?_ (fun kept => by cases kept)
      change ∀ entry ∈ call.log, _
      rw [tracked]
      intro entry member
      rw [List.mem_singleton.mp member]
      rfl
  | none =>
      dsimp only at same
      split at same
      · rename_i media
        cases same
        exact .of_early ⟨media, tracked⟩ before rfl rfl
      · rename_i noMedia
        cases same
        have after : call.sayFarewell.Tracked config := by
          change call.log = cleanUp config
          rw [tracked, cleanUp, if_neg noMedia]
        exact .of_early after before rfl rfl

theorem mediaStopped_follows {raised : Option CallFailure}
    (taken : call.step config (.mediaStopped raised) = some next) :
    Follows config call (.mediaStopped raised) next := by
  obtain ⟨phase, same⟩ := Option.ite_none_right_eq_some.mp taken
  cases same
  unfold Tracked at tracked
  rw [phase] at tracked
  have after : (call.note .mediaStopped).sayFarewell.Tracked config := by
    change call.log ++ [.mediaStopped] = cleanUp config
    rw [tracked.2, cleanUp, if_pos tracked.1]
    rfl
  exact .of_early after (by rw [phase]; rfl) rfl trivial

theorem dispatchFinal_tracked {reason : String} (phase : call.phase = .farewell reason) :
    let sent := (call.note (.farewell reason)).dispatchFinal config reason
    sent.Tracked config ∧ (sent.OnCourse config ↔ config.hasDispatcher = true) := by
  unfold Tracked at tracked
  rw [phase] at tracked
  unfold dispatchFinal
  split
  · rename_i dispatcher
    have hooking : Hooking config ({ call.note (.farewell reason) with
        phase := .dispatching }.note (.dispatchFinal (call.transcript.map CallLine.spoken) reason))
        call.lines := by
      refine ⟨List.prefix_refl _, reason, ?_⟩
      change call.log ++ _ ++ _ = _
      rw [tracked]
      rfl
    refine ⟨⟨_, hooking⟩, ?_⟩
    exact ⟨fun _ => dispatcher, fun _ _ => hooking.hooked_iff.mpr rfl⟩
  · rename_i noDispatcher
    have quiet : ∀ entry ∈ (call.note (.farewell reason)).log, entry.isDispatch = false := by
      intro entry member
      rcases List.mem_append.mp member with earlier | last
      · rw [tracked] at earlier
        exact cleanUp_quiet entry earlier
      · rw [List.mem_singleton.mp last]
        rfl
    refine ⟨Or.inl quiet, ?_⟩
    constructor
    · intro onCourse
      exact absurd (onCourse rfl) (not_hooked quiet)
    · intro dispatcher
      exact absurd dispatcher noDispatcher

theorem farewellSent_follows {raised : Option CallFailure}
    (taken : call.step config (.farewellSent raised) = some next) :
    Follows config call (.farewellSent raised) next := by
  simp only [step] at taken
  split at taken
  · rename_i reason phase
    cases taken
    obtain ⟨after, onCourse⟩ := dispatchFinal_tracked tracked phase
    have before : call.OnCourse config := onCourse_of_not_over (by rw [phase]; rfl)
    refine ⟨after, onCourse.trans ?_⟩
    exact ⟨fun dispatcher => ⟨before, dispatcher⟩, fun both => both.2⟩
  · cases taken

theorem transcript_follows {role : Role} {text : Text} {isFinal : Bool} :
    Follows config call (.transcript role text isFinal) (call.onTranscript role text isFinal) := by
  cases isFinal with
  | false => exact Beside.follows (.of_same rfl rfl rfl) rfl tracked (by intro final; cases final)
  | true =>
      have aside : Beside call (call.onTranscript role text true) :=
        ⟨rfl, rfl, onTranscript_lines call role text ▸ List.prefix_append _ _⟩
      have after := aside.tracked tracked
      cases ended : call.phase.isOver with
      | false => exact .of_early after ended ended (fun _ => ended)
      | true =>
          refine .of_lost after ended (late_line tracked role text ended) ?_
          intro kept
          have early := kept rfl
          rw [ended] at early
          cases early

theorem tracked_step {action : CallAction} (taken : call.step config action = some next) :
    Follows config call action next := by
  cases action with
  | readySent raised => exact readySent_follows tracked taken
  | wake timedOut clientFirst =>
      simp only [step, Option.ite_none_right_eq_some] at taken
      obtain ⟨⟨phase, _⟩, same⟩ := taken
      cases same
      unfold Tracked at tracked
      rw [phase] at tracked
      obtain ⟨after, notOver⟩ := (wake_stopping clientFirst).tracked tracked
      exact .of_early after (by rw [phase]; rfl) notOver trivial
  | stopped => exact stopped_follows tracked taken
  | bridgeClosed raised => exact bridgeClosed_follows tracked taken
  | mediaStopped raised => exact mediaStopped_follows tracked taken
  | farewellSent raised => exact farewellSent_follows tracked taken
  | dispatched =>
      obtain ⟨phase, same⟩ := Option.ite_none_right_eq_some.mp taken
      cases same
      unfold Tracked at tracked
      rw [phase] at tracked
      refine ⟨Or.inr tracked, ?_⟩
      unfold OnCourse
      rw [phase]
      exact ⟨fun onCourse => ⟨onCourse, trivial⟩, fun both => both.1⟩
  | hangUp =>
      obtain ⟨_, same⟩ := Option.ite_none_right_eq_some.mp taken
      cases same
      exact Beside.follows (.of_same rfl rfl rfl) rfl tracked trivial
  | clientEnds outcome =>
      obtain ⟨aside, same⟩ := pumpEnds_beside taken
      exact aside.follows same tracked trivial
  | transcript role text isFinal =>
      obtain ⟨_, same⟩ := Option.ite_none_right_eq_some.mp taken
      cases same
      exact transcript_follows tracked
  | turnEnded llmCall usage =>
      obtain ⟨_, same⟩ := Option.ite_none_right_eq_some.mp taken
      cases same
      obtain ⟨aside, same⟩ := attachTurnRecord_beside call llmCall usage
      exact aside.follows same tracked trivial
  | bridgeError isFatal =>
      obtain ⟨_, same⟩ := Option.ite_none_right_eq_some.mp taken
      split at same
      · cases same
        exact Beside.follows (.of_same rfl rfl rfl) rfl tracked trivial
      · cases same
        exact Beside.follows (.of_same rfl rfl rfl) rfl tracked trivial
  | sessionClosed reason =>
      obtain ⟨_, same⟩ := Option.ite_none_right_eq_some.mp taken
      cases same
      exact Beside.follows (.of_same rfl rfl rfl) rfl tracked trivial
  | bridgeEnds outcome =>
      obtain ⟨aside, same⟩ := pumpEnds_beside taken
      exact aside.follows same tracked trivial

omit tracked

/-! ### Calls to their end -/

def UnbrokenStep (config : CallConfig) (call : VoiceCall) (action : CallAction)
    (next : VoiceCall) : Prop :=
  call.Step config action next ∧ call.Unbroken config action

/-- However a call ends, its final hook is dispatched exactly once, with every final line and after
the clean-up, exactly where the ready frame went out, closing the bridge did not raise, there is a
dispatcher, and no final line came after the dispatch. -/
theorem final_hook_outlives (config : CallConfig) (actions : List CallAction)
    (last : VoiceCall) (run : Run (Step config) {} actions last) (ended : last.phase = .ended) :
    last.Hooked config ↔ Run (UnbrokenStep config) {} actions last := by
  have connected : Tracked config {} := rfl
  have onCourse : last.OnCourse config ↔ Run (UnbrokenStep config) {} actions last :=
    Run.guarded_iff (Tracked config) (OnCourse config) (Unbroken config) connected
      (fun _ _ _ tracked taken => (tracked_step tracked taken).1)
      (onCourse_of_not_over rfl)
      (fun _ _ _ tracked taken => (tracked_step tracked taken).2) run
  have ended : last.phase.isOver = true := by
    rw [ended]
    rfl
  exact ⟨fun hooked => onCourse.mp (fun _ => hooked), fun unbroken => onCourse.mpr unbroken ended⟩

instance (config : CallConfig) (call : VoiceCall) :
    (action : CallAction) → Decidable (call.Unbroken config action)
  | .readySent raised => inferInstanceAs (Decidable (raised = none))
  | .bridgeClosed raised => inferInstanceAs (Decidable (raised = none))
  | .farewellSent _ => inferInstanceAs (Decidable (config.hasDispatcher = true))
  | .transcript _ _ isFinal =>
      inferInstanceAs (Decidable (isFinal = true → call.phase.isOver = false))
  | .wake _ _ | .stopped | .mediaStopped _ | .dispatched | .hangUp | .clientEnds _ | .turnEnded _ _
  | .bridgeError _ | .sessionClosed _ | .bridgeEnds _ => isTrue trivial

def hookedCall : CallConfig where
  hasDispatcher := true
  hasOnStopped := true

/-- The caller is gone in the middle of a frame, and neither the media nor the farewell frame
fares better. -/
def brokenOff : List CallAction :=
  [.readySent none, .transcript .user ['h', 'i'] true,
    .bridgeEnds (.raised (.other "disconnected")), .wake false true, .clientEnds .cancelled,
    .stopped, .bridgeClosed none, .mediaStopped (some (.other "room gone")),
    .farewellSent (some (.other "disconnected")), .dispatched]

theorem final_hook_outlives_disconnect :
    ∃ last, Run (Step hookedCall) {} brokenOff last ∧ last.Hooked hookedCall := by
  obtain ⟨last, unbroken, ended⟩ := Run.of_guardedStep (step hookedCall) (Unbroken hookedCall) {}
    brokenOff VoiceCall.phase .ended (by decide +kernel)
  have run : Run (Step hookedCall) {} brokenOff last :=
    unbroken.mono (fun _ _ _ step => step.1)
  have hooked := final_hook_outlives hookedCall brokenOff last run ended
  exact ⟨last, run, hooked.mpr unbroken⟩

/-- What `close` of the cascade bridge leaves. -/
structure CascadeClosed where
  sttSeconds : ℚ
  queued : ConversationEvent
  raised : Option CallFailure

/-- `close` of the cascade bridge, by what closing its recognizer raises: the seconds are kept and
the end is queued in any case. -/
def closeCascade (billedSeconds : ℚ) (sttClose : Option CallFailure) : CascadeClosed where
  sttSeconds := billedSeconds
  queued := .sessionClosed "closed"
  raised := sttClose

def recognizerStuck : List CallAction :=
  [.readySent none, .transcript .user ['h', 'i'] true, .hangUp, .wake false true,
    .bridgeEnds .cancelled, .stopped,
    .bridgeClosed (closeCascade 30 (some (.other "close failed"))).raised]

/-- Then the call ends without its final hook. -/
theorem close_failure_skips_hook :
    ∃ last, Run (Step hookedCall) {} recognizerStuck last ∧ last.phase = .ended ∧
      ¬ last.Hooked hookedCall := by
  obtain ⟨last, run, holds⟩ := Run.of_foldlM_map (step hookedCall) {} recognizerStuck
    (fun last => decide (last.phase = .ended ∧ ∀ entry ∈ last.log, entry.isDispatch = false)) true
    (by decide +kernel)
  obtain ⟨ended, quiet⟩ := of_decide_eq_true holds
  exact ⟨last, run, ended, not_hooked quiet⟩

end VoiceCall

end Assemblix.Realtime
