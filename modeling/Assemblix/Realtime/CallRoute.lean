import Assemblix.Library.Coroutine

/-
The life of a voice call: `VoiceSessionRuntime.run` inside `stream_voice_session`.

The route from where it has its runtime. Every `await` may return, raise or be cancelled; what
happens while the pumps run is one await, which tells how the `try` around them ended.
-/

namespace Assemblix.Realtime

open Library

/-! ### Awaits -/

inductive AwaitError
  | avatar (reason : String)
  | disconnected
  | runtime (message : String)
  | other (message : String)
  | cancelled
  deriving DecidableEq

namespace AwaitError

/-- What `except Exception` catches. -/
def isException : AwaitError → Bool
  | cancelled => false
  | _ => true

/-- What `except RuntimeError` catches. -/
def isRuntime : AwaitError → Bool
  | runtime _ => true
  | _ => false

end AwaitError

inductive JoinTask
  | connect
  | prepare
  deriving DecidableEq

inductive CallAwait
  | connect
  -- `asyncio.wait` for both tasks.
  | connectAndPrepare
  -- A task that was cancelled.
  | settle (task : JoinTask)
  | ready
  | pumps
  | bridgeClose
  | onStopped
  | farewell (reason : String)
  | dispatchFinal (reason : String)
  | deleteRoom (room : String)
  | closeMedia
  | closeVoiceSession (endReason : String)
  | sendClosed (reason : String)
  | closeSocket
  deriving DecidableEq

abbrev TaskResult := Except AwaitError Unit

/-- What an await came back with; each reads the fields that concern it. -/
structure CallValue where
  -- The tasks that are done when the wait for both returns.
  connect : Option TaskResult := none
  prepare : Option TaskResult := none
  -- Of two failed tasks, whose failure is raised: `done` is a set.
  connectFirst : Bool := true
  -- `_closed_reason` and what is raised when the pumps have stopped.
  closedReason : Option String := none
  raised : Option AwaitError := none

abbrev CallLog := AwaitLog CallAwait CallValue AwaitError

abbrev CallRoutine := Coroutine CallAwait CallValue AwaitError

def awaited (op : CallAwait) : CallRoutine Unit := do
  let _ ← Coroutine.await op

/-! ### The runtime -/

structure RuntimeConfig where
  hasPrepare : Bool
  hasOnStopped : Bool
  hasDispatcher : Bool
  deriving DecidableEq

def settled (task : JoinTask) : CallRoutine Unit :=
  .suppress (fun _ => true) (awaited (.settle task))

/-- The `except BaseException` of `run`, once both tasks are done. -/
def abandon (failure : AwaitError) : CallRoutine Unit := do
  .suppress AwaitError.isException (awaited .bridgeClose)
  .raise failure

/-- What `task.result()` raises for the tasks that are done. -/
def CallValue.failure (value : CallValue) : Option AwaitError :=
  let raisedBy : Option TaskResult → Option AwaitError
    | some (.error failure) => some failure
    | _ => none
  if value.connectFirst then (raisedBy value.connect).or (raisedBy value.prepare)
  else (raisedBy value.prepare).or (raisedBy value.connect)

/-- The provider handshake overlapped with the avatar. A wait that is cancelled leaves both tasks
to be settled; a task that is done by then gives its result at once. -/
def connectWithAvatar : CallRoutine Unit :=
  (Coroutine.await .connectAndPrepare).after fun
    | .error failure => do
        settled .connect
        settled .prepare
        abandon failure
    | .ok value => do
        -- The tasks that are pending are cancelled and awaited.
        .only value.connect.isNone (settled .connect)
        .only value.prepare.isNone (settled .prepare)
        match value.failure with
        | none => .finish ()
        | some failure => abandon failure

/-- `self._closed_reason or "completed"`. -/
def closingReason : Option String → String
  | some "" => "completed"
  | some reason => reason
  | none => "completed"

def leaveCall (config : RuntimeConfig) (reason : String) : CallRoutine Unit := do
  .only config.hasOnStopped (.suppress AwaitError.isException (awaited .onStopped))
  .suppress AwaitError.isException (awaited (.farewell reason))
  .only config.hasDispatcher (awaited (.dispatchFinal reason))

/-- The `finally` of `run`. -/
def cleanUpCall (config : RuntimeConfig) (reason : String) : CallRoutine Unit := do
  awaited .bridgeClose
  leaveCall config reason

/-- How the `try` around the pumps ended: the reason and what is raised again. -/
def stoppedPumps : Except AwaitError CallValue → String × Option AwaitError
  | .ok value => (closingReason value.closedReason, value.raised)
  | .error failure => (closingReason none, some failure)

def runCall (config : RuntimeConfig) : CallRoutine String := do
  if config.hasPrepare then connectWithAvatar else awaited .connect
  awaited .ready
  (Coroutine.await .pumps).after fun ended => do
    cleanUpCall config (stoppedPumps ended).1
    match (stoppedPumps ended).2 with
    | none => .finish (stoppedPumps ended).1
    | some failure => .raise failure

/-! ### The route -/

structure CallScope where
  room : Option String
  hasAvatar : Bool
  deriving DecidableEq

namespace CallScope

/-- `avatar_call_mismatch`. -/
def mismatch (scope : CallScope) : Option String :=
  if scope.room.isSome ∧ scope.hasAvatar = false then some "avatar_unavailable" else none

def avatarCall (scope : CallScope) : Bool := scope.room.isSome && scope.hasAvatar

def config (scope : CallScope) : RuntimeConfig where
  hasPrepare := scope.avatarCall
  hasOnStopped := scope.avatarCall
  hasDispatcher := true

end CallScope

/-- `end_reason` and `close_reason`. -/
structure CallEnding where
  endReason : String := "error"
  closeReason : Option String
  deriving DecidableEq

/-- `media` is set: the avatar was prepared, and nothing has closed it yet. -/
def mediaOpen (log : CallLog) : Bool :=
  log.any (fun entry =>
    match entry with
    | (.connectAndPrepare, .ok value) => value.prepare.any Except.isOk
    | (.settle .prepare, .ok _) => true
    | _ => false) &&
  !log.any (fun entry => entry.1 = .onStopped || entry.1 = .closeMedia)

def leaveRoom : Option String → CallRoutine Unit
  | none => .finish ()
  | some room => awaited (.deleteRoom room)

/-- The `try` of the route. -/
def attemptCall (scope : CallScope) : CallRoutine CallEnding :=
  match scope.mismatch with
  | none => do
      let reason ← runCall scope.config
      .finish { endReason := reason, closeReason := none }
  | some mismatch => do
      leaveRoom scope.room
      .finish { closeReason := some mismatch }

/-- Its `except` clauses; a cancellation passes them. -/
def exceptCall (scope : CallScope) : AwaitError → CallRoutine CallEnding
  | .avatar reason => do
      .suppress AwaitError.isException (awaited .bridgeClose)
      .finish { closeReason := some reason }
  | .disconnected => .finish { endReason := "user_hangup", closeReason := scope.mismatch }
  | .cancelled => .raise .cancelled
  | _ =>
      .finish
        { closeReason :=
            if scope.avatarCall ∧ scope.mismatch = none then some "avatar_unavailable"
            else scope.mismatch }

def sayClosed : Option String → CallRoutine Unit
  | none => .finish ()
  | some reason => do
      .suppress AwaitError.isException (awaited (.sendClosed reason))
      .suppress AwaitError.isRuntime (awaited .closeSocket)

/-- The `finally` of the route. -/
def settleCall (ending : CallEnding) : CallRoutine Unit := do
  let log ← Coroutine.observe
  .only (mediaOpen log) (awaited .closeMedia)
  awaited (.closeVoiceSession ending.endReason)
  sayClosed ending.closeReason
  .suppress AwaitError.isRuntime (awaited .closeSocket)

/-- `stream_voice_session` from its runtime on. -/
def streamCall (scope : CallScope) : CallRoutine Unit :=
  ((attemptCall scope).catching (exceptCall scope)).after fun
    | .ok ending => settleCall ending
    | .error failure => do
        settleCall { closeReason := scope.mismatch }
        .raise failure

/-! ### What each part awaits -/

/-- An await of the `finally` of the route. -/
def CallAwait.settles : CallAwait → Bool
  | .closeMedia => true
  | .closeVoiceSession _ => true
  | .sendClosed _ => true
  | .closeSocket => true
  | _ => false

/-- An await that follows the close of the bridge in the `finally` of `run`. -/
def CallAwait.leaves : CallAwait → Bool
  | .onStopped => true
  | .farewell _ => true
  | .dispatchFinal _ => true
  | _ => false

def Settling (op : CallAwait) : Prop := op.settles = true

def Leaving (op : CallAwait) : Prop := op.leaves = true

/-- Before the `finally` of the route. -/
def Early (op : CallAwait) : Prop := op.settles = false

structure Side (op : CallAwait) : Prop where
  early : Early op
  pumps : op ≠ .pumps

theorem Leaving.side {op : CallAwait} (leaving : Leaving op) : Side op := by
  cases op with
  | onStopped => exact ⟨rfl, by simp⟩
  | farewell reason => exact ⟨rfl, by simp⟩
  | dispatchFinal reason => exact ⟨rfl, by simp⟩
  | _ => cases leaving

section Awaits

open Coroutine (Awaits Triple)

theorem awaits_awaited {allowed : CallAwait → Prop} {op : CallAwait} (holds : allowed op) :
    Awaits allowed (awaited op) :=
  (Awaits.await holds).bind (fun _ => .finish ())

theorem triple_awaited {op : CallAwait} {pre next : CallLog → Prop}
    (holds : ∀ log answer, pre log → next (log ++ [(op, answer)])) :
    Triple pre (awaited op) (fun _ log => next log) :=
  .bind (fun _ log => next log) (.await holds) (fun _ => .finish (fun _ reached => reached))
    (fun _ _ reached => reached)

theorem side_awaited {op : CallAwait} (early : op.settles = false) (other : op ≠ .pumps) :
    Awaits Side (awaited op) :=
  awaits_awaited ⟨early, other⟩

theorem leaving_awaited {op : CallAwait} (leaves : op.leaves = true) :
    Awaits Leaving (awaited op) :=
  awaits_awaited leaves

theorem settling_awaited {op : CallAwait} (settles : op.settles = true) :
    Awaits Settling (awaited op) :=
  awaits_awaited settles

theorem awaits_settled (task : JoinTask) : Awaits Side (settled task) :=
  (side_awaited rfl (by simp)).suppress

theorem awaits_abandon (failure : AwaitError) : Awaits Side (abandon failure) :=
  (side_awaited rfl (by simp)).suppress.bind (fun _ => .raise failure)

theorem awaits_connectWithAvatar : Awaits Side connectWithAvatar := by
  refine .after (.await ⟨rfl, by simp⟩) ?_
  intro ended
  cases ended with
  | error failure =>
      exact (awaits_settled .connect).bind (fun _ => (awaits_settled .prepare).bind
        (fun _ => awaits_abandon failure))
  | ok value =>
      refine (Awaits.only (fun _ => awaits_settled .connect)).bind
        (fun _ => (Awaits.only (fun _ => awaits_settled .prepare)).bind (fun _ => ?_))
      cases value.failure with
      | none => exact .finish ()
      | some failure => exact awaits_abandon failure

theorem awaits_leave (config : RuntimeConfig) (reason : String) :
    Awaits Leaving (leaveCall config reason) :=
  (Awaits.only (fun _ => (leaving_awaited rfl).suppress)).bind
    (fun _ => (leaving_awaited rfl).suppress.bind (fun _ => .only (fun _ => leaving_awaited rfl)))

theorem awaits_cleanUp (config : RuntimeConfig) (reason : String) :
    Awaits Side (cleanUpCall config reason) :=
  (side_awaited rfl (by simp)).bind
    (fun _ => (awaits_leave config reason).imp (fun _ leaving => leaving.side))

theorem awaits_run (config : RuntimeConfig) : Awaits Early (runCall config) := by
  have later : Awaits Early (do
      awaited .ready
      (Coroutine.await .pumps).after fun ended => do
        cleanUpCall config (stoppedPumps ended).1
        match (stoppedPumps ended).2 with
        | none => .finish (stoppedPumps ended).1
        | some failure => .raise failure) := by
    refine ((side_awaited rfl (by simp)).imp (fun _ side => side.early)).bind
      (fun _ => Awaits.after (Awaits.await rfl) (fun ended =>
        ((awaits_cleanUp config _).imp (fun _ side => side.early)).bind (fun _ => ?_)))
    cases (stoppedPumps ended).2 with
    | none => exact .finish _
    | some failure => exact .raise failure
  unfold runCall
  cases config.hasPrepare with
  | true => exact (awaits_connectWithAvatar.imp (fun _ side => side.early)).bind (fun _ => later)
  | false =>
      exact ((side_awaited rfl (by simp)).imp (fun _ side => side.early)).bind (fun _ => later)

theorem awaits_leaveRoom (room : Option String) : Awaits Side (leaveRoom room) := by
  cases room with
  | none => exact .finish ()
  | some room => exact side_awaited rfl (by simp)

theorem awaits_except (scope : CallScope) (failure : AwaitError) :
    Awaits Side (exceptCall scope failure) := by
  cases failure with
  | avatar reason => exact (side_awaited rfl (by simp)).suppress.bind (fun _ => .finish _)
  | cancelled => exact .raise _
  | disconnected => exact .finish _
  | runtime message => exact .finish _
  | other message => exact .finish _

theorem awaits_attempt (scope : CallScope) :
    Awaits Early ((attemptCall scope).catching (exceptCall scope)) := by
  refine .catching ?_ (fun failure => (awaits_except scope failure).imp (fun _ side => side.early))
  unfold attemptCall
  cases scope.mismatch with
  | none => exact (awaits_run scope.config).bind (fun _ => .finish _)
  | some mismatch =>
      exact ((awaits_leaveRoom scope.room).imp (fun _ side => side.early)).bind
        (fun _ => .finish _)

/-- The `finally` of the route, once the media is closed. -/
theorem awaits_recorded (ending : CallEnding) : Awaits Settling
    (do
      awaited (.closeVoiceSession ending.endReason)
      sayClosed ending.closeReason
      .suppress AwaitError.isRuntime (awaited .closeSocket)) := by
  refine (settling_awaited rfl).bind
    (fun _ => .bind ?_ (fun _ => (settling_awaited rfl).suppress))
  cases ending.closeReason with
  | none => exact .finish ()
  | some reason =>
      exact (settling_awaited rfl).suppress.bind (fun _ => (settling_awaited rfl).suppress)

theorem awaits_settle (ending : CallEnding) : Awaits Settling (settleCall ending) :=
  Awaits.observe.bind (fun _ => (Awaits.only (fun _ => settling_awaited rfl)).bind
    (fun _ => awaits_recorded ending))

end Awaits

end Assemblix.Realtime
