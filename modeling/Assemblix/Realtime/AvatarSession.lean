import Assemblix.Realtime.CallRoute

/-
The vendor session and the media room of an avatar call.

`open_avatar_media` with the start of a LiveAvatar session inside it, and `AvatarMedia.close`. A
time limit interrupts the await it expires on; what leaves its block is a `TimeoutError`. Several
sleeps of one wait are one await here.
-/

namespace Assemblix.Realtime

open Library

/-! ### Awaits -/

inductive TimeScope
  | join
  | stopRequest
  | vendorStop
  | teardown
  deriving DecidableEq

inductive JoinError
  | avatar (reason : String)
  -- `httpx.HTTPError`.
  | transport
  | system
  -- `TimeoutError`, which is an `OSError`.
  | timeout
  | other (message : String)
  | cancelled
  -- A time limit on its way out of its block, as a cancellation.
  | expired (scope : TimeScope)
  deriving DecidableEq

/-- What `except Exception` catches. -/
def JoinError.isException : JoinError → Bool
  | .cancelled => false
  | .expired _ => false
  | _ => true

inductive AvatarAwait
  | roomConnect
  | tokenRequest
  | startRequest
  | connectSocket
  | waitConnected
  | bothSides
  -- The wait for the shielded `_end`.
  | shield
  | stopRequest
  | closeOutput
  -- Within a time limit of its own, or without one.
  | disconnect (limited : Bool)
  | deleteRoom
  deriving DecidableEq

/-- What an await came back with; each reads the fields that concern it. -/
structure AvatarValue where
  -- What reading the response raises; of a shielded wait, what cut it short.
  failure : Option JoinError := none
  -- A shielded wait that was cut short, with how far `_end` gets before the route returns.
  cut : Option Nat := none

abbrev AvatarEvent := AvatarAwait × Except JoinError AvatarValue

abbrev AvatarLog := AwaitLog AvatarAwait AvatarValue JoinError

abbrev AvatarRoutine := Coroutine AvatarAwait AvatarValue JoinError

def avatarAwaited (op : AvatarAwait) : AvatarRoutine Unit := do
  let _ ← Coroutine.await op

def raisedBy : Except JoinError AvatarValue → Option JoinError
  | .ok value => value.failure
  | .error failure => some failure

def requested (op : AvatarAwait) : AvatarRoutine Unit :=
  (Coroutine.await op).after fun answer =>
    match raisedBy answer with
    | none => .finish ()
    | some failure => .raise failure

/-- `httpx.HTTPError | OSError`. -/
def JoinError.unreachable : JoinError → Bool
  | .transport => true
  | .system => true
  | .timeout => true
  | _ => false

/-- `async with asyncio.timeout(..)`. -/
def withTimeout (scope : TimeScope) (body : AvatarRoutine Unit) : AvatarRoutine Unit :=
  body.catching fun failure => .raise (if failure = .expired scope then .timeout else failure)

/-! ### The vendor session -/

/-- `_stop`: catches the errors of the transport and its own time limit. -/
def stopSession : AvatarRoutine Unit :=
  .suppress (fun failure => decide (failure = .transport ∨ failure = .timeout))
    (withTimeout .stopRequest (requested .stopRequest))

/-- `_end`; the output is there once the socket is. -/
def endSession (hasOutput : Bool) : AvatarRoutine Unit := do
  stopSession
  .only hasOutput (avatarAwaited .closeOutput)

/-- What a detached `_end` does before the route returns. -/
def detachedEnd (hasOutput : Bool) : Nat → AvatarRoutine Unit
  | 0 => .finish ()
  | 1 => .suppress (fun _ => true) stopSession
  | _ => .suppress (fun _ => true) (endSession hasOutput)

/-- `asyncio.shield(_end(..))`. -/
def shieldedEnd (hasOutput : Bool) : AvatarRoutine Unit :=
  (Coroutine.await .shield).after fun
    | .error failure => .raise failure
    | .ok value =>
        match value.cut with
        | none => endSession hasOutput
        | some progress => do
            detachedEnd hasOutput progress
            .raise (value.failure.getD .cancelled)

def makesSocket : AvatarEvent → Bool
  | (.connectSocket, .ok _) => true
  | _ => false

def startsVendor : AvatarEvent → Bool
  | (.waitConnected, .ok _) => true
  | _ => false

def socketMade (log : AvatarLog) : Bool := log.any makesSocket

def vendorStarted (log : AvatarLog) : Bool := log.any startsVendor

def startAndConnect : AvatarRoutine Unit := do
  requested .startRequest
  avatarAwaited .connectSocket
  avatarAwaited .waitConnected

/-- `start_livekit_session` of LiveAvatar. -/
def startLiveAvatar : AvatarRoutine Unit := do
  (requested .tokenRequest).catching fun failure =>
    .raise (if failure = .transport then .avatar "avatar_unavailable" else failure)
  startAndConnect.catching fun failure => do
    let log ← Coroutine.observe
    shieldedEnd (socketMade log)
    .raise (if failure.unreachable then .avatar "avatar_unavailable" else failure)

/-! ### The room -/

/-- `_stop_vendor` of a LiveAvatar session, which has an output. -/
def stopVendor : AvatarRoutine Unit :=
  .suppress JoinError.isException (withTimeout .vendorStop (endSession true))

/-- `delete_room`. -/
def deleteAvatarRoom : AvatarRoutine Unit :=
  .suppress JoinError.isException (withTimeout .teardown (avatarAwaited .deleteRoom))

def joinRoom : AvatarRoutine Unit :=
  withTimeout .join do
    avatarAwaited .roomConnect
    startLiveAvatar
    avatarAwaited .bothSides

/-- The `except BaseException` of `open_avatar_media`. -/
def abandonMedia (failure : JoinError) : AvatarRoutine Unit := do
  let log ← Coroutine.observe
  .only (vendorStarted log) stopVendor
  .suppress JoinError.isException (avatarAwaited (.disconnect false))
  deleteAvatarRoom
  .raise (if failure = .timeout then .avatar "avatar_unavailable" else failure)

/-- `open_avatar_media` for a LiveAvatar avatar. -/
def openAvatarMedia : AvatarRoutine Unit := joinRoom.catching abandonMedia

/-- `AvatarMedia.close`. -/
def closeAvatarMedia : AvatarRoutine Unit := do
  stopVendor
  .suppress JoinError.isException (withTimeout .teardown (avatarAwaited (.disconnect true)))
  deleteAvatarRoom

/-! ### What a log says of a session -/

def startSent (log : AvatarLog) : Bool := log.any (fun event => decide (event.1 = .startRequest))

def stopSent (log : AvatarLog) : Bool := log.any (fun event => decide (event.1 = .stopRequest))

def closesOutput : AvatarEvent → Bool
  | (.closeOutput, .ok _) => true
  | _ => false

def outputClosed (log : AvatarLog) : Bool := log.any closesOutput

def roomDeleted (log : AvatarLog) : Bool := log.any (fun event => decide (event.1 = .deleteRoom))

def Ended (log : AvatarLog) : Prop :=
  startSent log = true →
    stopSent log = true ∧ (socketMade log = true → outputClosed log = true) ∧
      roomDeleted log = true

/-- What the stop request may end with for `_stop` to go on. -/
def stopCaught (answer : Except JoinError AvatarValue) : Bool :=
  (raisedBy answer).all (fun failure =>
    decide (failure = .transport ∨ failure = .timeout ∨ failure = .expired .stopRequest))

/-- An await of the clean-up that is cut short: the stop request of a session with an output, by
more than `_stop` catches; the close of the output; the shielded wait, before `_end` is through;
and the disconnect, by a cancellation. -/
def cutsShort (hasOutput : Bool) : AvatarEvent → Bool
  | (.stopRequest, answer) => hasOutput && !stopCaught answer
  | (.closeOutput, .error _) => true
  | (.shield, .error _) => true
  | (.shield, .ok value) =>
      value.cut.any (fun progress => decide (progress < if hasOutput then 2 else 1))
  | (.disconnect limited, .error failure) =>
      !failure.isException && !(limited && decide (failure = .expired .teardown))
  | _ => false

def cutShort (log : AvatarLog) : Bool := log.any (cutsShort (socketMade log))

/-! ### How a session stands -/

structure AvatarView where
  started : Bool := false
  socket : Bool := false
  vendor : Bool := false
  stopped : Bool := false
  closed : Bool := false
  deleted : Bool := false
  cut : Bool := false
  deriving DecidableEq

namespace AvatarView

def or (left right : AvatarView) : AvatarView where
  started := left.started || right.started
  socket := left.socket || right.socket
  vendor := left.vendor || right.vendor
  stopped := left.stopped || right.stopped
  closed := left.closed || right.closed
  deleted := left.deleted || right.deleted
  cut := left.cut || right.cut

/-- The vendor's session is dealt with, or was cut short; its room is still there. -/
structure Faced (view : AvatarView) : Prop where
  started : view.started = true
  kept : view.deleted = false
  ended : view.stopped = true ∧ (view.socket = true → view.closed = true) ↔ view.cut = false

structure Broken (view : AvatarView) : Prop where
  started : view.started = true
  kept : view.deleted = false
  cut : view.cut = true

end AvatarView

def viewOf (hasOutput : Bool) (event : AvatarEvent) : AvatarView where
  started := decide (event.1 = .startRequest)
  socket := makesSocket event
  vendor := startsVendor event
  stopped := decide (event.1 = .stopRequest)
  closed := closesOutput event
  deleted := decide (event.1 = .deleteRoom)
  cut := cutsShort hasOutput event

def view (hasOutput : Bool) (log : AvatarLog) : AvatarView where
  started := startSent log
  socket := socketMade log
  vendor := vendorStarted log
  stopped := stopSent log
  closed := outputClosed log
  deleted := roomDeleted log
  cut := log.any (cutsShort hasOutput)

theorem view_snoc (hasOutput : Bool) (log : AvatarLog) (event : AvatarEvent) :
    view hasOutput (log ++ [event]) = (view hasOutput log).or (viewOf hasOutput event) := by
  unfold view viewOf AvatarView.or startSent socketMade vendorStarted stopSent outputClosed
    roomDeleted
  simp only [List.any_append, List.any_cons, List.any_nil, Bool.or_false]

def Stands (seen : AvatarView) (log : AvatarLog) : Prop := view seen.socket log = seen

/-- Nothing has been cut short, whatever the output. -/
def Clear (seen : AvatarView) (log : AvatarLog) : Prop := ∀ hasOutput, view hasOutput log = seen

variable {seen : AvatarView} {log : AvatarLog}

theorem Clear.stands (clear : Clear seen log) : Stands seen log := clear seen.socket

theorem Clear.snoc (clear : Clear seen log) (event : AvatarEvent)
    (same : ∀ hasOutput, viewOf hasOutput event = viewOf false event) :
    Clear (seen.or (viewOf false event)) (log ++ [event]) := by
  intro hasOutput
  rw [view_snoc, clear hasOutput, same hasOutput]

section

variable (stands : Stands seen log)
include stands

theorem Stands.snoc (event : AvatarEvent) (same : makesSocket event = false) :
    Stands (seen.or (viewOf seen.socket event)) (log ++ [event]) := by
  have socket : (seen.or (viewOf seen.socket event)).socket = seen.socket := by
    change (seen.socket || makesSocket event) = seen.socket
    rw [same, Bool.or_false]
  unfold Stands at stands ⊢
  rw [socket, view_snoc, stands]

def Accounted (log : AvatarLog) : Prop :=
  Ended log ↔ (startSent log = true → cutShort log = false)

/-- The vendor's session is dealt with, or was cut short; its room is still there. -/
def Faced (vendor : Bool) (log : AvatarLog) : Prop :=
  ∃ seen, Stands seen log ∧ seen.vendor = vendor ∧ seen.Faced

def Broken (log : AvatarLog) : Prop := ∃ seen, Stands seen log ∧ seen.Broken

def Idle (log : AvatarLog) : Prop := startSent log = false

theorem Stands.started : startSent log = seen.started :=
  congrArg AvatarView.started stands

theorem Stands.vendor : vendorStarted log = seen.vendor :=
  congrArg AvatarView.vendor stands

theorem Stands.socket : socketMade log = seen.socket :=
  congrArg AvatarView.socket stands

theorem Stands.cut : cutShort log = seen.cut := by
  unfold cutShort
  rw [stands.socket]
  exact congrArg AvatarView.cut stands

theorem Stands.ended :
    Ended log ↔ (seen.started = true →
      seen.stopped = true ∧ (seen.socket = true → seen.closed = true) ∧ seen.deleted = true) := by
  have stopped : stopSent log = seen.stopped := congrArg AvatarView.stopped stands
  have closed : outputClosed log = seen.closed := congrArg AvatarView.closed stands
  have deleted : roomDeleted log = seen.deleted := congrArg AvatarView.deleted stands
  unfold Ended
  rw [stands.started, stopped, stands.socket, closed, deleted]

end

theorem Idle.accounted (idle : Idle log) : Accounted log := by
  unfold Idle at idle
  unfold Accounted Ended
  rw [idle]
  simp

theorem Broken.accounted (broken : Broken log) : Accounted log := by
  obtain ⟨seen, stands, broken⟩ := broken
  unfold Accounted
  rw [stands.ended, stands.started, stands.cut, broken.started, broken.kept, broken.cut]
  simp

theorem Faced.deleted {vendor : Bool} (faced : Faced vendor log)
    (answer : Except JoinError AvatarValue) : Accounted (log ++ [(.deleteRoom, answer)]) := by
  obtain ⟨seen, stands, -, faced⟩ := faced
  have stands := stands.snoc (.deleteRoom, answer) rfl
  unfold Accounted
  rw [stands.ended, stands.started, stands.cut]
  have ended := faced.ended
  simp only [AvatarView.or, viewOf, makesSocket, closesOutput, cutsShort, faced.started,
    Bool.or_false, reduceCtorEq, decide_false, decide_true, Bool.or_true, and_true,
    forall_const]
  exact ended

/-! ### The vendor's part -/

open Coroutine (Triple Ends)

theorem ends_avatarAwaited {op : AvatarAwait} {pre returned failed : AvatarLog → Prop}
    (succeeds : ∀ log value, pre log → returned (log ++ [(op, .ok value)]))
    (fails : ∀ log failure, pre log → failed (log ++ [(op, .error failure)])) :
    Triple pre (avatarAwaited op) (Ends returned failed) :=
  (Triple.ends_await succeeds fails).ends_bind (fun _ => .finish (fun _ reached => reached))

theorem ends_requested {op : AvatarAwait} {pre next : AvatarLog → Prop}
    (holds : ∀ log answer, pre log → next (log ++ [(op, answer)])) :
    Triple pre (requested op) (Ends next next) := by
  have sent : Triple pre (Coroutine.await op) (fun _ log => next log) := .await holds
  refine sent.after _ ?_
  intro answer
  change Triple next (match raisedBy answer with
    | none => .finish ()
    | some failure => .raise failure) _
  cases raisedBy answer with
  | none => exact .finish (fun _ reached => reached)
  | some failure => exact .raise (fun _ reached => reached)

theorem ends_withTimeout {scope : TimeScope} {body : AvatarRoutine Unit}
    {pre returned failed : AvatarLog → Prop} (triple : Triple pre body (Ends returned failed)) :
    Triple pre (withTimeout scope body) (Ends returned failed) :=
  triple.ends_catching (fun _ => .raise (fun _ reached => reached))

theorem stopSession_run (answers : Nat → Except JoinError AvatarValue) (log : AvatarLog) :
    (stopSession.run answers log).2 = log ++ [(.stopRequest, answers log.length)] ∧
      (stopSession.run answers log).1.isOk = stopCaught (answers log.length) := by
  unfold stopSession Coroutine.suppress withTimeout requested Coroutine.catching Coroutine.after
    Coroutine.await stopCaught
  cases raised : raisedBy (answers log.length) with
  | none => simp [Coroutine.finish, Except.isOk, Except.toBool, raised]
  | some failure => 
      by_cases expired : failure = .expired .stopRequest
      · simp [Coroutine.finish, Coroutine.raise, Except.isOk, Except.toBool, raised, expired]
      · by_cases caught : failure = .transport ∨ failure = .timeout
        · simp [Coroutine.finish, Coroutine.raise, Except.isOk, Except.toBool, raised, expired,
            caught]
        · have passed := not_or.mp caught
          simp [Coroutine.raise, Except.isOk, Except.toBool, raised, expired, passed]

theorem stopSession_stands (seen : AvatarView) :
    Triple (Stands seen) stopSession
      (Ends (Stands { seen with stopped := true })
        (Stands { seen with stopped := true, cut := seen.cut || seen.socket })) := by
  intro answers log stands
  obtain ⟨sent, passed⟩ := stopSession_run answers log
  have stands := stands.snoc (.stopRequest, answers log.length) rfl
  rw [sent]
  cases ended : (stopSession.run answers log).1 with
  | ok value =>
      have caught : stopCaught (answers log.length) = true := by
        rw [← passed, ended]
        rfl
      simp only [AvatarView.or, viewOf, makesSocket, startsVendor, closesOutput, cutsShort, caught,
        Bool.or_false, reduceCtorEq, decide_false, decide_true, Bool.or_true, Bool.not_true,
        Bool.and_false] at stands
      exact stands
  | error failure =>
      have uncaught : stopCaught (answers log.length) = false := by
        rw [← passed, ended]
        rfl
      simp only [AvatarView.or, viewOf, makesSocket, startsVendor, closesOutput, cutsShort, uncaught,
        Bool.or_false, reduceCtorEq, decide_false, decide_true, Bool.or_true, Bool.not_false,
        Bool.and_true] at stands
      exact stands

def begun (socket vendor cut : Bool) : AvatarView where
  started := true
  socket := socket
  vendor := vendor
  cut := cut

/-- `_end` deals with the session, or was cut short; with an output it fails only when it was. -/
theorem endSession_faces (socket vendor : Bool) :
    Triple (Stands (begun socket vendor false)) (endSession socket)
      (Ends (Faced vendor) (fun log => Faced vendor log ∧ (socket = true → Broken log))) := by
  refine ((stopSession_stands (begun socket vendor false)).ends_imp (fun _ stands => stands) ?_).ends_bind ?_
  · intro log stands
    refine ⟨⟨_, stands, rfl, rfl, rfl, ?_⟩, fun output => ⟨_, stands, rfl, rfl, output⟩⟩
    cases socket <;> simp [begun]
  · intro _
    unfold Coroutine.only
    cases socket with
    | false => exact .finish (fun log stands => ⟨_, stands, rfl, rfl, rfl, by simp [begun]⟩)
    | true =>
        refine ends_avatarAwaited ?_ ?_
        · intro log value stands
          exact ⟨_, stands.snoc (.closeOutput, .ok value) rfl, Bool.or_false vendor, rfl, rfl, by
            simp [begun, AvatarView.or, viewOf, closesOutput, cutsShort]⟩
        · intro log failure stands
          have cut := stands.snoc (.closeOutput, .error failure) rfl
          exact ⟨⟨_, cut, Bool.or_false vendor, rfl, rfl, by
            simp [begun, AvatarView.or, viewOf, closesOutput, cutsShort]⟩,
            fun _ => ⟨_, cut, rfl, rfl, rfl⟩⟩

theorem detachedEnd_faces (socket : Bool) (progress : Nat) :
    Triple (Stands (begun socket false (decide (progress < if socket then 2 else 1))))
      (detachedEnd socket progress) (fun _ log => Faced false log) := by
  match progress with
  | 0 =>
      refine .finish (fun log stands => ⟨_, stands, rfl, rfl, rfl, ?_⟩)
      cases socket <;> simp [begun]
  | 1 =>
      refine .suppress (((stopSession_stands _).ends_imp ?_ ?_).ends_same)
      · intro log stands
        refine ⟨_, stands, rfl, rfl, rfl, ?_⟩
        cases socket <;> simp [begun]
      · intro log stands
        refine ⟨_, stands, rfl, rfl, rfl, ?_⟩
        cases socket <;> simp [begun]
  | progress + 2 =>
      have through : decide (progress + 2 < if socket then 2 else 1) = false := by
        cases socket <;> simp
      rw [through]
      exact .suppress
        (((endSession_faces socket false).ends_imp (fun _ faced => faced) (fun _ reached => reached.1)).ends_same)

theorem shieldedEnd_faces (socket : Bool) :
    Triple (Stands (begun socket false false)) (shieldedEnd socket) (fun _ log => Faced false log) := by
  refine .after (fun ended => Stands (begun socket false (cutsShort socket (.shield, ended)))) ?_ ?_
  · refine .await ?_
    intro log answer stands
    have waited := stands.snoc (.shield, answer) rfl
    simp only [AvatarView.or, viewOf, makesSocket, startsVendor, closesOutput, begun,
      Bool.or_false, Bool.false_or, reduceCtorEq, decide_false] at waited
    exact waited
  · intro ended
    cases ended with
    | error failure =>
        exact .raise (fun log stands => ⟨_, stands, rfl, rfl, rfl, by simp [begun, cutsShort]⟩)
    | ok value =>
        change Triple (Stands (begun socket false
            (value.cut.any (fun progress => decide (progress < if socket then 2 else 1)))))
          (match value.cut with
            | none => endSession socket
            | some progress => do
                detachedEnd socket progress
                .raise (value.failure.getD .cancelled)) _
        cases value.cut with
        | none =>
            exact ((endSession_faces socket false).ends_imp (fun _ faced => faced)
              (fun _ reached => reached.1)).ends_same
        | some progress =>
            exact (detachedEnd_faces socket progress).bind (fun _ log => Faced false log)
              (fun _ => .raise (fun _ faced => faced)) (fun _ _ faced => faced)

def Starting (log : AvatarLog) : Prop := ∃ socket, Clear (begun socket false false) log

theorem startAndConnect_starts :
    Triple (Clear {}) startAndConnect (Ends (Clear (begun true true false)) Starting) := by
  have started : Triple (Clear {}) (requested .startRequest)
      (Ends (Clear (begun false false false)) (Clear (begun false false false))) :=
    ends_requested (fun _ answer clear => clear.snoc (.startRequest, answer) (fun _ => rfl))
  have connected : Triple (Clear (begun false false false)) (avatarAwaited .connectSocket)
      (Ends (Clear (begun true false false)) Starting) :=
    ends_avatarAwaited (fun _ value clear => clear.snoc (.connectSocket, .ok value) (fun _ => rfl))
      (fun _ failure clear => ⟨false, clear.snoc (.connectSocket, .error failure) (fun _ => rfl)⟩)
  have waited : Triple (Clear (begun true false false)) (avatarAwaited .waitConnected)
      (Ends (Clear (begun true true false)) Starting) :=
    ends_avatarAwaited (fun _ value clear => clear.snoc (.waitConnected, .ok value) (fun _ => rfl))
      (fun _ failure clear => ⟨true, clear.snoc (.waitConnected, .error failure) (fun _ => rfl)⟩)
  exact (started.ends_imp (fun _ clear => clear) (fun _ clear => ⟨false, clear⟩)).ends_bind
    (fun _ => connected.ends_bind (fun _ => waited))

theorem startLiveAvatar_starts : Triple (Clear {}) startLiveAvatar
    (Ends (Clear (begun true true false)) (fun log => Clear {} log ∨ Faced false log)) := by
  have asked : Triple (Clear {}) (requested .tokenRequest) (Ends (Clear {}) (Clear {})) :=
    ends_requested (fun _ answer clear => clear.snoc (.tokenRequest, answer) (fun _ => rfl))
  refine (asked.ends_catching (fun _ => .raise (fun _ clear => Or.inl clear))).ends_bind ?_
  intro _
  refine startAndConnect_starts.ends_catching ?_
  intro failure
  refine .bind (fun ended log => ended = .ok log ∧ Starting log)
    (.observe (fun _ starting => ⟨rfl, starting⟩)) ?_ ?_
  · intro seen
    refine .bind (fun _ log => Faced false log) ?_
      (fun _ => .raise (fun _ faced => Or.inr faced)) (fun _ _ faced => Or.inr faced)
    intro answers log given
    obtain ⟨same, socket, clear⟩ := given
    cases same
    have made : socketMade seen = socket := clear.stands.socket
    rw [made]
    exact shieldedEnd_faces socket answers seen clear.stands
  · intro failure log given
    cases given.1

/-! ### The room's part -/

theorem ends_suppress {caught : JoinError → Bool} {body : AvatarRoutine Unit}
    {pre returned failed : AvatarLog → Prop} (triple : Triple pre body (Ends returned failed))
    (recovers : ∀ log, failed log → returned log) :
    Triple pre (Coroutine.suppress caught body) (Ends returned failed) := by
  refine triple.ends_catching ?_
  intro failure
  split
  · exact .finish recovers
  · exact .raise (fun _ reached => reached)

theorem stopVendor_faces : Triple (Stands (begun true true false)) stopVendor
    (Ends (Faced true) (fun log => Faced true log ∧ Broken log)) := by
  refine ends_suppress (ends_withTimeout ((endSession_faces true true).ends_imp ?_ ?_)) ?_
  · exact fun _ faced => faced
  · exact fun _ reached => ⟨reached.1, reached.2 rfl⟩
  · exact fun _ reached => reached.1

theorem ends_disconnect (limited : Bool) {body : AvatarRoutine Unit} (vendor : Bool)
    (runs : ∀ answers log,
      (body.run answers log).2 = log ++ [(.disconnect limited, answers log.length)] ∧
        (body.run answers log).1.isOk = !cutsShort false (.disconnect limited, answers log.length)) :
    Triple (Faced vendor) body (Ends (Faced vendor) Broken) := by
  intro answers log faced
  obtain ⟨seen, stands, same, faced⟩ := faced
  obtain ⟨sent, passed⟩ := runs answers log
  have stands := stands.snoc (.disconnect limited, answers log.length) rfl
  have added : seen.or (viewOf seen.socket (.disconnect limited, answers log.length)) =
      { seen with cut := seen.cut || cutsShort false (.disconnect limited, answers log.length) } := by
    have alike : cutsShort seen.socket (.disconnect limited, answers log.length) =
        cutsShort false (.disconnect limited, answers log.length) := by
      cases answers log.length <;> rfl
    simp only [AvatarView.or, viewOf, makesSocket, startsVendor, closesOutput, Bool.or_false,
      reduceCtorEq, decide_false, alike]
  rw [added] at stands
  rw [sent]
  cases ended : (body.run answers log).1 with
  | ok value =>
      have uncut : cutsShort false (.disconnect limited, answers log.length) = false := by
        rw [ended] at passed
        simpa [Except.isOk, Except.toBool] using passed.symm
      rw [uncut, Bool.or_false] at stands
      exact ⟨seen, stands, same, faced⟩
  | error failure =>
      have cut : cutsShort false (.disconnect limited, answers log.length) = true := by
        rw [ended] at passed
        simpa [Except.isOk, Except.toBool] using passed.symm
      rw [cut, Bool.or_true] at stands
      exact ⟨_, stands, faced.started, faced.kept, rfl⟩

theorem disconnect_faces (vendor : Bool) : Triple (Faced vendor)
    (.suppress JoinError.isException (avatarAwaited (.disconnect false)))
    (Ends (Faced vendor) Broken) := by
  refine ends_disconnect false vendor ?_
  intro answers log
  simp only [Coroutine.suppress, Coroutine.catching, Coroutine.after, avatarAwaited, bind,
    Coroutine.andThen, Coroutine.await]
  cases answers log.length with
  | ok value => exact ⟨rfl, rfl⟩
  | error failure => cases failure <;> exact ⟨rfl, rfl⟩

theorem limitedDisconnect_faces (vendor : Bool) : Triple (Faced vendor)
    (.suppress JoinError.isException (withTimeout .teardown (avatarAwaited (.disconnect true))))
    (Ends (Faced vendor) Broken) := by
  refine ends_disconnect true vendor ?_
  intro answers log
  simp only [Coroutine.suppress, withTimeout, Coroutine.catching, Coroutine.after, avatarAwaited,
    bind, Coroutine.andThen, Coroutine.await]
  cases answers log.length with
  | ok value => exact ⟨rfl, rfl⟩
  | error failure =>
      cases failure with
      | expired scope => cases scope <;> exact ⟨rfl, rfl⟩
      | _ => exact ⟨rfl, rfl⟩

theorem deleteAvatarRoom_accounts (vendor : Bool) :
    Triple (Faced vendor) deleteAvatarRoom (fun _ log => Accounted log) := by
  have deleted : Triple (Faced vendor) (avatarAwaited .deleteRoom) (Ends Accounted Accounted) :=
    ends_avatarAwaited (fun _ value faced => faced.deleted (.ok value))
      (fun _ failure faced => faced.deleted (.error failure))
  exact (ends_suppress (ends_withTimeout deleted) (fun _ accounted => accounted)).ends_same

theorem closeAvatarMedia_accounts : Triple (Clear (begun true true false)) closeAvatarMedia
    (fun _ log => Accounted log) := by
  have stopped : Triple (Clear (begun true true false)) stopVendor (Ends (Faced true) Accounted) :=
    (stopVendor_faces.ends_imp (fun _ faced => faced) (fun _ reached => reached.2.accounted)).imp
      (fun _ clear => clear.stands) (fun _ _ reached => reached)
  refine stopped.bind _ ?_ (fun _ _ accounted => accounted)
  intro _
  refine (limitedDisconnect_faces true).bind _ ?_ (fun _ _ broken => broken.accounted)
  exact fun _ => deleteAvatarRoom_accounts true

/-- How the join leaves the session when it fails. -/
inductive Unjoined (log : AvatarLog) : Prop
  | untouched (clear : Clear {} log)
  | faced (faced : Faced false log)
  | whole (clear : Clear (begun true true false) log)

theorem joinRoom_joins : Triple (Clear {}) joinRoom (Ends (Clear (begun true true false)) Unjoined) := by
  have entered : Triple (Clear {}) (avatarAwaited .roomConnect) (Ends (Clear {}) Unjoined) :=
    ends_avatarAwaited (fun _ value clear => clear.snoc (.roomConnect, .ok value) (fun _ => rfl))
      (fun _ failure clear => .untouched (clear.snoc (.roomConnect, .error failure) (fun _ => rfl)))
  have started : Triple (Clear {}) startLiveAvatar (Ends (Clear (begun true true false)) Unjoined) := by
    refine startLiveAvatar_starts.ends_imp (fun _ clear => clear) ?_
    rintro log (clear | faced)
    · exact .untouched clear
    · exact .faced faced
  have waited : Triple (Clear (begun true true false)) (avatarAwaited .bothSides)
      (Ends (Clear (begun true true false)) Unjoined) :=
    ends_avatarAwaited (fun _ value clear => clear.snoc (.bothSides, .ok value) (fun _ => rfl))
      (fun _ failure clear => .whole (clear.snoc (.bothSides, .error failure) (fun _ => rfl)))
  exact ends_withTimeout (entered.ends_bind (fun _ => started.ends_bind (fun _ => waited)))

theorem abandoned_accounts (known : AvatarLog → Prop) (failure : JoinError)
    (disconnects : Triple known
      (.suppress JoinError.isException (avatarAwaited (.disconnect false))) (Ends known Accounted))
    (deletes : Triple known deleteAvatarRoom (fun _ log => Accounted log)) :
    Triple known
      (do
        .suppress JoinError.isException (avatarAwaited (.disconnect false))
        deleteAvatarRoom
        .raise (if failure = .timeout then .avatar "avatar_unavailable" else failure) :
          AvatarRoutine Unit)
      (Ends (fun _ => False) Accounted) := by
  refine disconnects.bind _ ?_ (fun _ _ accounted => accounted)
  intro _
  exact deletes.bind _ (fun _ => .raise (fun _ accounted => accounted))
    (fun _ _ accounted => accounted)

/-- Without a start request nothing is owed. -/
theorem idle_abandoned (failure : JoinError) : Triple Idle
    (do
      .suppress JoinError.isException (avatarAwaited (.disconnect false))
      deleteAvatarRoom
      .raise (if failure = .timeout then .avatar "avatar_unavailable" else failure) :
        AvatarRoutine Unit)
    (Ends (fun _ => False) Accounted) := by
  have unstarted : ∀ (log : AvatarLog) (event : AvatarEvent), event.1 ≠ .startRequest → Idle log →
      Idle (log ++ [event]) := by
    intro log event other idle
    unfold Idle startSent at idle ⊢
    rw [List.any_append, idle]
    simp [other]
  have disconnects : Triple Idle (avatarAwaited (.disconnect false)) (Ends Idle Idle) :=
    ends_avatarAwaited (fun log value => unstarted log (_, .ok value) (by simp))
      (fun log failure => unstarted log (_, .error failure) (by simp))
  have deletes : Triple Idle (avatarAwaited .deleteRoom) (Ends Idle Idle) :=
    ends_avatarAwaited (fun log value => unstarted log (_, .ok value) (by simp))
      (fun log failure => unstarted log (_, .error failure) (by simp))
  refine abandoned_accounts Idle failure
    ((ends_suppress disconnects (fun _ idle => idle)).ends_imp (fun _ idle => idle)
      (fun _ idle => idle.accounted)) ?_
  exact ((ends_suppress (ends_withTimeout deletes) (fun _ idle => idle)).ends_imp
    (fun _ idle => idle.accounted) (fun _ idle => idle.accounted)).ends_same

theorem abandonMedia_accounts (failure : JoinError) :
    Triple Unjoined (abandonMedia failure) (Ends (fun _ => False) Accounted) := by
  refine .bind (fun ended log => ended = .ok log ∧ Unjoined log)
    (.observe (fun _ unjoined => ⟨rfl, unjoined⟩)) ?_ ?_
  · intro seen answers log given
    obtain ⟨same, unjoined⟩ := given
    cases same
    cases unjoined with
    | untouched clear =>
        have absent : vendorStarted seen = false := clear.stands.vendor
        rw [absent]
        exact idle_abandoned failure answers seen clear.stands.started
    | faced faced =>
        have absent : vendorStarted seen = false := by
          obtain ⟨_, stands, same, _⟩ := faced
          exact stands.vendor.trans same
        rw [absent]
        exact abandoned_accounts (Faced false) failure ((disconnect_faces false).ends_imp
          (fun _ faced => faced) (fun _ broken => broken.accounted))
          (deleteAvatarRoom_accounts false) answers seen faced
    | whole clear =>
        have present : vendorStarted seen = true := clear.stands.vendor
        rw [present]
        have left := (stopVendor_faces.ends_imp (fun _ faced => faced)
          (fun _ reached => reached.2.accounted)).ends_bind (fun _ => abandoned_accounts (Faced true)
            failure ((disconnect_faces true).ends_imp (fun _ faced => faced)
              (fun _ broken => broken.accounted)) (deleteAvatarRoom_accounts true))
        exact left answers seen clear.stands
  · intro failure log given
    cases given.1

theorem openAvatarMedia_joins :
    Triple (Clear {}) openAvatarMedia (Ends (Clear (begun true true false)) Accounted) := by
  refine joinRoom_joins.ends_catching ?_
  intro failure
  exact (abandonMedia_accounts failure).ends_imp (fun _ impossible => impossible.elim)
    (fun _ accounted => accounted)

end Assemblix.Realtime
