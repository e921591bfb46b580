import Assemblix.Realtime.CallRoute

/-
Whether the bridge is closed when the route returns.

Between a connected bridge and the pumps stands one await that no clause covers: the ready frame.
-/

namespace Assemblix.Realtime

open Library
open Coroutine (Awaits Triple)

/-! ### What a log says of the bridge -/

abbrev CallEvent := CallAwait × Except AwaitError CallValue

/-- `bridge.connect` succeeded: alone, within the wait for both tasks, or after it. -/
def connects : CallEvent → Bool
  | (.connect, .ok _) => true
  | (.connectAndPrepare, .ok value) => value.connect.any Except.isOk
  | (.settle .connect, .ok _) => true
  | _ => false

def losesReady : CallEvent → Bool
  | (.ready, .error (.avatar _)) => false
  | (.ready, .error _) => true
  | _ => false

def closesBridge (event : CallEvent) : Bool := decide (event.1 = .bridgeClose)

def connected (log : CallLog) : Bool := log.any connects

def readyLost (log : CallLog) : Bool := log.any losesReady

def bridgeClosed (log : CallLog) : Bool := log.any closesBridge

def Quiet (op : CallAwait) : Prop := op ≠ .ready ∧ op ≠ .bridgeClose

structure Aside (op : CallAwait) : Prop where
  quiet : Quiet op
  connect : op ≠ .connect
  wait : op ≠ .connectAndPrepare
  settle : op ≠ .settle .connect

section Event

variable {event : CallEvent}

theorem not_losesReady (quiet : Quiet event.1) : losesReady event = false := by
  unfold losesReady
  split
  · rfl
  · exact absurd rfl quiet.1
  · rfl

theorem not_closesBridge (quiet : Quiet event.1) : closesBridge event = false :=
  decide_eq_false quiet.2

theorem not_connects (aside : Aside event.1) : connects event = false := by
  unfold connects
  split
  · exact absurd rfl aside.connect
  · exact absurd rfl aside.wait
  · exact absurd rfl aside.settle
  · rfl

end Event

/-! ### How a call can stand -/

structure Pending (log : CallLog) : Prop where
  ready : readyLost log = false
  unclosed : bridgeClosed log = false

structure Shut (log : CallLog) : Prop where
  ready : readyLost log = false
  closed : bridgeClosed log = true

structure Leaked (log : CallLog) : Prop where
  ready : readyLost log = true
  unclosed : bridgeClosed log = false

structure Unconnected (log : CallLog) : Prop extends Pending log where
  connect : connected log = false

def Judged (log : CallLog) : Prop := Shut log ∨ Leaked log ∨ Unconnected log

section Append

variable {log more : CallLog}

theorem any_unseen (test : CallEvent → Bool) (unseen : ∀ event ∈ more, test event = false) :
    (log ++ more).any test = log.any test := by
  rw [List.any_append, List.any_eq_false.mpr (fun event member =>
    Bool.eq_false_iff.mp (unseen event member)), Bool.or_false]

theorem readyLost_append (quiet : ∀ event ∈ more, Quiet event.1) :
    readyLost (log ++ more) = readyLost log :=
  any_unseen losesReady (fun event member => not_losesReady (quiet event member))

theorem bridgeClosed_append (quiet : ∀ event ∈ more, Quiet event.1) :
    bridgeClosed (log ++ more) = bridgeClosed log :=
  any_unseen closesBridge (fun event member => not_closesBridge (quiet event member))

theorem Pending.append (pending : Pending log) (quiet : ∀ event ∈ more, Quiet event.1) :
    Pending (log ++ more) where
  ready := (readyLost_append quiet).trans pending.ready
  unclosed := (bridgeClosed_append quiet).trans pending.unclosed

theorem Shut.append (shut : Shut log) (quiet : ∀ event ∈ more, Quiet event.1) :
    Shut (log ++ more) where
  ready := (readyLost_append quiet).trans shut.ready
  closed := (bridgeClosed_append quiet).trans shut.closed

theorem Leaked.append (leaked : Leaked log) (quiet : ∀ event ∈ more, Quiet event.1) :
    Leaked (log ++ more) where
  ready := (readyLost_append quiet).trans leaked.ready
  unclosed := (bridgeClosed_append quiet).trans leaked.unclosed

theorem Unconnected.append (unconnected : Unconnected log)
    (aside : ∀ event ∈ more, Aside event.1) : Unconnected (log ++ more) where
  toPending := unconnected.toPending.append (fun event member => (aside event member).quiet)
  connect := (any_unseen connects (fun event member => not_connects (aside event member))).trans
    unconnected.connect

theorem Judged.append (judged : Judged log) (aside : ∀ event ∈ more, Aside event.1) :
    Judged (log ++ more) := by
  have quiet : ∀ event ∈ more, Quiet event.1 := fun event member => (aside event member).quiet
  rcases judged with shut | leaked | unconnected
  · exact Or.inl (shut.append quiet)
  · exact Or.inr (Or.inl (leaked.append quiet))
  · exact Or.inr (Or.inr (unconnected.append aside))

theorem Shut.of_close (ready : readyLost log = false) (answer : Except AwaitError CallValue) :
    Shut (log ++ [(.bridgeClose, answer)]) where
  ready := by
    unfold readyLost at ready ⊢
    rw [List.any_append, ready]
    rfl
  closed := by
    unfold bridgeClosed
    rw [List.any_append]
    exact Bool.or_true _

end Append

/-! ### The runtime -/

theorem pending_awaited {op : CallAwait} (quiet : Quiet op) :
    Triple Pending (awaited op) (fun _ log => Pending log) := by
  refine triple_awaited ?_
  intro log answer pending
  refine pending.append ?_
  intro event member
  rw [List.mem_singleton.mp member]
  exact quiet

theorem pending_settled (task : JoinTask) :
    Triple Pending (settled task) (fun ended log => ended = .ok () ∧ Pending log) :=
  (pending_awaited ⟨by simp, by simp⟩).suppress_all

theorem shut_close : Triple (fun log => readyLost log = false)
    (.suppress AwaitError.isException (awaited .bridgeClose)) (fun _ log => Shut log) :=
  (triple_awaited (fun _ answer ready => .of_close ready answer)).suppress

def JoinLeaves : Except AwaitError Unit → CallLog → Prop
  | .ok _, log => Pending log
  | .error _, log => Shut log

theorem leaves_abandon (failure : AwaitError) : Triple Pending (abandon failure) JoinLeaves :=
  .bind (fun _ log => Shut log)
    (shut_close.imp (fun _ pending => pending.ready) (fun _ _ shut => shut))
    (fun _ => .raise (fun _ shut => shut)) (fun _ _ shut => shut)

theorem leaves_settled {task : JoinTask} {rest : Unit → CallRoutine Unit}
    (after : ∀ value, Triple Pending (rest value) JoinLeaves) :
    Triple Pending (settled task >>= rest) JoinLeaves := by
  refine (pending_settled task).bind _ ?_ ?_
  · intro value
    exact (after value).imp (fun _ reached => reached.2) (fun _ _ leaves => leaves)
  · intro failure log reached
    cases reached.1

theorem leaves_only {task : JoinTask} {wanted : Bool} {rest : Unit → CallRoutine Unit}
    (after : ∀ value, Triple Pending (rest value) JoinLeaves) :
    Triple Pending (Coroutine.only wanted (settled task) >>= rest) JoinLeaves := by
  refine (Triple.only (fun _ => pending_settled task) (fun _ pending => ⟨rfl, pending⟩)).bind _ ?_ ?_
  · intro value
    exact (after value).imp (fun _ reached => reached.2) (fun _ _ leaves => leaves)
  · intro failure log reached
    cases reached.1

theorem joins : Triple Pending connectWithAvatar JoinLeaves := by
  refine .after (fun _ log => Pending log) ?_ ?_
  · refine .await ?_
    intro log answer pending
    refine pending.append ?_
    intro event member
    rw [List.mem_singleton.mp member]
    exact ⟨by simp, by simp⟩
  · intro ended
    cases ended with
    | error failure => exact leaves_settled (fun _ => leaves_settled (fun _ => leaves_abandon failure))
    | ok value =>
        refine leaves_only (fun _ => leaves_only (fun _ => ?_))
        cases value.failure with
        | none => exact .finish (fun _ pending => pending)
        | some failure => exact leaves_abandon failure

theorem Leaving.quiet {op : CallAwait} (leaving : Leaving op) : Quiet op := by
  cases op with
  | onStopped => exact ⟨by simp, by simp⟩
  | farewell reason => exact ⟨by simp, by simp⟩
  | dispatchFinal reason => exact ⟨by simp, by simp⟩
  | _ => cases leaving

theorem shut_cleanUp (config : RuntimeConfig) (reason : String) :
    Triple Pending (cleanUpCall config reason) (fun _ log => Shut log) := by
  refine .bind (fun _ log => Shut log)
    (triple_awaited (fun _ answer pending => .of_close pending.ready answer)) ?_
    (fun _ _ shut => shut)
  intro _
  exact .frame (awaits_leave config reason)
    (fun _ _ shut added => shut.append (fun event member => (added event member).quiet))

/-- How `run` leaves the bridge. -/
def RunLeaves : Except AwaitError String → CallLog → Prop
  | .ok _, log => Shut log
  | .error (.avatar _), log => readyLost log = false
  | .error _, log => Judged log

theorem RunLeaves.of_shut {log : CallLog} (shut : Shut log) (ended : Except AwaitError String) :
    RunLeaves ended log := by
  unfold RunLeaves
  split
  · exact shut
  · exact shut.ready
  · exact Or.inl shut

theorem RunLeaves.of_unconnected {log : CallLog} (unconnected : Unconnected log)
    (failure : AwaitError) : RunLeaves (.error failure) log := by
  cases failure with
  | avatar reason => exact unconnected.ready
  | _ => exact Or.inr (Or.inr unconnected)

theorem pumps_leave (config : RuntimeConfig) : Triple Pending
    ((Coroutine.await .pumps).after fun ended => do
      cleanUpCall config (stoppedPumps ended).1
      match (stoppedPumps ended).2 with
      | none => .finish (stoppedPumps ended).1
      | some failure => .raise failure) RunLeaves := by
  refine .after (fun _ log => Pending log) ?_ ?_
  · refine .await ?_
    intro log answer pending
    refine pending.append ?_
    intro event member
    rw [List.mem_singleton.mp member]
    exact ⟨by simp, by simp⟩
  · intro ended
    refine (shut_cleanUp config _).bind _ ?_ (fun failure _ shut => .of_shut shut (.error failure))
    intro _
    cases (stoppedPumps ended).2 with
    | none => exact .finish (fun _ shut => .of_shut shut _)
    | some failure => exact .raise (fun _ shut => .of_shut shut (.error failure))

def ReadyLeaves {A : Type} : Except AwaitError A → CallLog → Prop
  | .ok _, log => Pending log
  | .error (.avatar _), log => readyLost log = false
  | .error _, log => Leaked log

theorem ready_sent : Triple Pending (awaited .ready) ReadyLeaves := by
  refine .bind ReadyLeaves (.await ?_) (fun _ => .finish (fun _ pending => pending)) ?_
  · intro log answer pending
    have unclosed : bridgeClosed (log ++ [(.ready, answer)]) = false := by
      unfold bridgeClosed
      rw [List.any_append]
      exact Bool.or_eq_false_iff.mpr ⟨pending.unclosed, rfl⟩
    have lost : readyLost (log ++ [(.ready, answer)]) = losesReady (.ready, answer) := by
      unfold readyLost
      rw [List.any_append, show log.any losesReady = false from pending.ready]
      exact Bool.or_false _
    cases answer with
    | ok value => exact ⟨lost, unclosed⟩
    | error failure =>
        cases failure with
        | avatar reason => exact lost
        | _ => exact ⟨lost, unclosed⟩
  · intro failure log reached
    cases failure with
    | avatar reason => exact reached
    | _ => exact reached

theorem ready_leaves (config : RuntimeConfig) : Triple Pending
    (do
      awaited .ready
      (Coroutine.await .pumps).after fun ended => do
        cleanUpCall config (stoppedPumps ended).1
        match (stoppedPumps ended).2 with
        | none => .finish (stoppedPumps ended).1
        | some failure => .raise failure) RunLeaves := by
  refine ready_sent.bind _ (fun _ => pumps_leave config) ?_
  intro failure log reached
  cases failure with
  | avatar reason => exact reached
  | _ => exact Or.inr (Or.inl reached)

def ConnectLeaves {A : Type} : Except AwaitError A → CallLog → Prop
  | .ok _, log => Pending log
  | .error _, log => Unconnected log

theorem connect_alone : Triple Unconnected (awaited .connect) ConnectLeaves := by
  refine .bind ConnectLeaves (.await ?_) (fun _ => .finish (fun _ pending => pending))
    (fun _ _ unconnected => unconnected)
  intro log answer fresh
  have pending : Pending (log ++ [(.connect, answer)]) := by
    refine fresh.toPending.append ?_
    intro event member
    rw [List.mem_singleton.mp member]
    exact ⟨by simp, by simp⟩
  cases answer with
  | ok value => exact pending
  | error failure =>
      refine ⟨pending, ?_⟩
      unfold connected
      rw [List.any_append, show log.any connects = false from fresh.connect]
      rfl

theorem run_leaves (config : RuntimeConfig) : Triple Unconnected (runCall config) RunLeaves := by
  unfold runCall
  cases config.hasPrepare with
  | true =>
      exact .bind JoinLeaves (joins.imp (fun _ fresh => fresh.toPending) (fun _ _ leaves => leaves))
        (fun _ => ready_leaves config) (fun failure _ shut => .of_shut shut (.error failure))
  | false =>
      exact connect_alone.bind _ (fun _ => ready_leaves config)
        (fun failure _ unconnected => .of_unconnected unconnected failure)

/-! ### The route -/

/-- How the `try` of the route leaves the bridge. -/
def AttemptLeaves : Except AwaitError CallEnding → CallLog → Prop
  | .ok _, log => Judged log
  | .error failure, log => RunLeaves (.error failure) log

theorem attempt_leaves (scope : CallScope) :
    Triple Unconnected (attemptCall scope) AttemptLeaves := by
  unfold attemptCall
  cases scope.mismatch with
  | none =>
      exact (run_leaves scope.config).bind _ (fun _ => .finish (fun _ shut => Or.inl shut))
        (fun _ _ leaves => leaves)
  | some mismatch =>
      have left : Triple Unconnected (leaveRoom scope.room) (fun _ log => Unconnected log) := by
        cases scope.room with
        | none => exact .finish (fun _ fresh => fresh)
        | some room =>
            exact .frame (awaits_awaited ⟨⟨by simp, by simp⟩, by simp, by simp, by simp⟩)
              (fun _ _ fresh added => fresh.append added)
      exact left.bind _ (fun _ => .finish (fun _ fresh => Or.inr (Or.inr fresh)))
        (fun failure _ fresh => .of_unconnected fresh failure)

theorem except_leaves (scope : CallScope) (failure : AwaitError) :
    Triple (AttemptLeaves (.error failure)) (exceptCall scope failure)
      (fun _ log => Judged log) := by
  cases failure with
  | avatar reason =>
      exact shut_close.bind _ (fun _ => .finish (fun _ shut => Or.inl shut))
        (fun _ _ shut => Or.inl shut)
  | cancelled => exact .raise (fun _ judged => judged)
  | disconnected => exact .finish (fun _ judged => judged)
  | runtime message => exact .finish (fun _ judged => judged)
  | other message => exact .finish (fun _ judged => judged)

theorem Settling.aside {op : CallAwait} (settling : Settling op) : Aside op := by
  cases op with
  | closeMedia => exact ⟨⟨by simp, by simp⟩, by simp, by simp, by simp⟩
  | closeVoiceSession reason => exact ⟨⟨by simp, by simp⟩, by simp, by simp, by simp⟩
  | sendClosed reason => exact ⟨⟨by simp, by simp⟩, by simp, by simp, by simp⟩
  | closeSocket => exact ⟨⟨by simp, by simp⟩, by simp, by simp, by simp⟩
  | _ => cases settling

theorem settle_leaves (ending : CallEnding) :
    Triple Judged (settleCall ending) (fun _ log => Judged log) :=
  .frame (awaits_settle ending)
    (fun _ _ judged added => judged.append (fun event member => (added event member).aside))

theorem stream_leaves (scope : CallScope) :
    Triple Unconnected (streamCall scope) (fun _ log => Judged log) := by
  refine .after (fun _ log => Judged log) ?_ ?_
  · exact (attempt_leaves scope).catching _ (fun _ _ judged => judged) (except_leaves scope)
  · intro ended
    cases ended with
    | ok ending => exact settle_leaves ending
    | error failure =>
        exact (settle_leaves _).bind _ (fun _ => .raise (fun _ judged => judged))
          (fun _ _ judged => judged)

theorem Judged.closed_iff {log : CallLog} (judged : Judged log) :
    (connected log = true → bridgeClosed log = true) ↔
      ¬ (connected log = true ∧ readyLost log = true) := by
  rcases judged with shut | leaked | unconnected
  · simp [shut.closed, shut.ready]
  · simp [leaked.unclosed, leaked.ready]
  · simp [unconnected.connect]

/-- A bridge that was connected has been closed when the route returns, exactly when the ready
frame did not fail on it, or failed with an error of the avatar. -/
theorem bridge_closed_iff (scope : CallScope) (answers : Nat → Except AwaitError CallValue) :
    (connected ((streamCall scope).run answers []).2 = true →
        bridgeClosed ((streamCall scope).run answers []).2 = true) ↔
      ¬ (connected ((streamCall scope).run answers []).2 = true ∧
        readyLost ((streamCall scope).run answers []).2 = true) :=
  (stream_leaves scope answers [] ⟨⟨rfl, rfl⟩, rfl⟩).closed_iff

def plainCall : CallScope where
  room := none
  hasAvatar := false

def goneBrowser : Nat → Except AwaitError CallValue
  | 0 => .ok {}
  | 1 => .error .disconnected
  | _ => .ok {}

theorem bridge_left_open :
    connected ((streamCall plainCall).run goneBrowser []).2 = true ∧
      bridgeClosed ((streamCall plainCall).run goneBrowser []).2 = false := by
  decide +kernel

end Assemblix.Realtime
