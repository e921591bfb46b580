import Assemblix.Realtime.CallRoute
import Assemblix.Realtime.VoiceSessionService
import Mathlib.Algebra.BigOperators.Group.List.Basic

/-
Which time a call is billed for.

The route reads the clock for `close_voice_session` after everything that follows the pumps: the
bridge is closed, the media torn down, the final workflow awaited. A timing says how long each
await takes; the runtime was made when nothing had been awaited.
-/

namespace Assemblix.Realtime

open Library
open Billing (SessionUsage VoiceSettings)
open Coroutine (Awaits Triple)

/-! ### The clock -/

/-- The time that a number of awaits takes, from the first or from a later one. -/
def elapsedFrom (timing : Nat → ℚ≥0) (first count : Nat) : ℚ≥0 :=
  ((List.range count).map (fun index => timing (first + index))).sum

/-- `duration_sec` when so many awaits are over. -/
def durationSec (timing : Nat → ℚ≥0) (moment : Nat) : ℚ≥0 := elapsedFrom timing 0 moment

def pumpsStopped (log : CallLog) : Option Nat :=
  (log.findIdx? (fun event => decide (event.1 = .pumps))).map Nat.succ

def CallAwait.closesSession : CallAwait → Bool
  | .closeVoiceSession _ => true
  | _ => false

/-- How many awaits are over when the duration is read for `close_voice_session`. -/
def clockRead (log : CallLog) : Option Nat := log.findIdx? (fun event => event.1.closesSession)

/-- The fee and the margin of a call that is closed then. -/
def sessionBill (settings : VoiceSettings) (usage : SessionUsage) (timing : Nat → ℚ≥0)
    (moment : Nat) : ℚ × ℚ :=
  settings.computeSessionCredits { usage with durationSec := durationSec timing moment }

theorem elapsedFrom_add (timing : Nat → ℚ≥0) (first count more : Nat) :
    elapsedFrom timing first (count + more) =
      elapsedFrom timing first count + elapsedFrom timing (first + count) more := by
  unfold elapsedFrom
  rw [List.range_add, List.map_append, List.sum_append, List.map_map]
  refine congrArg (((List.range count).map (fun index => timing (first + index))).sum +
    List.sum ·) (List.map_congr_left ?_)
  intro index _
  rw [Function.comp_apply, Nat.add_assoc]

theorem elapsedFrom_congr {timing other : Nat → ℚ≥0} {count : Nat}
    (same : ∀ index < count, timing index = other index) :
    elapsedFrom timing 0 count = elapsedFrom other 0 count := by
  refine congrArg List.sum (List.map_congr_left ?_)
  intro index listed
  rw [Nat.zero_add]
  exact same index (List.mem_range.mp listed)

theorem durationSec_eq_iff {timing other : Nat → ℚ≥0} {stopped read : Nat}
    (same : ∀ index < stopped, timing index = other index) (later : stopped ≤ read) :
    durationSec timing read = durationSec other read ↔
      elapsedFrom timing stopped (read - stopped) = elapsedFrom other stopped (read - stopped) := by
  have split (clock : Nat → ℚ≥0) : durationSec clock read =
      elapsedFrom clock 0 stopped + elapsedFrom clock stopped (read - stopped) := by
    have parts := elapsedFrom_add clock 0 stopped (read - stopped)
    rw [Nat.add_sub_cancel' later, Nat.zero_add] at parts
    exact parts
  rw [split, split, elapsedFrom_congr same]
  exact add_right_inj _

/-! ### The order of the awaits -/

def Moved (log : CallLog) : Prop := ∀ event ∈ log.getLast?, event.1 ≠ .pumps

theorem Moved.append {log more : CallLog} (moved : Moved log)
    (side : ∀ event ∈ more, Side event.1) : Moved (log ++ more) := by
  intro event last
  rw [List.getLast?_append] at last
  cases added : more.getLast? with
  | none =>
      rw [added, Option.none_or] at last
      exact moved event last
  | some final =>
      rw [added, Option.some_or] at last
      cases last
      exact (side _ (List.mem_of_getLast? added)).pumps

theorem moved_side {A : Type} {body : CallRoutine A} (side : Awaits Side body) :
    Triple Moved body (fun _ log => Moved log) :=
  .frame side (fun _ _ moved added => moved.append added)

theorem moved_cleanUp (config : RuntimeConfig) (reason : String) :
    Triple (fun _ => True) (cleanUpCall config reason) (fun _ log => Moved log) := by
  refine .bind (fun _ log => Moved log) (triple_awaited ?_) ?_ (fun _ _ moved => moved)
  · intro log answer _ event last
    rw [List.getLast?_concat] at last
    cases last
    simp
  · intro _
    exact moved_side ((awaits_leave config reason).imp (fun _ leaving => leaving.side))

theorem moved_pumps (config : RuntimeConfig) :
    Triple Moved (do
      awaited .ready
      (Coroutine.await .pumps).after fun ended => do
        cleanUpCall config (stoppedPumps ended).1
        match (stoppedPumps ended).2 with
        | none => .finish (stoppedPumps ended).1
        | some failure => .raise failure) (fun _ log => Moved log) := by
  refine (moved_side (side_awaited rfl (by simp))).bind _ (fun _ => ?_) (fun _ _ moved => moved)
  refine .after (fun _ _ => True) (fun _ _ _ => trivial) ?_
  intro ended
  refine (moved_cleanUp config _).bind _ (fun _ => ?_) (fun _ _ moved => moved)
  cases (stoppedPumps ended).2 with
  | none => exact .finish (fun _ moved => moved)
  | some failure => exact .raise (fun _ moved => moved)

theorem moved_run (config : RuntimeConfig) :
    Triple Moved (runCall config) (fun _ log => Moved log) := by
  unfold runCall
  cases config.hasPrepare with
  | true =>
      exact (moved_side awaits_connectWithAvatar).bind _ (fun _ => moved_pumps config)
        (fun _ _ moved => moved)
  | false =>
      exact (moved_side (side_awaited rfl (by simp))).bind _ (fun _ => moved_pumps config)
        (fun _ _ moved => moved)

theorem moved_attempt (scope : CallScope) :
    Triple Moved ((attemptCall scope).catching (exceptCall scope)) (fun _ log => Moved log) := by
  refine .catching (fun _ log => Moved log) ?_ (fun _ _ moved => moved)
    (fun failure => moved_side (awaits_except scope failure))
  unfold attemptCall
  cases scope.mismatch with
  | none =>
      exact (moved_run scope.config).bind _ (fun _ => .finish (fun _ moved => moved))
        (fun _ _ moved => moved)
  | some mismatch =>
      exact (moved_side (awaits_leaveRoom scope.room)).bind _
        (fun _ => .finish (fun _ moved => moved)) (fun _ _ moved => moved)

theorem get_of_findIdx {A : Type} {test : A → Bool} {items : List A} {index : Nat}
    (found : items.findIdx? test = some index) :
    ∃ item, items[index]? = some item ∧ test item = true := by
  obtain ⟨inside, passes, _⟩ := List.findIdx?_eq_some_iff_getElem.mp found
  exact ⟨items[index], List.getElem?_eq_getElem inside, passes⟩

theorem stream_log (scope : CallScope) (answers : Nat → Except AwaitError CallValue) :
    ∃ early late, ((streamCall scope).run answers []).2 = early ++ late ∧ Moved early ∧
      (∀ event ∈ early, Early event.1) ∧ ∀ event ∈ late, Settling event.1 := by
  have moved := moved_attempt scope answers [] (fun _ none => by cases none)
  obtain ⟨early, begun, before⟩ := awaits_attempt scope answers []
  rw [List.nil_append] at begun
  have settled : ∃ late, ((streamCall scope).run answers []).2 =
      (((attemptCall scope).catching (exceptCall scope)).run answers []).2 ++ late ∧
        ∀ event ∈ late, Settling event.1 := by
    unfold streamCall Coroutine.after
    dsimp only
    cases (((attemptCall scope).catching (exceptCall scope)).run answers []).1 with
    | ok ending => exact awaits_settle ending answers _
    | error failure => exact (awaits_settle _).bind (fun _ => .raise failure) answers _
  obtain ⟨late, whole, after⟩ := settled
  rw [begun] at moved
  exact ⟨early, late, whole.trans (congrArg (· ++ late) begun), moved, before, after⟩

theorem stopped_lt_read (scope : CallScope) (answers : Nat → Except AwaitError CallValue)
    {stopped read : Nat} (ended : pumpsStopped ((streamCall scope).run answers []).2 = some stopped)
    (closed : clockRead ((streamCall scope).run answers []).2 = some read) : stopped < read := by
  obtain ⟨early, late, whole, moved, before, after⟩ := stream_log scope answers
  rw [whole] at ended closed
  obtain ⟨pumps, found, next⟩ := Option.map_eq_some_iff.mp ended
  obtain ⟨event, atPumps, pumping⟩ := get_of_findIdx found
  obtain ⟨closing, atRead, reads⟩ := get_of_findIdx closed
  have pumpsEarly : pumps < early.length := by
    by_contra outside
    rw [List.getElem?_append_right (Nat.le_of_not_lt outside)] at atPumps
    have settling := after event (List.mem_of_getElem? atPumps)
    unfold Settling at settling
    rw [of_decide_eq_true pumping] at settling
    cases settling
  have readLate : early.length ≤ read := by
    by_contra inside
    rw [List.getElem?_append_left (Nat.lt_of_not_le inside)] at atRead
    have early := before closing (List.mem_of_getElem? atRead)
    unfold Early CallAwait.settles at early
    unfold CallAwait.closesSession at reads
    split at reads
    · rename_i same
      rw [same] at early
      cases early
    · cases reads
  rw [List.getElem?_append_left pumpsEarly] at atPumps
  have notLast : pumps + 1 ≠ early.length := by
    intro last
    refine moved event ?_ (of_decide_eq_true pumping)
    rw [List.getLast?_eq_getElem?, ← last, Nat.add_sub_cancel]
    exact atPumps
  rw [← next]
  exact Nat.lt_of_lt_of_le (Nat.lt_of_le_of_ne pumpsEarly notLast) readLate

/-! ### Two runs that differ in their clean-up -/

/-- Two runs alike up to the moment the pumps stopped pass the same duration and are charged the
same exactly when what follows takes as long in both. -/
theorem conversation_billed_iff (settings : VoiceSettings) (usage : SessionUsage)
    (scope : CallScope) (answers : Nat → Except AwaitError CallValue) (stopped read : Nat)
    (ended : pumpsStopped ((streamCall scope).run answers []).2 = some stopped)
    (closed : clockRead ((streamCall scope).run answers []).2 = some read)
    (timing other : Nat → ℚ≥0) (same : ∀ index < stopped, timing index = other index) :
    (durationSec timing read = durationSec other read ∧
        sessionBill settings usage timing read = sessionBill settings usage other read) ↔
      elapsedFrom timing stopped (read - stopped) = elapsedFrom other stopped (read - stopped) := by
  have later := (stopped_lt_read scope answers ended closed).le
  rw [← durationSec_eq_iff same later]
  constructor
  · exact fun both => both.1
  · intro equal
    refine ⟨equal, ?_⟩
    unfold sessionBill
    rw [equal]

/-! ### A minute of talk -/

def hangUp : Nat → Except AwaitError CallValue :=
  fun _ => .ok { closedReason := some "user_hangup" }

def minuteOfTalk (finalHook : ℚ≥0) : Nat → ℚ≥0
  | 2 => 60
  | 5 => finalHook
  | _ => 0

def webCall : CallScope where
  room := none
  hasAvatar := false

def ownKeyUsage : SessionUsage where
  durationSec := 0
  costPerMinute := 1 / 10
  usesSystemKey := false
  ttsCostUsd := 0
  ttsUsesSystemKey := false
  extraCosts := []

/-- The same time spent on the bridge instead of the final workflow. -/
def slowBridge : Nat → ℚ≥0
  | 2 => 60
  | 3 => 60
  | _ => 0

theorem conversation_billed_iff_slowBridge :
    durationSec slowBridge 6 = durationSec (minuteOfTalk 60) 6 ∧
      sessionBill voicePrices ownKeyUsage slowBridge 6 =
        sessionBill voicePrices ownKeyUsage (minuteOfTalk 60) 6 :=
  (conversation_billed_iff voicePrices ownKeyUsage webCall hangUp 3 6 (by decide +kernel)
    (by decide +kernel) slowBridge (minuteOfTalk 60) (by decide +kernel)).mpr (by decide +kernel)

/-- Ten minutes of the final workflow cost as much as ten minutes of conversation. -/
theorem clean_up_billed :
    pumpsStopped ((streamCall webCall).run hangUp []).2 = some 3 ∧
      clockRead ((streamCall webCall).run hangUp []).2 = some 6 ∧
      (∀ index < 3, minuteOfTalk 0 index = minuteOfTalk 600 index) ∧
      sessionBill voicePrices ownKeyUsage (minuteOfTalk 0) 6 = (200, 0) ∧
      sessionBill voicePrices ownKeyUsage (minuteOfTalk 600) 6 = (2200, 0) := by
  decide +kernel

end Assemblix.Realtime
