import Assemblix.Realtime.AvatarSession
import Assemblix.Realtime.BridgeClosing

/-
An avatar call as a whole: the join is the prepare task of the route, and the media it hands over
is closed by the route.
-/

namespace Assemblix.Realtime

open Library
open Coroutine (Awaits Triple Ends)

/-! ### The media of the route -/

/-- The prepare task is done, and with it `media` is set. -/
def prepares : CallEvent → Bool
  | (.connectAndPrepare, .ok value) => value.prepare.any Except.isOk
  | (.settle .prepare, .ok _) => true
  | _ => false

/-- `close_media`. -/
def closesMedia (event : CallEvent) : Bool :=
  decide (event.1 = .onStopped) || decide (event.1 = .closeMedia)

def prepared (log : CallLog) : Bool := log.any prepares

def mediaClosed (log : CallLog) : Bool := prepared log && log.any closesMedia

theorem mediaOpen_eq (log : CallLog) :
    mediaOpen log = (prepared log && !log.any closesMedia) := rfl

theorem mediaClosed_of_prepared {log : CallLog} (unopened : mediaOpen log = false)
    (given : prepared log = true) : mediaClosed log = true := by
  rw [mediaOpen_eq, given, Bool.true_and, Bool.not_eq_false'] at unopened
  unfold mediaClosed
  rw [given, unopened]
  rfl

theorem mediaOpen_append {log more : CallLog} (settling : ∀ event ∈ more, Settling event.1)
    (unopened : mediaOpen log = false) : mediaOpen (log ++ more) = false := by
  have unprepared : ∀ event ∈ more, prepares event = false := by
    intro event member
    have settles := settling event member
    unfold prepares
    split
    · cases settles
    · cases settles
    · rfl
  rw [mediaOpen_eq] at unopened ⊢
  unfold prepared at unopened ⊢
  rw [any_unseen prepares unprepared, List.any_append]
  simp only [Bool.and_eq_false_iff, Bool.not_eq_false', Bool.or_eq_true] at unopened ⊢
  exact unopened.imp_right Or.inl

theorem settle_closes (ending : CallEnding) :
    Triple (fun _ => True) (settleCall ending) (fun _ log => mediaOpen log = false) := by
  refine .bind (fun ended log => ended = .ok log) (.observe (fun _ _ => rfl)) ?_ ?_
  · intro seen
    have closed : Triple (fun log : CallLog => Except.ok (ε := AwaitError) seen = .ok log)
        (.only (mediaOpen seen) (awaited .closeMedia)) (fun _ log => mediaOpen log = false) := by
      cases opened : mediaOpen seen with
      | true =>
          refine triple_awaited ?_
          intro log answer _
          rw [mediaOpen_eq, List.any_append]
          simp [closesMedia]
      | false =>
          refine .finish ?_
          intro log same
          cases same
          exact opened
    refine closed.bind _ ?_ (fun _ _ unopened => unopened)
    exact fun _ => .frame (awaits_recorded ending)
      (fun _ _ unopened settling => mediaOpen_append settling unopened)
  · intro failure log same
    cases same

theorem stream_closes (scope : CallScope) :
    Triple (fun _ => True) (streamCall scope) (fun _ log => mediaOpen log = false) := by
  refine .after (fun _ _ => True) (fun _ _ _ => trivial) ?_
  intro ended
  cases ended with
  | ok ending => exact settle_closes ending
  | error failure =>
      exact (settle_closes _).bind _ (fun _ => .raise (fun _ unopened => unopened))
        (fun _ _ unopened => unopened)

/-! ### The call -/

/-- The answers to the join, to the route and to the close of the media; the prepare task of the
route ends as the join did. -/
structure AvatarCall where
  scope : CallScope
  joins : Nat → Except JoinError AvatarValue
  answers : Nat → Except AwaitError CallValue
  closes : Nat → Except JoinError AvatarValue
  agrees : prepared ((streamCall scope).run answers []).2 = (openAvatarMedia.run joins []).1.isOk

namespace AvatarCall

def route (call : AvatarCall) : CallLog := ((streamCall call.scope).run call.answers []).2

def join (call : AvatarCall) : AvatarLog := (openAvatarMedia.run call.joins []).2

def session (call : AvatarCall) : AvatarLog :=
  if mediaClosed call.route then (closeAvatarMedia.run call.closes call.join).2 else call.join

end AvatarCall

/-- When the route returns, a session whose start was requested has got its stop request, its
output is closed and the deletion of its room was requested, exactly when no await of its clean-up
was cut short. -/
theorem avatar_session_ended_iff (call : AvatarCall) :
    Ended call.session ↔ (startSent call.session = true → cutShort call.session = false) := by
  have joined := openAvatarMedia_joins call.joins [] (fun _ => rfl)
  have agrees : prepared call.route = (openAvatarMedia.run call.joins []).1.isOk := call.agrees
  unfold AvatarCall.session
  cases ended : (openAvatarMedia.run call.joins []).1 with
  | error failure =>
      rw [ended] at joined agrees
      have unclosed : mediaClosed call.route = false := by
        unfold mediaClosed
        rw [agrees]
        rfl
      rw [if_neg (Bool.eq_false_iff.mp unclosed)]
      exact joined
  | ok value =>
      rw [ended] at joined agrees
      have closed : mediaClosed call.route = true :=
        mediaClosed_of_prepared (stream_closes call.scope call.answers [] trivial) agrees
      rw [if_pos closed]
      exact closeAvatarMedia_accounts call.closes call.join joined

def hangingStop : Nat → Except JoinError AvatarValue
  | 6 => .error (.expired .vendorStop)
  | _ => .ok {}

def wholeCall : AvatarCall where
  scope := { room := some "room", hasAvatar := true }
  joins := fun _ => .ok {}
  answers := fun _ => .ok { connect := some (.ok ()), prepare := some (.ok ()) }
  closes := hangingStop
  agrees := by decide +kernel

theorem avatar_output_left_open : ¬ Ended wholeCall.session := by
  unfold Ended
  decide +kernel

end Assemblix.Realtime
