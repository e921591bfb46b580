import Assemblix.Billing.Balance
import Assemblix.Billing.ConcurrentGrants
import Assemblix.Realtime.VoiceSessionService

/-
What a shortfall leaves of an organization's calls.

A call that the balance does not cover takes what there is. `open_session` asks for one minute of
the platform fee, so an empty account opens no call as long as that fee is positive.
-/

namespace Assemblix.Realtime

open Library
open Billing (Account BillingSettings Date GrantTable Organization PlanTier VoiceCharge
  VoiceSettings getPlanConfig)

/-! ### Operations on one account -/

/-- `live` is what `count_active_by_organization` finds. -/
inductive CreditOperation
  | closeSession (sessionId : Nat) (request : CloseRequest)
  | manualTopup (credits : ℚ≥0) (description : String)
  | planGrant (plan : PlanTier) (today : Date)
  | ensurePeriod (today : Date)
  | openSession (today : Date) (live : Nat)

/-- What an operation did; a charge with the balances it left. -/
inductive CreditEvent
  | charged (asked taken granted purchased : ℚ)
  | credited (amount : ℚ)
  | opened
  | refused (error : OpenError)
  deriving DecidableEq

structure CreditHistory where
  account : Account
  events : List CreditEvent

/-- The floor of `open_session`: the fee of one minute. -/
def floorCredits (settings : VoiceSettings) : ℚ :=
  settings.usdToCredits (1 * settings.voicePlatformFeeUsdPerMinute) false

/-- Why `open_session` refuses, once the period is current. -/
def openError (settings : VoiceSettings) (organization : Organization) (live : Nat) :
    Option OpenError :=
  if organization.creditsBalance < floorCredits settings then
    some (.insufficientCredits (floorCredits settings) organization.creditsBalance)
  else if concurrentCalls organization.plan ≤ live then
    some (.httpException 429 ("Concurrent call limit reached for this plan: " ++
      toString (concurrentCalls organization.plan) ++ "."))
  else none

def renewalDue (settings : VoiceSettings) (account : Account) (today : Date) : Bool :=
  settings.billingEnabled && account.grantDue { settings.toBillingSettings with today := today }

namespace CreditHistory

def initial (account : Account) : CreditHistory where
  account := account
  events := []

def allowance (account : Account) : ℚ := (getPlanConfig account.organization.plan).creditsPerMonth

/-- `ensure_current_period`. -/
def renew (settings : VoiceSettings) (history : CreditHistory) (today : Date) : CreditHistory where
  account := history.account.ensurePeriodOn settings.toBillingSettings today
  events := history.events ++
    if renewalDue settings history.account today then [.credited (allowance history.account)] else []

/-- `_charge` of a call that is closed. -/
def close (settings : VoiceSettings) (history : CreditHistory) (charge : VoiceCharge) :
    CreditHistory where
  account := history.account.charge settings.toBillingSettings charge
  events := history.events ++
    if settings.billingEnabled ∧ 0 < charge.total then
      [.charged charge.total (history.account.deductCreditsUpTo charge.total).2
        (history.account.charge settings.toBillingSettings charge).organization.creditsGrantedBalance
        (history.account.charge
          settings.toBillingSettings charge).organization.creditsPurchasedBalance]
    else []

def attempt (settings : VoiceSettings) (history : CreditHistory) (live : Nat) : CreditHistory :=
  { history with
    events := history.events ++
      [((openError settings history.account.organization live).map CreditEvent.refused).getD
        .opened] }

def activate (settings : VoiceSettings) (history : CreditHistory) (plan : PlanTier) (today : Date) :
    CreditHistory :=
  let switched : Account :=
    { history.account with organization := { history.account.organization with plan := plan } }
  { account := switched.grant settings.creditConfig today
    events := history.events ++ [.credited (allowance switched)] }

def apply (settings : VoiceSettings) (history : CreditHistory) : CreditOperation → CreditHistory
  | .closeSession sessionId request =>
      history.close settings (sessionCharge settings sessionId request)
  | .manualTopup credits description =>
      { account := history.account.recordManualTopup settings.creditConfig credits description
        events := history.events ++ [.credited credits] }
  | .planGrant plan today => history.activate settings plan today
  | .ensurePeriod today => history.renew settings today
  | .openSession today live =>
      if settings.billingEnabled then (history.renew settings today).attempt settings live
      else { history with events := history.events ++ [.opened] }

def Step (settings : VoiceSettings) (history : CreditHistory) (operation : CreditOperation)
    (next : CreditHistory) : Prop :=
  next = history.apply settings operation

/-! ### Locked accounts -/

def lockedAfter (locked : Bool) : CreditEvent → Bool
  | .charged asked taken _ _ => locked || decide (taken < asked)
  | .credited amount => locked && !decide (0 < amount)
  | .opened => locked
  | .refused _ => locked

def Locked (events : List CreditEvent) : Prop := events.foldl lockedAfter false = true

instance (events : List CreditEvent) : Decidable (Locked events) :=
  inferInstanceAs (Decidable (_ = true))

def Held (past : List CreditEvent) : CreditEvent → Prop
  | .charged asked taken granted purchased => taken < asked → granted = 0 ∧ purchased = 0
  | .opened => ¬ Locked past
  | .credited _ => True
  | .refused _ => True

/-- A locked account whose period is not due, on a plan with room for the call, is asked for a
positive floor. -/
def Floored (settings : VoiceSettings) (history : CreditHistory) : CreditOperation → Prop
  | .openSession today live =>
      Locked history.events → renewalDue settings history.account today = false →
        live < concurrentCalls history.account.organization.plan → 0 < floorCredits settings
  | _ => True

variable {settings : VoiceSettings} {history next : CreditHistory} {operation : CreditOperation}
  {events : List CreditEvent} {today : Date} {live : Nat}

theorem locked_charged {asked taken granted purchased : ℚ} :
    Locked (events ++ [.charged asked taken granted purchased]) ↔
      Locked events ∨ taken < asked := by
  unfold Locked
  rw [List.foldl_append]
  change (_ || decide (taken < asked)) = true ↔ _
  rw [Bool.or_eq_true, decide_eq_true_iff]

theorem locked_credited {amount : ℚ} :
    Locked (events ++ [.credited amount]) ↔ Locked events ∧ ¬ 0 < amount := by
  unfold Locked
  rw [List.foldl_append]
  change (_ && !decide (0 < amount)) = true ↔ _
  rw [Bool.and_eq_true, Bool.not_eq_true', decide_eq_false_iff_not]

theorem locked_opened : Locked (events ++ [.opened]) ↔ Locked events := by
  unfold Locked
  rw [List.foldl_append]
  rfl

theorem locked_refused {error : OpenError} :
    Locked (events ++ [.refused error]) ↔ Locked events := by
  unfold Locked
  rw [List.foldl_append]
  rfl

/-! ### The balances -/

structure Kept (settings : VoiceSettings) (history : CreditHistory) : Prop where
  solvent : history.account.organization.Solvent
  billed : Locked history.events → settings.billingEnabled = true
  granted : Locked history.events → history.account.organization.creditsGrantedBalance = 0
  purchased : Locked history.events → history.account.organization.creditsPurchasedBalance = 0

theorem allowance_pos (account : Account) : 0 < allowance account := by
  unfold allowance
  cases account.organization.plan with
  | free => norm_num [getPlanConfig]
  | pro => norm_num [getPlanConfig]
  | business => norm_num [getPlanConfig]

theorem drained_of_short {account : Account} {asked : ℚ} (solvent : account.organization.Solvent)
    (short : (account.deductCreditsUpTo asked).2 < asked) :
    (account.deductCreditsUpTo asked).1.organization.creditsGrantedBalance = 0 ∧
      (account.deductCreditsUpTo asked).1.organization.creditsPurchasedBalance = 0 := by
  have left := account.drainsExactly.lowers asked
  rw [account.drainsExactly.returns asked] at short
  have all : min asked account.organization.creditsBalance = account.organization.creditsBalance := by
    rcases le_total asked account.organization.creditsBalance with covered | thin
    · rw [min_eq_left covered] at short
      exact absurd short (lt_irrefl asked)
    · exact min_eq_right thin
  rw [all, sub_self] at left
  have kept : (account.deductCreditsUpTo asked).1.organization.Solvent :=
    Billing.drained_solvent solvent
  have granted := kept.first
  have purchased := kept.second
  unfold Organization.creditsBalance at left
  unfold Organization.purses at granted purchased
  dsimp only at granted purchased
  constructor
  · linarith
  · linarith

theorem charge_organization {account : Account} {charge : VoiceCharge}
    (settings : BillingSettings) : (account.charge settings charge).organization =
      if settings.billingEnabled ∧ 0 < charge.total then
        (account.deductCreditsUpTo charge.total).1.organization
      else account.organization := by
  unfold Account.charge
  cases settings.billingEnabled with
  | false =>
      exact (if_neg (fun both => Bool.false_ne_true both.1)).symm
  | true =>
      rw [if_pos rfl]
      by_cases asked : 0 < charge.total
      · rw [if_neg (not_le.mpr asked), if_pos ⟨rfl, asked⟩]
        dsimp only
        split
        · rfl
        · rw [Billing.itemize_organization]
      · rw [if_pos (not_lt.mp asked), if_neg (fun both => asked both.2)]

theorem ensurePeriodOn_eq (settings : VoiceSettings) (account : Account) (today : Date) :
    account.ensurePeriodOn settings.toBillingSettings today =
      if renewalDue settings account today then
        account.grant settings.creditConfig (account.periodStart.addMonths
          (account.periodStart.wholeMonthsTo today))
      else account := by
  unfold renewalDue Account.ensurePeriodOn Account.ensurePeriod Account.ensureCurrentPeriod
  cases settings.billingEnabled with
  | false => rfl
  | true =>
      rw [Bool.true_and, if_pos rfl]
      rfl

theorem renew_cases (settings : VoiceSettings) (history : CreditHistory) (today : Date) :
    renewalDue settings history.account today = false ∧
        history.renew settings today = history ∨
      renewalDue settings history.account today = true ∧
        (history.renew settings today).events =
          history.events ++ [.credited (allowance history.account)] ∧
        (history.renew settings today).account.organization.plan =
          history.account.organization.plan ∧
        (history.renew settings today).account.organization.creditsGrantedBalance =
          allowance history.account ∧
        (history.renew settings today).account.organization.creditsPurchasedBalance =
          history.account.organization.creditsPurchasedBalance := by
  unfold renew
  rw [ensurePeriodOn_eq]
  cases renewalDue settings history.account today with
  | false =>
      rw [if_neg Bool.false_ne_true, if_neg Bool.false_ne_true, List.append_nil]
      exact Or.inl ⟨rfl, rfl⟩
  | true => exact Or.inr ⟨rfl, rfl, rfl, rfl, rfl⟩

/-! ### Operations -/

def Good (history : CreditHistory) : Prop := EachPrefix Held history.events

theorem Kept.renew (kept : Kept settings history) (today : Date) :
    Kept settings (history.renew settings today) := by
  rcases renew_cases settings history today with ⟨_, same⟩ | ⟨_, credited, _, granted, purchased⟩
  · rw [same]
    exact kept
  · have unlocked : ¬ Locked (history.renew settings today).events := by
      rw [credited, locked_credited]
      exact fun both => both.2 (allowance_pos history.account)
    refine { solvent := ⟨?_, ?_⟩, billed := ?_, granted := ?_, purchased := ?_ }
    · change 0 ≤ (history.renew settings today).account.organization.creditsGrantedBalance
      rw [granted]
      exact (allowance_pos history.account).le
    · change 0 ≤ (history.renew settings today).account.organization.creditsPurchasedBalance
      rw [purchased]
      exact kept.solvent.second
    · exact fun locked => absurd locked unlocked
    · exact fun locked => absurd locked unlocked
    · exact fun locked => absurd locked unlocked

/-- A charge of nothing changes nothing; any other is recorded with what it took. -/
theorem close_cases (settings : VoiceSettings) (history : CreditHistory) (charge : VoiceCharge) :
    (history.close settings charge).events = history.events ∧
        (history.close settings charge).account.organization = history.account.organization ∨
      settings.billingEnabled = true ∧ 0 < charge.total ∧
        (history.close settings charge).account.organization =
          (history.account.deductCreditsUpTo charge.total).1.organization ∧
        (history.close settings charge).events = history.events ++
          [.charged charge.total (history.account.deductCreditsUpTo charge.total).2
            (history.close settings charge).account.organization.creditsGrantedBalance
            (history.close settings charge).account.organization.creditsPurchasedBalance] := by
  have organization := @charge_organization history.account charge settings.toBillingSettings
  unfold close
  dsimp only
  by_cases asked : settings.billingEnabled = true ∧ 0 < charge.total
  · rw [if_pos asked] at organization ⊢
    exact Or.inr ⟨asked.1, asked.2, organization, rfl⟩
  · rw [if_neg asked] at organization ⊢
    exact Or.inl ⟨List.append_nil _, organization⟩

theorem Kept.short (kept : Kept settings history) {asked : ℚ} (positive : 0 < asked)
    (locked : Locked history.events) : (history.account.deductCreditsUpTo asked).2 < asked := by
  have balance : history.account.organization.creditsBalance = 0 := by
    unfold Organization.creditsBalance
    rw [kept.granted locked, kept.purchased locked, add_zero]
  rw [history.account.drainsExactly.returns asked, balance]
  exact lt_of_le_of_lt (min_le_right asked 0) positive

theorem Kept.close (kept : Kept settings history) (charge : VoiceCharge) :
    Kept settings (history.close settings charge) := by
  rcases close_cases settings history charge with
    ⟨events, same⟩ | ⟨enabled, asked, deducted, events⟩
  · refine { solvent := ?_, billed := ?_, granted := ?_, purchased := ?_ }
    · rw [same]
      exact kept.solvent
    · rw [events]
      exact kept.billed
    · rw [events, same]
      exact kept.granted
    · rw [events, same]
      exact kept.purchased
  · have drained (locked : Locked (history.close settings charge).events) :
        (history.account.deductCreditsUpTo charge.total).1.organization.creditsGrantedBalance = 0 ∧
        (history.account.deductCreditsUpTo charge.total).1.organization.creditsPurchasedBalance =
          0 := by
      rw [events, locked_charged] at locked
      rcases locked with before | short
      · exact drained_of_short kept.solvent (kept.short asked before)
      · exact drained_of_short kept.solvent short
    refine { solvent := ?_, billed := fun _ => enabled, granted := ?_, purchased := ?_ }
    · rw [deducted]
      exact Billing.drained_solvent kept.solvent
    · intro locked
      rw [deducted]
      exact (drained locked).1
    · intro locked
      rw [deducted]
      exact (drained locked).2

theorem Kept.topup (kept : Kept settings history) (credits : ℚ≥0) (description : String) :
    Kept settings (history.apply settings (.manualTopup credits description)) := by
  refine { solvent := ?_, billed := ?_, granted := ?_, purchased := ?_ }
  · exact Billing.purchased_solvent kept.solvent credits.2
  · intro locked
    exact kept.billed (locked_credited.mp locked).1
  · intro locked
    exact kept.granted (locked_credited.mp locked).1
  · intro locked
    obtain ⟨before, nothing⟩ := locked_credited.mp locked
    have none : (credits : ℚ) = 0 := le_antisymm (not_lt.mp nothing) credits.2
    change history.account.organization.creditsPurchasedBalance + (credits : ℚ) = 0
    rw [kept.purchased before, none, add_zero]

theorem Kept.activate (kept : Kept settings history) (plan : PlanTier) (today : Date) :
    Kept settings (history.activate settings plan today) := by
  have unlocked : ¬ Locked (history.activate settings plan today).events := by
    intro locked
    exact (locked_credited.mp locked).2 (allowance_pos _)
  refine { solvent := ⟨?_, kept.solvent.second⟩, billed := ?_, granted := ?_, purchased := ?_ }
  · exact (allowance_pos
      { history.account with organization := { history.account.organization with plan := plan } }).le
  · exact fun locked => absurd locked unlocked
  · exact fun locked => absurd locked unlocked
  · exact fun locked => absurd locked unlocked

theorem attempt_locked : Locked (history.attempt settings live).events ↔ Locked history.events := by
  unfold attempt
  dsimp only
  cases openError settings history.account.organization live with
  | none => exact locked_opened
  | some error => exact locked_refused

theorem Kept.attempt (kept : Kept settings history) (live : Nat) :
    Kept settings (history.attempt settings live) where
  solvent := kept.solvent
  billed := fun locked => kept.billed (attempt_locked.mp locked)
  granted := fun locked => kept.granted (attempt_locked.mp locked)
  purchased := fun locked => kept.purchased (attempt_locked.mp locked)

theorem Kept.step (kept : Kept settings history) (taken : Step settings history operation next) :
    Kept settings next := by
  subst taken
  cases operation with
  | closeSession sessionId request => exact kept.close _
  | manualTopup credits description => exact kept.topup credits description
  | planGrant plan today => exact kept.activate plan today
  | ensurePeriod today => exact kept.renew today
  | openSession today live =>
      change Kept settings (if settings.billingEnabled = true then
        (history.renew settings today).attempt settings live
        else { history with events := history.events ++ [.opened] })
      split
      · exact (kept.renew today).attempt live
      · exact
          { solvent := kept.solvent
            billed := fun locked => kept.billed (locked_opened.mp locked)
            granted := fun locked => kept.granted (locked_opened.mp locked)
            purchased := fun locked => kept.purchased (locked_opened.mp locked) }

theorem Kept.initial {account : Account} (solvent : account.organization.Solvent) :
    Kept settings (CreditHistory.initial account) where
  solvent := solvent
  billed := fun locked => absurd locked Bool.false_ne_true
  granted := fun locked => absurd locked Bool.false_ne_true
  purchased := fun locked => absurd locked Bool.false_ne_true

/-! ### What holds of the events -/

theorem good_renew : Good (history.renew settings today) ↔ Good history := by
  unfold Good
  rcases renew_cases settings history today with ⟨_, same⟩ | ⟨_, credited, _⟩
  · rw [same]
  · rw [credited, EachPrefix.snoc]
    exact and_iff_left trivial

theorem Kept.good_close (kept : Kept settings history) (charge : VoiceCharge) :
    Good (history.close settings charge) ↔ Good history := by
  unfold Good
  rcases close_cases settings history charge with
    ⟨events, _⟩ | ⟨_, _, deducted, events⟩
  · rw [events]
  · rw [events, EachPrefix.snoc]
    refine and_iff_left ?_
    intro short
    rw [deducted]
    exact drained_of_short kept.solvent short

theorem Kept.openError_eq_none (kept : Kept settings history) (locked : Locked history.events) :
    openError settings history.account.organization live = none ↔
      ¬ 0 < floorCredits settings ∧ live < concurrentCalls history.account.organization.plan := by
  have balance : history.account.organization.creditsBalance = 0 := by
    unfold Organization.creditsBalance
    rw [kept.granted locked, kept.purchased locked, add_zero]
  unfold openError
  rw [balance]
  split_ifs with thin full
  · simp [thin]
  · simp [full]
  · simp [thin, not_le.mp full]

theorem Kept.good_attempt (kept : Kept settings history) :
    Good (history.attempt settings live) ↔ Good history ∧
      (Locked history.events → live < concurrentCalls history.account.organization.plan →
        0 < floorCredits settings) := by
  unfold Good CreditHistory.attempt
  rw [EachPrefix.snoc]
  refine and_congr_right ?_
  intro _
  by_cases locked : Locked history.events
  · have admitted := @openError_eq_none settings history live kept locked
    cases answer : openError settings history.account.organization live with
    | none =>
        obtain ⟨nothing, room⟩ := admitted.mp answer
        exact ⟨fun held => absurd locked held, fun asked => absurd (asked locked room) nothing⟩
    | some error =>
        refine ⟨fun _ _ room => ?_, fun _ => trivial⟩
        by_contra nothing
        rw [admitted.mpr ⟨nothing, room⟩] at answer
        cases answer
  · refine ⟨fun _ before => absurd before locked, fun _ => ?_⟩
    cases openError settings history.account.organization live with
    | none => exact locked
    | some error => trivial

theorem Kept.good_iff (kept : Kept settings history) (taken : Step settings history operation next) :
    Good next ↔ Good history ∧ Floored settings history operation := by
  subst taken
  cases operation with
  | closeSession sessionId request =>
      exact (kept.good_close _).trans (and_iff_left trivial).symm
  | manualTopup credits description => exact EachPrefix.snoc
  | planGrant plan today => exact EachPrefix.snoc
  | ensurePeriod today => exact good_renew.trans (and_iff_left trivial).symm
  | openSession today live =>
      change Good (if settings.billingEnabled = true then
        (history.renew settings today).attempt settings live
        else { history with events := history.events ++ [.opened] }) ↔ _
      split
      · rw [(kept.renew today).good_attempt, good_renew]
        refine and_congr_right ?_
        intro _
        rcases renew_cases settings history today with ⟨notDue, same⟩ | ⟨due, credited, _⟩
        · rw [same]
          exact ⟨fun asked locked _ => asked locked, fun asked locked => asked locked notDue⟩
        · refine ⟨fun _ _ notDue => absurd (due.symm.trans notDue) (by decide), fun _ locked => ?_⟩
          rw [credited, locked_credited] at locked
          exact absurd (allowance_pos _) locked.2
      · rename_i disabled
        have unlocked : ¬ Locked history.events := fun locked => disabled (kept.billed locked)
        change EachPrefix Held (history.events ++ [.opened]) ↔ _
        rw [EachPrefix.snoc]
        refine and_congr_right ?_
        intro _
        exact ⟨fun _ locked => absurd locked unlocked, fun _ => unlocked⟩

/-- A shortfall leaves both balances at zero and no call is opened until a positive credit, exactly
when no locked account is asked for a floor of nothing. -/
theorem shortfall_locks_iff (settings : VoiceSettings) (account : Account)
    (solvent : account.organization.Solvent) {operations : List CreditOperation}
    {last : CreditHistory}
    (run : Run (Step settings) (CreditHistory.initial account) operations last) :
    EachPrefix Held last.events ↔
      Run (fun history operation next =>
        Step settings history operation next ∧ Floored settings history operation)
          (CreditHistory.initial account) operations last :=
  run.guarded_iff (Kept settings) Good (Floored settings) (Kept.initial solvent)
    (fun _ _ _ kept taken => kept.step taken) EachPrefix.nil
    (fun _ _ _ kept taken => kept.good_iff taken)

theorem run_foldl (settings : VoiceSettings) (history : CreditHistory)
    (operations : List CreditOperation) :
    Run (Step settings) history operations (operations.foldl (apply settings) history) := by
  induction operations using List.reverseRecOn with
  | nil => exact .nil
  | append_singleton operations operation ih =>
      rw [List.foldl_append]
      exact ih.snoc rfl

end CreditHistory

/-! ### An opening that is left alone -/

namespace VoiceTable

variable {settings : VoiceSettings} {table : VoiceTable} {index : Nat} {request : OpenRequest}

end VoiceTable

namespace CreditHistory

/-! ### An hour on a balance of 5000 -/

def hourCall : CloseRequest :=
  { minuteCall with usage := { minuteCall.usage with durationSec := 3600 } }

def newYear : Date := { year := 2026, month := 1, day := 1 }

def afterAnHour : List CreditOperation :=
  [.closeSession 0 hourCall, .openSession newYear 0, .manualTopup 25000 "Credit pack purchase (S)",
    .openSession newYear 0]

/-- The first call is refused, the one after the purchase is opened. -/
theorem shortfall_locks_iff_afterAnHour :
    (afterAnHour.foldl (apply voicePrices) (CreditHistory.initial freeAccount)).events.length = 4 ∧
      EachPrefix Held
        (afterAnHour.foldl (apply voicePrices) (CreditHistory.initial freeAccount)).events := by
  have positive : 0 < floorCredits voicePrices := by decide +kernel
  have run := run_foldl voicePrices (CreditHistory.initial freeAccount) afterAnHour
  refine ⟨by decide +kernel, (shortfall_locks_iff voicePrices freeAccount
    ⟨by decide +kernel, by decide +kernel⟩ run).mpr (run.mono ?_)⟩
  intro history operation next taken
  refine ⟨taken, ?_⟩
  cases operation with
  | openSession today live => exact fun _ _ _ => positive
  | closeSession sessionId request => trivial
  | manualTopup credits description => trivial
  | planGrant plan today => trivial
  | ensurePeriod today => trivial

def withoutFee : VoiceSettings := { voicePrices with voicePlatformFeeUsdPerMinute := 0 }

/-- The empty account covers a floor of nothing. -/
theorem shortfall_not_locked :
    ([.closeSession 0 hourCall, .openSession newYear 0].foldl (apply withoutFee)
      (CreditHistory.initial freeAccount)).events = [.charged 66000 5000 0 0, .opened] ∧
    ¬ EachPrefix Held ([.closeSession 0 hourCall, .openSession newYear 0].foldl (apply withoutFee)
      (CreditHistory.initial freeAccount)).events := by
  have listed : ([.closeSession 0 hourCall, .openSession newYear 0].foldl (apply withoutFee)
      (CreditHistory.initial freeAccount)).events = [.charged 66000 5000 0 0, .opened] := by
    decide +kernel
  refine ⟨listed, ?_⟩
  intro held
  have unlocked : ¬ Locked [.charged 66000 5000 0 0] :=
    held [.charged 66000 5000 0 0] .opened [] listed
  exact unlocked (by decide +kernel)

end CreditHistory
end Assemblix.Realtime
