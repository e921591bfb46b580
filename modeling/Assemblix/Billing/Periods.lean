import Assemblix.Billing.Ledger
import Assemblix.Library.MonthlySchedule
import Assemblix.Library.Run

/-
The monthly grants of one organization over many calls.

Only the start of the current period is stored, so its day is what the next months are
counted from. After a short month that day is earlier than the day of the subscription.
-/

namespace Assemblix.Billing

open Library (CalendarDay EachPrefix)
open Library.MonthlySchedule

/-! ### Dates as calendar days -/

structure Date.Valid (date : Date) : Prop where
  year : 1 ≤ date.year
  monthPos : 1 ≤ date.month
  monthLe : date.month ≤ 12
  dayPos : 1 ≤ date.day
  dayLe : date.day ≤ daysInMonth date.year date.month

def monthLength (month : Nat) : Nat := daysInMonth (month / 12) (month % 12 + 1)

def Date.calendarDay (date : Date) : CalendarDay where
  month := date.year * 12 + (date.month - 1)
  day := date.day

/-- `earlier ≤ later`. -/
def Date.upTo (earlier later : Date) : Bool := !later.before earlier

namespace Date

variable {start today left right : Date}

theorem Valid.split (valid : start.Valid) :
    start.calendarDay.month / 12 = start.year ∧ start.calendarDay.month % 12 + 1 = start.month := by
  obtain ⟨_, monthPos, monthLe, _, _⟩ := valid
  unfold calendarDay
  dsimp only
  omega

theorem Valid.monthLength (valid : start.Valid) :
    monthLength start.calendarDay.month = daysInMonth start.year start.month := by
  unfold Billing.monthLength
  rw [valid.split.1, valid.split.2]

theorem Valid.fits (valid : start.Valid) :
    start.calendarDay.day ≤ Billing.monthLength start.calendarDay.month := by
  rw [valid.monthLength]
  exact valid.dayLe

theorem Valid.month_pos (valid : start.Valid) : 0 < start.calendarDay.month := by
  have year := valid.year
  unfold calendarDay
  dsimp only
  omega

theorem eq_of_calendarDay (leftValid : left.Valid) (rightValid : right.Valid)
    (same : left.calendarDay = right.calendarDay) : left = right := by
  have months := congrArg CalendarDay.month same
  have days : left.day = right.day := congrArg CalendarDay.day same
  have leftSplit := leftValid.split
  rw [months, rightValid.split.1, rightValid.split.2] at leftSplit
  obtain ⟨leftYear, leftMonth, leftDay⟩ := left
  obtain ⟨rightYear, rightMonth, rightDay⟩ := right
  simp only at days leftSplit
  rw [days, ← leftSplit.1, ← leftSplit.2]

theorem before_iff (leftValid : left.Valid) (rightMonth : 1 ≤ right.month ∧ right.month ≤ 12) :
    left.before right = true ↔ ¬ right.calendarDay.Le left.calendarDay := by
  obtain ⟨_, monthPos, monthLe, _, _⟩ := leftValid
  unfold before CalendarDay.Le calendarDay
  rw [decide_eq_true_iff]
  dsimp only
  omega

theorem upTo_iff (leftValid : left.Valid) (rightValid : right.Valid) :
    left.upTo right = true ↔ left.calendarDay.Le right.calendarDay := by
  unfold upTo
  rw [Bool.not_eq_true', ← Bool.not_eq_true, before_iff rightValid
    ⟨leftValid.monthPos, leftValid.monthLe⟩, not_not]

theorem addMonths_month_bounds (months : Nat) :
    1 ≤ (start.addMonths months).month ∧ (start.addMonths months).month ≤ 12 := by
  unfold addMonths
  dsimp only
  omega

theorem addMonths_calendarDay (valid : start.Valid) (months : Nat) :
    (start.addMonths months).calendarDay =
      due Billing.monthLength start.calendarDay.day (start.calendarDay.month + months) := by
  obtain ⟨_, monthPos, monthLe, _, _⟩ := valid
  have index : (start.year * 12 + (start.month - 1) + months) / 12 =
      start.year + (start.month - 1 + months) / 12 := by omega
  have rest : (start.year * 12 + (start.month - 1) + months) % 12 =
      (start.month - 1 + months) % 12 := by omega
  have month : (start.year + (start.month - 1 + months) / 12) * 12 +
      ((start.month - 1 + months) % 12 + 1 - 1) =
        start.year * 12 + (start.month - 1) + months := by omega
  unfold addMonths calendarDay due dueDay Billing.monthLength
  dsimp only
  rw [index, rest, month]

theorem daysInMonth_pos (year month : Nat) : 1 ≤ daysInMonth year month := by
  unfold daysInMonth
  split_ifs <;> omega

theorem Valid.addMonths (valid : start.Valid) (months : Nat) : (start.addMonths months).Valid where
  year := Nat.le_trans valid.year (Nat.le_add_right _ _)
  monthPos := (addMonths_month_bounds months).1
  monthLe := (addMonths_month_bounds months).2
  dayPos := Nat.le_min.mpr ⟨valid.dayPos, daysInMonth_pos _ _⟩
  dayLe := Nat.min_le_right _ _

theorem wholeMonthsTo_month (startValid : start.Valid) (todayValid : today.Valid) :
    start.calendarDay.month + start.wholeMonthsTo today =
      (anchored Billing.monthLength start.calendarDay today.calendarDay).month := by
  have startMonth := startValid.monthPos
  have todayMonth := todayValid.monthPos
  have apart : today.year * 12 + today.month - (start.year * 12 + start.month) =
      today.calendarDay.month - start.calendarDay.month := by
    unfold calendarDay
    dsimp only
    omega
  rw [anchored_month]
  unfold wholeMonthsTo
  dsimp only
  rw [apart]
  have early := @before_iff today (start.addMonths (today.calendarDay.month -
    start.calendarDay.month)) todayValid (addMonths_month_bounds _)
  rw [addMonths_calendarDay startValid] at early
  by_cases past : start.calendarDay.month ≤ today.calendarDay.month
  · rw [Nat.add_sub_cancel' past] at early
    have day : ¬ (due Billing.monthLength start.calendarDay.day today.calendarDay.month).Le
        today.calendarDay ↔ today.calendarDay.day <
          dueDay Billing.monthLength start.calendarDay.day today.calendarDay.month := by
      unfold CalendarDay.Le due
      dsimp only
      omega
    rw [day] at early
    unfold lastDue
    split
    case isTrue before =>
      rw [if_pos (early.mp before)]
      omega
    case isFalse reached =>
      rw [if_neg (fun before => reached (early.mpr before))]
      omega
  · have none : today.calendarDay.month - start.calendarDay.month = 0 := by omega
    have bound : lastDue Billing.monthLength start.calendarDay.day today.calendarDay ≤
        today.calendarDay.month := by
      unfold lastDue
      split <;> omega
    rw [none]
    split <;> omega

theorem anchored_date (startValid : start.Valid) (todayValid : today.Valid) :
    (start.addMonths (start.wholeMonthsTo today)).calendarDay =
      anchored Billing.monthLength start.calendarDay today.calendarDay := by
  rw [addMonths_calendarDay startValid, wholeMonthsTo_month startValid todayValid]
  rfl

theorem grantDue_iff (startValid : start.Valid) (todayValid : today.Valid) :
    today.before (start.addMonths 1) = false ↔
      start.calendarDay.month <
        lastDue Billing.monthLength start.calendarDay.day today.calendarDay := by
  have early := @before_iff today (start.addMonths 1) todayValid (addMonths_month_bounds _)
  rw [addMonths_calendarDay startValid] at early
  rw [← Bool.not_eq_true, early, not_not]
  unfold CalendarDay.Le due lastDue
  dsimp only
  by_cases same : start.calendarDay.month + 1 = today.calendarDay.month
  · rw [same]
    split <;> omega
  · split <;> omega

end Date

/-! ### The calls -/

namespace Account

/-- `ensure_current_period` on a day. -/
def ensurePeriodOn (settings : BillingSettings) (account : Account) (today : Date) : Account :=
  account.ensurePeriod { settings with today := today }

/-- The calls on some days, the earliest first. -/
def ensurePeriods (settings : BillingSettings) (account : Account) (dates : List Date) : Account :=
  dates.foldl (ensurePeriodOn settings) account

def periodStart (account : Account) : Date := account.organization.creditsPeriodStart

def grants (account : Account) : Nat :=
  (account.transactions.filter (fun transaction => transaction.type = .planGrant)).length

end Account

section Call

variable {settings : BillingSettings} {account : Account} {today : Date}

/-- A call grants nothing, or advances the period and writes one grant. -/
theorem ensurePeriodOn_cases (enabled : settings.billingEnabled = true) :
    account.ensurePeriodOn settings today = account ∧
        today.before (account.periodStart.addMonths 1) = true ∨
      today.before (account.periodStart.addMonths 1) = false ∧
        (account.ensurePeriodOn settings today).periodStart =
          account.periodStart.addMonths (account.periodStart.wholeMonthsTo today) ∧
        (account.ensurePeriodOn settings today).grants = account.grants + 1 := by
  unfold Account.ensurePeriodOn Account.ensurePeriod Account.ensureCurrentPeriod Account.grantDue
  rw [if_pos (by exact enabled)]
  cases lapsed : today.before (account.organization.creditsPeriodStart.addMonths 1) with
  | true =>
      left
      exact ⟨rfl, lapsed⟩
  | false =>
      right
      refine ⟨lapsed, rfl, ?_⟩
      unfold Account.grants Account.grant Account.create Account.reissueGrantedCredits
      dsimp only
      rw [Bool.not_false, if_pos rfl, List.filter_append, List.length_append]
      simp

section

variable (enabled : settings.billingEnabled = true) (startValid : account.periodStart.Valid)
include enabled startValid

theorem ensurePeriodOn_advance (todayValid : today.Valid) :
    (account.ensurePeriodOn settings today).periodStart.calendarDay =
      advance monthLength account.periodStart.calendarDay today.calendarDay := by
  have lapse := Date.grantDue_iff startValid todayValid
  rcases @ensurePeriodOn_cases settings account today enabled with
    ⟨same, notDue⟩ | ⟨lapsed, moved, _⟩
  · rw [same, advance_of_not_due]
    intro later
    rw [lapse.mpr later] at notDue
    cases notDue
  · rw [moved, Date.anchored_date startValid todayValid, advance_of_due (lapse.mp lapsed)]

theorem ensurePeriodOn_valid : (account.ensurePeriodOn settings today).periodStart.Valid := by
  rcases @ensurePeriodOn_cases settings account today enabled with
    ⟨same, _⟩ | ⟨_, moved, _⟩
  · rw [same]
    exact startValid
  · rw [moved]
    exact startValid.addMonths _

theorem ensurePeriodOn_grants (todayValid : today.Valid) :
    (account.ensurePeriodOn settings today).grants = account.grants ∨
      (account.ensurePeriodOn settings today).grants = account.grants + 1 ∧
        account.periodStart.calendarDay.month <
          (account.ensurePeriodOn settings today).periodStart.calendarDay.month := by
  rcases @ensurePeriodOn_cases settings account today enabled with
    ⟨same, _⟩ | ⟨lapsed, _, granted⟩
  · rw [same]
    exact Or.inl rfl
  · right
    have later := (Date.grantDue_iff startValid todayValid).mp lapsed
    rw [ensurePeriodOn_advance enabled startValid todayValid]
    exact ⟨granted, month_lt_advance later⟩

end

theorem ensurePeriods_snoc (dates : List Date) :
    account.ensurePeriods settings (dates ++ [today]) =
      (account.ensurePeriods settings dates).ensurePeriodOn settings today := by
  unfold Account.ensurePeriods
  rw [List.foldl_append]
  rfl

end Call

/-! ### Following the anchor -/

/-- After the calls of some days and one more: the stored start is the subscription's start
advanced by the whole months since, there were no more grants than months, and a repeated
day grants nothing. -/
structure FollowsAnchor (settings : BillingSettings) (account : Account) (past : List Date)
    (today : Date) : Prop where
  start : (account.ensurePeriods settings (past ++ [today])).periodStart =
    account.periodStart.addMonths (account.periodStart.wholeMonthsTo today)
  grants : (account.ensurePeriods settings (past ++ [today])).grants ≤
    account.grants + account.periodStart.wholeMonthsTo today
  repeated : past.getLast? = some today →
    (account.ensurePeriods settings (past ++ [today])).grants =
      (account.ensurePeriods settings past).grants

/-- With the period that the subscription was in at the previous call: the period of today
starts on no later day of the month, and today is not a day from that day on in a month in
which the subscription's own day is still to come. -/
def Date.Aligned (start previous today : Date) : Prop :=
  let period := start.addMonths (start.wholeMonthsTo previous)
  let due := start.addMonths (start.wholeMonthsTo today)
  due.day ≤ period.day ∧
    (today.day < min start.day (daysInMonth today.year today.month) → today.day < period.day)

def lastDay (start : Date) (past : List Date) : Date := past.getLast?.getD start

section Anchor

variable {settings : BillingSettings} {account : Account} {past : List Date} {today : Date}

theorem lastDay_snoc (start : Date) : lastDay start (past ++ [today]) = today := by
  unfold lastDay
  rw [List.getLast?_append]
  rfl

structure InPeriod (settings : BillingSettings) (account : Account) (past : List Date) : Prop where
  start : (account.ensurePeriods settings past).periodStart =
    account.periodStart.addMonths
      (account.periodStart.wholeMonthsTo (lastDay account.periodStart past))
  grants : (account.ensurePeriods settings past).grants ≤
    account.grants + account.periodStart.wholeMonthsTo (lastDay account.periodStart past)

theorem aligned_iff {start previous : Date} (startValid : start.Valid)
    (todayValid : today.Valid) :
    Aligned monthLength start.calendarDay
        (start.addMonths (start.wholeMonthsTo previous)).calendarDay today.calendarDay ↔
      start.Aligned previous today := by
  unfold Library.MonthlySchedule.Aligned Date.Aligned dueDay
  rw [← Date.anchored_date startValid todayValid, todayValid.monthLength]
  rfl

theorem InPeriod.snoc_iff (kept : InPeriod settings account past)
    (enabled : settings.billingEnabled = true) (startValid : account.periodStart.Valid)
    (lastValid : (lastDay account.periodStart past).Valid) (todayValid : today.Valid)
    (ordered : account.periodStart.wholeMonthsTo (lastDay account.periodStart past) ≤
      account.periodStart.wholeMonthsTo today) :
    FollowsAnchor settings account past today ↔
      account.periodStart.Aligned (lastDay account.periodStart past) today := by
  have storedValid : (account.ensurePeriods settings past).periodStart.Valid := by
    rw [kept.start]
    exact startValid.addMonths _
  have dueValid := startValid.addMonths (account.periodStart.wholeMonthsTo today)
  have period := Date.anchored_date startValid lastValid
  have lastMonth := Date.wholeMonthsTo_month startValid lastValid
  have todayMonth := Date.wholeMonthsTo_month startValid todayValid
  have stepped := ensurePeriodOn_advance enabled storedValid todayValid
  have follows : ((account.ensurePeriods settings past).ensurePeriodOn settings
        today).periodStart =
          account.periodStart.addMonths (account.periodStart.wholeMonthsTo today) ↔
      account.periodStart.Aligned (lastDay account.periodStart past) today := by
    rw [← aligned_iff startValid todayValid, ← advance_anchored_iff startValid.fits
      todayValid.month_pos period (by rw [period]; omega)]
    rw [kept.start] at stepped
    rw [← Date.anchored_date startValid todayValid, ← stepped]
    constructor
    · intro same
      rw [same]
    · intro same
      exact Date.eq_of_calendarDay (ensurePeriodOn_valid enabled storedValid) dueValid same
  constructor
  · intro anchor
    rw [← follows, ← ensurePeriods_snoc]
    exact anchor.start
  · intro aligned
    have start := follows.mpr aligned
    have newMonth := congrArg (fun date => (Date.calendarDay date).month) start
    have oldMonth := congrArg (fun date => (Date.calendarDay date).month) kept.start
    rw [Date.anchored_date startValid todayValid, ← todayMonth] at newMonth
    rw [period, ← lastMonth] at oldMonth
    have granted := ensurePeriodOn_grants enabled storedValid todayValid
    have before := kept.grants
    constructor
    · rw [ensurePeriods_snoc]
      exact start
    · rw [ensurePeriods_snoc]
      rcases granted with none | ⟨one, later⟩
      · omega
      · omega
    · intro last
      have sameDay : lastDay account.periodStart past = today := by
        unfold lastDay
        rw [last]
        rfl
      rw [ensurePeriods_snoc]
      rw [sameDay] at oldMonth
      rcases granted with none | ⟨one, later⟩
      · exact none
      · omega

theorem FollowsAnchor.inPeriod (anchor : FollowsAnchor settings account past today) :
    InPeriod settings account (past ++ [today]) where
  start := by
    rw [lastDay_snoc]
    exact anchor.start
  grants := by
    rw [lastDay_snoc]
    exact anchor.grants

theorem inPeriod_nil (startValid : account.periodStart.Valid) :
    InPeriod settings account [] where
  start := by
    have same := Date.anchored_date startValid startValid
    rw [anchored_self startValid.fits] at same
    exact (Date.eq_of_calendarDay (startValid.addMonths _) startValid same).symm
  grants := Nat.le_add_right _ _

theorem last_upTo (startValid : account.periodStart.Valid) (valid : ∀ date ∈ past, date.Valid)
    (todayValid : today.Valid)
    (sorted : (past ++ [today]).Pairwise (fun earlier later => earlier.upTo later = true)) :
    (lastDay account.periodStart past).Valid ∧
      account.periodStart.wholeMonthsTo (lastDay account.periodStart past) ≤
        account.periodStart.wholeMonthsTo today := by
  have todayMonth := Date.wholeMonthsTo_month startValid todayValid
  unfold lastDay
  cases last : past.getLast? with
  | none =>
      have startMonth := Date.wholeMonthsTo_month startValid startValid
      have before := @start_le_anchored monthLength account.periodStart.calendarDay
        today.calendarDay
      rw [anchored_self startValid.fits] at startMonth
      refine ⟨startValid, ?_⟩
      rw [Option.getD_none]
      omega
  | some previous =>
      have member := List.mem_of_getLast? last
      have previousValid := valid previous member
      have upTo := (List.pairwise_append.mp sorted).2.2 previous member today List.mem_cons_self
      have months := @anchored_mono monthLength account.periodStart.calendarDay
        previous.calendarDay today.calendarDay ((Date.upTo_iff previousValid todayValid).mp upTo)
      have previousMonth := Date.wholeMonthsTo_month startValid previousValid
      refine ⟨previousValid, ?_⟩
      rw [Option.getD_some]
      omega

end Anchor

/-- Calls on days in order follow the anchor exactly when each of them is aligned. -/
theorem grants_follow_anchor_iff (settings : BillingSettings) (account : Account)
    (dates : List Date) (enabled : settings.billingEnabled = true)
    (startValid : account.periodStart.Valid) (valid : ∀ date ∈ dates, date.Valid)
    (sorted : dates.Pairwise (fun earlier later => earlier.upTo later = true)) :
    EachPrefix (FollowsAnchor settings account) dates ↔
      EachPrefix (fun past today =>
        account.periodStart.Aligned (lastDay account.periodStart past) today) dates := by
  suffices kept : (EachPrefix (FollowsAnchor settings account) dates ↔
      EachPrefix (fun past today =>
        account.periodStart.Aligned (lastDay account.periodStart past) today) dates) ∧
      (EachPrefix (FollowsAnchor settings account) dates → InPeriod settings account dates) from
    kept.1
  induction dates using List.reverseRecOn with
  | nil => exact ⟨⟨fun _ => EachPrefix.nil, fun _ => EachPrefix.nil⟩, fun _ => inPeriod_nil startValid⟩
  | append_singleton past today ih =>
      have earlier : ∀ date ∈ past, date.Valid := fun date member =>
        valid date (List.mem_append_left _ member)
      have todayValid : today.Valid := valid today (List.mem_append_right _ List.mem_cons_self)
      obtain ⟨same, inPeriod⟩ := ih earlier (List.pairwise_append.mp sorted).1
      have last := last_upTo startValid earlier todayValid sorted
      rw [EachPrefix.snoc, EachPrefix.snoc]
      constructor
      · rw [same]
        apply and_congr_right
        intro aligned
        exact (inPeriod (same.mpr aligned)).snoc_iff enabled startValid last.1 todayValid last.2
      · rintro ⟨_, anchor⟩
        exact anchor.inPeriod

/-! ### A subscription from the end of January -/

def januaryAccount : Account where
  organization :=
    { plan := .free
      creditsGrantedBalance := 0
      creditsPurchasedBalance := 0
      creditsPeriodStart := { year := 2023, month := 1, day := 31 } }
  transactions := []

def march (day : Nat) : Date := { year := 2023, month := 3, day := day }

theorem grants_follow_anchor_iff_january :
    EachPrefix (FollowsAnchor defaultSettings januaryAccount) [march 1, march 27] ↔
      EachPrefix (fun past today => januaryAccount.periodStart.Aligned
        (lastDay januaryAccount.periodStart past) today) [march 1, march 27] := by
  apply grants_follow_anchor_iff
  · rfl
  · exact ⟨by decide, by decide, by decide, by decide, by decide⟩
  · intro date member
    rcases List.mem_pair.mp member with rfl | rfl
    · exact ⟨by decide, by decide, by decide, by decide, by decide⟩
    · exact ⟨by decide, by decide, by decide, by decide, by decide⟩
  · decide

/-- Two calls on one day: the first starts the period on February 28, whose next month has
begun on March 28 already, so the second one grants again. -/
theorem grants_repeat_on_a_day :
    [march 29, march 29].Pairwise (fun earlier later => earlier.upTo later = true) ∧
      ¬ EachPrefix (FollowsAnchor defaultSettings januaryAccount) [march 29, march 29] := by
  refine ⟨by decide, ?_⟩
  intro follows
  have anchor := follows [march 29] (march 29) [] rfl
  have again := anchor.repeated rfl
  have twice : (januaryAccount.ensurePeriods defaultSettings [march 29, march 29]).grants = 2 := rfl
  have once : (januaryAccount.ensurePeriods defaultSettings [march 29]).grants = 1 := rfl
  rw [once] at again
  exact absurd (twice.symm.trans again) (by decide)

end Assemblix.Billing
