import Assemblix.Billing.Credits
import Mathlib.Data.Rat.Floor

/-
The deduction for an execution.

Every execution pays a fixed fee; usage on platform keys is charged with a margin. Before
that a lapsed period is granted again, which overwrites the granted credits. A balance that
is too low is reported without a deduction, but the grant that came before it stays.
-/

namespace Assemblix.Billing

/-! ### Periods -/

def isLeapYear (year : Nat) : Bool :=
  decide (year % 4 = 0 ∧ (year % 100 ≠ 0 ∨ year % 400 = 0))

def daysInMonth (year month : Nat) : Nat :=
  if month = 2 then if isLeapYear year then 29 else 28
  else if month = 4 ∨ month = 6 ∨ month = 9 ∨ month = 11 then 30
  else 31

/-- `_add_months`: the day is clamped to the length of the month. -/
def Date.addMonths (start : Date) (months : Nat) : Date :=
  let index := start.month - 1 + months
  let year := start.year + index / 12
  let month := index % 12 + 1
  { year := year, month := month, day := min start.day (daysInMonth year month) }

def Date.before (left right : Date) : Bool :=
  decide (left.year < right.year ∨ (left.year = right.year ∧
    (left.month < right.month ∨ (left.month = right.month ∧ left.day < right.day))))

/-- `_whole_months_between`. -/
def Date.wholeMonthsTo (start finish : Date) : Nat :=
  let months := finish.year * 12 + finish.month - (start.year * 12 + start.month)
  if finish.before (start.addMonths months) then months - 1 else months

/-! ### Prices -/

def roundHalfEven (value : ℚ) : ℤ :=
  let floor := ⌊value⌋
  let rest := value - floor
  if rest < 1 / 2 then floor
  else if 1 / 2 < rest then floor + 1
  else if floor % 2 = 0 then floor
  else floor + 1

/-- `quantize(Decimal("0.00000001"))`. -/
def quantize (value : ℚ) : ℚ := (roundHalfEven (value * 100000000) : ℚ) / 100000000

structure BillingSettings where
  billingEnabled : Bool
  creditConfig : CreditConfig
  marginMultiplier : ℚ
  requestFeeUsd : ℚ
  today : Date

def BillingSettings.usdToCredits (settings : BillingSettings) (amountUsd : ℚ)
    (withMargin : Bool) : ℚ :=
  let base := amountUsd / settings.creditConfig.creditValueUsd
  quantize (if withMargin then base * settings.marginMultiplier else base)

structure ExecutionCosts where
  systemKeyCostUsd : ℚ
  systemVoiceCostUsd : ℚ

namespace BillingSettings

variable (settings : BillingSettings) (costs : ExecutionCosts)

def requestFeeCredits : ℚ := settings.usdToCredits settings.requestFeeUsd false

def systemKeyCredits : ℚ :=
  if 0 < costs.systemKeyCostUsd then settings.usdToCredits costs.systemKeyCostUsd true else 0

def voiceCredits : ℚ :=
  if 0 < costs.systemVoiceCostUsd then settings.usdToCredits costs.systemVoiceCostUsd true else 0

/-- `total_credits` of the billing result. -/
def totalCredits : ℚ :=
  if settings.billingEnabled then
    settings.requestFeeCredits + settings.systemKeyCredits costs + settings.voiceCredits costs
  else 0

end BillingSettings

/-! ### The deduction -/

namespace Account

def grantDue (settings : BillingSettings) (account : Account) : Bool :=
  !settings.today.before (account.organization.creditsPeriodStart.addMonths 1)

def ensureCurrentPeriod (settings : BillingSettings) (account : Account) : Account :=
  if account.grantDue settings then
    let start := account.organization.creditsPeriodStart
    account.grant settings.creditConfig (start.addMonths (start.wholeMonthsTo settings.today))
  else account

/-- The granted part is spent first; `none` when the balance is short. Amounts are those of the
columns, which hold eight decimals. -/
def deductCredits (account : Account) (amount : ℚ) : Option Account :=
  let organization := account.organization
  if amount ≤ organization.creditsGrantedBalance + organization.creditsPurchasedBalance then
    some
      { account with
        organization :=
          { organization with
            creditsGrantedBalance := max (organization.creditsGrantedBalance - amount) 0
            creditsPurchasedBalance := organization.creditsPurchasedBalance -
              max (amount - organization.creditsGrantedBalance) 0 } }
  else none

def createIf (account : Account) (wanted : Bool) (transaction : CreditTransaction) : Account :=
  if wanted then account.create transaction else account

/-- The ledger rows of one deduction. -/
def recordUsage (settings : BillingSettings) (costs : ExecutionCosts) (executionId : String)
    (account : Account) : Account :=
  let charged := account.create
    { amountCredits := -settings.requestFeeCredits
      amountUsd := -settings.requestFeeUsd
      type := .requestFee
      description := "Platform fee for execution " ++ executionId }
  let charged := charged.createIf (decide (0 < settings.systemKeyCredits costs))
    { amountCredits := -settings.systemKeyCredits costs
      amountUsd := -costs.systemKeyCostUsd
      type := .llmUsage
      description := "LLM usage (system keys) for execution " ++ executionId }
  charged.createIf (decide (0 < settings.voiceCredits costs))
    { amountCredits := -settings.voiceCredits costs
      amountUsd := -costs.systemVoiceCostUsd
      type := .voiceUsage
      description := "Voice (TTS) usage for execution " ++ executionId }

/-- `deduct_for_execution` of an organization that exists: the account it leaves behind, and
whether the balance covered the charge. -/
def deductForExecution (settings : BillingSettings) (costs : ExecutionCosts)
    (executionId : String) (account : Account) : Account × Bool :=
  if settings.billingEnabled then
    let current := account.ensureCurrentPeriod settings
    match current.deductCredits (settings.totalCredits costs) with
    | none => (current, false)
    | some spent => (spent.recordUsage settings costs executionId, true)
  else (account, true)

variable {settings : BillingSettings} {costs : ExecutionCosts} {executionId : String}
  {account : Account}

theorem createIf_length (wanted : Bool) (transaction : CreditTransaction) :
    account.transactions.length ≤ (account.createIf wanted transaction).transactions.length := by
  unfold createIf create
  split <;> simp

theorem recordUsage_length :
    account.transactions.length <
      (account.recordUsage settings costs executionId).transactions.length := by
  unfold recordUsage
  apply Nat.lt_of_lt_of_le _ (createIf_length _ _)
  apply Nat.lt_of_lt_of_le _ (createIf_length _ _)
  simp [create]

theorem ensureCurrentPeriod_length :
    account.transactions.length ≤ (account.ensureCurrentPeriod settings).transactions.length ∧
      (account.grantDue settings = true →
        account.transactions.length < (account.ensureCurrentPeriod settings).transactions.length) := by
  unfold ensureCurrentPeriod
  split
  case isTrue due => simp [grant, create, reissueGrantedCredits]
  case isFalse notDue => exact ⟨Nat.le_refl _, fun due => absurd due notDue⟩

theorem deductCredits_transactions {amount : ℚ} {spent : Account}
    (deducted : account.deductCredits amount = some spent) :
    spent.transactions = account.transactions := by
  unfold deductCredits at deducted
  dsimp only at deducted
  split at deducted
  · cases deducted
    rfl
  · cases deducted

/-- A deduction that is not switched off leaves a row in the ledger. -/
theorem deductForExecution_covered (enabled : settings.billingEnabled = true)
    (covered : (account.deductForExecution settings costs executionId).2 = true) :
    account.transactions.length <
      (account.deductForExecution settings costs executionId).1.transactions.length := by
  unfold deductForExecution at covered ⊢
  simp only [enabled, if_true] at covered ⊢
  have granted := (@ensureCurrentPeriod_length settings account).1
  cases deducted : (account.ensureCurrentPeriod settings).deductCredits
      (settings.totalCredits costs) with
  | none =>
      rw [deducted] at covered
      cases covered
  | some spent =>
      dsimp only
      have same := deductCredits_transactions deducted
      have row := @recordUsage_length settings costs executionId spent
      rw [same] at row
      omega

theorem deductForExecution_short
    (short : (account.deductForExecution settings costs executionId).2 = false) :
    (account.deductForExecution settings costs executionId).1 = account ↔
      account.grantDue settings = false := by
  unfold deductForExecution at short ⊢
  split at short
  case isFalse => cases short
  case isTrue enabled =>
    simp only [enabled, if_true]
    dsimp only at short
    cases deducted : (account.ensureCurrentPeriod settings).deductCredits
        (settings.totalCredits costs) with
    | some spent =>
        rw [deducted] at short
        cases short
    | none =>
        dsimp only
        constructor
        · intro same
          by_contra due
          have grown := (@ensureCurrentPeriod_length settings account).2
            (Bool.eq_true_of_not_eq_false due)
          rw [same] at grown
          omega
        · intro notDue
          unfold ensureCurrentPeriod
          rw [notDue]
          rfl

end Account
end Assemblix.Billing
