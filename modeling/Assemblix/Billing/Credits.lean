import Mathlib.Data.Rat.Defs
import Mathlib.Algebra.Order.Ring.Rat
import Mathlib.Tactic.Ring

/-
Plans, credit packs and the credit balance of an organization.

Granted credits are overwritten by every plan grant; purchased credits are only added to
here. Each change of the balance writes one row of the ledger.
-/

namespace Assemblix.Billing

structure Date where
  year : Nat
  month : Nat
  day : Nat
  deriving DecidableEq, Repr

inductive PlanTier
  | free
  | pro
  | business
  deriving DecidableEq, Repr

def PlanTier.value : PlanTier → String
  | .free => "free"
  | .pro => "pro"
  | .business => "business"

structure PlanConfig where
  name : String
  priceUsdCents : Nat
  creditsPerMonth : Nat
  deriving DecidableEq, Repr

def getPlanConfig : PlanTier → PlanConfig
  | .free => { name := "Free", priceUsdCents := 0, creditsPerMonth := 5000 }
  | .pro => { name := "Pro", priceUsdCents := 1900, creditsPerMonth := 60000 }
  | .business => { name := "Business", priceUsdCents := 4900, creditsPerMonth := 200000 }

structure CreditPack where
  code : String
  priceUsdCents : Nat
  credits : Nat
  deriving DecidableEq, Repr

def lower (text : String) : String := String.ofList (text.toList.map Char.toLower)

def upper (text : String) : String := String.ofList (text.toList.map Char.toUpper)

/-- `get_credit_pack`; `none` stands for the unknown-pack error. -/
def getCreditPack (code : String) : Option CreditPack :=
  match lower code with
  | "s" => some { code := "s", priceUsdCents := 1000, credits := 25000 }
  | "m" => some { code := "m", priceUsdCents := 2500, credits := 70000 }
  | "l" => some { code := "l", priceUsdCents := 5000, credits := 160000 }
  | _ => none

theorem getCreditPack_credits_pos {code : String} {pack : CreditPack}
    (found : getCreditPack code = some pack) : 0 < pack.credits := by
  unfold getCreditPack at found
  split at found
  · cases found
    decide
  · cases found
    decide
  · cases found
    decide
  · cases found

structure CreditConfig where
  creditValueUsd : ℚ

def CreditConfig.creditsToUsd (config : CreditConfig) (credits : ℚ) : ℚ :=
  credits * config.creditValueUsd

inductive CreditTransactionType
  | planGrant
  | llmUsage
  | requestFee
  | manualTopup
  | refund
  | voiceUsage
  deriving DecidableEq, Repr

structure CreditTransaction where
  amountCredits : ℚ
  amountUsd : ℚ
  type : CreditTransactionType
  description : String
  deriving DecidableEq

structure Organization where
  plan : PlanTier
  creditsGrantedBalance : ℚ
  creditsPurchasedBalance : ℚ
  creditsPeriodStart : Date
  deriving DecidableEq

structure Account where
  organization : Organization
  transactions : List CreditTransaction
  deriving DecidableEq

namespace Account

def addPurchasedCredits (account : Account) (amount : ℚ) : Account :=
  { account with
    organization :=
      { account.organization with
        creditsPurchasedBalance := account.organization.creditsPurchasedBalance + amount } }

def reissueGrantedCredits (account : Account) (amount : ℚ) (periodStart : Date) : Account :=
  { account with
    organization :=
      { account.organization with
        creditsGrantedBalance := amount
        creditsPeriodStart := periodStart } }

def create (account : Account) (transaction : CreditTransaction) : Account :=
  { account with transactions := account.transactions ++ [transaction] }

/-- `_grant` for the organization's own plan. -/
def grant (config : CreditConfig) (account : Account) (periodStart : Date) : Account :=
  let plan := getPlanConfig account.organization.plan
  (account.reissueGrantedCredits plan.creditsPerMonth periodStart).create
    { amountCredits := plan.creditsPerMonth
      amountUsd := config.creditsToUsd plan.creditsPerMonth
      type := .planGrant
      description :=
        "Monthly credits grant for " ++ upper account.organization.plan.value ++ " plan" }

def recordManualTopup (config : CreditConfig) (account : Account) (credits : ℚ)
    (description : String) : Account :=
  (account.addPurchasedCredits credits).create
    { amountCredits := credits
      amountUsd := config.creditsToUsd credits
      type := .manualTopup
      description := description }

@[simp] theorem recordManualTopup_purchased (config : CreditConfig) (account : Account)
    (credits : ℚ) (description : String) :
    (account.recordManualTopup config credits description).organization.creditsPurchasedBalance =
      account.organization.creditsPurchasedBalance + credits := rfl

end Account

end Assemblix.Billing
