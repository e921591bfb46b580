import Assemblix.Billing.Deduction
import Assemblix.Library.Purse
import Mathlib.Tactic.Linarith
import Mathlib.Tactic.NormNum

/-
The credit balance under the updates of the repository.

Each update is one statement that reads the row it writes, so an interleaving of requests is
a list of updates. The two balances are two purses and the granted one is spent first.
-/

namespace Assemblix.Billing

open Library (Purses)

/-- `credits_balance`. -/
def Organization.creditsBalance (organization : Organization) : ℚ :=
  organization.creditsGrantedBalance + organization.creditsPurchasedBalance

def Organization.purses (organization : Organization) : Purses ℚ where
  first := organization.creditsGrantedBalance
  second := organization.creditsPurchasedBalance

/-- Neither part of the balance is negative. -/
def Organization.Solvent (organization : Organization) : Prop := organization.purses.Solvent

@[simp] theorem Organization.purses_total (organization : Organization) :
    organization.purses.total = organization.creditsBalance := rfl

theorem Organization.Solvent.balance_nonneg {organization : Organization}
    (solvent : organization.Solvent) : 0 ≤ organization.creditsBalance :=
  Purses.Solvent.total_nonneg solvent

/-! ### The statements of the repository -/

namespace Account

/-- Drains to zero when short; the second part is what was removed. -/
def deductCreditsUpTo (account : Account) (amount : ℚ) : Account × ℚ :=
  let previous := account.organization
  let taken := min (previous.creditsGrantedBalance + previous.creditsPurchasedBalance) amount
  ({ account with
      organization :=
        { previous with
          creditsGrantedBalance := max (previous.creditsGrantedBalance - taken) 0
          creditsPurchasedBalance := previous.creditsPurchasedBalance -
            max (taken - previous.creditsGrantedBalance) 0 } }, taken)

/-- `reissue_granted_credits`: without a date the period stays. -/
def reissueCredits (account : Account) (amount : ℚ) (periodStart : Option Date) : Account :=
  account.reissueGrantedCredits amount
    (periodStart.getD account.organization.creditsPeriodStart)

def spend (account : Account) (amount : ℚ) : Account :=
  let left := account.organization.purses.spend amount
  { account with
    organization :=
      { account.organization with
        creditsGrantedBalance := left.first
        creditsPurchasedBalance := left.second } }

variable {account : Account} {amount : ℚ}

@[simp] theorem spend_purses :
    (account.spend amount).organization.purses = account.organization.purses.spend amount := rfl

@[simp] theorem spend_balance :
    (account.spend amount).organization.creditsBalance =
      account.organization.creditsBalance - amount :=
  @Purses.spend_total ℚ _ _ account.organization.purses amount _

theorem deductCredits_eq : account.deductCredits amount =
    if amount ≤ account.organization.creditsBalance then some (account.spend amount)
    else none := rfl

theorem deductCreditsUpTo_eq : account.deductCreditsUpTo amount =
    (account.spend (min account.organization.creditsBalance amount),
      min account.organization.creditsBalance amount) := rfl

end Account

inductive CreditUpdate
  | deductCredits (amount : ℚ)
  | deductCreditsUpTo (amount : ℚ)
  | addPurchasedCredits (amount : ℚ)
  | reissueGrantedCredits (amount : ℚ) (periodStart : Option Date)

namespace CreditUpdate

def amount : CreditUpdate → ℚ
  | deductCredits amount => amount
  | deductCreditsUpTo amount => amount
  | addPurchasedCredits amount => amount
  | reissueGrantedCredits amount _ => amount

def apply (account : Account) : CreditUpdate → Account
  | deductCredits amount => (account.deductCredits amount).getD account
  | deductCreditsUpTo amount => (account.deductCreditsUpTo amount).1
  | addPurchasedCredits amount => account.addPurchasedCredits amount
  | reissueGrantedCredits amount periodStart => account.reissueCredits amount periodStart

def applyAll (account : Account) (updates : List CreditUpdate) : Account :=
  updates.foldl apply account

end CreditUpdate

/-! ### What an update leaves -/

open CreditUpdate

variable {account : Account} {amount : ℚ} {update : CreditUpdate}

theorem apply_deductCredits : CreditUpdate.apply account (.deductCredits amount) =
    if amount ≤ account.organization.creditsBalance then account.spend amount else account := by
  change (account.deductCredits amount).getD account = _
  rw [Account.deductCredits_eq]
  split <;> rfl

theorem apply_deductCreditsUpTo : CreditUpdate.apply account (.deductCreditsUpTo amount) =
    account.spend (min account.organization.creditsBalance amount) := rfl

section

variable (solvent : account.organization.Solvent)
include solvent

theorem deducted_solvent :
    (CreditUpdate.apply account (.deductCredits amount)).organization.Solvent := by
  rw [apply_deductCredits]
  split
  case isTrue covered => exact Purses.Solvent.spend solvent covered
  case isFalse => exact solvent

theorem drained_solvent :
    (CreditUpdate.apply account (.deductCreditsUpTo amount)).organization.Solvent := by
  rw [apply_deductCreditsUpTo]
  exact Purses.Solvent.spend solvent (min_le_left _ _)

theorem purchased_solvent (nonneg : 0 ≤ amount) :
    (CreditUpdate.apply account (.addPurchasedCredits amount)).organization.Solvent where
  first := solvent.first
  second := add_nonneg solvent.second nonneg

theorem reissued_solvent (nonneg : 0 ≤ amount) (periodStart : Option Date) :
    (CreditUpdate.apply account (.reissueGrantedCredits amount periodStart)).organization.Solvent
    where
  first := nonneg
  second := solvent.second

theorem apply_solvent (nonneg : 0 ≤ update.amount) :
    (update.apply account).organization.Solvent := by
  cases update with
  | deductCredits amount => exact deducted_solvent solvent
  | deductCreditsUpTo amount => exact drained_solvent solvent
  | addPurchasedCredits amount => exact purchased_solvent solvent nonneg
  | reissueGrantedCredits amount periodStart => exact reissued_solvent solvent nonneg periodStart

theorem applyAll_solvent {updates : List CreditUpdate}
    (nonneg : ∀ update ∈ updates, 0 ≤ update.amount) :
    (applyAll account updates).organization.Solvent := by
  induction updates generalizing account with
  | nil => exact solvent
  | cons update updates ih =>
      have first := apply_solvent solvent (nonneg update List.mem_cons_self)
      exact ih first (fun later member => nonneg later (List.mem_cons_of_mem update member))

end

def purchasedLoss (account : Account) (update : CreditUpdate) : ℚ :=
  account.organization.creditsPurchasedBalance -
    (update.apply account).organization.creditsPurchasedBalance

def uncovered (account : Account) (amount : ℚ) : ℚ :=
  max (amount - account.organization.creditsGrantedBalance) 0

theorem spend_purchased : account.organization.creditsPurchasedBalance -
    (account.spend amount).organization.creditsPurchasedBalance = uncovered account amount :=
  sub_sub_cancel _ _

theorem uncovered_nonneg : 0 ≤ uncovered account amount := le_max_right _ _

theorem uncovered_mono {more : ℚ} (grown : amount ≤ more) :
    uncovered account amount ≤ uncovered account more :=
  @Purses.overflow_mono ℚ _ _ account.organization.purses _ _ _ grown

theorem purchasedLoss_le (nonneg : 0 ≤ update.amount) :
    purchasedLoss account update ≤ uncovered account update.amount := by
  cases update with
  | deductCredits amount =>
      unfold purchasedLoss
      rw [apply_deductCredits]
      split
      · exact spend_purchased.le
      · rw [sub_self]
        exact uncovered_nonneg
  | deductCreditsUpTo amount =>
      calc purchasedLoss account (.deductCreditsUpTo amount)
          = uncovered account (min account.organization.creditsBalance amount) := spend_purchased
        _ ≤ uncovered account amount := uncovered_mono (min_le_right _ _)
  | addPurchasedCredits amount =>
      have lost : purchasedLoss account (.addPurchasedCredits amount) = -amount :=
        sub_add_cancel_left _ _
      rw [lost]
      exact (neg_nonpos.mpr nonneg).trans uncovered_nonneg
  | reissueGrantedCredits amount periodStart =>
      have lost : purchasedLoss account (.reissueGrantedCredits amount periodStart) = 0 :=
        sub_self _
      rw [lost]
      exact uncovered_nonneg

/-! ### Balance safety -/

/-- `deduct_credits` on this account, for every amount. -/
structure Account.DeductsExactly (account : Account) : Prop where
  succeeds : ∀ amount, (account.deductCredits amount).isSome = true ↔
    amount ≤ account.organization.creditsBalance
  lowers : ∀ amount after, account.deductCredits amount = some after →
    after.organization.creditsBalance = account.organization.creditsBalance - amount
  refuses : ∀ amount, account.deductCredits amount = none →
    CreditUpdate.apply account (.deductCredits amount) = account
  purchased : ∀ amount after, account.deductCredits amount = some after →
    purchasedLoss account (.deductCredits amount) = uncovered account amount

/-- `deduct_credits_up_to` on this account, for every amount. -/
structure Account.DrainsExactly (account : Account) : Prop where
  returns : ∀ amount, (account.deductCreditsUpTo amount).2 =
    min amount account.organization.creditsBalance
  lowers : ∀ amount, (account.deductCreditsUpTo amount).1.organization.creditsBalance =
    account.organization.creditsBalance - min amount account.organization.creditsBalance
  purchased : ∀ amount, purchasedLoss account (.deductCreditsUpTo amount) =
    uncovered account (account.deductCreditsUpTo amount).2

theorem Account.deductsExactly (account : Account) : account.DeductsExactly where
  succeeds := by
    intro amount
    rw [deductCredits_eq]
    split
    case isTrue covered => simp [covered]
    case isFalse short => simp [short]
  lowers := by
    intro amount after deducted
    rw [deductCredits_eq] at deducted
    split at deducted
    · cases deducted
      exact spend_balance
    · cases deducted
  refuses := by
    intro amount refused
    change (account.deductCredits amount).getD account = account
    rw [refused, Option.getD_none]
  purchased := by
    intro amount after deducted
    rw [deductCredits_eq] at deducted
    split at deducted
    case isTrue covered =>
      unfold purchasedLoss
      rw [apply_deductCredits, if_pos covered]
      exact spend_purchased
    case isFalse => cases deducted

theorem Account.drainsExactly (account : Account) : account.DrainsExactly where
  returns := by
    intro amount
    rw [deductCreditsUpTo_eq]
    exact min_comm _ _
  lowers := by
    intro amount
    rw [deductCreditsUpTo_eq, spend_balance, min_comm]
  purchased := by
    intro amount
    exact spend_purchased

/-- After any updates with amounts that are not negative: neither balance is negative, both
deductions are exact, and the purchased part pays only for what the granted part could not. -/
theorem credit_balance_safe (account : Account) (updates : List CreditUpdate)
    (solvent : account.organization.Solvent)
    (nonneg : ∀ update ∈ updates, 0 ≤ update.amount) :
    (applyAll account updates).organization.Solvent ∧
      (applyAll account updates).DeductsExactly ∧ (applyAll account updates).DrainsExactly ∧
        ∀ update : CreditUpdate, 0 ≤ update.amount →
          purchasedLoss (applyAll account updates) update ≤
            uncovered (applyAll account updates) update.amount :=
  ⟨applyAll_solvent solvent nonneg, Account.deductsExactly _, Account.drainsExactly _,
    fun _ allowed => purchasedLoss_le allowed⟩

def mixedAccount : Account where
  organization :=
    { plan := .pro
      creditsGrantedBalance := 300
      creditsPurchasedBalance := 1000
      creditsPeriodStart := { year := 2026, month := 1, day := 1 } }
  transactions := []

def mixedUpdates : List CreditUpdate :=
  [.deductCredits 500, .deductCredits 900, .deductCreditsUpTo 900,
    .reissueGrantedCredits 60000 none, .addPurchasedCredits 25000]

theorem credit_balance_safe_mixed :
    (applyAll mixedAccount mixedUpdates).organization.Solvent ∧
      (applyAll mixedAccount mixedUpdates).DeductsExactly ∧
        (applyAll mixedAccount mixedUpdates).DrainsExactly ∧
          ∀ update : CreditUpdate, 0 ≤ update.amount →
            purchasedLoss (applyAll mixedAccount mixedUpdates) update ≤
              uncovered (applyAll mixedAccount mixedUpdates) update.amount := by
  apply credit_balance_safe
  · exact ⟨by norm_num [mixedAccount, Organization.purses],
      by norm_num [mixedAccount, Organization.purses]⟩
  · simp [mixedUpdates, CreditUpdate.amount]

end Assemblix.Billing
