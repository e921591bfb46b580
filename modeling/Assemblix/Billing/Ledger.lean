import Assemblix.Billing.Balance
import Mathlib.Algebra.Order.Floor.Ring

/-
The debit rows of executions and of voice calls.

Both charging paths take one deduction out of the balance and itemize it. An execution is
charged in full or refused; a voice call takes what the balance holds and pays the platform
fee first.
-/

namespace Assemblix.Billing

open Library (Purses)

/-! ### Amounts of eight decimals -/

/-- What a credit column holds without rounding. -/
def Exact (value : ℚ) : Prop := ∃ units : ℤ, value = units / 100000000

namespace Exact

variable {left right : ℚ}

theorem zero : Exact 0 := ⟨0, by norm_num⟩

theorem add (leftExact : Exact left) (rightExact : Exact right) : Exact (left + right) := by
  obtain ⟨leftUnits, rfl⟩ := leftExact
  obtain ⟨rightUnits, rfl⟩ := rightExact
  exact ⟨leftUnits + rightUnits, by push_cast; ring⟩

theorem neg (exact : Exact left) : Exact (-left) := by
  obtain ⟨units, rfl⟩ := exact
  exact ⟨-units, by push_cast; ring⟩

theorem sub (leftExact : Exact left) (rightExact : Exact right) : Exact (left - right) := by
  rw [sub_eq_add_neg]
  exact leftExact.add rightExact.neg

theorem min (leftExact : Exact left) (rightExact : Exact right) :
    Exact (Min.min left right) := by
  rcases min_choice left right with same | same
  · rw [same]
    exact leftExact
  · rw [same]
    exact rightExact

theorem quantized (value : ℚ) : Exact (quantize value) := ⟨roundHalfEven (value * 100000000), rfl⟩

end Exact

theorem roundHalfEven_nonneg {value : ℚ} (nonneg : 0 ≤ value) : 0 ≤ roundHalfEven value := by
  have floored : 0 ≤ ⌊value⌋ := Int.floor_nonneg.mpr nonneg
  unfold roundHalfEven
  dsimp only
  split_ifs <;> omega

theorem quantize_nonneg {value : ℚ} (nonneg : 0 ≤ value) : 0 ≤ quantize value := by
  have rounded : 0 ≤ roundHalfEven (value * 100000000) := roundHalfEven_nonneg (by linarith)
  have cast : (0 : ℚ) ≤ roundHalfEven (value * 100000000) := by exact_mod_cast rounded
  exact div_nonneg cast (by norm_num)

structure BillingSettings.Priced (settings : BillingSettings) : Prop where
  creditValue : 0 < settings.creditConfig.creditValueUsd
  margin : 0 ≤ settings.marginMultiplier

theorem BillingSettings.Priced.usdToCredits_nonneg {settings : BillingSettings}
    (priced : settings.Priced) {amountUsd : ℚ} (nonneg : 0 ≤ amountUsd) (withMargin : Bool) :
    0 ≤ settings.usdToCredits amountUsd withMargin := by
  have base : 0 ≤ amountUsd / settings.creditConfig.creditValueUsd :=
    div_nonneg nonneg priced.creditValue.le
  unfold usdToCredits
  apply quantize_nonneg
  split
  · exact mul_nonneg base priced.margin
  · exact base

/-! ### The rows of an execution -/

/-- The costs of a run as the deduction gets them. What was spent on keys of the user is not
charged: it is only noted in the metadata of the rows. -/
structure RunCosts extends ExecutionCosts where
  ownKeyCostUsd : ℚ
  ownVoiceCostUsd : ℚ

structure RunCosts.Nonneg (costs : RunCosts) : Prop where
  systemKey : 0 ≤ costs.systemKeyCostUsd
  systemVoice : 0 ≤ costs.systemVoiceCostUsd
  ownKey : 0 ≤ costs.ownKeyCostUsd
  ownVoice : 0 ≤ costs.ownVoiceCostUsd

def CreditTransactionType.isDebit : CreditTransactionType → Bool
  | .llmUsage | .requestFee | .voiceUsage => true
  | .planGrant | .manualTopup | .refund => false

namespace Account

def debits (account : Account) : List CreditTransaction :=
  account.transactions.filter (fun transaction => transaction.type.isDebit)

def deductForRun (settings : BillingSettings) (costs : RunCosts) (executionId : String)
    (account : Account) : Account × Bool :=
  account.deductForExecution settings costs.toExecutionCosts executionId

def ensurePeriod (settings : BillingSettings) (account : Account) : Account :=
  if settings.billingEnabled then account.ensureCurrentPeriod settings else account

end Account

/-! ### The rows of a voice call -/

structure VoiceSettings extends BillingSettings where
  voicePlatformFeeUsdPerMinute : ℚ

/-- What a finished call has used; each spending with whether a platform key paid it. -/
structure SessionUsage where
  durationSec : ℚ
  costPerMinute : ℚ
  usesSystemKey : Bool
  ttsCostUsd : ℚ
  ttsUsesSystemKey : Bool
  extraCosts : List (ℚ × Bool)

def SessionUsage.minutes (usage : SessionUsage) : ℚ := usage.durationSec / 60

/-- The loop over `extra_costs` of `compute_session_credits`. -/
def addExtraCosts (providerUsd : ℚ) (extraCosts : List (ℚ × Bool)) : ℚ :=
  extraCosts.foldl (fun spent extra => if extra.2 then spent + extra.1 else spent) providerUsd

def SessionUsage.providerUsd (usage : SessionUsage) : ℚ :=
  let spoken := if usage.usesSystemKey then usage.minutes * usage.costPerMinute else 0
  let voiced := if usage.ttsUsesSystemKey then spoken + usage.ttsCostUsd else spoken
  addExtraCosts voiced usage.extraCosts

/-- `compute_session_credits`: the platform fee and the provider margin. -/
def VoiceSettings.computeSessionCredits (settings : VoiceSettings) (usage : SessionUsage) :
    ℚ × ℚ :=
  let fee := settings.usdToCredits (usage.minutes * settings.voicePlatformFeeUsdPerMinute) false
  let margin := settings.usdToCredits usage.providerUsd true
  (quantize fee, quantize margin)

structure VoiceCharge where
  voiceSessionId : String
  feeCredits : ℚ
  marginCredits : ℚ
  providerCostUsd : ℚ

def VoiceCharge.total (charge : VoiceCharge) : ℚ := charge.feeCredits + charge.marginCredits

namespace Account

def itemize (settings : BillingSettings) (charge : VoiceCharge) (account : Account)
    (charged : ℚ) : Account :=
  let chargedFee := min charge.feeCredits charged
  let chargedMargin := charged - chargedFee
  let billed := account.createIf (decide (0 < chargedFee))
    { amountCredits := -chargedFee
      amountUsd := -settings.creditConfig.creditsToUsd chargedFee
      type := .requestFee
      description := "Platform fee for voice session " ++ charge.voiceSessionId }
  let chargedProviderUsd :=
    if 0 < charge.marginCredits then
      charge.providerCostUsd * chargedMargin / charge.marginCredits
    else 0
  billed.createIf (decide (0 < chargedMargin))
    { amountCredits := -chargedMargin
      amountUsd := -chargedProviderUsd
      type := .voiceUsage
      description :=
        "Conversation usage (system keys) for voice session " ++ charge.voiceSessionId }

/-- `_charge` for an organization that exists. -/
def charge (settings : BillingSettings) (charge : VoiceCharge) (account : Account) : Account :=
  if settings.billingEnabled then
    if charge.total ≤ 0 then account
    else
      let (drained, charged) := account.deductCreditsUpTo charge.total
      if charged ≤ 0 then drained else drained.itemize settings charge charged
  else account

end Account

/-! ### What the rows explain -/

structure Explained (start deducting after : Account) (rows : List CreditTransaction) : Prop where
  written : after.debits = start.debits ++ rows
  conserved : (rows.map CreditTransaction.amountCredits).sum =
    -(deducting.organization.creditsBalance - after.organization.creditsBalance)
  exact : ∀ row ∈ rows, Exact row.amountCredits

structure Untouched (start deducting after : Account) : Prop where
  rows : after.debits = start.debits
  balance : after.organization = deducting.organization

section Rows

variable {account : Account} {transaction : CreditTransaction}

theorem debits_create (debit : transaction.type.isDebit = true) :
    (account.create transaction).debits = account.debits ++ [transaction] := by
  unfold Account.debits Account.create
  rw [List.filter_append]
  simp [debit]

theorem debits_createIf (debit : transaction.type.isDebit = true) (wanted : Bool) :
    (account.createIf wanted transaction).debits =
      account.debits ++ (if wanted then [transaction] else []) := by
  cases wanted with
  | true => exact debits_create debit
  | false => exact (List.append_nil _).symm

@[simp] theorem createIf_organization (wanted : Bool) :
    (account.createIf wanted transaction).organization = account.organization := by
  cases wanted <;> rfl

theorem ensurePeriod_debits (settings : BillingSettings) :
    (account.ensurePeriod settings).debits = account.debits := by
  unfold Account.ensurePeriod Account.ensureCurrentPeriod
  split
  · split
    · unfold Account.grant Account.create Account.reissueGrantedCredits Account.debits
      rw [List.filter_append]
      simp [CreditTransactionType.isDebit]
    · rfl
  · rfl

theorem spend_debits (amount : ℚ) : (account.spend amount).debits = account.debits := rfl

theorem sum_if_pos {amount : ℚ} (nonneg : 0 ≤ amount) (taken : transaction.amountCredits = -amount) :
    ((if decide (0 < amount) then [transaction] else []).map
      CreditTransaction.amountCredits).sum = -amount := by
  by_cases positive : 0 < amount
  · simp [positive, taken]
  · have none : amount = 0 := le_antisymm (not_lt.mp positive) nonneg
    simp [none]

theorem mem_if_decide {condition : Prop} [Decidable condition] {row : CreditTransaction}
    (member : row ∈ if decide condition then [transaction] else []) :
    row = transaction ∧ condition := by
  by_cases holds : condition
  · simp only [holds, decide_true, if_true, List.mem_singleton] at member
    exact ⟨member, holds⟩
  · simp [holds] at member

end Rows

/-! ### An execution -/

section Execution

variable {settings : BillingSettings} {costs : RunCosts} {executionId : String}
  {account : Account}

theorem systemKeyCredits_nonneg (priced : settings.Priced) (nonneg : costs.Nonneg) :
    0 ≤ settings.systemKeyCredits costs.toExecutionCosts := by
  unfold BillingSettings.systemKeyCredits
  split
  · exact priced.usdToCredits_nonneg nonneg.systemKey true
  · exact le_rfl

theorem voiceCredits_nonneg (priced : settings.Priced) (nonneg : costs.Nonneg) :
    0 ≤ settings.voiceCredits costs.toExecutionCosts := by
  unfold BillingSettings.voiceCredits
  split
  · exact priced.usdToCredits_nonneg nonneg.systemVoice true
  · exact le_rfl

theorem systemKeyCredits_exact : Exact (settings.systemKeyCredits costs.toExecutionCosts) := by
  unfold BillingSettings.systemKeyCredits
  split
  · exact Exact.quantized _
  · exact Exact.zero

theorem voiceCredits_exact : Exact (settings.voiceCredits costs.toExecutionCosts) := by
  unfold BillingSettings.voiceCredits
  split
  · exact Exact.quantized _
  · exact Exact.zero

theorem recordUsage_explained (enabled : settings.billingEnabled = true)
    (priced : settings.Priced) (nonneg : costs.Nonneg) :
    ∃ rows, (account.recordUsage settings costs.toExecutionCosts executionId).debits =
        account.debits ++ rows ∧
      (rows.map CreditTransaction.amountCredits).sum =
        -settings.totalCredits costs.toExecutionCosts ∧
      ∀ row ∈ rows, Exact row.amountCredits := by
  unfold Account.recordUsage
  dsimp only
  rw [debits_createIf rfl, debits_createIf rfl, debits_create rfl, List.append_assoc,
    List.append_assoc]
  refine ⟨_, rfl, ?_, ?_⟩
  · rw [List.map_append, List.map_append, List.sum_append, List.sum_append,
      sum_if_pos (systemKeyCredits_nonneg priced nonneg) rfl,
      sum_if_pos (voiceCredits_nonneg priced nonneg) rfl]
    unfold BillingSettings.totalCredits
    rw [enabled, if_pos rfl]
    simp only [List.map_cons, List.map_nil, List.sum_cons, List.sum_nil]
    ring
  · intro row member
    rcases List.mem_append.mp member with fee | usage
    · rw [List.mem_singleton.mp fee]
      exact (Exact.quantized _).neg
    · rcases List.mem_append.mp usage with llm | voice
      · rw [(mem_if_decide llm).1]
        exact systemKeyCredits_exact.neg
      · rw [(mem_if_decide voice).1]
        exact voiceCredits_exact.neg

@[simp] theorem recordUsage_organization :
    (account.recordUsage settings costs.toExecutionCosts executionId).organization =
      account.organization := by
  unfold Account.recordUsage
  rw [createIf_organization, createIf_organization]
  rfl

/-- A deduction is switched off, refused, or recorded after it was taken. -/
theorem deductForRun_cases :
    settings.billingEnabled = false ∧
        account.deductForRun settings costs executionId = (account, true) ∨
      settings.billingEnabled = true ∧
        account.deductForRun settings costs executionId = (account.ensurePeriod settings, false) ∨
      settings.billingEnabled = true ∧
        account.deductForRun settings costs executionId =
          (((account.ensurePeriod settings).spend
            (settings.totalCredits costs.toExecutionCosts)).recordUsage settings
              costs.toExecutionCosts executionId, true) := by
  unfold Account.deductForRun Account.deductForExecution Account.ensurePeriod
  cases settings.billingEnabled with
  | false => exact Or.inl ⟨rfl, rfl⟩
  | true =>
      simp only [if_true, true_and, Account.deductCredits_eq]
      split_ifs
      · exact Or.inr (Or.inr rfl)
      · exact Or.inr (Or.inl rfl)

theorem explained_self (settings : BillingSettings) :
    Explained account (account.ensurePeriod settings) (account.ensurePeriod settings) [] where
  written := by rw [ensurePeriod_debits, List.append_nil]
  conserved := by simp
  exact := by simp

theorem deductForRun_explained (priced : settings.Priced) (nonneg : costs.Nonneg) :
    ∃ rows, Explained account (account.ensurePeriod settings)
      (account.deductForRun settings costs executionId).1 rows := by
  rcases @deductForRun_cases settings costs executionId account with
    ⟨off, left⟩ | ⟨_, refused⟩ | ⟨enabled, taken⟩
  · have same : account.ensurePeriod settings = account := by
      unfold Account.ensurePeriod
      rw [off, if_neg Bool.false_ne_true]
    have unchanged := @explained_self account settings
    rw [same] at unchanged
    rw [left, same]
    exact ⟨[], unchanged⟩
  · rw [refused]
    exact ⟨[], explained_self settings⟩
  · rw [taken]
    obtain ⟨rows, written, total, exact⟩ := recordUsage_explained enabled priced nonneg
    refine ⟨rows, ?_, ?_, exact⟩
    · rw [written, spend_debits, ensurePeriod_debits]
    · rw [total, recordUsage_organization, Account.spend_balance]
      ring

theorem deductForRun_refused
    (refused : (account.deductForRun settings costs executionId).2 = false) :
    Untouched account (account.ensurePeriod settings)
      (account.deductForRun settings costs executionId).1 := by
  rcases @deductForRun_cases settings costs executionId account with
    ⟨_, left⟩ | ⟨_, kept⟩ | ⟨_, taken⟩
  · rw [left] at refused
    cases refused
  · rw [kept]
    exact ⟨ensurePeriod_debits settings, rfl⟩
  · rw [taken] at refused
    cases refused

end Execution

/-! ### A voice call -/

def paid (type : CreditTransactionType) (rows : List CreditTransaction) : ℚ :=
  -((rows.filter (fun row => row.type = type)).map CreditTransaction.amountCredits).sum

theorem paid_first {type : CreditTransactionType} {first second : CreditTransaction} {amount : ℚ}
    (nonneg : 0 ≤ amount) (taken : first.amountCredits = -amount) (same : first.type = type)
    (other : second.type ≠ type) (written : Bool) :
    paid type ((if decide (0 < amount) then [first] else []) ++
      (if written then [second] else [])) = amount := by
  have kept : (if decide (0 < amount) then [first] else []).filter (fun row => row.type = type) =
      if decide (0 < amount) then [first] else [] := by
    split <;> simp [same]
  have dropped : (if written then [second] else []).filter (fun row => row.type = type) = [] := by
    split <;> simp [other]
  unfold paid
  rw [List.filter_append, kept, dropped, List.append_nil, sum_if_pos nonneg taken, neg_neg]

structure FeeFirst (charge : VoiceCharge) (rows : List CreditTransaction) : Prop where
  fee : ∀ row ∈ rows, row.type = .requestFee → -row.amountCredits ≤ charge.feeCredits
  margin : ∀ row ∈ rows, row.type = .voiceUsage → -row.amountCredits ≤ charge.marginCredits
  first : (∃ row ∈ rows, row.type = .voiceUsage) → paid .requestFee rows = charge.feeCredits

section Voice

variable {settings : BillingSettings} {charge : VoiceCharge} {account : Account} {charged : ℚ}

@[simp] theorem itemize_organization :
    (account.itemize settings charge charged).organization = account.organization := by
  unfold Account.itemize
  rw [createIf_organization, createIf_organization]

theorem itemize_explained (fee : 0 ≤ charge.feeCredits) (feeExact : Exact charge.feeCredits)
    (taken : 0 < charged) (chargedExact : Exact charged) (asked : charged ≤ charge.total) :
    ∃ rows, (account.itemize settings charge charged).debits = account.debits ++ rows ∧
      (rows.map CreditTransaction.amountCredits).sum = -charged ∧
        (∀ row ∈ rows, Exact row.amountCredits) ∧ FeeFirst charge rows := by
  have feeNonneg : 0 ≤ min charge.feeCredits charged := le_min fee taken.le
  have marginNonneg : 0 ≤ charged - min charge.feeCredits charged :=
    sub_nonneg.mpr (min_le_right _ _)
  have marginBound : charged - min charge.feeCredits charged ≤ charge.marginCredits ∨
      charged - min charge.feeCredits charged = 0 := by
    rcases le_total charge.feeCredits charged with enough | short
    · left
      rw [min_eq_left enough]
      unfold VoiceCharge.total at asked
      linarith
    · right
      rw [min_eq_right short, sub_self]
  unfold Account.itemize
  dsimp only
  rw [debits_createIf rfl, debits_createIf rfl, List.append_assoc]
  refine ⟨_, rfl, ?_, ?_, ?_, ?_, ?_⟩
  · rw [List.map_append, List.sum_append, sum_if_pos feeNonneg rfl, sum_if_pos marginNonneg rfl]
    ring
  · intro row member
    rcases List.mem_append.mp member with feeRow | marginRow
    · rw [(mem_if_decide feeRow).1]
      exact (feeExact.min chargedExact).neg
    · rw [(mem_if_decide marginRow).1]
      exact (chargedExact.sub (feeExact.min chargedExact)).neg
  · intro row member isFee
    rcases List.mem_append.mp member with feeRow | marginRow
    · rw [(mem_if_decide feeRow).1, neg_neg]
      exact min_le_left _ _
    · rw [(mem_if_decide marginRow).1] at isFee
      cases isFee
  · intro row member isMargin
    rcases List.mem_append.mp member with feeRow | marginRow
    · rw [(mem_if_decide feeRow).1] at isMargin
      cases isMargin
    · obtain ⟨same, positive⟩ := mem_if_decide marginRow
      rw [same, neg_neg]
      rcases marginBound with bounded | nothing
      · exact bounded
      · exact absurd nothing positive.ne'
  · rintro ⟨row, member, isMargin⟩
    rcases List.mem_append.mp member with feeRow | marginRow
    · rw [(mem_if_decide feeRow).1] at isMargin
      cases isMargin
    · have positive := (mem_if_decide marginRow).2
      have covered : min charge.feeCredits charged = charge.feeCredits := by
        rcases min_choice charge.feeCredits charged with same | same
        · exact same
        · rw [same, sub_self] at positive
          exact absurd positive (lt_irrefl 0)
      refine (paid_first feeNonneg ?_ ?_ ?_ _).trans covered
      · rfl
      · rfl
      · simp

/-- Nothing is asked, nothing is left to take, or what is taken is itemized. -/
theorem charge_cases :
    account.charge settings charge = account ∧
        (settings.billingEnabled = false ∨ charge.total ≤ 0) ∨
      account.charge settings charge =
          account.spend (min account.organization.creditsBalance charge.total) ∧
        min account.organization.creditsBalance charge.total ≤ 0 ∧ 0 < charge.total ∨
      account.charge settings charge =
          (account.spend (min account.organization.creditsBalance charge.total)).itemize
            settings charge (min account.organization.creditsBalance charge.total) ∧
        0 < min account.organization.creditsBalance charge.total := by
  unfold Account.charge
  rw [Account.deductCreditsUpTo_eq]
  cases settings.billingEnabled with
  | false => exact Or.inl ⟨rfl, Or.inl rfl⟩
  | true =>
      dsimp only
      rw [if_pos rfl]
      split_ifs with nothing empty
      · exact Or.inl ⟨rfl, Or.inr nothing⟩
      · exact Or.inr (Or.inl ⟨rfl, empty, not_le.mp nothing⟩)
      · exact Or.inr (Or.inr ⟨rfl, not_le.mp empty⟩)

theorem spend_nothing (solvent : account.organization.Solvent)
    (empty : account.organization.creditsBalance = 0) : account.spend 0 = account := by
  obtain ⟨⟨plan, granted, purchased, start⟩, transactions⟩ := account
  have grantedNonneg : 0 ≤ granted := solvent.first
  have purchasedNonneg : 0 ≤ purchased := solvent.second
  have sum : granted + purchased = 0 := empty
  have noGranted : granted = 0 := by linarith
  have noPurchased : purchased = 0 := by linarith
  subst noGranted noPurchased
  simp [Account.spend, Organization.purses, Purses.spend, Purses.overflow]

theorem charge_explained (solvent : account.organization.Solvent)
    (balanceExact : Exact account.organization.creditsBalance) (fee : 0 ≤ charge.feeCredits)
    (feeExact : Exact charge.feeCredits) (marginExact : Exact charge.marginCredits) :
    ∃ rows, Explained account account (account.charge settings charge) rows ∧
      FeeFirst charge rows := by
  have unbilled : FeeFirst charge [] := ⟨by simp, by simp, by simp⟩
  have same : Explained account account account [] := ⟨by simp, by simp, by simp⟩
  rcases @charge_cases settings charge account with
    ⟨left, _⟩ | ⟨drained, nothing, asked⟩ | ⟨itemized, taken⟩
  · rw [left]
    exact ⟨[], same, unbilled⟩
  · have balance := solvent.balance_nonneg
    have empty : account.organization.creditsBalance = 0 := by
      rcases min_le_iff.mp nothing with drained | unasked
      · exact le_antisymm drained balance
      · exact absurd asked (not_lt.mpr unasked)
    rw [drained, empty, min_eq_left asked.le, spend_nothing solvent empty]
    exact ⟨[], same, unbilled⟩
  · obtain ⟨rows, written, total, exact, feeFirst⟩ :=
      @itemize_explained settings charge
        (account.spend (min account.organization.creditsBalance charge.total)) _ fee feeExact taken
        (balanceExact.min (feeExact.add marginExact)) (min_le_right _ _)
    rw [itemized]
    refine ⟨rows, ⟨written, ?_, exact⟩, feeFirst⟩
    rw [total, itemize_organization, Account.spend_balance]
    ring

theorem charge_untouched (solvent : account.organization.Solvent)
    (empty : account.organization.creditsBalance = 0) :
    Untouched account account (account.charge settings charge) := by
  rcases @charge_cases settings charge account with
    ⟨left, _⟩ | ⟨drained, _, asked⟩ | ⟨_, taken⟩
  · rw [left]
    exact ⟨rfl, rfl⟩
  · rw [drained, empty, min_eq_left asked.le, spend_nothing solvent empty]
    exact ⟨rfl, rfl⟩
  · rw [empty] at taken
    exact absurd (min_le_left _ _) (not_le.mpr taken)

end Voice

/-! ### What a call is charged -/

/-- A charge of the amounts that a finished call can ask for. -/
structure VoiceCharge.Allowed (charge : VoiceCharge) : Prop where
  fee : 0 ≤ charge.feeCredits
  margin : 0 ≤ charge.marginCredits
  feeExact : Exact charge.feeCredits
  marginExact : Exact charge.marginCredits

structure SessionUsage.Nonneg (usage : SessionUsage) : Prop where
  duration : 0 ≤ usage.durationSec
  costPerMinute : 0 ≤ usage.costPerMinute
  tts : 0 ≤ usage.ttsCostUsd
  extra : ∀ spend ∈ usage.extraCosts, 0 ≤ spend.1

theorem addExtraCosts_nonneg {providerUsd : ℚ} {extraCosts : List (ℚ × Bool)}
    (start : 0 ≤ providerUsd) (nonneg : ∀ spend ∈ extraCosts, 0 ≤ spend.1) :
    0 ≤ addExtraCosts providerUsd extraCosts := by
  unfold addExtraCosts
  induction extraCosts generalizing providerUsd with
  | nil => exact start
  | cons extra rest ih =>
      rw [List.foldl_cons]
      apply ih
      · split
        · exact add_nonneg start (nonneg extra List.mem_cons_self)
        · exact start
      · intro spend member
        exact nonneg spend (List.mem_cons_of_mem extra member)

theorem SessionUsage.Nonneg.providerUsd {usage : SessionUsage} (nonneg : usage.Nonneg) :
    0 ≤ usage.providerUsd := by
  have minutes : 0 ≤ usage.minutes := div_nonneg nonneg.duration (by norm_num)
  unfold SessionUsage.providerUsd
  dsimp only
  apply addExtraCosts_nonneg _ nonneg.extra
  split_ifs
  · exact add_nonneg (mul_nonneg minutes nonneg.costPerMinute) nonneg.tts
  · exact add_nonneg le_rfl nonneg.tts
  · exact mul_nonneg minutes nonneg.costPerMinute
  · exact le_rfl

theorem computeSessionCredits_allowed {settings : VoiceSettings}
    (priced : settings.toBillingSettings.Priced)
    (platformFee : 0 ≤ settings.voicePlatformFeeUsdPerMinute) {usage : SessionUsage}
    (nonneg : usage.Nonneg) (voiceSessionId : String) (providerCostUsd : ℚ) :
    VoiceCharge.Allowed
      { voiceSessionId := voiceSessionId
        feeCredits := (settings.computeSessionCredits usage).1
        marginCredits := (settings.computeSessionCredits usage).2
        providerCostUsd := providerCostUsd } where
  fee := by
    have minutes : 0 ≤ usage.minutes := div_nonneg nonneg.duration (by norm_num)
    exact quantize_nonneg (priced.usdToCredits_nonneg (mul_nonneg minutes platformFee) false)
  margin := quantize_nonneg (priced.usdToCredits_nonneg nonneg.providerUsd true)
  feeExact := Exact.quantized _
  marginExact := Exact.quantized _

/-! ### The ledger explains every debit -/

/-- The debit rows of an execution and of a voice call are minus what its deduction took, a
deduction that takes nothing leaves no row, and a voice call pays its fee first. -/
theorem debits_explained (settings : BillingSettings) (account : Account)
    (priced : settings.Priced) (solvent : account.organization.Solvent)
    (balanceExact : Exact account.organization.creditsBalance) :
    (∀ costs : RunCosts, costs.Nonneg → ∀ executionId,
      (∃ rows, Explained account (account.ensurePeriod settings)
        (account.deductForRun settings costs executionId).1 rows) ∧
      ((account.deductForRun settings costs executionId).2 = false →
        Untouched account (account.ensurePeriod settings)
          (account.deductForRun settings costs executionId).1)) ∧
    ∀ charge : VoiceCharge, charge.Allowed →
      (∃ rows, Explained account account (account.charge settings charge) rows ∧
        FeeFirst charge rows) ∧
      (account.organization.creditsBalance = 0 →
        Untouched account account (account.charge settings charge)) := by
  constructor
  · intro costs nonneg executionId
    exact ⟨deductForRun_explained priced nonneg, deductForRun_refused⟩
  · intro charge allowed
    exact ⟨charge_explained solvent balanceExact allowed.fee allowed.feeExact allowed.marginExact,
      charge_untouched solvent⟩

def defaultSettings : BillingSettings where
  billingEnabled := true
  creditConfig := { creditValueUsd := 1 / 10000 }
  marginMultiplier := 11 / 10
  requestFeeUsd := 1 / 10000
  today := { year := 2026, month := 1, day := 15 }

def spokenMinute : VoiceCharge :=
  let credits := ({ defaultSettings with voicePlatformFeeUsdPerMinute := 1 / 100 }
    : VoiceSettings).computeSessionCredits
      { durationSec := 60, costPerMinute := 1 / 50, usesSystemKey := true, ttsCostUsd := 0,
        ttsUsesSystemKey := false, extraCosts := [] }
  { voiceSessionId := "call", feeCredits := credits.1, marginCredits := credits.2,
    providerCostUsd := 1 / 50 }

theorem debits_explained_mixed :
    (∃ rows, Explained mixedAccount (mixedAccount.ensurePeriod defaultSettings)
      (mixedAccount.deductForRun defaultSettings ⟨⟨1 / 100, 0⟩, 1, 0⟩ "run").1 rows) ∧
    ∃ rows, Explained mixedAccount mixedAccount
      (mixedAccount.charge defaultSettings spokenMinute) rows ∧ FeeFirst spokenMinute rows := by
  have priced : defaultSettings.Priced :=
    ⟨by norm_num [defaultSettings], by norm_num [defaultSettings]⟩
  have charged : spokenMinute.Allowed :=
    computeSessionCredits_allowed priced (by norm_num)
      ⟨by norm_num, by norm_num, by norm_num, by simp⟩ _ _
  obtain ⟨executions, calls⟩ := debits_explained defaultSettings mixedAccount priced
    ⟨by norm_num [mixedAccount, Organization.purses],
      by norm_num [mixedAccount, Organization.purses]⟩
    ⟨130000000000, by norm_num [mixedAccount, Organization.creditsBalance]⟩
  exact ⟨(executions _ ⟨by norm_num, by norm_num, by norm_num, by norm_num⟩ "run").1,
    (calls _ charged).1⟩

def spentAccount : Account where
  organization := { mixedAccount.organization with
    creditsGrantedBalance := 0, creditsPurchasedBalance := 0 }
  transactions := []

/-- Where a request is free, an empty balance covers an execution without costs, and the row of
its fee is written. -/
theorem empty_balance_fee_row :
    let settings := { defaultSettings with requestFeeUsd := 0 }
    let after := (spentAccount.deductForRun settings ⟨⟨0, 0⟩, 0, 0⟩ "run").1
    (spentAccount.ensurePeriod settings).organization.creditsBalance = 0 ∧
      after.debits.map CreditTransaction.type = [.requestFee] ∧
      ¬ Untouched spentAccount (spentAccount.ensurePeriod settings) after := by
  intro settings after
  have written : after.debits.map CreditTransaction.type = [.requestFee] := by decide +kernel
  refine ⟨by decide +kernel, written, fun untouched => ?_⟩
  rw [untouched.rows] at written
  cases written

end Assemblix.Billing
