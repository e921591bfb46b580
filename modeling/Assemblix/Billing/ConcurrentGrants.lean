import Assemblix.Billing.Periods

/-
Grants of one organization by concurrent requests.

A request reads the row, decides on what it has read whether a grant is due, overwrites the
granted credits without looking at the row again and then deducts. Each statement is atomic;
between two of them other requests come in.
-/

namespace Assemblix.Billing

open Library (Run)

/-! ### Requests -/

inductive RequestPhase
  | arrived
  /-- A grant is due on the row that was read. -/
  | granting (read : Organization) (periodStart : Date)
  | recording (read : Organization)
  | charging
  | done

inductive BalanceEvent
  | reissued (periodStart : Date)
  | deducted (granted : ℚ)
  deriving DecidableEq

structure GrantTable (Id : Type) where
  account : Account
  phase : Id → RequestPhase
  history : List BalanceEvent

inductive GrantAction
  | read (today : Date)
  | reissue
  | record
  | deduct (amount : ℚ)
  deriving DecidableEq

/-- What `ensure_current_period` goes on with after its read. -/
def afterRead (settings : BillingSettings) (read : Organization) (today : Date) : RequestPhase :=
  if settings.billingEnabled then
    if today.before (read.creditsPeriodStart.addMonths 1) then .charging
    else
      .granting read
        (read.creditsPeriodStart.addMonths (read.creditsPeriodStart.wholeMonthsTo today))
  else .charging

/-- The ledger row of `_grant`. -/
def grantTransaction (settings : BillingSettings) (read : Organization) : CreditTransaction :=
  let plan := getPlanConfig read.plan
  { amountCredits := plan.creditsPerMonth
    amountUsd := settings.creditConfig.creditsToUsd plan.creditsPerMonth
    type := .planGrant
    description := "Monthly credits grant for " ++ upper read.plan.value ++ " plan" }

namespace GrantTable

variable {Id : Type} [DecidableEq Id]

def enter (table : GrantTable Id) (id : Id) (phase : RequestPhase) : GrantTable Id :=
  { table with phase := Function.update table.phase id phase }

def initial (account : Account) : GrantTable Id where
  account := account
  phase := fun _ => .arrived
  history := []

/-- One statement of one request. -/
def step (settings : BillingSettings) (table : GrantTable Id) :
    Id × GrantAction → Option (GrantTable Id)
  | (id, action) =>
      match table.phase id, action with
      | .arrived, .read today =>
          some (table.enter id (afterRead settings table.account.organization today))
      | .granting read periodStart, .reissue =>
          some
            { table.enter id (.recording read) with
              account := table.account.reissueGrantedCredits
                (getPlanConfig read.plan).creditsPerMonth periodStart
              history := table.history ++ [.reissued periodStart] }
      | .recording read, .record =>
          some
            { table.enter id .charging with
              account := table.account.create (grantTransaction settings read) }
      | .charging, .deduct amount =>
          match table.account.deductCredits amount with
          | none => some (table.enter id .done)
          | some spent =>
              some
                { table.enter id .done with
                  account := spent
                  history := table.history ++
                    [.deducted (table.account.organization.creditsGrantedBalance -
                      spent.organization.creditsGrantedBalance)] }
      | _, _ => none

def Step (settings : BillingSettings) (table : GrantTable Id) (label : Id × GrantAction)
    (next : GrantTable Id) : Prop :=
  table.step settings label = some next

end GrantTable

/-! ### One grant for each period -/

def reissues (history : List BalanceEvent) : List Date :=
  history.filterMap (fun event =>
    match event with
    | .reissued periodStart => some periodStart
    | .deducted _ => none)

/-- No period is reissued twice, and granted credits that were deducted after a reissue are
only issued again for a later period. -/
structure IssuedOnce (history : List BalanceEvent) : Prop where
  once : (reissues history).Nodup
  kept : ∀ earlier opened between next later,
    history = earlier ++ .reissued opened :: between ++ .reissued next :: later →
      (∃ granted, 0 < granted ∧ .deducted granted ∈ between) → opened.before next = true

def opensLater {Id : Type} (table : GrantTable Id) : Id × GrantAction → Bool
  | (id, .reissue) =>
      match table.phase id with
      | .granting _ periodStart => table.account.periodStart.before periodStart
      | _ => true
  | _ => true

def LaterStep {Id : Type} [DecidableEq Id] (settings : BillingSettings) (table : GrantTable Id)
    (label : Id × GrantAction) (next : GrantTable Id) : Prop :=
  table.Step settings label next ∧ opensLater table label = true

namespace Date

variable {first second third : Date}

theorem before_trans (earlier : first.before second = true) (later : second.before third = true) :
    first.before third = true := by
  unfold before at *
  rw [decide_eq_true_iff] at *
  omega

theorem not_before_self (date : Date) : date.before date = false := by
  unfold before
  rw [decide_eq_false_iff_not]
  omega

end Date

section Writes

variable {Id : Type} [DecidableEq Id] {settings : BillingSettings} {table next : GrantTable Id}
  {label : Id × GrantAction}

theorem reissues_append (left right : List BalanceEvent) :
    reissues (left ++ right) = reissues left ++ reissues right := List.filterMap_append

theorem deductCredits_periodStart {account spent : Account} {amount : ℚ}
    (deducted : account.deductCredits amount = some spent) :
    spent.periodStart = account.periodStart := by
  rw [Account.deductCredits_eq] at deducted
  split at deducted
  · cases deducted
    rfl
  · cases deducted

/-- A statement reissues the credits for one period, or leaves the stored period and the
reissues as they are. -/
theorem GrantTable.Step.writes (taken : table.Step settings label next) :
    (∃ id read periodStart, label = (id, .reissue) ∧
        table.phase id = .granting read periodStart ∧
        next.account.periodStart = periodStart ∧
        reissues next.history = reissues table.history ++ [periodStart]) ∨
      next.account.periodStart = table.account.periodStart ∧
        reissues next.history = reissues table.history := by
  obtain ⟨id, action⟩ := label
  unfold GrantTable.Step GrantTable.step at taken
  dsimp only at taken
  split at taken
  case h_1 => cases taken; exact Or.inr ⟨rfl, rfl⟩
  case h_2 read periodStart phase =>
    cases taken
    exact Or.inl ⟨id, read, periodStart, rfl, phase, rfl, reissues_append _ _⟩
  case h_3 => cases taken; exact Or.inr ⟨rfl, rfl⟩
  case h_4 amount phase =>
    split at taken
    case h_1 => cases taken; exact Or.inr ⟨rfl, rfl⟩
    case h_2 spent deducted =>
      cases taken
      refine Or.inr ⟨deductCredits_periodStart deducted, ?_⟩
      rw [reissues_append]
      exact List.append_nil _
  case h_5 => cases taken

structure InOrder (table : GrantTable Id) : Prop where
  ordered : (reissues table.history).Pairwise (fun earlier later => earlier.before later = true)
  stored : ∀ periodStart ∈ reissues table.history,
    periodStart = table.account.periodStart ∨
      periodStart.before table.account.periodStart = true

theorem InOrder.step (inOrder : InOrder table) (taken : LaterStep settings table label next) :
    InOrder next := by
  obtain ⟨stepped, opens⟩ := taken
  rcases stepped.writes with ⟨id, read, periodStart, rfl, phase, stored, issued⟩ | ⟨stored, issued⟩
  · have later : table.account.periodStart.before periodStart = true := by
      unfold opensLater at opens
      dsimp only at opens
      rw [phase] at opens
      exact opens
    have before : ∀ earlier ∈ reissues table.history, earlier.before periodStart = true := by
      intro earlier member
      rcases inOrder.stored earlier member with same | past
      · rw [same]
        exact later
      · exact Date.before_trans past later
    constructor
    · rw [issued, List.pairwise_append]
      refine ⟨inOrder.ordered, List.pairwise_singleton _ _, ?_⟩
      intro earlier member final last
      rw [List.mem_singleton.mp last]
      exact before earlier member
    · rw [issued, stored]
      intro other member
      rcases List.mem_append.mp member with past | last
      · exact Or.inr (before other past)
      · exact Or.inl (List.mem_singleton.mp last)
  · constructor
    · rw [issued]
      exact inOrder.ordered
    · rw [issued, stored]
      exact inOrder.stored

omit [DecidableEq Id] in
theorem InOrder.issuedOnce (inOrder : InOrder table) : IssuedOnce table.history where
  once := by
    apply inOrder.ordered.imp
    intro earlier later before same
    rw [same, Date.not_before_self] at before
    cases before
  kept := by
    intro earlier opened between next later listed _
    have ordered := inOrder.ordered
    rw [listed, reissues_append, reissues_append] at ordered
    have apart := (List.pairwise_append.mp ordered).2.2
    apply apart opened _ next
    · exact List.mem_cons_self
    · exact List.mem_append_right _ List.mem_cons_self

theorem InOrder.of_run {account : Account} {labels : List (Id × GrantAction)}
    (run : Run (LaterStep settings) (GrantTable.initial account) labels table) : InOrder table := by
  apply run.invariant InOrder
  · exact ⟨List.Pairwise.nil, by simp [GrantTable.initial, reissues]⟩
  · intro table label next kept taken
    exact kept.step taken

end Writes

/-- Any number of requests in any order: while each reissue opens a later period than the one
stored, no period is issued twice and what was deducted stays deducted. -/
theorem grants_issued_once {Id : Type} [DecidableEq Id] (settings : BillingSettings)
    (account : Account) (labels : List (Id × GrantAction)) (last : GrantTable Id)
    (run : Run (LaterStep settings) (GrantTable.initial account) labels last) :
    IssuedOnce last.history := by
  have inOrder : InOrder last := .of_run run
  exact inOrder.issuedOnce

/-! ### A request on its own -/

section Alone

variable {Id : Type} [DecidableEq Id] {settings : BillingSettings} {table : GrantTable Id}

end Alone

/-! ### Two requests on the first day of a period -/

def januaryStart : Account where
  organization :=
    { plan := .free
      creditsGrantedBalance := 0
      creditsPurchasedBalance := 0
      creditsPeriodStart := { year := 2026, month := 1, day := 1 } }
  transactions := []

def firstOfFebruary : Date := { year := 2026, month := 2, day := 1 }

def serialRequests : List (Nat × GrantAction) :=
  [(0, .read firstOfFebruary), (0, .reissue), (0, .record), (0, .deduct 1000),
    (1, .read firstOfFebruary), (1, .deduct 1000)]

def racingRequests : List (Nat × GrantAction) :=
  [(0, .read firstOfFebruary), (1, .read firstOfFebruary), (0, .reissue), (0, .record),
    (0, .deduct 1000), (1, .reissue)]

theorem grants_issued_once_serial :
    ∃ last : GrantTable Nat,
      Run (LaterStep defaultSettings) (GrantTable.initial januaryStart) serialRequests last ∧
        IssuedOnce last.history := by
  obtain ⟨last, run, -⟩ := Run.of_guardedStep (GrantTable.step defaultSettings)
    (fun table label => opensLater table label = true) (GrantTable.initial januaryStart)
    serialRequests (fun _ => ()) () (by decide +kernel)
  exact ⟨last, run, grants_issued_once defaultSettings januaryStart serialRequests last run⟩

/-- The second request gives the credits of the first back. -/
theorem grants_race :
    ∃ last : GrantTable Nat,
      Run (GrantTable.Step defaultSettings) (GrantTable.initial januaryStart) racingRequests last ∧
        last.account.organization.creditsGrantedBalance = 5000 ∧ ¬ IssuedOnce last.history := by
  obtain ⟨last, run, same⟩ := Run.of_foldlM_map (GrantTable.step defaultSettings)
    (GrantTable.initial januaryStart) racingRequests
    (fun last => (last.account.organization.creditsGrantedBalance, last.history))
    (5000, [.reissued firstOfFebruary, .deducted 1000, .reissued firstOfFebruary])
    (by decide +kernel)
  obtain ⟨granted, history⟩ := Prod.mk.inj same
  refine ⟨last, run, granted, ?_⟩
  intro issued
  have once := issued.once
  rw [history] at once
  exact absurd once (by decide)

end Assemblix.Billing
