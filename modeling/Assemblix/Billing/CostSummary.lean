import Mathlib.Data.List.Sort
import Mathlib.Data.List.Dedup
import Mathlib.Algebra.BigOperators.Group.List.Basic
import Assemblix.Execution.Context
import Assemblix.Queue.ExecutionQueue

/-
The cost summary of a project.

Runs that are not debug runs are selected by their date, grouped by day and summed: credits
and own-key costs from the rows of the executions, tokens from the rows of their steps. The
days are added up again. Times are seconds in UTC.
-/

namespace Assemblix

structure ExecutionRecord where
  projectId : String
  createdAt : Int
  isDebug : Bool
  status : Queue.ExecutionStatus
  totalCredits : Rat
  ownKeyCostUsd : Option Rat
  steps : List ExecutionStep

def storedTokens (steps : List ExecutionStep) : Nat :=
  (steps.map (fun step => step.tokensUsed.getD 0)).sum

def storedOwnKeyCost (steps : List ExecutionStep) : Rat :=
  (steps.map (fun step => step.ownKeyCostUsd.getD 0)).sum

namespace ExecutionRecord

/-- `func.date(created_at)`. -/
def day (record : ExecutionRecord) : Int := record.createdAt / 86400

def hasFailed (record : ExecutionRecord) : Bool :=
  decide (record.status = .error) || decide (record.status = .failed)

def inRange (projectId : String) (start finish : Int) (record : ExecutionRecord) : Bool :=
  decide (record.projectId = projectId) && !record.isDebug &&
    decide (start ≤ record.createdAt) && decide (record.createdAt < finish)

end ExecutionRecord

structure DailyCost where
  date : Int
  runs : Nat
  failedRuns : Nat
  credits : Rat
  ownKeyCostUsd : Rat
  tokensUsed : Nat

def dailyCost (day : Int) (records : List ExecutionRecord) : DailyCost where
  date := day
  runs := records.length
  failedRuns := (records.filter ExecutionRecord.hasFailed).length
  credits := (records.map ExecutionRecord.totalCredits).sum
  ownKeyCostUsd := (records.map (fun record => record.ownKeyCostUsd.getD 0)).sum
  tokensUsed := (records.map (fun record => storedTokens record.steps)).sum

def daysOf (records : List ExecutionRecord) : List Int :=
  (records.map ExecutionRecord.day).dedup.mergeSort (fun left right => decide (left ≤ right))

/-- `get_daily_costs`. -/
def getDailyCosts (records : List ExecutionRecord) (projectId : String) (start finish : Int) :
    List DailyCost :=
  let selected := records.filter (ExecutionRecord.inRange projectId start finish)
  (daysOf selected).map (fun day =>
    dailyCost day (selected.filter (fun record => decide (record.day = day))))

structure CostSummary where
  totalRuns : Nat
  failedRuns : Nat
  totalCredits : Rat
  ownKeyCostUsd : Rat
  tokensUsed : Nat
  days : List DailyCost

/-- The first second after the range: of the day after `until`, or after today. -/
def rangeEnd (untilDay : Option Int) (today : Int) : Int := (untilDay.getD today + 1) * 86400

/-- `get_cost_summary`; dates are days since the epoch. -/
def getCostSummary (records : List ExecutionRecord) (projectId : String) (since : Int)
    (untilDay : Option Int) (today : Int) : CostSummary :=
  let days := getDailyCosts records projectId (since * 86400) (rangeEnd untilDay today)
  { totalRuns := (days.map DailyCost.runs).sum
    failedRuns := (days.map DailyCost.failedRuns).sum
    totalCredits := (days.map DailyCost.credits).sum
    ownKeyCostUsd := (days.map DailyCost.ownKeyCostUsd).sum
    tokensUsed := (days.map DailyCost.tokensUsed).sum
    days := days }

def summarized (records : List ExecutionRecord) (projectId : String) (since : Int)
    (untilDay : Option Int) (today : Int) : List ExecutionRecord :=
  records.filter (ExecutionRecord.inRange projectId (since * 86400) (rangeEnd untilDay today))

/-! ### Grouping keeps sums -/

section

variable {M : Type} [AddCommMonoid M]

theorem sum_selected {Key : Type} [DecidableEq Key] (key : Key) (value : M) (keys : List Key)
    (distinct : keys.Nodup) (listed : key ∈ keys) :
    (keys.map (fun other => if key = other then value else 0)).sum = value := by
  induction keys with
  | nil => cases listed
  | cons head tail ih =>
      have parts := List.nodup_cons.mp distinct
      rw [List.map_cons, List.sum_cons]
      by_cases same : key = head
      · subst same
        have absent : ∀ other ∈ tail, (if key = other then value else 0) = 0 := by
          intro other member
          apply if_neg
          intro equal
          rw [equal] at parts
          exact parts.1 member
        rw [if_pos rfl, List.map_congr_left absent]
        simp
      · have tailListed := (List.mem_cons.mp listed).resolve_left same
        rw [if_neg same, zero_add]
        exact ih parts.2 tailListed

theorem sum_groups {Key Row : Type} [DecidableEq Key] (keyOf : Row → Key) (value : Row → M)
    (keys : List Key) (distinct : keys.Nodup) (rows : List Row)
    (listed : ∀ row ∈ rows, keyOf row ∈ keys) :
    (keys.map (fun key =>
      ((rows.filter (fun row => decide (keyOf row = key))).map value).sum)).sum =
      (rows.map value).sum := by
  induction rows with
  | nil => simp
  | cons row rest ih =>
      have groups : ∀ key,
          (((row :: rest).filter (fun row => decide (keyOf row = key))).map value).sum =
            (if keyOf row = key then value row else 0) +
              ((rest.filter (fun row => decide (keyOf row = key))).map value).sum := by
        intro key
        rw [List.filter_cons]
        by_cases here : keyOf row = key
        · simp [here]
        · simp [here]
      simp only [groups]
      rw [List.sum_map_add, ih (fun other member => listed other (List.mem_cons_of_mem _ member)),
        sum_selected _ _ keys distinct (listed row List.mem_cons_self), List.map_cons,
        List.sum_cons]

end

theorem daysOf_nodup (records : List ExecutionRecord) : (daysOf records).Nodup := by
  unfold daysOf
  exact (List.mergeSort_perm _ _).nodup_iff.mpr (List.nodup_dedup _)

theorem day_mem_daysOf {records : List ExecutionRecord} {record : ExecutionRecord}
    (member : record ∈ records) : record.day ∈ daysOf records := by
  unfold daysOf
  rw [(List.mergeSort_perm _ _).mem_iff, List.mem_dedup]
  exact List.mem_map_of_mem member

theorem getCostSummary_totals (records : List ExecutionRecord) (projectId : String) (since : Int)
    (untilDay : Option Int) (today : Int) :
    (getCostSummary records projectId since untilDay today).tokensUsed =
        ((summarized records projectId since untilDay today).map
          (fun record => storedTokens record.steps)).sum ∧
      (getCostSummary records projectId since untilDay today).ownKeyCostUsd =
        ((summarized records projectId since untilDay today).map
          (fun record => record.ownKeyCostUsd.getD 0)).sum := by
  unfold getCostSummary getDailyCosts summarized
  dsimp only
  rw [List.map_map, List.map_map]
  constructor
  · exact sum_groups ExecutionRecord.day _ _ (daysOf_nodup _) _
      (fun _ member => day_mem_daysOf member)
  · exact sum_groups ExecutionRecord.day _ _ (daysOf_nodup _) _
      (fun _ member => day_mem_daysOf member)

end Assemblix
