import Mathlib.Data.Nat.Basic
import Mathlib.Order.Basic

/-
Monthly periods on a calendar whose months have any lengths.

A day of the calendar is the number of its month and its day in it. Each month has one due
day: the day of the anchor, or the last day of a month that is too short for it. A schedule
that only remembers the last due day takes that day for its anchor, so a short month can move
all later due days.
-/

namespace Library

structure CalendarDay where
  month : Nat
  day : Nat
  deriving DecidableEq

namespace CalendarDay

def Le (earlier later : CalendarDay) : Prop :=
  earlier.month < later.month ∨ earlier.month = later.month ∧ earlier.day ≤ later.day

end CalendarDay

namespace MonthlySchedule

variable (length : Nat → Nat)

def dueDay (anchor month : Nat) : Nat := min anchor (length month)

def due (anchor month : Nat) : CalendarDay where
  month := month
  day := dueDay length anchor month

def lastDue (anchor : Nat) (today : CalendarDay) : Nat :=
  if today.day < dueDay length anchor today.month then today.month - 1 else today.month

def anchored (start today : CalendarDay) : CalendarDay :=
  due length start.day (max start.month (lastDue length start.day today))

def advance (period today : CalendarDay) : CalendarDay :=
  if period.month < lastDue length period.day today then
    due length period.day (lastDue length period.day today)
  else period

/-- The next due day is no later in its month than the period's own start, and today does not
lie between that start's day and the anchor's. -/
def Aligned (start period today : CalendarDay) : Prop :=
  (anchored length start today).day ≤ period.day ∧
    (today.day < dueDay length start.day today.month → today.day < period.day)

instance (start period today : CalendarDay) : Decidable (Aligned length start period today) :=
  inferInstanceAs (Decidable (_ ∧ _))

variable {length} {start period today : CalendarDay} {anchor : Nat}

theorem dueDay_le (month : Nat) : dueDay length anchor month ≤ anchor := Nat.min_le_left _ _

theorem dueDay_le_length (month : Nat) : dueDay length anchor month ≤ length month :=
  Nat.min_le_right _ _

theorem dueDay_mono {later : Nat} (grown : anchor ≤ later) (month : Nat) :
    dueDay length anchor month ≤ dueDay length later month := by
  unfold dueDay
  omega

theorem lastDue_of_reached (reached : dueDay length anchor today.month ≤ today.day) :
    lastDue length anchor today = today.month :=
  if_neg (Nat.not_lt.mpr reached)

theorem lastDue_of_early (early : today.day < dueDay length anchor today.month) :
    lastDue length anchor today = today.month - 1 :=
  if_pos early

theorem lastDue_mono {later : CalendarDay} (ordered : today.Le later) :
    lastDue length anchor today ≤ lastDue length anchor later := by
  unfold lastDue
  rcases ordered with before | ⟨same, days⟩
  · split <;> split <;> omega
  · rw [same]
    split <;> split <;> omega

theorem anchored_month : (anchored length start today).month =
    max start.month (lastDue length start.day today) := rfl

theorem start_le_anchored : start.month ≤ (anchored length start today).month :=
  Nat.le_max_left _ _

theorem anchored_self (fits : start.day ≤ length start.month) :
    anchored length start start = start := by
  have own : dueDay length start.day start.month = start.day := Nat.min_eq_left fits
  have reached : lastDue length start.day start = start.month :=
    lastDue_of_reached (Nat.le_of_eq own)
  unfold anchored due
  rw [reached, Nat.max_self, own]

theorem anchored_mono {later : CalendarDay} (ordered : today.Le later) :
    (anchored length start today).month ≤ (anchored length start later).month := by
  have grown := @lastDue_mono length today start.day later ordered
  rw [anchored_month, anchored_month]
  omega

theorem due_eq_iff {other month : Nat} : due length anchor month = due length other month ↔
    dueDay length anchor month = dueDay length other month := by
  constructor
  · intro same
    exact congrArg CalendarDay.day same
  · intro same
    unfold due
    rw [same]

theorem dueDay_eq_iff {smaller : Nat} (shrunk : smaller ≤ anchor) (month : Nat) :
    dueDay length smaller month = dueDay length anchor month ↔
      dueDay length anchor month ≤ smaller := by
  unfold dueDay
  omega

section Step

variable {previous : CalendarDay}

theorem anchored_eq_of_month_le (kept : period = anchored length start previous)
    (ordered : period.month ≤ (anchored length start today).month)
    (settled : (anchored length start today).month ≤ period.month) :
    anchored length start today = period := by
  have month : (anchored length start today).month = (anchored length start previous).month := by
    rw [← kept]
    exact Nat.le_antisymm settled ordered
  rw [kept]
  exact congrArg (due length start.day) month

theorem due_anchored_iff (kept : period = anchored length start previous)
    (ordered : period.month ≤ (anchored length start today).month)
    (sameMonth : lastDue length period.day today = lastDue length start.day today) :
    advance length period today = anchored length start today ↔
      (anchored length start today).day ≤ period.day := by
  have startBefore : start.month ≤ period.month := kept ▸ start_le_anchored
  have shrunk : period.day ≤ start.day := by
    rw [kept]
    exact dueDay_le _
  unfold advance
  rw [sameMonth]
  by_cases later : period.month < lastDue length start.day today
  · have month : max start.month (lastDue length start.day today) =
        lastDue length start.day today := by omega
    rw [if_pos later]
    unfold anchored
    rw [month, due_eq_iff]
    exact dueDay_eq_iff shrunk _
  · have settled : (anchored length start today).month ≤ period.month := by
      rw [anchored_month]
      omega
    have same := anchored_eq_of_month_le kept ordered settled
    rw [if_neg later, same]
    simp

/-- One call after another: the schedule that only keeps its last start follows the anchor
exactly when the call is aligned. -/
theorem advance_anchored_iff (fits : start.day ≤ length start.month) (positive : 0 < today.month)
    (kept : period = anchored length start previous)
    (ordered : period.month ≤ (anchored length start today).month) :
    advance length period today = anchored length start today ↔
      Aligned length start period today := by
  have shrunk : period.day ≤ start.day := by
    rw [kept]
    exact dueDay_le _
  have startBefore : start.month ≤ period.month := kept ▸ start_le_anchored
  have ownDue := @dueDay_mono length period.day start.day shrunk today.month
  by_cases reached : dueDay length start.day today.month ≤ today.day
  · have sameMonth : lastDue length period.day today = lastDue length start.day today := by
      rw [lastDue_of_reached reached, lastDue_of_reached (Nat.le_trans ownDue reached)]
    rw [due_anchored_iff kept ordered sameMonth]
    exact ⟨fun day => ⟨day, fun early => absurd early (Nat.not_lt.mpr reached)⟩, And.left⟩
  · have early := Nat.not_le.mp reached
    by_cases before : today.day < period.day
    · have ownEarly : today.day < dueDay length period.day today.month := by
        have inMonth := @dueDay_le_length length start.day today.month
        unfold dueDay
        omega
      have sameMonth : lastDue length period.day today = lastDue length start.day today := by
        rw [lastDue_of_early early, lastDue_of_early ownEarly]
      rw [due_anchored_iff kept ordered sameMonth]
      exact ⟨fun day => ⟨day, fun _ => before⟩, And.left⟩
    · -- The schedule is due on its own day already, the anchor is not.
      have unaligned : ¬ Aligned length start period today := fun aligned =>
        before (aligned.2 early)
      have ownReached : lastDue length period.day today = today.month := by
        apply lastDue_of_reached
        exact Nat.le_trans (dueDay_le _) (Nat.not_lt.mp before)
      have drifted : period.month < today.month := by
        by_contra settled
        have startMonth : period.month = start.month := by
          rw [anchored_month, lastDue_of_early early] at ordered
          omega
        have ownDay : period.day = start.day := by
          have due : period.day = dueDay length start.day period.month := by
            rw [kept]
            rfl
          rw [due, startMonth]
          exact Nat.min_eq_left fits
        have anchorDue := @dueDay_le length start.day today.month
        omega
      have ahead : (anchored length start today).month < today.month := by
        rw [anchored_month, lastDue_of_early early]
        omega
      constructor
      · intro same
        unfold advance at same
        rw [ownReached, if_pos drifted] at same
        rw [← same] at ahead
        exact absurd ahead (Nat.lt_irrefl _)
      · intro aligned
        exact absurd aligned unaligned

theorem advance_of_due (later : period.month < lastDue length period.day today) :
    advance length period today = anchored length period today := by
  unfold advance anchored
  rw [if_pos later, Nat.max_eq_right (Nat.le_of_lt later)]

theorem advance_of_not_due (current : ¬ period.month < lastDue length period.day today) :
    advance length period today = period :=
  if_neg current

theorem month_lt_advance (later : period.month < lastDue length period.day today) :
    period.month < (advance length period today).month := by
  unfold advance
  rw [if_pos later]
  exact later

end Step

end MonthlySchedule
end Library
