import Mathlib.Algebra.Order.Group.Defs
import Mathlib.Algebra.Order.Group.MinMax
import Mathlib.Tactic.Abel

/-
Spending from two purses, the first one before the second.

Both new contents are given by the old ones, so a spending is one assignment.
-/

namespace Library

structure Purses (M : Type) where
  first : M
  second : M

namespace Purses

variable {M : Type} [AddCommGroup M] [LinearOrder M] (purses : Purses M) (amount : M)

def total : M := purses.first + purses.second

def overflow : M := max (amount - purses.first) 0

def spend : Purses M where
  first := max (purses.first - amount) 0
  second := purses.second - purses.overflow amount

structure Solvent : Prop where
  first : 0 ≤ purses.first
  second : 0 ≤ purses.second

variable [IsOrderedAddMonoid M] {purses} {amount}

@[simp] theorem spend_total : (purses.spend amount).total = purses.total - amount := by
  have sides : max (purses.first - amount) 0 - max (amount - purses.first) 0 =
      purses.first - amount := by
    rcases le_total amount purses.first with enough | short
    · rw [max_eq_left (sub_nonneg.mpr enough), max_eq_right (sub_nonpos.mpr enough), sub_zero]
    · rw [max_eq_right (sub_nonpos.mpr short), max_eq_left (sub_nonneg.mpr short)]
      abel
  calc (purses.spend amount).total
      = max (purses.first - amount) 0 - max (amount - purses.first) 0 + purses.second := by
        unfold total spend overflow
        rw [sub_add_eq_add_sub, add_sub_assoc]
    _ = purses.total - amount := by
        rw [sides]
        unfold total
        abel

theorem Solvent.total_nonneg (solvent : purses.Solvent) : 0 ≤ purses.total :=
  add_nonneg solvent.first solvent.second

theorem Solvent.spend (solvent : purses.Solvent) (covered : amount ≤ purses.total) :
    (purses.spend amount).Solvent where
  first := le_max_right _ _
  second := by
    have rest : purses.overflow amount ≤ purses.second := by
      apply max_le _ solvent.second
      exact sub_le_iff_le_add'.mpr covered
    exact sub_nonneg.mpr rest

theorem overflow_mono {more : M} (grown : amount ≤ more) :
    purses.overflow amount ≤ purses.overflow more :=
  max_le_max (sub_le_sub_right grown _) le_rfl

end Purses
end Library
