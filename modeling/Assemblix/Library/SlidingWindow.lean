import Mathlib.Data.List.Basic
import Mathlib.Order.Lattice

/-
What a sliding window still shows of a list of timed items.

The bound of the window only rises, so what was cut off for an earlier bound is not missed under
a later one.
-/

namespace Library.SlidingWindow

variable {A T : Type} [LinearOrder T] (time : A → T)

def recent (bound : T) (items : List A) : List A :=
  items.filter (fun item => decide (bound < time item))

variable {time} {early late : T} {items : List A}

theorem recent_append (bound : T) (items more : List A) :
    recent time bound (items ++ more) = recent time bound items ++ recent time bound more :=
  List.filter_append items more

theorem recent_recent (risen : early ≤ late) (items : List A) :
    recent time late (recent time early items) = recent time late items := by
  unfold recent
  rw [List.filter_filter]
  refine List.filter_congr ?_
  intro item _
  by_cases after : late < time item
  · rw [decide_eq_true after, decide_eq_true (lt_of_le_of_lt risen after), Bool.true_and]
  · rw [decide_eq_false after, Bool.false_and]

theorem recent_congr {others : List A} (risen : early ≤ late)
    (alike : recent time early items = recent time early others) :
    recent time late items = recent time late others := by
  rw [← recent_recent risen items, alike, recent_recent risen others]

theorem recent_eq_nil {bound : T} (past : ∀ item ∈ items, time item ≤ bound) :
    recent time bound items = [] := by
  refine List.filter_eq_nil_iff.mpr ?_
  intro item member after
  exact absurd (of_decide_eq_true after) (not_lt.mpr (past item member))

theorem recent_sublist (bound : T) {some all : List A} (included : some.Sublist all) :
    (recent time bound some).Sublist (recent time bound all) :=
  included.filter _

end Library.SlidingWindow
