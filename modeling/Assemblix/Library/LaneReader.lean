import Mathlib.Data.List.Basic
import Mathlib.Data.List.Flatten
import Mathlib.Tactic.Common

/-
One reader of several lanes, each with a writer of its own.

The reader finishes a lane before it goes to the next, so that what it has read is a prefix of
the lanes one after another, however the writers interleave. A lane that the reader has left is
not written any more.
-/

namespace Library

structure LaneReader (A : Type) where
  lanes : List (List A) := []
  lane : Nat := 0
  offset : Nat := 0
  bounded : offset ≤ (lanes.getD lane []).length := by exact Nat.zero_le _

namespace LaneReader

variable {A : Type} (reader : LaneReader A)

def current : List A :=
  reader.lanes.getD reader.lane []

def read : List A :=
  (reader.lanes.take reader.lane).flatten ++ reader.current.take reader.offset

theorem getD_append_replicate (lanes : List (List A)) (count lane : Nat) :
    (lanes ++ List.replicate count []).getD lane [] = lanes.getD lane [] := by
  rw [List.getD_eq_getElem?_getD, List.getD_eq_getElem?_getD, List.getElem?_append]
  split
  · rfl
  · rename_i beyond
    rw [List.getElem?_eq_none (Nat.le_of_not_lt beyond), List.getElem?_replicate]
    split
    · rfl
    · rfl

def openLanes (count : Nat) : LaneReader A :=
  { reader with
    lanes := reader.lanes ++ List.replicate count []
    bounded := by
      rw [getD_append_replicate]
      exact reader.bounded }

def write (lane : Nat) (item : A) : LaneReader A :=
  { reader with
    lanes := reader.lanes.modify lane (· ++ [item])
    bounded := by
      refine Nat.le_trans reader.bounded ?_
      rw [List.getD_eq_getElem?_getD, List.getD_eq_getElem?_getD, List.getElem?_modify]
      cases reader.lanes[reader.lane]? with
      | none => exact Nat.le_refl _
      | some items =>
          by_cases here : lane = reader.lane
          · simp [here]
          · simp [here] }

def next (more : reader.offset < reader.current.length) : LaneReader A :=
  { reader with offset := reader.offset + 1, bounded := more }

def advance : LaneReader A :=
  { lanes := reader.lanes, lane := reader.lane + 1 }

theorem read_prefix : reader.read <+: reader.lanes.flatten := by
  have split : reader.lanes.flatten =
      (reader.lanes.take reader.lane).flatten ++ (reader.lanes.drop reader.lane).flatten := by
    rw [← List.flatten_append, List.take_append_drop]
  rw [split]
  refine (List.prefix_append_right_inj _).mpr ?_
  refine (List.take_prefix _ _).trans ?_
  unfold current
  rw [List.getD_eq_getElem?_getD]
  cases found : reader.lanes[reader.lane]? with
  | none => exact List.nil_prefix
  | some items =>
      rw [List.drop_eq_getElem?_toList_append, found]
      exact List.prefix_append _ _

theorem read_openLanes (count : Nat) : (reader.openLanes count).read = reader.read := by
  have same : (reader.openLanes count).current = reader.current := getD_append_replicate _ _ _
  unfold read
  rw [same]
  refine congrArg (· ++ _) ?_
  change ((reader.lanes ++ List.replicate count []).take reader.lane).flatten = _
  rw [List.take_append, List.flatten_append, List.take_replicate]
  simp

theorem read_write {lane : Nat} {item : A} (ahead : reader.lane ≤ lane) :
    (reader.write lane item).read = reader.read := by
  have before : (reader.lanes.modify lane (· ++ [item])).take reader.lane =
      reader.lanes.take reader.lane := by
    refine List.ext_getElem? ?_
    intro index
    rw [List.getElem?_take, List.getElem?_take]
    split
    · have different : lane ≠ index := by omega
      rw [List.getElem?_modify]
      simp [different]
    · rfl
  have here : (reader.write lane item).current.take reader.offset =
      reader.current.take reader.offset := by
    have bounded := reader.bounded
    unfold current
    change ((reader.lanes.modify lane (· ++ [item])).getD reader.lane []).take _ = _
    rw [List.getD_eq_getElem?_getD, List.getD_eq_getElem?_getD] at *
    rw [List.getElem?_modify]
    cases found : reader.lanes[reader.lane]? with
    | none => rfl
    | some items =>
        rw [found] at bounded
        by_cases same : lane = reader.lane
        · simp only [same, if_true, Option.map_eq_map, Option.map_some, Option.getD_some]
          exact List.take_append_of_le_length bounded
        · simp [same]
  change ((reader.lanes.modify lane (· ++ [item])).take reader.lane).flatten ++
    (reader.write lane item).current.take reader.offset = _
  rw [before, here]
  rfl

theorem read_next (more : reader.offset < reader.current.length) :
    (reader.next more).read = reader.read ++ [reader.current[reader.offset]] := by
  change (reader.lanes.take reader.lane).flatten ++ reader.current.take (reader.offset + 1) = _
  rw [List.take_succ_eq_append_getElem more, ← List.append_assoc]
  rfl

theorem read_advance (finished : reader.offset = reader.current.length) :
    reader.advance.read = reader.read := by
  have beyond : reader.advance.current.take reader.advance.offset = [] := List.take_zero
  unfold read
  rw [beyond, List.append_nil, finished, List.take_length]
  change (reader.lanes.take (reader.lane + 1)).flatten = _
  rw [List.take_add_one, List.flatten_append]
  refine congrArg (_ ++ ·) ?_
  unfold current
  rw [List.getD_eq_getElem?_getD]
  cases reader.lanes[reader.lane]? with
  | none => rfl
  | some items => exact List.append_nil items

theorem read_all (past : reader.lanes.length ≤ reader.lane) :
    reader.read = reader.lanes.flatten := by
  have nothing : reader.current = [] := by
    unfold current
    rw [List.getD_eq_getElem?_getD, List.getElem?_eq_none past]
    rfl
  unfold read
  rw [nothing, List.take_nil, List.append_nil, List.take_of_length_le past]

end LaneReader

end Library
