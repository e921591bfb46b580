import Mathlib.Data.List.TakeDrop
import Mathlib.Tactic.Common

/-
A log that grows at its end and is trimmed at its front.

The id of an entry is its position in everything ever added, from one. A reader keeps the id
of the last entry it has read; zero stands before all entries.
-/

namespace Library

structure TrimmedLog (E : Type) where
  added : List E
  trimmed : Nat

namespace TrimmedLog

variable {E : Type}

def empty : TrimmedLog E where
  added := []
  trimmed := 0

/-- What is kept of the entries with larger ids. -/
def after (log : TrimmedLog E) (id : Nat) : List E := log.added.drop (max log.trimmed id)

def retained (log : TrimmedLog E) : List E := log.after 0

def lastId (log : TrimmedLog E) (unread : Nat) : Nat :=
  if log.retained.isEmpty then unread else log.added.length

/-- At most `count` entries after an id. -/
def read (log : TrimmedLog E) (count id : Nat) : List E := (log.after id).take count

/-- The id of the last entry of `read`. -/
def readId (log : TrimmedLog E) (count id : Nat) : Nat :=
  if (log.read count id).isEmpty then id else max log.trimmed id + (log.read count id).length

/-- A new entry; `trimmed` entries are gone then. -/
def push (log : TrimmedLog E) (entry : E) (trimmed : Nat) : TrimmedLog E where
  added := log.added ++ [entry]
  trimmed := trimmed

variable {log : TrimmedLog E} {entry item : E} {count id trimmed : Nat}

theorem mem_after : item ∈ log.after id ↔ item ∈ log.retained ∧ item ∈ log.added.drop id := by
  unfold retained after
  rw [Nat.max_zero]
  rcases Nat.le_total log.trimmed id with le | le
  · rw [Nat.max_eq_right le]
    exact ⟨fun member => ⟨List.drop_subset_drop_left _ le member, member⟩, And.right⟩
  · rw [Nat.max_eq_left le]
    exact ⟨fun member => ⟨member, List.drop_subset_drop_left _ le member⟩, And.left⟩

theorem after_readId : log.after id = log.read count id ++ log.after (log.readId count id) := by
  unfold readId
  split
  case isTrue nothing =>
    rw [List.isEmpty_iff.mp nothing, List.nil_append]
  case isFalse =>
    have front : log.read count id <+: log.after id := List.take_prefix _ _
    have rest : log.after (max log.trimmed id + (log.read count id).length) =
        (log.after id).drop (log.read count id).length := by
      unfold after
      rw [List.drop_drop, Nat.max_eq_right]
      omega
    rw [rest]
    exact (List.prefix_iff_eq_append.mp front).symm

theorem exists_mem_read (positive : 0 < count) (unread : item ∈ log.after id) :
    ∃ first, first ∈ log.read count id := by
  unfold read
  cases listed : log.after id with
  | nil =>
      rw [listed] at unread
      cases unread
  | cons first rest =>
      obtain ⟨less, rfl⟩ := Nat.exists_eq_add_of_lt positive
      exact ⟨first, by simp⟩

theorem readId_le (bound : id ≤ log.added.length) : log.readId count id ≤ log.added.length := by
  unfold readId
  split
  case isTrue => exact bound
  case isFalse some =>
    have taken : (log.read count id).length ≤ log.added.length - max log.trimmed id := by
      have shorter : (log.read count id).length ≤ (log.after id).length :=
        (List.take_sublist _ _).length_le
      unfold after at shorter
      rw [List.length_drop] at shorter
      exact shorter
    rw [List.isEmpty_iff, ← List.length_eq_zero_iff] at some
    omega

theorem lastId_le (bound : id ≤ log.added.length) : log.lastId id ≤ log.added.length := by
  unfold lastId
  split
  case isTrue => exact bound
  case isFalse => exact Nat.le_refl _

theorem mem_push_after (trims : log.trimmed ≤ trimmed)
    (member : item ∈ (log.push entry trimmed).after id) : item ∈ log.after id ∨ item = entry := by
  change item ∈ (log.added ++ [entry]).drop (max trimmed id) at member
  rw [List.drop_append] at member
  rcases List.mem_append.mp member with old | new
  · left
    apply List.drop_subset_drop_left _ _ old
    omega
  · exact Or.inr (List.mem_singleton.mp (List.mem_of_mem_drop new))

theorem mem_push_retained (trims : log.trimmed ≤ trimmed)
    (member : item ∈ (log.push entry trimmed).retained) : item ∈ log.retained ∨ item = entry :=
  mem_push_after trims member

theorem push_unread (unread : item ∈ log.after id)
    (kept : item ∈ (log.push entry trimmed).retained) :
    item ∈ (log.push entry trimmed).after id := by
  rw [mem_after]
  refine ⟨kept, ?_⟩
  change item ∈ (log.added ++ [entry]).drop id
  rw [List.drop_append]
  exact List.mem_append_left _ (mem_after.mp unread).2

theorem push_entry_unread (bound : id ≤ log.added.length)
    (kept : entry ∈ (log.push entry trimmed).retained) :
    entry ∈ (log.push entry trimmed).after id := by
  rw [mem_after]
  refine ⟨kept, ?_⟩
  change entry ∈ (log.added ++ [entry]).drop id
  rw [List.drop_append_of_le_length bound]
  exact List.mem_append_right _ (List.mem_singleton.mpr rfl)

end TrimmedLog
end Library
