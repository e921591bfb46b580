import Mathlib.Data.List.Basic
import Mathlib.Data.List.Nodup

/-
A key of a server that holds a sorted set: members with scores and one time to live for the
whole key.

A key without members does not exist and has no time to live. From the first moment after its
time to live every command finds the key missing, whatever the scores of its members are.
-/

namespace Library

structure SortedSetKey (M : Type) where
  members : List (M × Nat)
  expireAt : Option Nat

namespace SortedSetKey

variable {M : Type}

def missing : SortedSetKey M where
  members := []
  expireAt := none

def expired (key : SortedSetKey M) (now : Nat) : Bool :=
  match key.expireAt with
  | none => false
  | some last => decide (last < now)

def visible (key : SortedSetKey M) (now : Nat) : SortedSetKey M :=
  if key.expired now then missing else key

def keep (key : SortedSetKey M) (stays : M × Nat → Bool) : SortedSetKey M :=
  if (key.members.filter stays).isEmpty then missing
  else { key with members := key.members.filter stays }

/-- `ZREMRANGEBYSCORE key -inf score`. -/
def zremrangebyscore (key : SortedSetKey M) (score : Nat) : SortedSetKey M :=
  key.keep (fun member => decide (score < member.2))

def zcard (key : SortedSetKey M) : Nat := key.members.length

variable [DecidableEq M]

def zrem (key : SortedSetKey M) (member : M) : SortedSetKey M :=
  key.keep (fun other => decide (other.1 ≠ member))

def zadd (key : SortedSetKey M) (score : Nat) (member : M) : SortedSetKey M :=
  { key with members := key.members.filter (fun other => other.1 ≠ member) ++ [(member, score)] }

omit [DecidableEq M] in
def pexpireAt (key : SortedSetKey M) (last : Nat) : SortedSetKey M :=
  { key with expireAt := some last }

section Members

variable {key : SortedSetKey M} {entry : M × Nat} {now : Nat}

omit [DecidableEq M] in
@[simp] theorem keep_members (stays : M × Nat → Bool) :
    (key.keep stays).members = key.members.filter stays := by
  unfold keep
  split
  case isTrue empty => exact (List.isEmpty_iff.mp empty).symm
  case isFalse => rfl

omit [DecidableEq M] in
theorem keep_expireAt {stays : M × Nat → Bool} (member : entry ∈ (key.keep stays).members) :
    (key.keep stays).expireAt = key.expireAt := by
  rw [keep_members] at member
  unfold keep
  rw [if_neg]
  intro empty
  rw [List.isEmpty_iff.mp empty] at member
  cases member

omit [DecidableEq M] in
theorem visible_of_not_expired (alive : key.expired now = false) : key.visible now = key := by
  unfold visible
  rw [alive, if_neg Bool.false_ne_true]

omit [DecidableEq M] in
theorem visible_length_le : (key.visible now).members.length ≤ key.members.length := by
  unfold visible
  split
  · exact Nat.zero_le _
  · exact Nat.le_refl _

theorem mem_zadd {score : Nat} {member : M} :
    entry ∈ (key.zadd score member).members ↔
      entry ∈ key.members ∧ entry.1 ≠ member ∨ entry = (member, score) := by
  unfold zadd
  simp

theorem zadd_length_le {score : Nat} {member : M} :
    (key.zadd score member).members.length ≤ key.members.length + 1 := by
  unfold zadd
  rw [List.length_append]
  exact Nat.succ_le_succ (List.length_filter_le _ _)

end Members

end SortedSetKey
end Library
