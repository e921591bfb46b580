import Assemblix.Library.SortedSetKey
import Assemblix.Library.Run
import Mathlib.Data.NNRat.Floor
import Mathlib.Tactic.GCongr
import Mathlib.Tactic.NormNum

/-
The slots of one key of the concurrency limiter.

Every admitted call is a member of a sorted set, scored by the moment its slot may be taken
back. Each admission also sets the time to live of the whole set, to its own lifetime.
-/

namespace Assemblix.Limits

open Library (Run SortedSetKey)

/-! ### One slot -/

/-- The timeouts of one `concurrency_slot`, in seconds. -/
structure SlotTimeouts where
  holdTimeout : ℚ≥0
  acquireTimeout : ℚ≥0
  deriving DecidableEq

/-- `hold_ms`. -/
def SlotTimeouts.holdMs (timeouts : SlotTimeouts) : Nat :=
  ⌊(timeouts.holdTimeout + timeouts.acquireTimeout) * 1000⌋₊ + 1000

def acquireScript {Token : Type} [DecidableEq Token] (key : SortedSetKey Token) (now limit : Nat)
    (token : Token) (holdMs : Nat) : SortedSetKey Token × Bool :=
  let purged := (key.visible now).zremrangebyscore now
  if purged.zcard < limit then
    ((purged.zadd (now + holdMs) token).pexpireAt (now + (holdMs + 1000)), true)
  else (purged, false)

structure Holder (Token : Type) where
  token : Token
  admittedAt : Nat
  timeouts : SlotTimeouts
  deriving DecidableEq

namespace Holder

variable {Token : Type} (holder : Holder Token)

/-- The score of its slot. -/
def deadline : Nat := holder.admittedAt + holder.timeouts.holdMs

def holdEnds : ℚ≥0 := holder.admittedAt + holder.timeouts.holdTimeout * 1000

def live (now : Nat) : Prop := (now : ℚ≥0) < holder.holdEnds

instance (now : Nat) : Decidable (holder.live now) := inferInstanceAs (Decidable (_ < _))

theorem holdEnds_lt_deadline : holder.holdEnds < holder.deadline := by
  have floored := Nat.lt_floor_add_one
    ((holder.timeouts.holdTimeout + holder.timeouts.acquireTimeout) * 1000)
  have waited : holder.timeouts.holdTimeout * 1000 ≤
      (holder.timeouts.holdTimeout + holder.timeouts.acquireTimeout) * 1000 :=
    mul_le_mul_of_nonneg_right le_self_add (by norm_num)
  have whole : holder.timeouts.holdTimeout * 1000 < (holder.timeouts.holdMs : ℚ≥0) := by
    calc holder.timeouts.holdTimeout * 1000
        ≤ (holder.timeouts.holdTimeout + holder.timeouts.acquireTimeout) * 1000 := waited
      _ < ⌊(holder.timeouts.holdTimeout + holder.timeouts.acquireTimeout) * 1000⌋₊ + 1 := floored
      _ ≤ (holder.timeouts.holdMs : ℚ≥0) := by
        unfold SlotTimeouts.holdMs
        push_cast
        gcongr
        norm_num
  unfold holdEnds deadline
  push_cast
  gcongr

theorem live_mono {earlier later : Nat} (passed : earlier ≤ later) (live : holder.live later) :
    holder.live earlier :=
  lt_of_le_of_lt (by exact_mod_cast passed) live

theorem live.before_deadline {holder : Holder Token} {now : Nat} (live : holder.live now) :
    now < holder.deadline := by
  exact_mod_cast live.trans holder.holdEnds_lt_deadline

end Holder

/-! ### The key and its holders -/

structure Limiter (Token : Type) where
  now : Nat
  key : SortedSetKey Token
  holders : List (Holder Token)

inductive LimiterAction (Token : Type)
  | acquire (token : Token) (timeouts : SlotTimeouts)
  | release (token : Token)
  | tick (later : Nat)

namespace Limiter

variable {Token : Type} [DecidableEq Token]

def initial : Limiter Token where
  now := 0
  key := SortedSetKey.missing
  holders := []

omit [DecidableEq Token] in
def tokens (limiter : Limiter Token) : List Token := limiter.holders.map Holder.token

def scripted (limiter : Limiter Token) (limit : Nat) (token : Token) (timeouts : SlotTimeouts) :
    SortedSetKey Token × Bool :=
  acquireScript limiter.key limiter.now limit token timeouts.holdMs

def step (limit : Nat) (limiter : Limiter Token) : LimiterAction Token → Option (Limiter Token)
  | .acquire token timeouts =>
      if token ∈ limiter.tokens then none
      else
        let (key, acquired) := limiter.scripted limit token timeouts
        if acquired then
          some
            { limiter with
              key := key
              holders := limiter.holders ++
                [{ token := token, admittedAt := limiter.now, timeouts := timeouts }] }
        else some { limiter with key := key }
  | .release token =>
      if token ∈ limiter.tokens then
        some
          { limiter with
            key := (limiter.key.visible limiter.now).zrem token
            holders := limiter.holders.filter (fun holder => holder.token ≠ token) }
      else none
  | .tick later => if limiter.now ≤ later then some { limiter with now := later } else none

def Step (limit : Nat) (limiter : Limiter Token) (action : LimiterAction Token)
    (next : Limiter Token) : Prop :=
  limiter.step limit action = some next

def inFlight (limiter : Limiter Token) : List (Holder Token) :=
  limiter.holders.filter (fun holder => holder.live limiter.now)

def purged (limiter : Limiter Token) : SortedSetKey Token :=
  (limiter.key.visible limiter.now).zremrangebyscore limiter.now

def counted (limiter : Limiter Token) : List Token := limiter.purged.members.map Prod.fst

def later (limiter : Limiter Token) (now : Nat) : Limiter Token := { limiter with now := now }

structure Safe (limit : Nat) (limiter : Limiter Token) : Prop where
  within : limiter.inFlight.length ≤ limit
  kept : ∀ holder ∈ limiter.inFlight, holder.token ∈ limiter.counted

/-- At every moment until the next command. -/
def StaysSafe (limit : Nat) (limiter : Limiter Token) : Prop :=
  ∀ now, limiter.now ≤ now → (limiter.later now).Safe limit

def Covers (limit : Nat) (limiter : Limiter Token) : LimiterAction Token → Prop
  | .acquire token timeouts => (limiter.scripted limit token timeouts).2 = true →
      ∀ holder ∈ limiter.inFlight,
        holder.holdEnds ≤ (limiter.now + (timeouts.holdMs + 1000) + 1 : Nat)
  | _ => True

def SafeStep (limit : Nat) (limiter : Limiter Token) (action : LimiterAction Token)
    (next : Limiter Token) : Prop :=
  limiter.Step limit action next ∧ next.StaysSafe limit

def CoveringStep (limit : Nat) (limiter : Limiter Token) (action : LimiterAction Token)
    (next : Limiter Token) : Prop :=
  limiter.Step limit action next ∧ limiter.Covers limit action

/-! ### What an acquire leaves -/

section Script

variable {limit : Nat} {limiter next : Limiter Token} {action : LimiterAction Token}
  {token : Token} {timeouts : SlotTimeouts} {holder : Holder Token} {entry : Token × Nat}

omit [DecidableEq Token] in
theorem mem_inFlight : holder ∈ limiter.inFlight ↔
    holder ∈ limiter.holders ∧ holder.live limiter.now := by
  unfold inFlight
  rw [List.mem_filter, decide_eq_true_iff]

theorem scripted_cases (limit : Nat) (token : Token) (timeouts : SlotTimeouts) :
    limiter.scripted limit token timeouts = (limiter.purged, false) ∨
      limiter.purged.members.length < limit ∧
        limiter.scripted limit token timeouts =
          ((limiter.purged.zadd (limiter.now + timeouts.holdMs) token).pexpireAt
            (limiter.now + (timeouts.holdMs + 1000)), true) := by
  unfold scripted acquireScript
  dsimp only
  split
  case isTrue free => exact Or.inr ⟨free, rfl⟩
  case isFalse => exact Or.inl rfl

/-- Everything a command can do. -/
inductive Moves (limit : Nat) (limiter : Limiter Token) :
    LimiterAction Token → Limiter Token → Prop
  | admitted (token : Token) (timeouts : SlotTimeouts) (fresh : token ∉ limiter.tokens)
      (taken : (limiter.scripted limit token timeouts).2 = true) :
      Moves limit limiter (.acquire token timeouts)
        { limiter with
          key := (limiter.scripted limit token timeouts).1
          holders := limiter.holders ++
            [{ token := token, admittedAt := limiter.now, timeouts := timeouts }] }
  | refused (token : Token) (timeouts : SlotTimeouts)
      (full : (limiter.scripted limit token timeouts).2 = false) :
      Moves limit limiter (.acquire token timeouts)
        { limiter with key := (limiter.scripted limit token timeouts).1 }
  | released (token : Token) :
      Moves limit limiter (.release token)
        { limiter with
          key := (limiter.key.visible limiter.now).zrem token
          holders := limiter.holders.filter (fun holder => holder.token ≠ token) }
  | ticked (now : Nat) (passed : limiter.now ≤ now) :
      Moves limit limiter (.tick now) (limiter.later now)

theorem Step.moves (taken : limiter.Step limit action next) : Moves limit limiter action next := by
  unfold Step step at taken
  cases action with
  | acquire token timeouts =>
      dsimp only at taken
      split at taken
      case isTrue => cases taken
      case isFalse fresh =>
        split at taken
        case isTrue acquired =>
          cases taken
          exact .admitted token timeouts fresh acquired
        case isFalse refused =>
          cases taken
          exact .refused token timeouts (Bool.eq_false_of_not_eq_true refused)
  | release token =>
      dsimp only at taken
      split at taken
      · cases taken
        exact .released token
      · cases taken
  | tick now =>
      dsimp only at taken
      split at taken
      case isTrue passed =>
        cases taken
        exact .ticked now passed
      case isFalse => cases taken

end Script

/-! ### The invariant -/

/-- The set has no more members than slots, and each call in flight is one of them for longer
than its hold timeout. -/
structure Kept (limit : Nat) (limiter : Limiter Token) : Prop where
  distinct : limiter.tokens.Nodup
  bounded : limiter.key.members.length ≤ limit
  slots : ∀ holder ∈ limiter.inFlight,
    (holder.token, holder.deadline) ∈ limiter.key.members ∧
      ∃ last, limiter.key.expireAt = some last ∧ holder.holdEnds ≤ (last + 1 : Nat)

section Invariant

variable {limit : Nat} {limiter next : Limiter Token} {action : LimiterAction Token}
  {holder : Holder Token}

omit [DecidableEq Token] in
theorem Kept.visible (kept : limiter.Kept limit) (flying : holder ∈ limiter.inFlight) :
    limiter.key.visible limiter.now = limiter.key := by
  obtain ⟨_, last, expiry, outlived⟩ := kept.slots holder flying
  have live : (limiter.now : ℚ≥0) < (last + 1 : Nat) :=
    lt_of_lt_of_le (mem_inFlight.mp flying).2 outlived
  have before : limiter.now < last + 1 := by exact_mod_cast live
  apply SortedSetKey.visible_of_not_expired
  unfold SortedSetKey.expired
  rw [expiry]
  simp only [decide_eq_false_iff_not]
  omega

omit [DecidableEq Token] in
theorem Kept.purged (kept : limiter.Kept limit) (flying : holder ∈ limiter.inFlight) :
    (holder.token, holder.deadline) ∈ limiter.purged.members := by
  unfold Limiter.purged SortedSetKey.zremrangebyscore
  rw [kept.visible flying, SortedSetKey.keep_members, List.mem_filter, decide_eq_true_iff]
  exact ⟨(kept.slots holder flying).1, (mem_inFlight.mp flying).2.before_deadline⟩

omit [DecidableEq Token] in
theorem Kept.safe (kept : limiter.Kept limit) : limiter.Safe limit := by
  have counted : ∀ holder ∈ limiter.inFlight, holder.token ∈ limiter.counted := by
    intro holder flying
    exact List.mem_map.mpr ⟨_, kept.purged flying, rfl⟩
  have slots : ∀ holder ∈ limiter.inFlight,
      holder.token ∈ limiter.key.members.map Prod.fst := by
    intro holder flying
    exact List.mem_map.mpr ⟨_, (kept.slots holder flying).1, rfl⟩
  refine ⟨?_, counted⟩
  have distinct : (limiter.inFlight.map Holder.token).Nodup :=
    kept.distinct.sublist (List.filter_sublist.map _)
  have subset : limiter.inFlight.map Holder.token ⊆ limiter.key.members.map Prod.fst := by
    intro token member
    obtain ⟨holder, flying, rfl⟩ := List.mem_map.mp member
    exact slots holder flying
  calc limiter.inFlight.length
      = (limiter.inFlight.map Holder.token).length := (List.length_map _).symm
    _ ≤ (limiter.key.members.map Prod.fst).length :=
      (List.subperm_of_subset distinct subset).length_le
    _ = limiter.key.members.length := List.length_map _
    _ ≤ limit := kept.bounded

omit [DecidableEq Token] in
theorem Kept.later (kept : limiter.Kept limit) {now : Nat} (passed : limiter.now ≤ now) :
    (limiter.later now).Kept limit where
  distinct := kept.distinct
  bounded := kept.bounded
  slots := by
    intro holder flying
    obtain ⟨member, live⟩ := mem_inFlight.mp flying
    exact kept.slots holder (mem_inFlight.mpr ⟨member, holder.live_mono passed live⟩)

omit [DecidableEq Token] in
theorem Kept.staysSafe (kept : limiter.Kept limit) : limiter.StaysSafe limit :=
  fun _ passed => (kept.later passed).safe

omit [DecidableEq Token] in
theorem Kept.purged_expireAt (kept : limiter.Kept limit) (flying : holder ∈ limiter.inFlight) :
    limiter.purged.expireAt = limiter.key.expireAt := by
  have present := kept.purged flying
  unfold Limiter.purged SortedSetKey.zremrangebyscore at present ⊢
  rw [SortedSetKey.keep_expireAt present, kept.visible flying]

omit [DecidableEq Token] in
theorem Kept.purged_length (kept : limiter.Kept limit) : limiter.purged.members.length ≤ limit := by
  have purged : limiter.purged.members.length ≤
      (limiter.key.visible limiter.now).members.length := by
    unfold Limiter.purged SortedSetKey.zremrangebyscore
    rw [SortedSetKey.keep_members]
    exact List.length_filter_le _ _
  exact Nat.le_trans purged (Nat.le_trans SortedSetKey.visible_length_le kept.bounded)

theorem Kept.admitted (kept : limiter.Kept limit) {token : Token} {timeouts : SlotTimeouts}
    (fresh : token ∉ limiter.tokens)
    (covers : ∀ holder ∈ limiter.inFlight,
      holder.holdEnds ≤ (limiter.now + (timeouts.holdMs + 1000) + 1 : Nat))
    (free : limiter.purged.members.length < limit) :
    Kept limit
      { limiter with
        key := (limiter.purged.zadd (limiter.now + timeouts.holdMs) token).pexpireAt
          (limiter.now + (timeouts.holdMs + 1000))
        holders := limiter.holders ++
          [{ token := token, admittedAt := limiter.now, timeouts := timeouts }] } where
  distinct := by
    unfold tokens
    rw [List.map_append, List.nodup_append]
    refine ⟨kept.distinct, List.nodup_singleton _, ?_⟩
    intro old member new last same
    have repeated : old = token := same.trans (List.mem_singleton.mp last)
    exact fresh (repeated ▸ member)
  bounded := Nat.le_trans SortedSetKey.zadd_length_le free
  slots := by
    intro holder flying
    obtain ⟨member, live⟩ := mem_inFlight.mp flying
    rcases List.mem_append.mp member with old | new
    · have oldFlying := mem_inFlight.mpr ⟨old, live⟩
      have other : holder.token ≠ token := by
        intro same
        exact fresh (same ▸ List.mem_map_of_mem old)
      refine ⟨?_, _, rfl, covers holder oldFlying⟩
      exact SortedSetKey.mem_zadd.mpr (Or.inl ⟨kept.purged oldFlying, other⟩)
    · rw [List.mem_singleton.mp new]
      refine ⟨SortedSetKey.mem_zadd.mpr (Or.inr rfl), _, rfl, ?_⟩
      have bound : limiter.now + timeouts.holdMs ≤
          limiter.now + (timeouts.holdMs + 1000) + 1 := by omega
      exact (Holder.holdEnds_lt_deadline _).le.trans (by exact_mod_cast bound)

omit [DecidableEq Token] in
theorem Kept.refused (kept : limiter.Kept limit) :
    Kept limit { limiter with key := limiter.purged } where
  distinct := kept.distinct
  bounded := kept.purged_length
  slots := by
    intro holder flying
    have oldFlying : holder ∈ limiter.inFlight := flying
    obtain ⟨_, last, expiry, outlived⟩ := kept.slots holder oldFlying
    exact ⟨kept.purged oldFlying, last, (kept.purged_expireAt oldFlying).trans expiry, outlived⟩

theorem Kept.released (kept : limiter.Kept limit) (token : Token) :
    Kept limit
      { limiter with
        key := (limiter.key.visible limiter.now).zrem token
        holders := limiter.holders.filter (fun holder => holder.token ≠ token) } where
  distinct := kept.distinct.sublist (List.filter_sublist.map _)
  bounded := by
    unfold SortedSetKey.zrem
    rw [SortedSetKey.keep_members]
    exact Nat.le_trans (List.length_filter_le _ _)
      (Nat.le_trans SortedSetKey.visible_length_le kept.bounded)
  slots := by
    intro holder flying
    obtain ⟨member, live⟩ := mem_inFlight.mp flying
    obtain ⟨old, other⟩ := List.mem_filter.mp member
    have oldFlying := mem_inFlight.mpr ⟨old, live⟩
    obtain ⟨present, last, expiry, outlived⟩ := kept.slots holder oldFlying
    have stays : (holder.token, holder.deadline) ∈
        ((limiter.key.visible limiter.now).zrem token).members := by
      unfold SortedSetKey.zrem
      rw [SortedSetKey.keep_members, kept.visible oldFlying, List.mem_filter]
      exact ⟨present, other⟩
    refine ⟨stays, last, ?_, outlived⟩
    unfold SortedSetKey.zrem at stays ⊢
    rw [SortedSetKey.keep_expireAt stays, kept.visible oldFlying, expiry]

theorem Kept.step (kept : limiter.Kept limit) (taken : limiter.CoveringStep limit action next) :
    next.Kept limit := by
  obtain ⟨stepped, covers⟩ := taken
  cases stepped.moves with
  | admitted token timeouts fresh acquired =>
      rcases @scripted_cases _ _ limiter limit token timeouts with full | ⟨free, added⟩
      · rw [full] at acquired
        cases acquired
      · rw [added]
        exact kept.admitted fresh (covers acquired) free
  | refused token timeouts refused =>
      rcases @scripted_cases _ _ limiter limit token timeouts with full | ⟨_, added⟩
      · rw [full]
        exact kept.refused
      · rw [added] at refused
        cases refused
  | released token => exact kept.released token
  | ticked now passed => exact kept.later passed

omit [DecidableEq Token] in
theorem initial_kept : (initial : Limiter Token).Kept limit where
  distinct := List.nodup_nil
  bounded := Nat.zero_le _
  slots := by
    intro holder flying
    cases flying

omit [DecidableEq Token] in
theorem counted_of_expired (expired : limiter.key.expired limiter.now = true) :
    limiter.counted = [] := by
  unfold counted Limiter.purged SortedSetKey.zremrangebyscore SortedSetKey.visible
  rw [expired, if_pos rfl, SortedSetKey.keep_members]
  rfl

/-- Where an admission does not cover a call in flight, the set is gone before the call ends. -/
theorem StaysSafe.covers (safe : next.StaysSafe limit) (taken : limiter.Step limit action next) :
    limiter.Covers limit action := by
  cases taken.moves with
  | admitted token timeouts fresh acquired =>
      intro _ holder flying
      by_contra outlives
      rcases @scripted_cases _ _ limiter limit token timeouts with full | ⟨free, added⟩
      · rw [full] at acquired
        cases acquired
      rw [added] at safe
      have gone := safe (limiter.now + (timeouts.holdMs + 1000) + 1)
        (Nat.le_add_right_of_le (Nat.le_add_right _ _))
      have counted := gone.kept holder
        (mem_inFlight.mpr ⟨List.mem_append_left _ (mem_inFlight.mp flying).1, not_le.mp outlives⟩)
      rw [counted_of_expired] at counted
      · cases counted
      · simp [SortedSetKey.expired, SortedSetKey.pexpireAt, later]
  | refused token timeouts refused =>
      intro acquired
      rw [refused] at acquired
      cases acquired
  | released token => trivial
  | ticked now passed => trivial

end Invariant

end Limiter

/-- A run keeps the limit, and the slot of every call in flight, at every moment exactly when
each admission gives the set a time to live that covers the calls in flight. -/
theorem slots_safe_iff {Token : Type} [DecidableEq Token] (limit : Nat)
    (actions : List (LimiterAction Token)) (last : Limiter Token) :
    Run (Limiter.SafeStep limit) Limiter.initial actions last ↔
      Run (Limiter.CoveringStep limit) Limiter.initial actions last := by
  constructor
  · intro run
    apply run.mono
    intro limiter action next taken
    exact ⟨taken.1, taken.2.covers taken.1⟩
  · intro run
    apply run.mono_within (Limiter.Kept limit) Limiter.initial_kept
    · intro limiter action next kept taken
      exact kept.step taken
    · intro limiter action next kept taken
      exact ⟨taken.1, (kept.step taken).staysSafe⟩

/-! ### A short call beside a long one -/

/-- A call of ten minutes and one of ten seconds, and two more after 43 seconds. -/
def shortBesideLong : List (LimiterAction Nat) :=
  [.acquire 0 { holdTimeout := 600, acquireTimeout := 30 },
    .acquire 1 { holdTimeout := 10, acquireTimeout := 30 }, .tick 43000,
    .acquire 2 { holdTimeout := 600, acquireTimeout := 30 },
    .acquire 3 { holdTimeout := 600, acquireTimeout := 30 }]

/-- The set of two slots is gone with the short call, while the long one is still in flight:
three calls share two slots. -/
theorem slots_over_limit :
    ∃ last : Limiter Nat, Run (Limiter.Step 2) Limiter.initial shortBesideLong last ∧
      last.inFlight.map Holder.token = [0, 2, 3] ∧ last.counted = [2, 3] ∧ ¬ last.Safe 2 := by
  obtain ⟨last, run, same⟩ := Run.of_foldlM_map (Limiter.step 2) .initial shortBesideLong
    (fun last => (last.inFlight.map Holder.token, last.counted)) ([0, 2, 3], [2, 3])
    (by decide +kernel)
  obtain ⟨flying, counted⟩ := Prod.mk.inj same
  refine ⟨last, run, flying, counted, ?_⟩
  intro safe
  have three := congrArg List.length flying
  rw [List.length_map] at three
  have three : last.inFlight.length = 3 := three
  have two := safe.within
  omega

end Assemblix.Limits
