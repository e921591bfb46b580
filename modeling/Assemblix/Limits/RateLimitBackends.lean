import Assemblix.Library.Dict
import Assemblix.Library.Run
import Assemblix.Library.SlidingWindow
import Mathlib.Data.NNRat.Defs
import Mathlib.Tactic.Linarith

/-
The two backends of the rate limiter, asked at the same moments.

Both count the hits of a rolling window. The one in memory forgets a hit that it denied; the
sorted set of Redis keeps it until the window has passed.
-/

namespace Assemblix.Limits

open Library (Dict Run)
open Library.SlidingWindow (recent recent_append recent_recent recent_congr recent_eq_nil
  recent_sublist)

/-- A reading of the clock as the number it is compared with. -/
def moment (now : ℚ≥0) : ℚ := now

def cutoff (now : ℚ≥0) (window_seconds : Int) : ℚ := moment now - window_seconds

theorem moment_le {early late : ℚ≥0} (earlier : early ≤ late) : moment early ≤ moment late :=
  NNRat.coe_le_coe.mpr earlier

theorem cutoff_le {early late : ℚ≥0} (earlier : early ≤ late) (window_seconds : Int) :
    cutoff early window_seconds ≤ cutoff late window_seconds :=
  sub_le_sub_right (moment_le earlier) _

/-! ### In memory -/

structure InMemoryRateLimitBackend where
  hits : Dict String (List ℚ≥0)
  deriving DecidableEq

namespace InMemoryRateLimitBackend

/-- `self._hits.get(key, [])`. -/
def bucket (backend : InMemoryRateLimitBackend) (key : String) : List ℚ≥0 :=
  (backend.hits.lookup key).getD []

def remembered (backend : InMemoryRateLimitBackend) (now : ℚ≥0) (key : String)
    (window_seconds : Int) : List ℚ≥0 :=
  recent moment (cutoff now window_seconds) (backend.bucket key)

def hit (backend : InMemoryRateLimitBackend) (now : ℚ≥0) (key : String)
    (limit window_seconds : Int) : InMemoryRateLimitBackend × Bool :=
  if limit ≤ (backend.remembered now key window_seconds).length then
    ({ hits := backend.hits.set key (backend.remembered now key window_seconds) }, false)
  else
    ({ hits := backend.hits.set key (backend.remembered now key window_seconds ++ [now]) }, true)

variable {backend : InMemoryRateLimitBackend} {now : ℚ≥0} {key other : String}
  {limit window_seconds : Int}

theorem hit_allows : (backend.hit now key limit window_seconds).2 =
    decide (((backend.remembered now key window_seconds).length : Int) < limit) := by
  unfold hit
  split
  case isTrue full => exact (decide_eq_false (not_lt.mpr full)).symm
  case isFalse free => exact (decide_eq_true (not_le.mp free)).symm

theorem hit_bucket_self : (backend.hit now key limit window_seconds).1.bucket key =
    backend.remembered now key window_seconds ++
      if (backend.hit now key limit window_seconds).2 then [now] else [] := by
  by_cases full : limit ≤ (backend.remembered now key window_seconds).length
  · unfold hit bucket
    rw [if_pos full, if_neg Bool.false_ne_true, Dict.lookup_set_self, List.append_nil]
    rfl
  · unfold hit bucket
    rw [if_neg full, if_pos rfl, Dict.lookup_set_self]
    rfl

theorem hit_bucket_of_ne (different : key ≠ other) :
    (backend.hit now key limit window_seconds).1.bucket other = backend.bucket other := by
  unfold hit bucket
  split
  · rw [Dict.lookup_set_of_ne _ _ different]
  · rw [Dict.lookup_set_of_ne _ _ different]

end InMemoryRateLimitBackend

/-! ### Redis -/

/-- The name of a member: `f"{now}:{uuid4()}"`. -/
structure HitName where
  now : ℚ≥0
  uuid : Nat
  deriving DecidableEq

structure HitSet where
  members : List (HitName × ℚ≥0)
  expireAt : Option ℚ
  deriving DecidableEq

namespace HitSet

def missing : HitSet where
  members := []
  expireAt := none

def visible (set : HitSet) (now : ℚ≥0) : HitSet :=
  match set.expireAt with
  | none => set
  | some last => if last < moment now then missing else set

def outside (set : HitSet) (low high : ℚ) : List (HitName × ℚ≥0) :=
  set.members.filter
    (fun member => !(decide (low ≤ moment member.2) && decide (moment member.2 ≤ high)))

def zremrangebyscore (set : HitSet) (low high : ℚ) : HitSet :=
  if (set.outside low high).isEmpty then missing
  else { set with members := set.outside low high }

def zadd (set : HitSet) (name : HitName) (score : ℚ≥0) : HitSet :=
  { set with members := set.members.filter (fun member => member.1 ≠ name) ++ [(name, score)] }

def zcard (set : HitSet) : Nat := set.members.length

/-- A time to live that is not positive removes the set. -/
def expire (set : HitSet) (now : ℚ≥0) (seconds : Int) : HitSet :=
  if seconds ≤ 0 then missing else { set with expireAt := some (moment now + seconds) }

def scores (set : HitSet) : List ℚ≥0 := set.members.map Prod.snd

@[simp] theorem scores_missing : missing.scores = [] := rfl

theorem scores_zremrangebyscore (set : HitSet) (high : ℚ) :
    (set.zremrangebyscore 0 high).scores = recent moment high set.scores := by
  have kept : (set.outside 0 high).map Prod.snd = recent moment high set.scores := by
    unfold recent scores outside
    rw [List.filter_map]
    refine congrArg (List.map Prod.snd) (List.filter_congr ?_)
    intro member _
    have begun : (0 : ℚ) ≤ moment member.2 := member.2.2
    rw [decide_eq_true begun, Bool.true_and, ← decide_not, Function.comp_apply]
    exact decide_eq_decide.mpr not_le
  unfold zremrangebyscore
  split
  case isTrue empty =>
    rw [List.isEmpty_iff.mp empty] at kept
    exact kept
  case isFalse => exact kept

theorem zadd_members (set : HitSet) {name : HitName} (fresh : ∀ member ∈ set.members, member.1 ≠ name)
    (score : ℚ≥0) : (set.zadd name score).members = set.members ++ [(name, score)] := by
  unfold zadd
  rw [List.filter_eq_self.mpr]
  intro member present
  exact decide_eq_true (fresh member present)

theorem expire_visible (set : HitSet) {now later : ℚ≥0} (window_seconds : Int) (risen : now ≤ later) :
    (set.expire now window_seconds).visible later =
        { set with expireAt := some (moment now + window_seconds) } ∨
      (set.expire now window_seconds).visible later = missing ∧
        moment now ≤ cutoff later window_seconds := by
  have ordered := moment_le risen
  unfold cutoff
  by_cases shut : window_seconds ≤ 0
  · have closed : (window_seconds : ℚ) ≤ 0 := by exact_mod_cast shut
    refine Or.inr ⟨?_, by linarith⟩
    unfold expire visible
    rw [if_pos shut]
    rfl
  · unfold expire visible
    rw [if_neg shut]
    by_cases gone : moment now + window_seconds < moment later
    · exact Or.inr ⟨if_pos gone, by linarith⟩
    · exact Or.inl (if_neg gone)

theorem mem_visible {set : HitSet} {now : ℚ≥0} {member : HitName × ℚ≥0}
    (found : member ∈ (set.visible now).members) : member ∈ set.members := by
  unfold visible at found
  split at found
  · exact found
  · split at found
    · cases found
    · exact found

theorem mem_zremrangebyscore {set : HitSet} {low high : ℚ} {member : HitName × ℚ≥0}
    (found : member ∈ (set.zremrangebyscore low high).members) : member ∈ set.members := by
  unfold zremrangebyscore at found
  split at found
  · cases found
  · exact List.mem_of_mem_filter found

theorem mem_expire {set : HitSet} {now : ℚ≥0} {seconds : Int} {member : HitName × ℚ≥0}
    (found : member ∈ (set.expire now seconds).members) : member ∈ set.members := by
  unfold expire at found
  split at found
  · cases found
  · exact found

end HitSet

/-- The server with the names drawn so far: `uuid4` repeats none. -/
structure RedisRateLimitBackend where
  sets : Dict String HitSet
  drawn : Nat
  deriving DecidableEq

namespace RedisRateLimitBackend

def rlKey (key : String) : String := "ratelimit:" ++ key

theorem rlKey_ne {key other : String} (different : key ≠ other) : rlKey key ≠ rlKey other := by
  intro same
  refine different (String.ext ?_)
  have spelled := congrArg String.toList same
  unfold rlKey at spelled
  rw [String.toList_append, String.toList_append] at spelled
  exact List.append_cancel_left spelled

def stored (backend : RedisRateLimitBackend) (key : String) : HitSet :=
  (backend.sets.lookup (rlKey key)).getD .missing

def pruned (backend : RedisRateLimitBackend) (now : ℚ≥0) (key : String) (window_seconds : Int) :
    HitSet :=
  ((backend.stored key).visible now).zremrangebyscore 0 (cutoff now window_seconds)

def counted (backend : RedisRateLimitBackend) (now : ℚ≥0) (key : String) (window_seconds : Int) :
    HitSet :=
  (backend.pruned now key window_seconds).zadd ⟨now, backend.drawn⟩ now

def hit (backend : RedisRateLimitBackend) (now : ℚ≥0) (key : String)
    (limit window_seconds : Int) : RedisRateLimitBackend × Bool :=
  ({ sets := backend.sets.set (rlKey key)
      ((backend.counted now key window_seconds).expire now window_seconds)
     drawn := backend.drawn + 1 },
   decide (((backend.counted now key window_seconds).zcard : Int) ≤ limit))

def Named (backend : RedisRateLimitBackend) : Prop :=
  ∀ key, ∀ member ∈ (backend.stored key).members, member.1.uuid < backend.drawn

variable {backend : RedisRateLimitBackend} {now : ℚ≥0} {key other : String}
  {limit window_seconds : Int}

theorem hit_stored_self : (backend.hit now key limit window_seconds).1.stored key =
    (backend.counted now key window_seconds).expire now window_seconds := by
  unfold hit stored
  rw [Dict.lookup_set_self]
  rfl

theorem hit_stored_of_ne (different : key ≠ other) :
    (backend.hit now key limit window_seconds).1.stored other = backend.stored other := by
  unfold hit stored
  rw [Dict.lookup_set_of_ne _ _ (rlKey_ne different)]

theorem mem_pruned {member : HitName × ℚ≥0}
    (found : member ∈ (backend.pruned now key window_seconds).members) :
    member ∈ (backend.stored key).members :=
  HitSet.mem_visible (HitSet.mem_zremrangebyscore found)

theorem counted_members (named : backend.Named) :
    (backend.counted now key window_seconds).members =
      (backend.pruned now key window_seconds).members ++ [(⟨now, backend.drawn⟩, now)] := by
  refine HitSet.zadd_members _ ?_ now
  intro member found same
  have drawn := named key member (mem_pruned found)
  rw [same] at drawn
  exact Nat.lt_irrefl _ drawn

theorem counted_scores (named : backend.Named) :
    (backend.counted now key window_seconds).scores =
      recent moment (cutoff now window_seconds) ((backend.stored key).visible now).scores ++
        [now] := by
  rw [← HitSet.scores_zremrangebyscore]
  unfold HitSet.scores
  rw [counted_members named, List.map_append]
  rfl

theorem hit_allows (named : backend.Named) : (backend.hit now key limit window_seconds).2 =
    decide (((recent moment (cutoff now window_seconds)
      ((backend.stored key).visible now).scores).length : Int) < limit) := by
  have counted : (backend.counted now key window_seconds).zcard =
      (recent moment (cutoff now window_seconds)
        ((backend.stored key).visible now).scores).length + 1 := by
    have listed := congrArg List.length (@counted_scores backend now key window_seconds named)
    rw [List.length_append, List.length_singleton] at listed
    rw [← listed]
    exact (List.length_map Prod.snd).symm
  unfold hit
  rw [counted]
  exact decide_eq_decide.mpr (by omega)

theorem Named.hit (named : backend.Named) (limit : Int) :
    (backend.hit now key limit window_seconds).1.Named := by
  intro asked member found
  by_cases same : key = asked
  · subst same
    rw [hit_stored_self] at found
    have listed := HitSet.mem_expire found
    rw [counted_members named] at listed
    rcases List.mem_append.mp listed with before | new
    · exact Nat.lt_succ_of_lt (named key member (mem_pruned before))
    · rw [List.mem_singleton.mp new]
      exact Nat.lt_succ_self _
  · rw [hit_stored_of_ne same] at found
    exact Nat.lt_succ_of_lt (named asked member found)

end RedisRateLimitBackend

/-! ### The same hits on both backends -/

structure RateRule where
  limit : Int
  window_seconds : Int
  deriving DecidableEq

structure RateAttempt where
  key : String
  now : ℚ≥0
  deriving DecidableEq

structure RateHit where
  key : String
  now : ℚ≥0
  inMemory : Bool
  inRedis : Bool
  deriving DecidableEq

structure RateBackends where
  memory : InMemoryRateLimitBackend
  redis : RedisRateLimitBackend
  last : ℚ≥0
  log : List RateHit
  deriving DecidableEq

namespace RateBackends

def start : RateBackends where
  memory := { hits := Dict.empty }
  redis := { sets := Dict.empty, drawn := 0 }
  last := 0
  log := []

def seen (state : RateBackends) (key : String) : List ℚ≥0 :=
  (state.log.filter (fun hit => hit.key = key)).map RateHit.now

def admitted (state : RateBackends) (key : String) : List ℚ≥0 :=
  (state.log.filter (fun hit => decide (hit.key = key) && hit.inMemory)).map RateHit.now

variable (rules : String → RateRule)

def askMemory (state : RateBackends) (attempt : RateAttempt) : InMemoryRateLimitBackend × Bool :=
  state.memory.hit attempt.now attempt.key (rules attempt.key).limit
    (rules attempt.key).window_seconds

def askRedis (state : RateBackends) (attempt : RateAttempt) : RedisRateLimitBackend × Bool :=
  state.redis.hit attempt.now attempt.key (rules attempt.key).limit
    (rules attempt.key).window_seconds

def hit (state : RateBackends) (attempt : RateAttempt) : RateBackends where
  memory := (state.askMemory rules attempt).1
  redis := (state.askRedis rules attempt).1
  last := attempt.now
  log := state.log ++ [⟨attempt.key, attempt.now, (state.askMemory rules attempt).2,
    (state.askRedis rules attempt).2⟩]

def Step (state : RateBackends) (attempt : RateAttempt) (next : RateBackends) : Prop :=
  state.last ≤ attempt.now ∧ next = state.hit rules attempt

def Agree (state : RateBackends) : Prop := ∀ hit ∈ state.log, hit.inMemory = hit.inRedis

def inWindow (attempt : RateAttempt) (hits : List ℚ≥0) : List ℚ≥0 :=
  recent moment (cutoff attempt.now (rules attempt.key).window_seconds) hits

/-- The allowed hits of the window fill the limit, or all its hits, denied ones among them, stay
below it. -/
def Settled (state : RateBackends) (attempt : RateAttempt) : Prop :=
  (rules attempt.key).limit ≤ (inWindow rules attempt (state.admitted attempt.key)).length ∨
    ((inWindow rules attempt (state.seen attempt.key)).length : Int) < (rules attempt.key).limit

structure Recorded (state : RateBackends) : Prop where
  named : state.redis.Named
  past : ∀ hit ∈ state.log, hit.now ≤ state.last
  remembered : ∀ attempt : RateAttempt, state.last ≤ attempt.now →
    state.memory.remembered attempt.now attempt.key (rules attempt.key).window_seconds =
      inWindow rules attempt (state.admitted attempt.key)
  kept : ∀ attempt : RateAttempt, state.last ≤ attempt.now →
    inWindow rules attempt ((state.redis.stored attempt.key).visible attempt.now).scores =
      inWindow rules attempt (state.seen attempt.key)

variable {rules} {state next : RateBackends} {attempt : RateAttempt} {key : String}

theorem Recorded.start : Recorded rules .start where
  named := fun _ _ member => by cases member
  past := fun _ member => by cases member
  remembered := fun _ _ => rfl
  kept := fun _ _ => rfl

theorem seen_hit_self : (state.hit rules attempt).seen attempt.key =
    state.seen attempt.key ++ [attempt.now] := by
  unfold seen hit
  rw [List.filter_append, List.map_append]
  simp

theorem seen_hit_of_ne (different : attempt.key ≠ key) :
    (state.hit rules attempt).seen key = state.seen key := by
  unfold seen hit
  rw [List.filter_append, List.map_append]
  simp [different]

theorem admitted_hit_self : (state.hit rules attempt).admitted attempt.key =
    state.admitted attempt.key ++
      if (state.askMemory rules attempt).2 then [attempt.now] else [] := by
  unfold admitted hit
  rw [List.filter_append, List.map_append]
  by_cases allowed : (state.askMemory rules attempt).2
  · simp [allowed]
  · simp [allowed]

theorem admitted_hit_of_ne (different : attempt.key ≠ key) :
    (state.hit rules attempt).admitted key = state.admitted key := by
  unfold admitted hit
  rw [List.filter_append, List.map_append]
  simp [different]

section

variable (recorded : Recorded rules state)
include recorded

theorem Recorded.remembered_hit (forward : state.last ≤ attempt.now) (later : RateAttempt)
    (same : attempt.key = later.key) (risen : attempt.now ≤ later.now) :
    (state.hit rules attempt).memory.remembered later.now later.key
        (rules later.key).window_seconds =
      inWindow rules later ((state.hit rules attempt).admitted later.key) := by
  have before := recorded.remembered later (le_trans forward risen)
  have bound := cutoff_le risen (rules later.key).window_seconds
  unfold InMemoryRateLimitBackend.remembered at before ⊢
  rw [← same] at before bound ⊢
  rw [admitted_hit_self]
  unfold inWindow at before ⊢
  rw [← same] at before ⊢
  rw [recent_append, ← before]
  change recent moment _ ((state.askMemory rules attempt).1.bucket attempt.key) = _
  unfold askMemory
  rw [InMemoryRateLimitBackend.hit_bucket_self, recent_append]
  unfold InMemoryRateLimitBackend.remembered
  rw [recent_recent bound]

theorem Recorded.kept_hit (forward : state.last ≤ attempt.now) (later : RateAttempt)
    (same : attempt.key = later.key) (risen : attempt.now ≤ later.now) :
    inWindow rules later
        (((state.hit rules attempt).redis.stored later.key).visible later.now).scores =
      inWindow rules later ((state.hit rules attempt).seen later.key) := by
  have before := recorded.kept attempt forward
  have bound := cutoff_le risen (rules attempt.key).window_seconds
  unfold inWindow at before ⊢
  rw [← same, seen_hit_self]
  change recent moment _ (((state.askRedis rules attempt).1.stored attempt.key).visible _).scores = _
  unfold askRedis
  rw [RedisRateLimitBackend.hit_stored_self]
  rcases HitSet.expire_visible (state.redis.counted attempt.now attempt.key
      (rules attempt.key).window_seconds) (rules attempt.key).window_seconds risen with
    alive | ⟨gone, shut⟩
  · rw [alive]
    change recent moment _ (HitSet.scores (state.redis.counted _ _ _)) = _
    rw [RedisRateLimitBackend.counted_scores recorded.named, recent_append, recent_append,
      recent_recent bound, recent_congr bound before]
  · rw [gone, HitSet.scores_missing]
    refine (recent_eq_nil ?_).symm
    intro time member
    rcases List.mem_append.mp member with earlier | new
    · obtain ⟨hit, listed, timed⟩ := List.mem_map.mp earlier
      have past := recorded.past hit (List.mem_of_mem_filter listed)
      rw [← timed]
      exact le_trans (moment_le (le_trans past forward)) shut
    · rw [List.mem_singleton.mp new]
      exact shut

theorem Recorded.step (taken : Step rules state attempt next) : Recorded rules next := by
  obtain ⟨forward, rfl⟩ := taken
  refine { named := ?_, past := ?_, remembered := ?_, kept := ?_ }
  · exact recorded.named.hit (rules attempt.key).limit
  · intro hit member
    rcases List.mem_append.mp member with earlier | new
    · exact le_trans (recorded.past hit earlier) forward
    · rw [List.mem_singleton.mp new]
      exact le_refl attempt.now
  · intro later risen
    by_cases same : attempt.key = later.key
    · exact recorded.remembered_hit forward later same risen
    · rw [admitted_hit_of_ne same, ← recorded.remembered later (le_trans forward risen)]
      unfold InMemoryRateLimitBackend.remembered
      exact congrArg _ (InMemoryRateLimitBackend.hit_bucket_of_ne same)
  · intro later risen
    by_cases same : attempt.key = later.key
    · exact recorded.kept_hit forward later same risen
    · rw [seen_hit_of_ne same, ← recorded.kept later (le_trans forward risen)]
      change inWindow rules later (((state.askRedis rules attempt).1.stored _).visible _).scores = _
      unfold askRedis
      rw [RedisRateLimitBackend.hit_stored_of_ne same]

theorem Recorded.allowed_in_memory (forward : state.last ≤ attempt.now) :
    (state.askMemory rules attempt).2 =
      decide (((inWindow rules attempt (state.admitted attempt.key)).length : Int) <
        (rules attempt.key).limit) := by
  unfold askMemory
  rw [InMemoryRateLimitBackend.hit_allows, recorded.remembered attempt forward]

theorem Recorded.allowed_in_redis (forward : state.last ≤ attempt.now) :
    (state.askRedis rules attempt).2 =
      decide (((inWindow rules attempt (state.seen attempt.key)).length : Int) <
        (rules attempt.key).limit) := by
  unfold askRedis
  rw [RedisRateLimitBackend.hit_allows recorded.named, ← recorded.kept attempt forward]
  rfl

end

theorem admitted_sublist (state : RateBackends) (key : String) :
    (state.admitted key).Sublist (state.seen key) := by
  refine List.Sublist.map RateHit.now ?_
  refine List.monotone_filter_right state.log ?_
  intro hit both
  exact (Bool.and_eq_true_iff.mp both).1

theorem admitted_length_le (rules : String → RateRule) (state : RateBackends) (attempt : RateAttempt) :
    (inWindow rules attempt (state.admitted attempt.key)).length ≤
      (inWindow rules attempt (state.seen attempt.key)).length :=
  (recent_sublist _ (admitted_sublist state attempt.key)).length_le

theorem agree_hit : Agree (state.hit rules attempt) ↔ Agree state ∧
    (state.askMemory rules attempt).2 = (state.askRedis rules attempt).2 := by
  constructor
  · intro agree
    exact ⟨fun hit member => agree hit (List.mem_append_left _ member),
      agree ⟨_, _, _, _⟩ (List.mem_append_right _ (List.mem_singleton_self _))⟩
  · rintro ⟨earlier, same⟩ hit member
    rcases List.mem_append.mp member with before | new
    · exact earlier hit before
    · rw [List.mem_singleton.mp new]
      exact same

theorem Recorded.agree_iff (recorded : Recorded rules state)
    (taken : Step rules state attempt next) :
    Agree next ↔ Agree state ∧ Settled rules state attempt := by
  obtain ⟨forward, rfl⟩ := taken
  have fewer := admitted_length_le rules state attempt
  rw [agree_hit, recorded.allowed_in_memory forward, recorded.allowed_in_redis forward,
    decide_eq_decide]
  unfold Settled
  refine and_congr_right ?_
  intro _
  omega

/-- Both backends give every hit of a timeline one answer exactly when, at each hit, the denied
hits of its window make no difference. -/
theorem backends_agree_iff {attempts : List RateAttempt} {last : RateBackends}
    (run : Run (Step rules) .start attempts last) :
    (∀ hit ∈ last.log, hit.inMemory = hit.inRedis) ↔
      Run (fun state attempt next => Step rules state attempt next ∧ Settled rules state attempt)
        .start attempts last :=
  run.guarded_iff (Recorded rules) Agree (Settled rules) Recorded.start
    (fun _ _ _ recorded taken => recorded.step taken) (fun _ member => by cases member)
    (fun _ _ _ recorded taken => recorded.agree_iff taken)

end RateBackends

/-! ### One hit a minute -/

namespace RateBackends

def onePerMinute : String → RateRule := fun _ => ⟨1, 60⟩

def atSeconds (seconds : List ℚ≥0) : List RateAttempt :=
  seconds.map (fun now => ⟨"org:1", now⟩)

instance (state : RateBackends) (attempt : RateAttempt) :
    Decidable (Settled onePerMinute state attempt) :=
  inferInstanceAs (Decidable (_ ∨ _))

instance (state : RateBackends) : Decidable (Agree state) :=
  inferInstanceAs (Decidable (∀ hit ∈ state.log, hit.inMemory = hit.inRedis))

def hitAt (state : RateBackends) (attempt : RateAttempt) : Option RateBackends :=
  if state.last ≤ attempt.now then some (state.hit onePerMinute attempt) else none

theorem Step.of_hitAt {state next : RateBackends} {attempt : RateAttempt}
    (taken : hitAt state attempt = some next) : Step onePerMinute state attempt next := by
  simp only [hitAt, Option.ite_none_right_eq_some] at taken
  exact ⟨taken.1, (Option.some.inj taken.2).symm⟩

/-- A denied hit has left the window when the next one comes. -/
theorem backends_agree_iff_waiting : ∃ last,
    Run (Step onePerMinute) .start (atSeconds [0, 30, 95]) last ∧
      ∀ hit ∈ last.log, hit.inMemory = hit.inRedis := by
  obtain ⟨last, reached, -⟩ := Run.of_guardedStep hitAt (Settled onePerMinute) .start
    (atSeconds [0, 30, 95]) (fun _ => ()) () (by decide +kernel)
  have settled : Run (fun state attempt next => Step onePerMinute state attempt next ∧
      Settled onePerMinute state attempt) .start (atSeconds [0, 30, 95]) last :=
    reached.mono (fun _ _ _ both => ⟨.of_hitAt both.1, both.2⟩)
  have run := settled.mono (fun _ _ _ step => step.1)
  exact ⟨last, run, (backends_agree_iff run).mpr settled⟩

/-- In memory the allowed hit has left the window, in Redis the denied one has not. -/
theorem backends_disagree : ∃ last,
    Run (Step onePerMinute) .start (atSeconds [0, 30, 61]) last ∧
      ¬ ∀ hit ∈ last.log, hit.inMemory = hit.inRedis := by
  obtain ⟨last, reached, disagree⟩ := Run.of_foldlM_map hitAt .start (atSeconds [0, 30, 61])
    (fun last => decide (Agree last)) false (by decide +kernel)
  exact ⟨last, reached.mono (fun _ _ _ => Step.of_hitAt), of_decide_eq_false disagree⟩

end RateBackends
end Assemblix.Limits
