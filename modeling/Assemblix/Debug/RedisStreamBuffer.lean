import Mathlib.Data.List.Perm.Basic
import Assemblix.Debug.StreamBuffer
import Assemblix.Library.TrimmedLog

/-
The stream buffer kept in Redis.

An append is two commands: one takes the number, the other adds the entry to one of two
streams. A subscriber reads the kept part of the one stream and then of the other, and after
that batches of both; it remembers the entry ids, not the numbers. When no entry is stored or
left behind below a number that a subscriber has in hand, every client is given the events in
order and without gaps, over all its connections.
-/

namespace Assemblix.Debug

open Library
open Library.CursorReader

variable {X : Type}

inductive StreamKey
  | events
  | audio
  deriving DecidableEq

/-- `appending` are the calls that have a number and have not added their entry yet. -/
structure RedisStreamBuffer (X : Type) where
  seq : Nat
  streams : StreamKey → TrimmedLog (StreamEvent X)
  appending : List (StreamKey × StreamEvent X)

def StreamLimits.maxlen (limits : StreamLimits) : StreamKey → Nat
  | .events => limits.maxEvents
  | .audio => limits.audioMaxChunks

/-- `count` of the batch reads. -/
def readCount : Nat := 100

/-- `ev.seq > after_seq`. -/
def past (afterSeq : Int) (entries : List (StreamEvent X)) : List (StreamEvent X) :=
  entries.filter (fun event => afterSeq < event.seq)

namespace RedisStreamBuffer

def empty : RedisStreamBuffer X where
  seq := 0
  streams := fun _ => .empty
  appending := []

/-- The first command of `append` and of `append_transient`. -/
def incr (buffer : RedisStreamBuffer X) (key : StreamKey) (event : DebugEvent X) :
    RedisStreamBuffer X :=
  { buffer with
    seq := buffer.seq + 1
    appending := buffer.appending ++ [(key, { event with seq := buffer.seq + 1 })] }

/-- An approximate `maxlen` never trims below the limit. -/
def mayTrim (maxlen : Nat) (stream : TrimmedLog (StreamEvent X)) (trimmed : Nat) : Bool :=
  stream.trimmed ≤ trimmed &&
    (trimmed = stream.trimmed || trimmed + maxlen ≤ stream.added.length + 1)

/-- The second command. -/
def xadd (buffer : RedisStreamBuffer X) (index trimmed : Nat) (key : StreamKey)
    (event : StreamEvent X) : RedisStreamBuffer X :=
  { buffer with
    streams := Function.update buffer.streams key ((buffer.streams key).push event trimmed)
    appending := buffer.appending.eraseIdx index }

def xread (buffer : RedisStreamBuffer X) (last : StreamKey → Nat) : List (StreamEvent X) :=
  (buffer.streams .events).read readCount (last .events) ++
    (buffer.streams .audio).read readCount (last .audio)

def xreadIds (buffer : RedisStreamBuffer X) (last : StreamKey → Nat) : StreamKey → Nat :=
  fun key => (buffer.streams key).readId readCount (last key)

/-- Everything kept after the entries a reader has seen. -/
def unread (buffer : RedisStreamBuffer X) (last : StreamKey → Nat) : List (StreamEvent X) :=
  (buffer.streams .events).after (last .events) ++ (buffer.streams .audio).after (last .audio)

end RedisStreamBuffer

/-! ### Clients -/

/-- How far `subscribe` is: before the first read of a stream, between the two, or at a `yield`
with the rest of what it has sorted. -/
inductive SubscribePhase (X : Type)
  | connecting
  | replaying (replay : List (StreamEvent X))
  | yielding (rest : List (StreamEvent X))
  | returned
  deriving DecidableEq

/-- A client over all its connections: the cursor of its first one and everything it has
received, and the `subscribe` call of the current one. -/
structure StreamClient (X : Type) where
  origin : Int
  received : List (StreamEvent X)
  afterSeq : Int
  last : StreamKey → Nat
  phase : SubscribePhase X

namespace StreamClient

def connect (afterSeq : Int) : StreamClient X where
  origin := afterSeq
  received := []
  afterSeq := afterSeq
  last := fun _ => 0
  phase := .connecting

def cursor (client : StreamClient X) : Int :=
  match client.received.getLast? with
  | some event => event.seq
  | none => client.origin

def reconnect (client : StreamClient X) : StreamClient X :=
  { client with
    afterSeq := client.cursor
    last := fun _ => 0
    phase := .connecting }

def lastAfter (buffer : RedisStreamBuffer X) (client : StreamClient X) (key : StreamKey) :
    StreamKey → Nat :=
  Function.update client.last key ((buffer.streams key).lastId (client.last key))

def replayed (buffer : RedisStreamBuffer X) (client : StreamClient X)
    (replay : List (StreamEvent X)) : List (StreamEvent X) :=
  replay ++ past client.afterSeq (buffer.streams .audio).retained

def yieldEvent (client : StreamClient X) (event : StreamEvent X)
    (rest : List (StreamEvent X)) : StreamClient X :=
  { client with
    received := client.received ++ [event]
    phase := if event.terminal then .returned else .yielding rest }

/-- The next command of `subscribe`, or its next `yield`; `none` while a batch read blocks. -/
def advance (buffer : RedisStreamBuffer X) (client : StreamClient X) :
    Option (StreamClient X) :=
  match client.phase with
  | .connecting =>
      some
        { client with
          last := client.lastAfter buffer .events
          phase := .replaying (past client.afterSeq (buffer.streams .events).retained) }
  | .replaying replay =>
      some
        { client with
          last := client.lastAfter buffer .audio
          phase := .yielding (sorted StreamEvent.seq (client.replayed buffer replay)) }
  | .yielding (event :: rest) => some (client.yieldEvent event rest)
  | .yielding [] =>
      if (buffer.xread client.last).isEmpty then none
      else
        some
          { client with
            last := buffer.xreadIds client.last
            phase := .yielding (sorted StreamEvent.seq
              (past client.afterSeq (buffer.xread client.last))) }
  | .returned => none

def inHand (client : StreamClient X) : List (StreamEvent X) :=
  match client.phase with
  | .yielding rest => client.received ++ rest
  | _ => client.received

end StreamClient

/-! ### Runs -/

structure RedisRun (X : Type) where
  buffer : RedisStreamBuffer X
  clients : List (StreamClient X)

inductive RedisAction (X : Type)
  | incr (key : StreamKey) (event : DebugEvent X)
  | xadd (index trimmed : Nat)
  | connect (afterSeq : Int)
  | advance (index : Nat)
  | reconnect (index : Nat)

namespace RedisRun

def initial : RedisRun X where
  buffer := .empty
  clients := []

/-- One command of a writer or a subscriber, or one event given to a client. -/
def step (limits : StreamLimits) (run : RedisRun X) : RedisAction X → Option (RedisRun X)
  | .incr key event => some { run with buffer := run.buffer.incr key event }
  | .xadd index trimmed =>
      match run.buffer.appending[index]? with
      | none => none
      | some (key, event) =>
          if RedisStreamBuffer.mayTrim (limits.maxlen key) (run.buffer.streams key) trimmed then
            some { run with buffer := run.buffer.xadd index trimmed key event }
          else none
  | .connect afterSeq => some { run with clients := run.clients ++ [.connect afterSeq] }
  | .advance index =>
      match run.clients[index]? with
      | none => none
      | some client =>
          (client.advance run.buffer).map (fun advanced =>
            { run with clients := run.clients.set index advanced })
  | .reconnect index =>
      match run.clients[index]? with
      | none => none
      | some client => some { run with clients := run.clients.set index client.reconnect }

def Step (limits : StreamLimits) (run : RedisRun X) (action : RedisAction X)
    (next : RedisRun X) : Prop :=
  run.step limits action = some next

end RedisRun

/-! ### In order and without gaps -/

def RedisStreamBuffer.Retains (buffer : RedisStreamBuffer X) (event : StreamEvent X) : Prop :=
  ∃ key, event ∈ (buffer.streams key).retained

/-- In order and without repetition; stored events past the origin; every retained event up to
the cursor; and every retained event, once a batch read blocks. -/
structure StreamClient.InSequence (buffer : RedisStreamBuffer X) (client : StreamClient X) :
    Prop where
  increasing : InOrder StreamEvent.seq client.received
  own : ∀ event ∈ client.received,
    client.origin < event.seq ∧ ∃ key, event ∈ (buffer.streams key).added
  gapless : ∀ event, buffer.Retains event → client.origin < event.seq →
    (event.seq : Int) ≤ client.cursor → event ∈ client.received
  all : client.phase = .yielding [] → client.advance buffer = none →
    ∀ event, buffer.Retains event → client.origin < event.seq → event ∈ client.received

namespace StreamClient

/-- The entries of a finished replay or of a batch; single-stream reads of a replay are not
sorted yet. -/
def taken (buffer : RedisStreamBuffer X) (client : StreamClient X) : List (StreamEvent X) :=
  match client.phase with
  | .replaying replay => client.replayed buffer replay
  | .yielding [] => past client.afterSeq (buffer.xread client.last)
  | _ => []

/-- The entries they leave behind. -/
def left (buffer : RedisStreamBuffer X) (client : StreamClient X) : List (StreamEvent X) :=
  match client.phase with
  | .replaying _ => past client.afterSeq (buffer.unread (client.lastAfter buffer .audio))
  | .yielding [] => past client.afterSeq (buffer.unread (buffer.xreadIds client.last))
  | _ => []

def ReadsInSequence (buffer : RedisStreamBuffer X) (client : StreamClient X) : Prop :=
  ∀ taken ∈ client.taken buffer, ∀ left ∈ client.left buffer, taken.seq < left.seq

end StreamClient

/-- An entry is added before any client that is owed it has a larger number in hand, and no read
leaves a smaller number behind than it takes. -/
def RedisRun.KeepsSequence (run : RedisRun X) : RedisAction X → Prop
  | .xadd index _ =>
      ∀ entry ∈ run.buffer.appending[index]?,
        ∀ client ∈ run.clients, client.origin < entry.2.seq →
          ∀ other ∈ client.inHand, other.seq < entry.2.seq
  | .advance index => ∀ client ∈ run.clients[index]?, client.ReadsInSequence run.buffer
  | _ => True

instance (run : RedisRun X) : (action : RedisAction X) → Decidable (run.KeepsSequence action)
  | .incr _ _ => inferInstanceAs (Decidable True)
  | .xadd index _ => inferInstanceAs (Decidable (∀ entry ∈ run.buffer.appending[index]?,
      ∀ client ∈ run.clients, client.origin < entry.2.seq →
        ∀ other ∈ client.inHand, other.seq < entry.2.seq))
  | .connect _ => inferInstanceAs (Decidable True)
  | .advance index => inferInstanceAs (Decidable (∀ client ∈ run.clients[index]?,
      ∀ taken ∈ client.taken run.buffer, ∀ left ∈ client.left run.buffer, taken.seq < left.seq))
  | .reconnect _ => inferInstanceAs (Decidable True)

def RedisRun.SequencedStep (limits : StreamLimits) (run : RedisRun X) (action : RedisAction X)
    (next : RedisRun X) : Prop :=
  run.Step limits action next ∧ run.KeepsSequence action

/-! ### The numbers -/

namespace RedisStreamBuffer

def issued (buffer : RedisStreamBuffer X) : List (StreamEvent X) :=
  (buffer.streams .events).added ++ (buffer.streams .audio).added ++
    buffer.appending.map Prod.snd

structure Numbered (buffer : RedisStreamBuffer X) : Prop where
  distinct : (buffer.issued.map StreamEvent.seq).Nodup
  bound : ∀ event ∈ buffer.issued, event.seq ≤ buffer.seq

variable {buffer : RedisStreamBuffer X} {key : StreamKey} {event : StreamEvent X}
  {index trimmed : Nat}

theorem empty_numbered : (empty : RedisStreamBuffer X).Numbered where
  distinct := List.nodup_nil
  bound := by
    intro event member
    cases member

theorem Numbered.incr (numbered : buffer.Numbered) (key : StreamKey) (event : DebugEvent X) :
    (buffer.incr key event).Numbered := by
  let fresh : StreamEvent X := { event with seq := buffer.seq + 1 }
  have listed : (buffer.incr key event).issued = buffer.issued ++ [fresh] := by
    unfold issued RedisStreamBuffer.incr
    rw [List.map_append, ← List.append_assoc]
    rfl
  constructor
  · rw [listed, List.map_append, List.nodup_append]
    refine ⟨numbered.distinct, List.nodup_singleton _, ?_⟩
    intro number member other last same
    obtain ⟨old, present, rfl⟩ := List.mem_map.mp member
    have bound := numbered.bound old present
    rw [List.mem_singleton.mp last] at same
    change old.seq = buffer.seq + 1 at same
    omega
  · intro other member
    rw [listed] at member
    change other.seq ≤ buffer.seq + 1
    rcases List.mem_append.mp member with old | last
    · exact Nat.le_succ_of_le (numbered.bound other old)
    · rw [List.mem_singleton.mp last]

theorem xadd_issued (found : buffer.appending[index]? = some (key, event)) :
    (buffer.xadd index trimmed key event).issued.Perm buffer.issued := by
  obtain ⟨inside, same⟩ := List.getElem?_eq_some_iff.mp found
  have removed : (event :: (buffer.appending.eraseIdx index).map Prod.snd).Perm
      (buffer.appending.map Prod.snd) := by
    have perm := (List.getElem_cons_eraseIdx_perm inside).map Prod.snd
    rw [same] at perm
    exact perm
  cases key with
  | events =>
      change (((buffer.streams .events).added ++ [event]) ++ (buffer.streams .audio).added ++
        (buffer.appending.eraseIdx index).map Prod.snd).Perm _
      unfold issued
      rw [List.append_assoc, List.append_assoc, List.append_assoc]
      exact ((List.perm_append_comm_assoc [event] _ _).trans (removed.append_left _)).append_left _
  | audio =>
      change ((buffer.streams .events).added ++ ((buffer.streams .audio).added ++ [event]) ++
        (buffer.appending.eraseIdx index).map Prod.snd).Perm _
      unfold issued
      rw [List.append_assoc, List.append_assoc, List.append_assoc]
      exact (removed.append_left _).append_left _

theorem Numbered.xadd (numbered : buffer.Numbered)
    (found : buffer.appending[index]? = some (key, event)) :
    (buffer.xadd index trimmed key event).Numbered := by
  have moved : (buffer.xadd index trimmed key event).issued.Perm buffer.issued := xadd_issued found
  constructor
  · exact (moved.map _).nodup_iff.mpr numbered.distinct
  · intro other member
    exact numbered.bound other (moved.mem_iff.mp member)

theorem Numbered.added_distinct (numbered : buffer.Numbered) :
    (((buffer.streams .events).added ++ (buffer.streams .audio).added).map
      StreamEvent.seq).Nodup := by
  have distinct := numbered.distinct
  unfold issued at distinct
  rw [List.map_append] at distinct
  exact (List.nodup_append.mp distinct).1

end RedisStreamBuffer

/-! ### What a reader sees of an added entry -/

section Adding

variable {buffer : RedisStreamBuffer X} {key : StreamKey} {event item : StreamEvent X}
  {index trimmed : Nat} {last : StreamKey → Nat}

theorem mem_unread : item ∈ buffer.unread last ↔ ∃ key, item ∈ (buffer.streams key).after (last key) := by
  unfold RedisStreamBuffer.unread
  rw [List.mem_append]
  constructor
  · rintro (event | audio)
    · exact ⟨.events, event⟩
    · exact ⟨.audio, audio⟩
  · rintro ⟨key, member⟩
    cases key with
    | events => exact Or.inl member
    | audio => exact Or.inr member

theorem mem_xread : item ∈ buffer.xread last ↔
    ∃ key, item ∈ (buffer.streams key).read readCount (last key) := by
  unfold RedisStreamBuffer.xread
  rw [List.mem_append]
  constructor
  · rintro (event | audio)
    · exact ⟨.events, event⟩
    · exact ⟨.audio, audio⟩
  · rintro ⟨key, member⟩
    cases key with
    | events => exact Or.inl member
    | audio => exact Or.inr member

theorem xread_unread (read : item ∈ buffer.xread last) : item ∈ buffer.unread last := by
  obtain ⟨key, member⟩ := mem_xread.mp read
  exact mem_unread.mpr ⟨key, List.mem_of_mem_take member⟩

theorem xadd_streams_self : (buffer.xadd index trimmed key event).streams key =
    (buffer.streams key).push event trimmed := Function.update_self _ _ _

theorem xadd_streams_other {other : StreamKey} (apart : other ≠ key) :
    (buffer.xadd index trimmed key event).streams other = buffer.streams other :=
  Function.update_of_ne apart _ _

theorem mem_xadd_after (trims : (buffer.streams key).trimmed ≤ trimmed) {other : StreamKey}
    {id : Nat} (member : item ∈ ((buffer.xadd index trimmed key event).streams other).after id) :
    item ∈ (buffer.streams other).after id ∨ item = event := by
  by_cases same : other = key
  · subst same
    rw [xadd_streams_self] at member
    exact TrimmedLog.mem_push_after trims member
  · rw [xadd_streams_other same] at member
    exact Or.inl member

theorem xadd_retains (trims : (buffer.streams key).trimmed ≤ trimmed)
    (retained : (buffer.xadd index trimmed key event).Retains item) :
    buffer.Retains item ∨ item = event := by
  obtain ⟨other, member⟩ := retained
  rcases mem_xadd_after trims member with old | new
  · exact Or.inl ⟨other, old⟩
  · exact Or.inr new

theorem added_xadd {other : StreamKey} (member : item ∈ (buffer.streams other).added) :
    item ∈ ((buffer.xadd index trimmed key event).streams other).added := by
  by_cases same : other = key
  · subst same
    rw [xadd_streams_self]
    exact List.mem_append_left _ member
  · rw [xadd_streams_other same]
    exact member

theorem length_added_xadd (other : StreamKey) : (buffer.streams other).added.length ≤
    ((buffer.xadd index trimmed key event).streams other).added.length := by
  by_cases same : other = key
  · subst same
    rw [xadd_streams_self]
    exact (List.prefix_append _ _).length_le
  · rw [xadd_streams_other same]

theorem xadd_unread {other : StreamKey} {id : Nat}
    (unread : item ∈ (buffer.streams other).after id)
    (kept : item ∈ ((buffer.xadd index trimmed key event).streams other).retained) :
    item ∈ ((buffer.xadd index trimmed key event).streams other).after id := by
  by_cases same : other = key
  · subst same
    rw [xadd_streams_self] at kept ⊢
    exact TrimmedLog.push_unread unread kept
  · rw [xadd_streams_other same] at kept ⊢
    exact unread

theorem xadd_kept (trims : (buffer.streams key).trimmed ≤ trimmed) {other : StreamKey} {id : Nat}
    (bound : id ≤ (buffer.streams other).added.length)
    (kept : item ∈ ((buffer.xadd index trimmed key event).streams other).retained) :
    item ∈ (buffer.streams other).retained ∨
      item ∈ ((buffer.xadd index trimmed key event).streams other).after id := by
  by_cases same : other = key
  · subst same
    rw [xadd_streams_self] at kept ⊢
    rcases TrimmedLog.mem_push_retained trims kept with old | rfl
    · exact Or.inl old
    · exact Or.inr (TrimmedLog.push_entry_unread bound kept)
  · rw [xadd_streams_other same] at kept
    exact Or.inl kept

end Adding

/-! ### The clients -/

/-- Between the two reads of a replay: the event entries past the cursor are in the replay or
not read yet. -/
structure StreamClient.Replaying (buffer : RedisStreamBuffer X) (client : StreamClient X)
    (replay : List (StreamEvent X)) : Prop where
  fresh : client.afterSeq = client.cursor
  entries : replay.Sublist (buffer.streams .events).added
  past : ∀ event ∈ replay, client.afterSeq < event.seq
  read : ∀ event ∈ (buffer.streams .events).retained, client.afterSeq < event.seq →
    event ∈ replay ∨ event ∈ (buffer.streams .events).after (client.last .events)

/-- At a `yield`: what is left of the batch is in order and past the cursor, and what is not
read yet comes later. -/
structure StreamClient.Yielding (buffer : RedisStreamBuffer X) (client : StreamClient X)
    (rest : List (StreamEvent X)) : Prop where
  inOrder : InOrder StreamEvent.seq rest
  past : ∀ event ∈ rest, client.cursor < event.seq
  own : ∀ event ∈ rest, ∃ key, event ∈ (buffer.streams key).added
  read : ∀ key, ∀ event ∈ (buffer.streams key).retained, client.cursor < event.seq →
    event ∈ rest ∨ event ∈ (buffer.streams key).after (client.last key)
  later : ∀ event ∈ buffer.unread client.last, client.afterSeq < event.seq →
    client.cursor < event.seq ∧ ∀ other ∈ rest, other.seq < event.seq

structure StreamClient.Sound (buffer : RedisStreamBuffer X) (client : StreamClient X) : Prop where
  caughtUp : CaughtUp StreamEvent.seq buffer.Retains client.origin client.cursor client.received
  own : ∀ event ∈ client.received, ∃ key, event ∈ (buffer.streams key).added
  since : client.origin ≤ client.afterSeq ∧ client.afterSeq ≤ client.cursor
  seen : ∀ key, client.last key ≤ (buffer.streams key).added.length
  connecting : client.phase = .connecting → client.afterSeq = client.cursor
  replaying : ∀ replay, client.phase = .replaying replay → client.Replaying buffer replay
  yielding : ∀ rest, client.phase = .yielding rest → client.Yielding buffer rest

section Clients

variable {buffer : RedisStreamBuffer X} {client advanced : StreamClient X} {key : StreamKey}
  {event : StreamEvent X} {rest replay : List (StreamEvent X)} {index trimmed : Nat}

theorem cursor_yieldEvent (event : StreamEvent X) (rest : List (StreamEvent X)) :
    (client.yieldEvent event rest).cursor = event.seq := by
  unfold StreamClient.cursor StreamClient.yieldEvent
  dsimp only
  rw [List.getLast?_append, List.getLast?_singleton]
  rfl

theorem mem_past {afterSeq : Int} {entries : List (StreamEvent X)} :
    event ∈ past afterSeq entries ↔ event ∈ entries ∧ afterSeq < event.seq := by
  unfold past
  rw [List.mem_filter, decide_eq_true_iff]

theorem connect_sound (afterSeq : Int) : (StreamClient.connect afterSeq).Sound buffer where
  caughtUp := CaughtUp.begun _ _ _
  own := by
    intro event member
    cases member
  since := ⟨Int.le_refl _, Int.le_refl _⟩
  seen := fun _ => Nat.zero_le _
  connecting := fun _ => rfl
  replaying := by
    intro replay impossible
    cases impossible
  yielding := by
    intro rest impossible
    cases impossible

theorem mem_inHand (received : event ∈ client.received) : event ∈ client.inHand := by
  unfold StreamClient.inHand
  split
  case h_1 => exact List.mem_append_left _ received
  case h_2 => exact received

theorem cursor_lt (owed : client.origin < event.seq)
    (larger : ∀ other ∈ client.received, other.seq < event.seq) : client.cursor < event.seq := by
  unfold StreamClient.cursor
  split
  case h_1 last found =>
    exact Int.ofNat_lt.mpr (larger last (List.mem_of_getLast? found))
  case h_2 => exact owed

namespace StreamClient.Sound

section

variable (sound : client.Sound buffer)
include sound

theorem reconnect : client.reconnect.Sound buffer where
  caughtUp := sound.caughtUp
  own := sound.own
  since := ⟨sound.caughtUp.started, Int.le_refl _⟩
  seen := fun _ => Nat.zero_le _
  connecting := fun _ => rfl
  replaying := by
    intro replay impossible
    cases impossible
  yielding := by
    intro rest impossible
    cases impossible

theorem of_streams {next : RedisStreamBuffer X} (same : next.streams = buffer.streams) :
    client.Sound next := by
  obtain ⟨seq, streams, appending⟩ := buffer
  obtain ⟨seq', streams', appending'⟩ := next
  cases same
  exact
    { sound with
      replaying := fun replay phase =>
        let told := sound.replaying replay phase
        { told with }
      yielding := fun rest phase =>
        let told := sound.yielding rest phase
        { told with } }

theorem lastAfter_le (key other : StreamKey) :
    client.lastAfter buffer key other ≤ (buffer.streams other).added.length := by
  unfold lastAfter
  by_cases same : other = key
  · subst same
    rw [Function.update_self]
    exact TrimmedLog.lastId_le (sound.seen other)
  · rw [Function.update_of_ne same]
    exact sound.seen other

theorem xadd (trims : (buffer.streams key).trimmed ≤ trimmed)
    (larger : client.origin < event.seq → ∀ other ∈ client.inHand, other.seq < event.seq) :
    client.Sound (buffer.xadd index trimmed key event) where
  caughtUp := by
    apply sound.caughtUp.append
    intro item retained
    rcases xadd_retains trims retained with old | rfl
    · exact Or.inl old
    · right
      by_cases owed : client.origin < item.seq
      · left
        exact cursor_lt owed (fun other member => larger owed other (mem_inHand member))
      · exact Or.inr (Int.not_lt.mp owed)
  own := by
    intro item member
    obtain ⟨other, added⟩ := sound.own item member
    exact ⟨other, added_xadd added⟩
  since := sound.since
  seen := fun other => Nat.le_trans (sound.seen other) (length_added_xadd other)
  connecting := sound.connecting
  replaying := by
    intro replay phase
    have told := sound.replaying replay phase
    refine ⟨told.fresh, ?_, told.past, ?_⟩
    · apply told.entries.trans
      by_cases same : StreamKey.events = key
      · subst same
        rw [xadd_streams_self]
        exact List.sublist_append_left _ _
      · rw [xadd_streams_other same]
    · intro item kept past
      rcases xadd_kept trims (sound.seen .events) kept with old | new
      · exact (told.read item old past).imp_right (fun unread => xadd_unread unread kept)
      · exact Or.inr new
  yielding := by
    intro rest phase
    have told := sound.yielding rest phase
    refine ⟨told.inOrder, told.past, ?_, ?_, ?_⟩
    · intro item member
      obtain ⟨other, added⟩ := told.own item member
      exact ⟨other, added_xadd added⟩
    · intro other item kept past
      rcases xadd_kept trims (sound.seen other) kept with old | new
      · exact (told.read other item old past).imp_right (fun unread => xadd_unread unread kept)
      · exact Or.inr new
    · intro item unread past
      obtain ⟨other, unread⟩ := mem_unread.mp unread
      rcases mem_xadd_after trims unread with old | rfl
      · exact told.later item (mem_unread.mpr ⟨other, old⟩) past
      · have owed : client.origin < item.seq := Int.lt_of_le_of_lt sound.since.1 past
        have hand := larger owed
        unfold inHand at hand
        rw [phase] at hand
        constructor
        · exact cursor_lt owed (fun other member => hand other (List.mem_append_left _ member))
        · exact fun other member => hand other (List.mem_append_right _ member)

theorem yieldEvent (phase : client.phase = .yielding (event :: rest)) :
    (client.yieldEvent event rest).Sound buffer := by
  have told := sound.yielding _ phase
  have before : client.cursor < event.seq := told.past event List.mem_cons_self
  have ahead : Front StreamEvent.seq buffer.Retains client.cursor (event :: rest) := by
    refine ⟨told.inOrder, told.past, ?_⟩
    rintro item ⟨key, kept⟩ past
    rcases told.read key item kept past with listed | unread
    · exact Or.inl listed
    · exact Or.inr (told.later item (mem_unread.mpr ⟨key, unread⟩)
        (Int.lt_of_le_of_lt sound.since.2 past)).2
  constructor
  · rw [cursor_yieldEvent]
    exact sound.caughtUp.read ahead
  · intro item member
    rcases List.mem_append.mp member with old | last
    · exact sound.own item old
    · rw [List.mem_singleton.mp last]
      exact told.own event List.mem_cons_self
  · rw [cursor_yieldEvent]
    exact ⟨sound.since.1, Int.le_of_lt (Int.lt_of_le_of_lt sound.since.2 before)⟩
  · exact sound.seen
  · intro connecting
    unfold StreamClient.yieldEvent at connecting
    dsimp only at connecting
    split at connecting <;> cases connecting
  · intro replay replaying
    unfold StreamClient.yieldEvent at replaying
    dsimp only at replaying
    split at replaying <;> cases replaying
  · intro left yielding
    unfold StreamClient.yieldEvent at yielding
    dsimp only at yielding
    split at yielding
    · cases yielding
    · cases yielding
      constructor
      · exact ahead.tail.inOrder
      · rw [cursor_yieldEvent]
        exact ahead.tail.past
      · exact fun item member => told.own item (List.mem_cons_of_mem event member)
      · intro key item kept past
        rw [cursor_yieldEvent] at past
        rcases told.read key item kept (Int.lt_trans before past) with listed | unread
        · rcases List.mem_cons.mp listed with rfl | listed
          · exact absurd past (Int.lt_irrefl _)
          · exact Or.inl listed
        · exact Or.inr unread
      · intro item unread past
        have later := (told.later item unread past).2
        rw [cursor_yieldEvent]
        exact ⟨Int.ofNat_lt.mpr (later event List.mem_cons_self),
          fun other member => later other (List.mem_cons_of_mem event member)⟩

theorem readEvents (phase : client.phase = .connecting) :
    StreamClient.Sound buffer
      { client with
        last := client.lastAfter buffer .events
        phase := .replaying (past client.afterSeq (buffer.streams .events).retained) } where
  caughtUp := sound.caughtUp
  own := sound.own
  since := sound.since
  seen := sound.lastAfter_le .events
  connecting := by
    intro impossible
    cases impossible
  replaying := by
    intro replay replaying
    cases replaying
    constructor
    · exact sound.connecting phase
    · exact List.filter_sublist.trans (List.drop_sublist _ _)
    · exact fun item member => (mem_past.mp member).2
    · exact fun item kept past => Or.inl (mem_past.mpr ⟨kept, past⟩)
  yielding := by
    intro rest impossible
    cases impossible

theorem readAudio (numbered : buffer.Numbered) (phase : client.phase = .replaying replay)
    (inSequence : client.ReadsInSequence buffer) :
    StreamClient.Sound buffer
      { client with
        last := client.lastAfter buffer .audio
        phase := .yielding (sorted StreamEvent.seq (client.replayed buffer replay)) } where
  caughtUp := sound.caughtUp
  own := sound.own
  since := sound.since
  seen := sound.lastAfter_le .audio
  connecting := by
    intro impossible
    cases impossible
  replaying := by
    intro replay impossible
    cases impossible
  yielding := by
    intro rest yielding
    cases yielding
    have told := sound.replaying replay phase
    have audioPart : (past client.afterSeq (buffer.streams .audio).retained).Sublist
        (buffer.streams .audio).added := List.filter_sublist.trans (List.drop_sublist _ _)
    constructor
    · apply sorted_inOrder
      exact numbered.added_distinct.sublist ((told.entries.append audioPart).map _)
    · intro item member
      change client.cursor < item.seq
      rw [← told.fresh]
      rcases List.mem_append.mp (mem_sorted.mp member) with replayed | audio
      · exact told.past item replayed
      · exact (mem_past.mp audio).2
    · intro item member
      rcases List.mem_append.mp (mem_sorted.mp member) with replayed | audio
      · exact ⟨.events, told.entries.subset replayed⟩
      · exact ⟨.audio, audioPart.subset audio⟩
    · intro key item kept past
      change client.cursor < item.seq at past
      rw [← told.fresh] at past
      cases key with
      | events =>
          rcases told.read item kept past with replayed | unread
          · exact Or.inl (mem_sorted.mpr (List.mem_append_left _ replayed))
          · exact Or.inr unread
      | audio =>
          exact Or.inl (mem_sorted.mpr (List.mem_append_right _ (mem_past.mpr ⟨kept, past⟩)))
    · intro item unread past
      refine ⟨?_, ?_⟩
      · change client.cursor < item.seq
        rw [← told.fresh]
        exact past
      · intro other member
        apply inSequence other _ item
        · unfold left
          rw [phase]
          exact mem_past.mpr ⟨unread, past⟩
        · unfold taken
          rw [phase]
          exact mem_sorted.mp member

theorem readBatch (numbered : buffer.Numbered) (phase : client.phase = .yielding [])
    (inSequence : client.ReadsInSequence buffer) :
    StreamClient.Sound buffer
      { client with
        last := buffer.xreadIds client.last
        phase := .yielding (sorted StreamEvent.seq
          (past client.afterSeq (buffer.xread client.last))) } where
  caughtUp := sound.caughtUp
  own := sound.own
  since := sound.since
  seen := fun key => TrimmedLog.readId_le (sound.seen key)
  connecting := by
    intro impossible
    cases impossible
  replaying := by
    intro replay impossible
    cases impossible
  yielding := by
    intro rest yielding
    cases yielding
    have told := sound.yielding [] phase
    have batch : (buffer.xread client.last).Sublist
        ((buffer.streams .events).added ++ (buffer.streams .audio).added) :=
      ((List.take_sublist _ _).trans (List.drop_sublist _ _)).append
        ((List.take_sublist _ _).trans (List.drop_sublist _ _))
    constructor
    · apply sorted_inOrder
      exact numbered.added_distinct.sublist ((List.filter_sublist.trans batch).map _)
    · intro item member
      obtain ⟨read, past⟩ := mem_past.mp (mem_sorted.mp member)
      exact (told.later item (xread_unread read) past).1
    · intro item member
      rcases List.mem_append.mp (batch.subset (mem_past.mp (mem_sorted.mp member)).1) with
        event | audio
      · exact ⟨.events, event⟩
      · exact ⟨.audio, audio⟩
    · intro key item kept past
      rcases told.read key item kept past with none | unread
      · cases none
      · rw [@TrimmedLog.after_readId _ _ readCount] at unread
        rcases List.mem_append.mp unread with read | remains
        · left
          rw [mem_sorted, mem_past]
          exact ⟨mem_xread.mpr ⟨key, read⟩, Int.lt_of_le_of_lt sound.since.2 past⟩
        · exact Or.inr remains
    · intro item unread past
      obtain ⟨key, remains⟩ := mem_unread.mp unread
      have before : item ∈ buffer.unread client.last := by
        rw [mem_unread]
        refine ⟨key, ?_⟩
        rw [@TrimmedLog.after_readId _ _ readCount]
        exact List.mem_append_right _ remains
      refine ⟨(told.later item before past).1, ?_⟩
      intro other member
      apply inSequence other _ item
      · unfold left
        rw [phase]
        exact mem_past.mpr ⟨unread, past⟩
      · unfold taken
        rw [phase]
        exact mem_sorted.mp member

theorem advance (numbered : buffer.Numbered) (inSequence : client.ReadsInSequence buffer)
    (taken : client.advance buffer = some advanced) : advanced.Sound buffer := by
  unfold StreamClient.advance at taken
  split at taken
  case h_1 phase =>
    cases taken
    exact sound.readEvents phase
  case h_2 replay phase =>
    cases taken
    exact sound.readAudio numbered phase inSequence
  case h_3 event rest phase =>
    cases taken
    exact sound.yieldEvent phase
  case h_4 phase =>
    split at taken
    · cases taken
    · cases taken
      exact sound.readBatch numbered phase inSequence
  case h_5 => cases taken

theorem inSequence : client.InSequence buffer where
  increasing := sound.caughtUp.inOrder
  own := fun event member => ⟨(sound.caughtUp.within event member).1, sound.own event member⟩
  gapless := sound.caughtUp.complete
  all := by
    rintro phase blocked event ⟨key, kept⟩ owed
    have nothing : (buffer.xread client.last).isEmpty = true := by
      unfold StreamClient.advance at blocked
      rw [phase] at blocked
      dsimp only at blocked
      split at blocked
      case isTrue nothing => exact nothing
      case isFalse => cases blocked
    apply sound.caughtUp.complete event ⟨key, kept⟩ owed
    by_contra later
    rcases (sound.yielding [] phase).read key event kept (Int.not_le.mp later) with none | unread
    · cases none
    · obtain ⟨first, member⟩ := TrimmedLog.exists_mem_read (Nat.succ_pos 99) unread
      have read : first ∈ buffer.xread client.last := mem_xread.mpr ⟨key, member⟩
      rw [List.isEmpty_iff.mp nothing] at read
      cases read

end

end StreamClient.Sound

end Clients

/-! ### Runs -/

structure RedisRun.Sound (run : RedisRun X) : Prop where
  numbered : run.buffer.Numbered
  clients : ∀ client ∈ run.clients, client.Sound run.buffer

section Runs

variable {limits : StreamLimits} {run next : RedisRun X} {action : RedisAction X}

theorem initial_redisSound : (RedisRun.initial : RedisRun X).Sound where
  numbered := RedisStreamBuffer.empty_numbered
  clients := by
    intro client member
    cases member

theorem RedisRun.Sound.setClient (sound : run.Sound) {index : Nat} {moved : StreamClient X}
    (own : moved.Sound run.buffer) :
    RedisRun.Sound { run with clients := run.clients.set index moved } where
  numbered := sound.numbered
  clients := by
    intro client member
    rcases List.mem_or_eq_of_mem_set member with old | rfl
    · exact sound.clients client old
    · exact own

theorem RedisRun.Sound.step (sound : run.Sound) (taken : run.SequencedStep limits action next) :
    next.Sound := by
  obtain ⟨taken, keeps⟩ := taken
  unfold RedisRun.Step RedisRun.step at taken
  cases action with
  | incr key event =>
      cases taken
      exact ⟨sound.numbered.incr key event,
        fun client member => (sound.clients client member).of_streams rfl⟩
  | xadd index trimmed =>
      dsimp only at taken
      split at taken
      case h_1 => cases taken
      case h_2 key event found =>
        split at taken
        case isFalse => cases taken
        case isTrue trims =>
          cases taken
          unfold RedisStreamBuffer.mayTrim at trims
          rw [Bool.and_eq_true, decide_eq_true_iff] at trims
          refine ⟨sound.numbered.xadd found, ?_⟩
          intro client member
          exact (sound.clients client member).xadd trims.1 (keeps (key, event) found client member)
  | connect afterSeq =>
      cases taken
      refine ⟨sound.numbered, ?_⟩
      intro client member
      rcases List.mem_append.mp member with old | new
      · exact sound.clients client old
      · rw [List.mem_singleton.mp new]
        exact connect_sound afterSeq
  | advance index =>
      dsimp only at taken
      split at taken
      case h_1 => cases taken
      case h_2 client found =>
        obtain ⟨advanced, moved, rfl⟩ := Option.map_eq_some_iff.mp taken
        have own := sound.clients client (List.mem_of_getElem? found)
        exact sound.setClient (own.advance sound.numbered (keeps client found) moved)
  | reconnect index =>
      dsimp only at taken
      split at taken
      case h_1 => cases taken
      case h_2 client found =>
        cases taken
        exact sound.setClient (sound.clients client (List.mem_of_getElem? found)).reconnect

end Runs

/-- In every run whose steps keep the sequence, every client is given the retained events in
order and without gaps. -/
theorem redis_buffer_in_sequence (limits : StreamLimits) (actions : List (RedisAction X))
    (last : RedisRun X) (run : Run (RedisRun.SequencedStep limits) .initial actions last) :
    ∀ client ∈ last.clients, client.InSequence last.buffer := by
  have sound : last.Sound :=
    run.invariant RedisRun.Sound .initial initial_redisSound
      (fun _ _ _ sound taken => sound.step taken)
  exact fun client member => (sound.clients client member).inSequence

section Witness

def twoAndOne : StreamLimits where
  maxEvents := 2
  audioMaxChunks := 1

def reconnectingRun : List (RedisAction Unit) :=
  [.connect 0, .incr .events firstStep, .incr .audio audioChunk, .xadd 0 0, .advance 0,
    .advance 0, .advance 0, .xadd 0 0, .reconnect 0, .advance 0, .advance 0, .advance 0,
    .incr .events completion, .xadd 0 0, .advance 0, .advance 0]

theorem redis_buffer_in_sequence_reconnecting :
    ∃ last : RedisRun Unit,
      Run (RedisRun.SequencedStep twoAndOne) .initial reconnectingRun last ∧
        ∀ client ∈ last.clients, client.InSequence last.buffer := by
  obtain ⟨last, run, -⟩ := Run.of_guardedStep (RedisRun.step twoAndOne) RedisRun.KeepsSequence
    (.initial : RedisRun Unit) reconnectingRun (fun _ => ()) () (by decide +kernel)
  exact ⟨last, run, redis_buffer_in_sequence twoAndOne reconnectingRun last run⟩

/-- Two parallel branches emit; the second number is stored and given before the first. -/
def overtakingRun : List (RedisAction Unit) :=
  [.connect 0, .incr .events firstStep, .incr .events firstStep, .xadd 1 0, .advance 0,
    .advance 0, .advance 0, .xadd 0 0, .advance 0, .advance 0]

/-- The client is given the first number after the second. -/
theorem redis_buffer_overtaken :
    ∃ last : RedisRun Unit, Run (RedisRun.Step twoAndOne) .initial overtakingRun last ∧
      ∃ client ∈ last.clients, client.received.map StreamEvent.seq = [2, 1] ∧
        ¬ client.InSequence last.buffer := by
  obtain ⟨last, run, given⟩ := Run.of_foldlM_map (RedisRun.step twoAndOne) .initial overtakingRun
    (fun last => last.clients.map (fun client => client.received.map StreamEvent.seq)) [[2, 1]]
    (by decide +kernel)
  refine ⟨last, run, ?_⟩
  obtain ⟨client, member, numbers⟩ := List.mem_map.mp (given ▸ List.mem_singleton_self [2, 1])
  refine ⟨client, member, numbers, ?_⟩
  intro inSequence
  have ordered : (client.received.map StreamEvent.seq).Pairwise (· < ·) :=
    List.pairwise_map.mpr inSequence.increasing
  rw [numbers] at ordered
  exact absurd ordered (by decide)

end Witness

end Assemblix.Debug
