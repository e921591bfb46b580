import Assemblix.Debug.EventStreams
import Assemblix.Library.CursorReader

/-
The in-memory stream buffer of one execution.

Control and text events are kept in one queue, audio in a small ring; both take their numbers
from one counter. A subscriber replays what is kept after its cursor and then waits to be
notified. Between two of its suspensions it runs undisturbed: the lock of the condition is only
held while it looks for more events and starts to wait, and while a writer notifies.
-/

namespace Assemblix.Debug

open Library
open Library.CursorReader

variable {X : Type}

structure StreamEvent (X : Type) extends DebugEvent X where
  seq : Nat
  deriving DecidableEq

def StreamEvent.terminal (event : StreamEvent X) : Bool := event.eventType.terminal

structure StreamBuffer (X : Type) where
  isOpen : Bool
  events : List (StreamEvent X)
  audio : List (StreamEvent X)
  seq : Nat

/-- `deque.append` of a deque with a maximal length. -/
def pushBounded {A : Type} (maxlen : Nat) (items : List A) (item : A) : List A :=
  (items ++ [item]).drop (items.length + 1 - maxlen)

namespace StreamBuffer

def closed : StreamBuffer X where
  isOpen := false
  events := []
  audio := []
  seq := 0

/-- `open`: what is there already stays. -/
def opened (buffer : StreamBuffer X) : StreamBuffer X := { buffer with isOpen := true }

def numbered (buffer : StreamBuffer X) (event : DebugEvent X) : StreamEvent X :=
  { event with seq := buffer.seq + 1 }

def append (maxEvents : Nat) (buffer : StreamBuffer X) (event : DebugEvent X) : StreamBuffer X :=
  { buffer.opened with
    seq := buffer.seq + 1
    events := pushBounded maxEvents buffer.events (buffer.numbered event) }

def appendTransient (audioMaxChunks : Nat) (buffer : StreamBuffer X) (event : DebugEvent X) :
    StreamBuffer X :=
  { buffer.opened with
    seq := buffer.seq + 1
    audio := pushBounded audioMaxChunks buffer.audio (buffer.numbered event) }

/-- `_pending`: both queues after the cursor, merged by their numbers. -/
def pending (buffer : StreamBuffer X) (cursor : Int) : List (StreamEvent X) :=
  sorted StreamEvent.seq
    ((buffer.events ++ buffer.audio).filter (fun event => cursor < event.seq))

end StreamBuffer

/-! ### Subscribers -/

/-- Where a subscriber is suspended: at a `yield` with the rest of its snapshot, or in the wait
for a notification. It has returned after a terminal event, or at once where the buffer was not
open. -/
inductive Suspension (X : Type)
  | yielding (rest : List (StreamEvent X))
  | waiting (notified : Bool)
  | returned
  | refused
  deriving DecidableEq

structure Subscription (X : Type) where
  afterSeq : Int
  cursor : Int
  received : List (StreamEvent X)
  suspension : Suspension X
  deriving DecidableEq

namespace Subscription

/-- `subscribe` before its first event. -/
def subscribe (buffer : StreamBuffer X) (afterSeq : Int) : Subscription X where
  afterSeq := afterSeq
  cursor := afterSeq
  received := []
  suspension := if buffer.isOpen then .yielding [] else .refused

def yieldEvent (subscription : Subscription X) (event : StreamEvent X)
    (rest : List (StreamEvent X)) : Subscription X :=
  { subscription with
    cursor := event.seq
    received := subscription.received ++ [event]
    suspension := if event.terminal then .returned else .yielding rest }

def scan (buffer : StreamBuffer X) (subscription : Subscription X) : Subscription X :=
  match buffer.pending subscription.cursor with
  | [] => { subscription with suspension := .waiting false }
  | event :: rest => subscription.yieldEvent event rest

/-- From one suspension to the next; `none` while there is nothing to resume. -/
def resume (buffer : StreamBuffer X) (subscription : Subscription X) :
    Option (Subscription X) :=
  match subscription.suspension with
  | .yielding (event :: rest) => some (subscription.yieldEvent event rest)
  | .yielding [] => some (subscription.scan buffer)
  | .waiting true => some (subscription.scan buffer)
  | .waiting false => none
  | .returned => none
  | .refused => none

/-- `notify_all` for one waiter. -/
def notify (subscription : Subscription X) : Subscription X :=
  match subscription.suspension with
  | .waiting _ => { subscription with suspension := .waiting true }
  | _ => subscription

end Subscription

/-! ### Runs -/

/-- The buffer with its subscribers. `appended` and `transient` list every event ever appended;
`notifiers` counts the writers that have stored an event and not notified yet. -/
structure StreamRun (X : Type) where
  buffer : StreamBuffer X
  notifiers : Nat
  subscriptions : List (Subscription X)
  appended : List (StreamEvent X)
  transient : List (StreamEvent X)

structure StreamLimits where
  maxEvents : Nat
  audioMaxChunks : Nat

inductive StreamAction (X : Type)
  | openBuffer
  | append (event : DebugEvent X)
  | appendTransient (event : DebugEvent X)
  | notifyAll
  | subscribe (afterSeq : Int)
  | resume (index : Nat)

namespace StreamRun

def initial : StreamRun X where
  buffer := .closed
  notifiers := 0
  subscriptions := []
  appended := []
  transient := []

/-- One atomic piece of a writer or a subscriber. -/
def step (limits : StreamLimits) (run : StreamRun X) : StreamAction X → Option (StreamRun X)
  | .openBuffer => some { run with buffer := run.buffer.opened }
  | .append event =>
      some
        { run with
          buffer := run.buffer.append limits.maxEvents event
          notifiers := run.notifiers + 1
          appended := run.appended ++ [run.buffer.numbered event] }
  | .appendTransient event =>
      some
        { run with
          buffer := run.buffer.appendTransient limits.audioMaxChunks event
          notifiers := run.notifiers + 1
          transient := run.transient ++ [run.buffer.numbered event] }
  | .notifyAll =>
      if 0 < run.notifiers then
        some
          { run with
            notifiers := run.notifiers - 1
            subscriptions := run.subscriptions.map Subscription.notify }
      else none
  | .subscribe afterSeq =>
      some { run with subscriptions := run.subscriptions ++ [.subscribe run.buffer afterSeq] }
  | .resume index =>
      match run.subscriptions[index]? with
      | none => none
      | some subscription =>
          (subscription.resume run.buffer).map (fun resumed =>
            { run with subscriptions := run.subscriptions.set index resumed })

def Step (limits : StreamLimits) (run : StreamRun X) (action : StreamAction X)
    (next : StreamRun X) : Prop :=
  run.step limits action = some next

end StreamRun

/-! ### What a subscriber is owed -/

/-- Nothing is left to do for the subscriber: it has returned or waits, and no writer is about
to notify it. -/
def Subscription.Idle (run : StreamRun X) (subscription : Subscription X) : Prop :=
  subscription.suspension = .returned ∨ subscription.suspension = .refused ∨
    subscription.suspension = .waiting false ∧ run.notifiers = 0

/-- In order and without repetition; every kept event from the start up to the cursor; audio
that was appended; up to the first terminal event and no further; and everything, once the
subscriber is idle. -/
structure Delivers (run : StreamRun X) (subscription : Subscription X) : Prop where
  increasing : InOrder StreamEvent.seq subscription.received
  own : ∀ event ∈ subscription.received,
    subscription.afterSeq < event.seq ∧ (event ∈ run.appended ∨ event ∈ run.transient)
  complete : ∀ event ∈ run.appended, subscription.afterSeq < event.seq →
    (event.seq : Int) ≤ subscription.cursor → event ∈ subscription.received
  unended : subscription.suspension ≠ .returned →
    ∀ event ∈ subscription.received, event.terminal = false
  ended : subscription.suspension = .returned →
    ∃ earlier final, subscription.received = earlier ++ [final] ∧ final.terminal = true ∧
      subscription.cursor = final.seq ∧ ∀ event ∈ earlier, event.terminal = false
  all : subscription.Idle run → subscription.suspension ≠ .returned →
    ∀ event ∈ run.appended, subscription.afterSeq < event.seq → event ∈ subscription.received

/-! ### The buffer -/

theorem pushBounded_of_le {A : Type} {maxlen : Nat} {items : List A} {item : A}
    (free : items.length + 1 ≤ maxlen) : pushBounded maxlen items item = items ++ [item] := by
  unfold pushBounded
  rw [Nat.sub_eq_zero_of_le free, List.drop_zero]

theorem pushBounded_sublist {A : Type} {maxlen : Nat} {items : List A} {item : A} :
    (pushBounded maxlen items item).Sublist (items ++ [item]) := List.drop_sublist _ _

structure Stored (run : StreamRun X) : Prop where
  events : run.buffer.events = run.appended
  audio : run.buffer.audio.Sublist run.transient
  numbers : ∀ event ∈ run.appended ++ run.transient, event.seq ≤ run.buffer.seq
  distinct : ((run.appended ++ run.transient).map StreamEvent.seq).Nodup

section Buffer

variable {limits : StreamLimits} {run next : StreamRun X} {event : DebugEvent X} {cursor : Int}

theorem Stored.fresh (stored : Stored run) (event : DebugEvent X) :
    (run.buffer.numbered event).seq ∉
      (run.appended ++ run.transient).map StreamEvent.seq := by
  intro member
  obtain ⟨old, present, same⟩ := List.mem_map.mp member
  have bound := stored.numbers old present
  change old.seq = run.buffer.seq + 1 at same
  omega

theorem Stored.append (stored : Stored run)
    (bounded : run.appended.length + 1 ≤ limits.maxEvents)
    (taken : run.Step limits (.append event) next) : Stored next := by
  cases taken
  have free : run.buffer.events.length + 1 ≤ limits.maxEvents := by
    rw [stored.events]
    exact bounded
  constructor
  · change pushBounded _ _ _ = _
    rw [pushBounded_of_le free, stored.events]
  · exact stored.audio
  · intro old member
    change old.seq ≤ run.buffer.seq + 1
    simp only [List.mem_append, List.mem_singleton] at member
    rcases member with (kept | rfl) | audio
    · have bound := stored.numbers old (List.mem_append_left _ kept)
      omega
    · exact Nat.le_refl _
    · have bound := stored.numbers old (List.mem_append_right _ audio)
      omega
  · have moved : ((run.appended ++ [run.buffer.numbered event]) ++ run.transient).Perm
        (run.buffer.numbered event :: (run.appended ++ run.transient)) := by
      rw [List.append_assoc]
      exact List.perm_middle
    exact (moved.map _).nodup_iff.mpr (List.nodup_cons.mpr ⟨stored.fresh event, stored.distinct⟩)

theorem Stored.appendTransient (stored : Stored run)
    (taken : run.Step limits (.appendTransient event) next) : Stored next := by
  cases taken
  constructor
  · exact stored.events
  · exact pushBounded_sublist.trans (stored.audio.append (List.Sublist.refl _))
  · intro old member
    change old.seq ≤ run.buffer.seq + 1
    simp only [List.mem_append, List.mem_singleton] at member
    rcases member with kept | audio | rfl
    · have bound := stored.numbers old (List.mem_append_left _ kept)
      omega
    · have bound := stored.numbers old (List.mem_append_right _ audio)
      omega
    · exact Nat.le_refl _
  · have moved : (run.appended ++ (run.transient ++ [run.buffer.numbered event])).Perm
        (run.buffer.numbered event :: (run.appended ++ run.transient)) := by
      rw [← List.append_assoc]
      exact List.perm_append_singleton _ _
    exact (moved.map _).nodup_iff.mpr (List.nodup_cons.mpr ⟨stored.fresh event, stored.distinct⟩)

theorem mem_pending {buffer : StreamBuffer X} {event : StreamEvent X} :
    event ∈ buffer.pending cursor ↔
      (event ∈ buffer.events ∨ event ∈ buffer.audio) ∧ cursor < event.seq := by
  unfold StreamBuffer.pending
  rw [mem_sorted, List.mem_filter, List.mem_append, decide_eq_true_iff]

theorem Stored.front (stored : Stored run) (cursor : Int) :
    Front StreamEvent.seq (· ∈ run.appended) cursor (run.buffer.pending cursor) where
  inOrder := by
    apply sorted_inOrder
    have kept : (run.buffer.events ++ run.buffer.audio).Sublist
        (run.appended ++ run.transient) := by
      rw [stored.events]
      exact (List.Sublist.refl _).append stored.audio
    exact stored.distinct.sublist ((List.filter_sublist.trans kept).map _)
  past := by
    intro event member
    exact (mem_pending.mp member).2
  gapless := by
    intro event needed later
    rw [← stored.events] at needed
    exact Or.inl (mem_pending.mpr ⟨Or.inl needed, later⟩)

theorem Stored.pending_own (stored : Stored run) {event : StreamEvent X}
    (member : event ∈ run.buffer.pending cursor) :
    event ∈ run.appended ∨ event ∈ run.transient := by
  rcases (mem_pending.mp member).1 with kept | audio
  · rw [stored.events] at kept
    exact Or.inl kept
  · exact Or.inr (stored.audio.subset audio)

end Buffer

/-! ### The subscribers -/

/-- Up to its cursor a subscriber has what it is owed; its snapshot goes on from there without
gaps; when it waits, there is nothing more or a writer is about to notify it. -/
structure Sound (run : StreamRun X) (subscription : Subscription X) : Prop where
  caughtUp : CaughtUp StreamEvent.seq (· ∈ run.appended) subscription.afterSeq
    subscription.cursor subscription.received
  origin : subscription.cursor = subscription.afterSeq ∨
    subscription.cursor ≤ run.buffer.seq
  own : ∀ event ∈ subscription.received, event ∈ run.appended ∨ event ∈ run.transient
  front : ∀ rest, subscription.suspension = .yielding rest →
    Front StreamEvent.seq (· ∈ run.appended) subscription.cursor rest ∧
      ∀ event ∈ rest, (event ∈ run.appended ∨ event ∈ run.transient) ∧
        event.seq ≤ run.buffer.seq
  waits : subscription.suspension = .waiting false →
    0 < run.notifiers ∨ ∀ event ∈ run.appended, (event.seq : Int) ≤ subscription.cursor
  unended : subscription.suspension ≠ .returned →
    ∀ event ∈ subscription.received, event.terminal = false
  ended : subscription.suspension = .returned →
    ∃ earlier final, subscription.received = earlier ++ [final] ∧ final.terminal = true ∧
      subscription.cursor = final.seq ∧ ∀ event ∈ earlier, event.terminal = false

structure Grown (run next : StreamRun X) : Prop where
  appended : run.appended ⊆ next.appended
  transient : run.transient ⊆ next.transient
  seq : run.buffer.seq ≤ next.buffer.seq
  new : ∀ event ∈ next.appended, event ∈ run.appended ∨ run.buffer.seq < event.seq
  notified : 0 < next.notifiers ∨
    next.notifiers = run.notifiers ∧ next.appended = run.appended

section Subscribers

variable {run next : StreamRun X} {subscription : Subscription X} {event : StreamEvent X}
  {rest : List (StreamEvent X)}

theorem Grown.own (grown : Grown run next)
    (own : event ∈ run.appended ∨ event ∈ run.transient) :
    event ∈ next.appended ∨ event ∈ next.transient :=
  own.imp (fun kept => grown.appended kept) (fun audio => grown.transient audio)

section

variable (sound : Sound run subscription)
include sound

theorem Sound.grown (grown : Grown run next) : Sound next subscription where
  caughtUp := by
    apply sound.caughtUp.append
    intro item needed
    rcases grown.new item needed with old | new
    · exact Or.inl old
    · rcases sound.origin with unread | reached
      · omega
      · omega
  origin := by
    rcases sound.origin with unread | reached
    · exact Or.inl unread
    · have larger := grown.seq
      omega
  own := fun event member => grown.own (sound.own event member)
  front := by
    intro rest suspended
    obtain ⟨ahead, members⟩ := sound.front rest suspended
    constructor
    · apply ahead.append
      intro item needed
      rcases grown.new item needed with old | new
      · exact Or.inl old
      · right
        intro other member
        have bound := (members other member).2
        omega
    · intro event member
      exact ⟨grown.own (members event member).1,
        Nat.le_trans (members event member).2 grown.seq⟩
  waits := by
    intro suspended
    rcases grown.notified with notified | ⟨same, appended⟩
    · exact Or.inl notified
    · rw [same, appended]
      exact sound.waits suspended
  unended := sound.unended
  ended := sound.ended

theorem Sound.yieldEvent (running : subscription.suspension ≠ .returned)
    (ahead : Front StreamEvent.seq (· ∈ run.appended) subscription.cursor (event :: rest))
    (members : ∀ other ∈ event :: rest,
      (other ∈ run.appended ∨ other ∈ run.transient) ∧ other.seq ≤ run.buffer.seq) :
    Sound run (subscription.yieldEvent event rest) where
  caughtUp := sound.caughtUp.read ahead
  origin := by
    have bound := (members event List.mem_cons_self).2
    right
    change (event.seq : Int) ≤ run.buffer.seq
    omega
  own := by
    intro other member
    rcases List.mem_append.mp member with old | last
    · exact sound.own other old
    · rw [List.mem_singleton.mp last]
      exact (members event List.mem_cons_self).1
  front := by
    intro left suspended
    unfold Subscription.yieldEvent at suspended
    dsimp only at suspended
    split at suspended
    · cases suspended
    · cases suspended
      exact ⟨ahead.tail, fun other member => members other (List.mem_cons_of_mem event member)⟩
  waits := by
    intro suspended
    unfold Subscription.yieldEvent at suspended
    dsimp only at suspended
    split at suspended <;> cases suspended
  unended := by
    intro unreturned other member
    rcases List.mem_append.mp member with old | last
    · exact sound.unended running other old
    · rw [List.mem_singleton.mp last]
      unfold Subscription.yieldEvent at unreturned
      dsimp only at unreturned
      split at unreturned
      case isTrue => exact absurd rfl unreturned
      case isFalse ongoing => exact (Bool.not_eq_true _).mp ongoing
  ended := by
    intro returned
    refine ⟨subscription.received, event, rfl, ?_, rfl, sound.unended running⟩
    unfold Subscription.yieldEvent at returned
    dsimp only at returned
    split at returned
    case isTrue terminal => exact terminal
    case isFalse => cases returned

theorem Sound.scan (stored : Stored run) (running : subscription.suspension ≠ .returned) :
    Sound run (subscription.scan run.buffer) := by
  have ahead := stored.front subscription.cursor
  unfold Subscription.scan
  split
  case h_1 nothing =>
    have exhausted : ∀ event ∈ run.appended, (event.seq : Int) ≤ subscription.cursor := by
      intro event needed
      by_contra later
      have member : event ∈ run.buffer.pending subscription.cursor := by
        rw [mem_pending, stored.events]
        exact ⟨Or.inl needed, Int.not_le.mp later⟩
      rw [nothing] at member
      cases member
    exact
      { sound with
        front := by
          intro rest impossible
          cases impossible
        waits := fun _ => Or.inr exhausted
        unended := fun _ => sound.unended running
        ended := by
          intro impossible
          cases impossible }
  case h_2 event rest listed =>
    rw [listed] at ahead
    apply sound.yieldEvent running ahead
    intro other member
    rw [← listed] at member
    have own := stored.pending_own member
    exact ⟨own, stored.numbers other (List.mem_append.mpr own)⟩

theorem Sound.resume (stored : Stored run) {resumed : Subscription X}
    (taken : subscription.resume run.buffer = some resumed) : Sound run resumed := by
  unfold Subscription.resume at taken
  split at taken
  case h_1 event rest suspended =>
    cases taken
    obtain ⟨ahead, members⟩ := sound.front _ suspended
    exact sound.yieldEvent (by simp [suspended]) ahead members
  case h_2 suspended =>
    cases taken
    exact sound.scan stored (by simp [suspended])
  case h_3 suspended =>
    cases taken
    exact sound.scan stored (by simp [suspended])
  case h_4 => cases taken
  case h_5 => cases taken
  case h_6 => cases taken

theorem Sound.notify : Sound run subscription.notify := by
  unfold Subscription.notify
  split
  case h_1 notified suspended =>
    exact
      { sound with
        front := by
          intro rest impossible
          cases impossible
        waits := by
          intro impossible
          cases impossible
        unended := fun _ => sound.unended (by simp [suspended])
        ended := by
          intro impossible
          cases impossible }
  case h_2 => exact sound

end

theorem notify_not_waiting : subscription.notify.suspension ≠ .waiting false := by
  unfold Subscription.notify
  split
  case h_1 => simp
  case h_2 unwaiting => exact unwaiting false

theorem subscribe_suspension (buffer : StreamBuffer X) (afterSeq : Int) :
    (Subscription.subscribe buffer afterSeq).suspension = .yielding [] ∨
      (Subscription.subscribe buffer afterSeq).suspension = .refused := by
  unfold Subscription.subscribe
  dsimp only
  split
  · exact Or.inl rfl
  · exact Or.inr rfl

theorem Sound.subscribe (afterSeq : Int) :
    Sound run (Subscription.subscribe run.buffer afterSeq) where
  caughtUp := CaughtUp.begun _ _ _
  origin := Or.inl rfl
  own := by
    intro event member
    cases member
  front := by
    intro rest suspended
    have unread : rest = [] := by
      rcases subscribe_suspension run.buffer afterSeq with same | same
      · rw [same] at suspended
        cases suspended
        rfl
      · rw [same] at suspended
        cases suspended
    subst unread
    refine ⟨⟨List.Pairwise.nil, ?_, ?_⟩, ?_⟩
    · intro event member
      cases member
    · intro event needed later
      right
      intro other member
      cases member
    · intro event member
      cases member
  waits := by
    intro waiting
    rcases subscribe_suspension run.buffer afterSeq with same | same
    · rw [same] at waiting
      cases waiting
    · rw [same] at waiting
      cases waiting
  unended := by
    intro _ event member
    cases member
  ended := by
    intro returned
    rcases subscribe_suspension run.buffer afterSeq with same | same
    · rw [same] at returned
      cases returned
    · rw [same] at returned
      cases returned

end Subscribers

/-! ### Runs -/

structure Served (run : StreamRun X) : Prop where
  stored : Stored run
  sound : ∀ subscription ∈ run.subscriptions, Sound run subscription

section Runs

variable {limits : StreamLimits} {run next : StreamRun X} {action : StreamAction X}

theorem appended_mono (taken : run.Step limits action next) :
    run.appended.length ≤ next.appended.length := by
  unfold StreamRun.Step StreamRun.step at taken
  cases action with
  | append event =>
      cases taken
      simp
  | openBuffer => cases taken; exact Nat.le_refl _
  | appendTransient event => cases taken; exact Nat.le_refl _
  | notifyAll =>
      dsimp only at taken
      split at taken
      · cases taken
        exact Nat.le_refl _
      · cases taken
  | subscribe afterSeq => cases taken; exact Nat.le_refl _
  | resume index =>
      dsimp only at taken
      split at taken
      · cases taken
      · obtain ⟨resumed, _, rfl⟩ := Option.map_eq_some_iff.mp taken
        exact Nat.le_refl _

theorem Served.step (served : Served run) (taken : run.Step limits action next)
    (bounded : next.appended.length ≤ limits.maxEvents) : Served next := by
  cases action with
  | openBuffer =>
      cases taken
      have grown : Grown run { run with buffer := run.buffer.opened } :=
        ⟨List.Subset.refl _, List.Subset.refl _, Nat.le_refl _, fun _ => Or.inl, Or.inr ⟨rfl, rfl⟩⟩
      exact ⟨{ served.stored with }, fun subscription member =>
          (served.sound subscription member).grown grown⟩
  | append event =>
      have stepped := taken
      cases taken
      have grown : Grown run
          { run with
            buffer := run.buffer.append limits.maxEvents event
            notifiers := run.notifiers + 1
            appended := run.appended ++ [run.buffer.numbered event] } := by
        refine ⟨List.subset_append_left _ _, List.Subset.refl _, Nat.le_succ _, ?_,
          Or.inl (Nat.succ_pos _)⟩
        intro item member
        rcases List.mem_append.mp member with old | new
        · exact Or.inl old
        · rw [List.mem_singleton.mp new]
          exact Or.inr (Nat.lt_succ_self _)
      refine ⟨served.stored.append ?_ stepped, fun subscription member =>
        (served.sound subscription member).grown grown⟩
      rw [List.length_append] at bounded
      exact bounded
  | appendTransient event =>
      have stepped := taken
      cases taken
      have grown : Grown run
          { run with
            buffer := run.buffer.appendTransient limits.audioMaxChunks event
            notifiers := run.notifiers + 1
            transient := run.transient ++ [run.buffer.numbered event] } :=
        ⟨List.Subset.refl _, List.subset_append_left _ _, Nat.le_succ _, fun _ => Or.inl,
          Or.inl (Nat.succ_pos _)⟩
      exact ⟨served.stored.appendTransient stepped, fun subscription member =>
        (served.sound subscription member).grown grown⟩
  | notifyAll =>
      unfold StreamRun.Step StreamRun.step at taken
      dsimp only at taken
      split at taken
      case isFalse => cases taken
      case isTrue =>
        cases taken
        refine ⟨{ served.stored with }, ?_⟩
        intro subscription member
        obtain ⟨old, present, rfl⟩ := List.mem_map.mp member
        have sound := (served.sound old present).notify
        exact
          { sound with
            waits := fun waiting => absurd waiting notify_not_waiting
            unended := sound.unended
            ended := sound.ended }
  | subscribe afterSeq =>
      cases taken
      have grown : Grown run
          { run with subscriptions := run.subscriptions ++ [.subscribe run.buffer afterSeq] } :=
        ⟨List.Subset.refl _, List.Subset.refl _, Nat.le_refl _, fun _ => Or.inl, Or.inr ⟨rfl, rfl⟩⟩
      refine ⟨{ served.stored with }, ?_⟩
      intro subscription member
      rcases List.mem_append.mp member with old | new
      · exact (served.sound subscription old).grown grown
      · rw [List.mem_singleton.mp new]
        exact (Sound.subscribe afterSeq).grown grown
  | resume index =>
      unfold StreamRun.Step StreamRun.step at taken
      dsimp only at taken
      split at taken
      case h_1 => cases taken
      case h_2 subscription found =>
        obtain ⟨resumed, stepped, rfl⟩ := Option.map_eq_some_iff.mp taken
        have grown : Grown run
            { run with subscriptions := run.subscriptions.set index resumed } :=
          ⟨List.Subset.refl _, List.Subset.refl _, Nat.le_refl _, fun _ => Or.inl,
            Or.inr ⟨rfl, rfl⟩⟩
        have own := served.sound subscription (List.mem_of_getElem? found)
        refine ⟨{ served.stored with }, ?_⟩
        intro other member
        rcases List.mem_or_eq_of_mem_set member with old | new
        · exact (served.sound other old).grown grown
        · rw [new]
          exact (own.resume served.stored stepped).grown grown

theorem initial_served : Served (StreamRun.initial : StreamRun X) where
  stored := by
    refine ⟨rfl, List.Sublist.refl _, ?_, List.nodup_nil⟩
    intro event member
    cases member
  sound := by
    intro subscription member
    cases member

theorem run_served {actions : List (StreamAction X)} {last : StreamRun X}
    (run : Run (StreamRun.Step limits) .initial actions last)
    (bounded : last.appended.length ≤ limits.maxEvents) : Served last := by
  induction run with
  | nil => exact initial_served
  | snoc _ taken ih => exact (ih (Nat.le_trans (appended_mono taken) bounded)).step taken bounded

end Runs

/-! ### Delivery -/

section Delivery

variable {run : StreamRun X} {subscription resumed : Subscription X}

theorem Sound.delivers (sound : Sound run subscription)
    (admitted : subscription.suspension ≠ .refused) : Delivers run subscription where
  increasing := sound.caughtUp.inOrder
  own := fun event member => ⟨(sound.caughtUp.within event member).1, sound.own event member⟩
  complete := sound.caughtUp.complete
  unended := sound.unended
  ended := sound.ended
  all := by
    rintro (returned | refused | ⟨waiting, none⟩) unreturned event needed later
    · exact absurd returned unreturned
    · exact absurd refused admitted
    · apply sound.caughtUp.complete event needed later
      rcases sound.waits waiting with notified | exhausted
      · omega
      · exact exhausted event needed

def Subscription.horizon (subscription : Subscription X) (rest : List (StreamEvent X)) : Int :=
  match rest.getLast? with
  | some event => event.seq
  | none => subscription.cursor

/-- A bound on how often a subscriber is resumed while nothing is appended. -/
def Subscription.rank (buffer : StreamBuffer X) (subscription : Subscription X) : Nat :=
  match subscription.suspension with
  | .yielding rest =>
      2 * (buffer.pending (subscription.horizon rest)).length + rest.length + 1
  | .waiting true => 2 * (buffer.pending subscription.cursor).length + 2
  | .waiting false => 0
  | .returned => 0
  | .refused => 0

/-- A subscriber that is not idle can be resumed or is about to be notified, and each resumption
brings it closer to being idle. -/
structure Progresses (run : StreamRun X) (subscription : Subscription X) : Prop where
  enabled : subscription.Idle run ∨ (subscription.resume run.buffer).isSome = true ∨
    0 < run.notifiers
  closer : ∀ resumed, subscription.resume run.buffer = some resumed →
    resumed.rank run.buffer < subscription.rank run.buffer

theorem enabled_or_idle : subscription.Idle run ∨
    (subscription.resume run.buffer).isSome = true ∨ 0 < run.notifiers := by
  unfold Subscription.Idle Subscription.resume
  split
  case h_1 => simp
  case h_2 => simp
  case h_3 => simp
  case h_4 suspended =>
    rcases Nat.eq_zero_or_pos run.notifiers with none | some
    · exact Or.inl (Or.inr (Or.inr ⟨suspended, none⟩))
    · exact Or.inr (Or.inr some)
  case h_5 suspended => exact Or.inl (Or.inl suspended)
  case h_6 suspended => exact Or.inl (Or.inr (Or.inl suspended))

theorem horizon_read (event : StreamEvent X) (rest : List (StreamEvent X)) :
    (subscription.yieldEvent event rest).horizon rest = subscription.horizon (event :: rest) := by
  unfold Subscription.horizon
  cases rest with
  | nil => rfl
  | cons next later => rw [List.getLast?_cons_cons]; rfl

theorem rank_yieldEvent_le (buffer : StreamBuffer X) (subscription : Subscription X)
    (event : StreamEvent X) (rest : List (StreamEvent X)) :
    (subscription.yieldEvent event rest).rank buffer ≤
      2 * (buffer.pending (subscription.horizon (event :: rest))).length + rest.length + 1 := by
  rw [← horizon_read]
  unfold Subscription.rank
  split
  case h_1 left suspended =>
    unfold Subscription.yieldEvent at suspended
    dsimp only at suspended
    split at suspended
    · cases suspended
    · cases suspended
      exact Nat.le_refl _
  case h_2 suspended =>
    unfold Subscription.yieldEvent at suspended
    dsimp only at suspended
    split at suspended <;> cases suspended
  case h_3 => exact Nat.zero_le _
  case h_4 => exact Nat.zero_le _
  case h_5 => exact Nat.zero_le _

theorem Stored.pending_horizon (stored : Stored run) {event : StreamEvent X}
    {rest : List (StreamEvent X)} (listed : run.buffer.pending subscription.cursor = event :: rest) :
    run.buffer.pending (subscription.horizon (event :: rest)) = [] := by
  have ahead := stored.front subscription.cursor
  rw [listed] at ahead
  have nonempty : event :: rest ≠ [] := List.cons_ne_nil event rest
  unfold Subscription.horizon
  rw [List.getLast?_eq_some_getLast nonempty, List.eq_nil_iff_forall_not_mem]
  intro late member
  obtain ⟨kept, later⟩ := mem_pending.mp member
  dsimp only at later
  have past := ahead.past _ (List.getLast_mem nonempty)
  have pending : late ∈ event :: rest := by
    rw [← listed, mem_pending]
    exact ⟨kept, by omega⟩
  have bound := ahead.inOrder.le_getLast nonempty pending
  omega

theorem Stored.rank_scan_le (stored : Stored run) (subscription : Subscription X) :
    (subscription.scan run.buffer).rank run.buffer ≤
      (run.buffer.pending subscription.cursor).length := by
  unfold Subscription.scan
  split
  case h_1 => exact Nat.zero_le _
  case h_2 event rest listed =>
    have bound := rank_yieldEvent_le run.buffer subscription event rest
    rw [stored.pending_horizon listed] at bound
    rw [listed, List.length_cons]
    simpa using bound

theorem Stored.closer (stored : Stored run)
    (taken : subscription.resume run.buffer = some resumed) :
    resumed.rank run.buffer < subscription.rank run.buffer := by
  unfold Subscription.resume at taken
  split at taken
  case h_1 event rest suspended =>
    cases taken
    have bound := rank_yieldEvent_le run.buffer subscription event rest
    have before : subscription.rank run.buffer =
        2 * (run.buffer.pending (subscription.horizon (event :: rest))).length
          + (event :: rest).length + 1 := by
      unfold Subscription.rank
      rw [suspended]
    rw [before, List.length_cons]
    omega
  case h_2 suspended =>
    cases taken
    have bound := stored.rank_scan_le subscription
    have before : subscription.rank run.buffer =
        2 * (run.buffer.pending subscription.cursor).length + 1 := by
      unfold Subscription.rank
      rw [suspended]
      rfl
    rw [before]
    omega
  case h_3 suspended =>
    cases taken
    have bound := stored.rank_scan_le subscription
    have before : subscription.rank run.buffer =
        2 * (run.buffer.pending subscription.cursor).length + 2 := by
      unfold Subscription.rank
      rw [suspended]
    rw [before]
    omega
  case h_4 => cases taken
  case h_5 => cases taken
  case h_6 => cases taken

theorem Stored.progresses (stored : Stored run) : Progresses run subscription where
  enabled := enabled_or_idle
  closer := fun _ taken => stored.closer taken

end Delivery

/-- With at most `maxEvents` kept events, in every run of writers and subscribers: nothing is
evicted from the event queue, no subscriber hangs, and each one that found the buffer open is
delivered what it is owed. -/
theorem buffer_delivers (limits : StreamLimits) (actions : List (StreamAction X))
    (last : StreamRun X) (run : Run (StreamRun.Step limits) .initial actions last)
    (bounded : last.appended.length ≤ limits.maxEvents) :
    last.buffer.events = last.appended ∧
      ∀ subscription ∈ last.subscriptions, Progresses last subscription ∧
        (subscription.suspension ≠ .refused → Delivers last subscription) := by
  have served := run_served run bounded
  refine ⟨served.stored.events, ?_⟩
  intro subscription member
  exact ⟨served.stored.progresses, (served.sound subscription member).delivers⟩

section Witness

def firstStep : DebugEvent Unit where
  eventType := .stepStart
  executionId := ()
  data := .null

def audioChunk : DebugEvent Unit := { firstStep with eventType := .audioDelta }

def completion : DebugEvent Unit := { firstStep with eventType := .executionComplete }

def lateNotification : List (StreamAction Unit) :=
  [.append firstStep, .notifyAll, .subscribe 0, .resume 0, .resume 0, .appendTransient audioChunk,
    .append completion, .notifyAll, .resume 0, .resume 0]

theorem buffer_delivers_late :
    ∃ last : StreamRun Unit,
      Run (StreamRun.Step ⟨2, 1⟩) .initial lateNotification last ∧
        last.appended.length ≤ 2 ∧ last.buffer.events = last.appended ∧
          ∀ subscription ∈ last.subscriptions, Progresses last subscription ∧
            (subscription.suspension ≠ .refused → Delivers last subscription) := by
  obtain ⟨last, run, same⟩ := Run.of_foldlM_map (StreamRun.step ⟨2, 1⟩) .initial
    lateNotification (fun last => last.appended.length) 2 (by decide +kernel)
  have bounded : last.appended.length ≤ 2 := Nat.le_of_eq same
  exact ⟨last, run, bounded, buffer_delivers ⟨2, 1⟩ lateNotification last run bounded⟩

/-- Who subscribes before the buffer is open is turned away and misses what is appended then. -/
theorem early_subscriber_misses :
    ∃ last : StreamRun Unit,
      Run (StreamRun.Step ⟨2, 1⟩) .initial [.subscribe 0, .append firstStep, .notifyAll] last ∧
        last.appended.length ≤ 2 ∧
          ∃ subscription ∈ last.subscriptions, ¬ Delivers last subscription := by
  refine ⟨_, Run.of_foldlM _ _ _ rfl, by decide, _, List.mem_singleton.mpr rfl, ?_⟩
  intro delivers
  have received := delivers.all (Or.inr (Or.inl rfl)) (by decide) _ List.mem_cons_self (by decide)
  exact absurd received List.not_mem_nil

end Witness

end Assemblix.Debug
