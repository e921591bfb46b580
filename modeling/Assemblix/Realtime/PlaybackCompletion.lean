import Mathlib.Algebra.Order.BigOperators.Group.List
import Mathlib.Algebra.Order.Ring.Nat
import Assemblix.Realtime.PlaybackOrder

/-
A session that is left alone plays everything.

While nobody closes the session, no synthesis fails and the consumer takes what it is given,
every segment is on its way: it has been synthesized, is in flight, or is still with the worker.
The steps of the session and of its syntheses are bounded, and when none is left all has been
played.
-/

namespace Assemblix.Realtime

open Library

namespace YandexSession

/-! ### The slots -/

def Slotted (session : YandexSession) : Prop :=
  session.slots + session.fetches.length = maxInFlight

variable {session next : YandexSession} {reader : LaneReader (List UInt8)} {started : Nat}

section

variable (slotted : session.Slotted)
include slotted

theorem Slotted.work (worked : session.work = some next) : next.Slotted := by
  unfold YandexSession.work at worked
  split at worked
  · split at worked
    · cases worked
    · cases worked
      exact slotted
    · split at worked
      · cases worked
        exact slotted
      · cases worked
        exact slotted
  · split at worked
    · cases worked
    · cases worked
      unfold Slotted at slotted ⊢
      rw [List.length_append, List.length_singleton]
      dsimp only
      omega
  · split at worked
    · cases worked
      exact slotted
    · cases worked
  · split at worked
    · cases worked
      exact slotted
    · cases worked
  · cases worked

theorem Slotted.workerCancelled (cancelled : session.workerCancelled = some next) :
    next.Slotted := by
  unfold YandexSession.workerCancelled at cancelled
  split at cancelled
  · cases cancelled
  · split at cancelled
    · cases cancelled
      exact slotted
    · cases cancelled
    · cases cancelled
      exact slotted

theorem Slotted.forward (moved : session.forward = some next) : next.Slotted := by
  unfold YandexSession.forward at moved
  split at moved
  · split at moved
    · cases moved
    · cases moved
      exact slotted
    · cases moved
      exact slotted
  · split at moved
    · cases moved
    · split at moved
      · cases moved
      · cases moved
        exact slotted
      · cases moved
        exact slotted
      · split at moved
        · cases moved
          exact slotted
        · cases moved
          exact slotted
  · cases moved

theorem Slotted.handed {raised : Option Text} (through : session.handed raised = some next) :
    next.Slotted := by
  unfold YandexSession.handed at through
  split at through
  · split at through
    · cases through
      exact slotted
    · cases through
      exact slotted
  · cases through

theorem Slotted.step {action : SynthesisAction} (done : session.step action = some next) :
    next.Slotted := by
  cases action with
  | sendText text segments =>
      cases done
      unfold YandexSession.sendText
      split
      · exact slotted
      · exact slotted
  | flush segments =>
      cases done
      unfold YandexSession.flush
      dsimp only
      split
      · exact slotted
      · exact slotted
  | abandon =>
      cases done
      exact slotted
  | close =>
      cases done
      exact slotted
  | work => exact slotted.work done
  | workerCancelled => exact slotted.workerCancelled done
  | forward => exact slotted.forward done
  | handed raised => exact slotted.handed done
  | errorReported =>
      obtain ⟨_, same⟩ := Option.ite_none_right_eq_some.mp done
      cases same
      exact slotted
  | forwarderCancelled =>
      obtain ⟨_, same⟩ := Option.ite_none_right_eq_some.mp done
      cases same
      exact slotted
  | chunk number data =>
      obtain ⟨_, same⟩ := Option.ite_none_right_eq_some.mp done
      cases same
      exact slotted
  | fetchEnds number outcome =>
      obtain ⟨_, same⟩ := Option.ite_none_right_eq_some.mp done
      cases same
      unfold Slotted markEnded at *
      rw [List.length_map]
      exact slotted
  | fetchDone number =>
      obtain ⟨member, same⟩ := Option.ite_none_right_eq_some.mp done
      cases same
      have present := List.length_pos_of_mem member
      unfold Slotted at slotted ⊢
      rw [List.length_erase_of_mem member]
      dsimp only
      omega

end

/-! ### A session that is left alone -/

/-- The caller has said that no more text is coming. -/
def flushed (session : YandexSession) : Bool :=
  decide (none ∈ session.queue) || !session.worker.inLoop

/-- Nothing is pushed after the flush, nobody closes the session, no synthesis fails and
`_on_audio` does not raise. -/
def Undisturbed (session : YandexSession) : SynthesisAction → Prop
  | .sendText _ _ => session.flushed = false
  | .flush _ => session.flushed = false
  | .abandon => False
  | .close => False
  | .handed raised => raised = none
  | .fetchEnds _ outcome => outcome = .returned
  | _ => True

structure Complete (session : YandexSession) : Prop where
  played : session.forwarded = (session.segments.map Segment.chunks).flatten
  returned : ∀ segment ∈ session.segments, segment.outcome = some .returned

def Unstarted (session : YandexSession) (number : Nat) : Prop :=
  number ∈ session.worker.held ++ session.queue.reduceOption

def Marked (queue : List (Option Nat)) : Prop :=
  none ∉ queue.dropLast

namespace Marked

variable {queue rest : List (Option Nat)} {item : Option Nat}

theorem of_unmarked (unmarked : none ∉ queue) : Marked queue :=
  fun member => unmarked (List.dropLast_subset queue member)

theorem snoc (unmarked : none ∉ queue) : Marked (queue ++ [item]) := by
  unfold Marked
  rw [List.dropLast_concat]
  exact unmarked

theorem tail (marked : Marked (item :: rest)) : Marked rest := by
  cases rest with
  | nil => exact List.not_mem_nil
  | cons following rest => exact fun member => marked (List.mem_cons_of_mem item member)

theorem last (marked : Marked (none :: rest)) : rest = [] := by
  cases rest with
  | nil => rfl
  | cons following rest => exact absurd List.mem_cons_self marked

end Marked

structure Smooth (session : YandexSession) : Prop where
  unfailed : session.failed = false
  uncancelled : session.cancelled = false
  unclosed : session.closed = false
  alive : session.forwarder ≠ .failing
  ended : session.forwarder = .ended → session.worker.inLoop = false ∧ session.Complete
  cleaned : session.worker = .cleaning ∨ session.worker = .ended → session.forwarder = .ended
  order : Marked session.order
  orderMark : none ∈ session.order ↔
    session.worker.inLoop = false ∧ session.forwarder ≠ .ended
  queue : Marked session.queue
  afterLoop : session.worker.inLoop = false → session.queue = []
  clean : ∀ segment ∈ session.segments,
    segment.outcome = none ∨ segment.outcome = some .returned
  placed : ∀ (number : Nat) (segment : Segment), session.segments[number]? = some segment →
    segment.outcome = some .returned ∨ { segment := number } ∈ session.fetches ∨
      session.Unstarted number

theorem Segment.no_failure {segment : Segment}
    (clean : segment.outcome = none ∨ segment.outcome = some .returned) (taken : Nat)
    (message : Text) : AudioItem.failure message ∉ segment.unread taken := by
  unfold Segment.unread Segment.mark
  intro member
  rcases List.mem_append.mp member with chunk | mark
  · obtain ⟨data, _, same⟩ := List.mem_map.mp chunk
    cases same
  · rcases clean with unended | returned
    · rw [unended] at mark
      cases mark
    · rw [returned] at mark
      cases List.mem_singleton.mp mark

theorem Smooth.complete (smooth : session.Smooth) (plays : session.Plays reader started)
    (last : reader.lane = started) (none : ∀ number, ¬ session.Unstarted number) :
    session.Complete := by
  have returned (number : Nat) (segment : Segment)
      (found : session.segments[number]? = some segment) :
      segment.outcome = some .returned := by
    rcases smooth.placed number segment found with ended | flying | unstarted
    · exact ended
    · have bound : number < started := plays.fetched _ flying
      have notLeft := plays.ahead flying
      omega
    · exact absurd unstarted (none number)
  have all : session.segments.length ≤ started := by
    refine Nat.le_of_not_lt ?_
    intro more
    have found := List.getElem?_eq_getElem more
    have unended := plays.fresh started _ found (Nat.le_refl _)
    rw [returned started _ found] at unended
    cases unended
  constructor
  · rw [plays.read, ← plays.lanes]
    refine reader.read_all ?_
    rw [plays.lanes, List.length_map, last]
    exact all
  · intro segment member
    obtain ⟨number, found⟩ := List.mem_iff_getElem?.mp member
    exact returned number segment found

namespace Smooth

theorem initial : Smooth {} where
  unfailed := rfl
  uncancelled := rfl
  unclosed := rfl
  alive := by intro failing; cases failing
  ended := by intro ended; cases ended
  cleaned := by rintro (cleaning | ended) <;> contradiction
  order := Marked.of_unmarked List.not_mem_nil
  orderMark := by
    constructor
    · intro member
      cases member
    · rintro ⟨left, _⟩
      cases left
  queue := Marked.of_unmarked List.not_mem_nil
  afterLoop := fun _ => rfl
  clean := by intro segment member; cases member
  placed := by intro number segment found; cases found

theorem inLoop_of_unflushed (unflushed : session.flushed = false) :
    session.worker.inLoop = true ∧ none ∉ session.queue := by
  unfold YandexSession.flushed at unflushed
  obtain ⟨unmarked, looping⟩ := Bool.or_eq_false_iff.mp unflushed
  exact ⟨by simpa using looping, of_decide_eq_false unmarked⟩

theorem notEnded (smooth : session.Smooth) (inLoop : session.worker.inLoop = true) :
    session.forwarder ≠ .ended := by
  intro ended
  have left := (smooth.ended ended).1
  rw [inLoop] at left
  cases left

theorem enqueue (smooth : session.Smooth) (unflushed : session.flushed = false)
    (texts : List Text) : (session.enqueue texts).Smooth ∧
      none ∉ (session.enqueue texts).queue := by
  obtain ⟨inLoop, unmarked⟩ := inLoop_of_unflushed unflushed
  have stillUnmarked : none ∉ (session.enqueue texts).queue := by
    change none ∉ session.queue ++ _
    rw [List.mem_append, not_or]
    exact ⟨unmarked, by simp⟩
  have grown : (session.enqueue texts).queue.reduceOption = session.queue.reduceOption ++
      List.range' session.segments.length texts.length := by
    change (session.queue ++ _).reduceOption = _
    rw [List.reduceOption_append]
    refine congrArg (_ ++ ·) ?_
    unfold List.reduceOption
    rw [List.filterMap_map]
    exact List.filterMap_some
  refine ⟨?_, stillUnmarked⟩
  refine
    { smooth with
      ended := ?_, queue := Marked.of_unmarked stillUnmarked, afterLoop := ?_, clean := ?_
      placed := ?_ }
  · intro ended
    exact absurd ended (smooth.notEnded inLoop)
  · intro left
    change session.worker.inLoop = false at left
    rw [inLoop] at left
    cases left
  · intro segment member
    rcases List.mem_append.mp member with earlier | new
    · exact smooth.clean segment earlier
    · obtain ⟨text, _, rfl⟩ := List.mem_map.mp new
      exact Or.inl rfl
  · intro number segment found
    unfold Unstarted
    rw [grown, ← List.append_assoc]
    change (session.segments ++ _)[number]? = some segment at found
    rw [List.getElem?_append] at found
    split at found
    · rcases smooth.placed number segment found with ended | flying | unstarted
      · exact Or.inl ended
      · exact Or.inr (Or.inl flying)
      · exact Or.inr (Or.inr (List.mem_append_left _ unstarted))
    · have bound := (List.getElem?_eq_some_iff.mp found).1
      rw [List.length_map] at bound
      refine Or.inr (Or.inr (List.mem_append_right _ ?_))
      rw [List.mem_range'_1]
      omega

theorem reduceOption_mark (queue : List (Option Nat)) :
    (queue ++ [none]).reduceOption = queue.reduceOption := by
  rw [List.reduceOption_append]
  exact List.append_nil _

section

variable (smooth : session.Smooth)
include smooth

theorem flush (unflushed : session.flushed = false) (texts : List Text) :
    (session.flush texts).Smooth := by
  obtain ⟨queued, unmarked⟩ := smooth.enqueue unflushed texts
  have inLoop : (session.enqueue texts).worker.inLoop = true :=
    (inLoop_of_unflushed unflushed).1
  unfold YandexSession.flush
  rw [smooth.unfailed]
  change Smooth { session.enqueue texts with queue := (session.enqueue texts).queue ++ [none] }
  refine
    { queued with ended := ?_, queue := Marked.snoc unmarked, afterLoop := ?_, placed := ?_ }
  · intro ended
    exact absurd ended (queued.notEnded inLoop)
  · intro left
    change (session.enqueue texts).worker.inLoop = false at left
    rw [inLoop] at left
    cases left
  · intro number segment found
    unfold Unstarted
    dsimp only
    rw [reduceOption_mark]
    exact queued.placed number segment found

theorem take (taking : session.worker = .taking) (worked : session.work = some next) :
    next.Smooth := by
  have inLoop : session.worker.inLoop = true := by rw [taking]; rfl
  have running := smooth.notEnded inLoop
  have unmarked : none ∉ session.order := by
    intro member
    have left := (smooth.orderMark.mp member).1
    rw [inLoop] at left
    cases left
  unfold YandexSession.work at worked
  simp only [taking] at worked
  have placed := smooth.placed
  unfold Unstarted at placed
  rw [taking] at placed
  split at worked
  · cases worked
  · rename_i rest queue
    cases worked
    have marked := smooth.queue
    rw [queue] at marked placed
    cases marked.last
    refine
      { smooth with
        ended := fun ended => absurd ended running, cleaned := ?_, order := Marked.snoc unmarked
        orderMark := ?_, queue := marked.tail, afterLoop := fun _ => rfl, placed := placed }
    · rintro (cleaning | ended)
      · cases cleaning
      · cases ended
    · exact ⟨fun _ => ⟨rfl, running⟩, fun _ => List.mem_append_right _ List.mem_cons_self⟩
  · rename_i segment rest queue
    rw [if_neg (by rw [smooth.unfailed]; exact Bool.false_ne_true)] at worked
    cases worked
    have marked := smooth.queue
    rw [queue] at marked placed
    refine
      { smooth with
        ended := fun ended => absurd ended running, cleaned := ?_, orderMark := ?_
        queue := marked.tail, afterLoop := ?_, placed := placed }
    · rintro (cleaning | ended)
      · cases cleaning
      · cases ended
    · exact ⟨fun member => absurd member unmarked, fun out => by cases out.1⟩
    · intro left
      cases left

theorem acquire {segment : Nat} (acquiring : session.worker = .acquiring segment) (slots : Nat) :
    Smooth { session with
      slots := slots
      fetches := session.fetches ++ [{ segment }]
      order := session.order ++ [some segment]
      worker := .taking } := by
  have inLoop : session.worker.inLoop = true := by rw [acquiring]; rfl
  have running := smooth.notEnded inLoop
  have unmarked : none ∉ session.order ++ [some segment] := by
    intro member
    rcases List.mem_append.mp member with earlier | new
    · have left := (smooth.orderMark.mp earlier).1
      rw [inLoop] at left
      cases left
    · cases List.mem_singleton.mp new
  refine
    { smooth with
      ended := fun ended => absurd ended running, cleaned := ?_
      order := Marked.of_unmarked unmarked, orderMark := ?_, afterLoop := ?_, placed := ?_ }
  · rintro (cleaning | ended)
    · cases cleaning
    · cases ended
  · exact ⟨fun member => absurd member unmarked, fun out => by cases out.1⟩
  · intro left
    cases left
  · intro number found known
    rcases smooth.placed number found known with ended | flying | unstarted
    · exact Or.inl ended
    · exact Or.inr (Or.inl (List.mem_append_left _ flying))
    · unfold Unstarted at unstarted
      rw [acquiring] at unstarted
      rcases List.mem_cons.mp unstarted with rfl | queued
      · exact Or.inr (Or.inl (List.mem_append_right _ List.mem_cons_self))
      · exact Or.inr (Or.inr queued)

theorem wait {worker : UtteranceWorker} (before : session.worker.inLoop = false)
    (after : worker.inLoop = false) (ended : session.forwarder = .ended) :
    Smooth { session with worker := worker } := by
  have held {out : UtteranceWorker} (left : out.inLoop = false) : out.held = [] := by
    cases out with
    | taking => cases left
    | acquiring segment => cases left
    | waiting => rfl
    | cleaning => rfl
    | ended => rfl
  refine
    { smooth with
      ended := fun ended => ⟨after, { (smooth.ended ended).2 with }⟩, cleaned := fun _ => ended
      orderMark := ?_, afterLoop := fun _ => smooth.afterLoop before, placed := ?_ }
  · rw [smooth.orderMark, before]
    exact ⟨fun ⟨_, alive⟩ => absurd ended alive, fun ⟨_, alive⟩ => absurd ended alive⟩
  · intro number segment found
    rcases smooth.placed number segment found with returned | flying | unstarted
    · exact Or.inl returned
    · exact Or.inr (Or.inl flying)
    · unfold Unstarted at unstarted
      rw [held before] at unstarted
      refine Or.inr (Or.inr ?_)
      unfold Unstarted
      dsimp only
      rw [held after]
      exact unstarted

theorem work (worked : session.work = some next) : next.Smooth := by
  cases worker : session.worker with
  | taking => exact smooth.take worker worked
  | acquiring segment =>
      unfold YandexSession.work at worked
      simp only [worker] at worked
      split at worked
      · cases worked
      · cases worked
        exact smooth.acquire worker _
  | waiting =>
      unfold YandexSession.work at worked
      simp only [worker, Option.ite_none_right_eq_some] at worked
      obtain ⟨ended, same⟩ := worked
      cases same
      exact smooth.wait (by rw [worker]; rfl) rfl ended
  | cleaning =>
      unfold YandexSession.work at worked
      simp only [worker, Option.ite_none_right_eq_some] at worked
      obtain ⟨⟨ended, _⟩, same⟩ := worked
      cases same
      exact smooth.wait (by rw [worker]; rfl) rfl ended
  | ended =>
      unfold YandexSession.work at worked
      simp only [worker] at worked
      cases worked

/-! ### The forwarder of a session that is left alone -/

theorem go {forwarder : Forwarder} {forwarded : List (List UInt8)}
    (running : session.forwarder ≠ .ended) (still : forwarder ≠ .ended)
    (alive : forwarder ≠ .failing) :
    Smooth { session with forwarder := forwarder, forwarded := forwarded } := by
  refine
    { smooth with
      alive := alive, ended := fun ended => absurd ended still, cleaned := ?_, orderMark := ?_ }
  · intro out
    exact absurd (smooth.cleaned out) running
  · rw [smooth.orderMark]
    exact ⟨fun ⟨left, _⟩ => ⟨left, still⟩, fun ⟨left, _⟩ => ⟨left, running⟩⟩

theorem setSegment (number : Nat) {change : Segment → Segment}
    (running : session.forwarder ≠ .ended)
    (kept : ∀ segment, (change segment).outcome = segment.outcome) :
    (session.setSegment number change).Smooth := by
  refine
    { smooth with ended := fun ended => absurd ended running, clean := ?_, placed := ?_ }
  · intro segment member
    obtain ⟨other, found⟩ := List.mem_iff_getElem?.mp member
    obtain ⟨before, known, ⟨_, rfl⟩ | ⟨_, rfl⟩⟩ := get_modify found
    · rw [kept]
      exact smooth.clean before (List.mem_of_getElem? known)
    · exact smooth.clean _ (List.mem_of_getElem? known)
  · intro other segment found
    obtain ⟨before, known, ⟨_, rfl⟩ | ⟨_, rfl⟩⟩ := get_modify found
    · rw [kept]
      exact smooth.placed other before known
    · exact smooth.placed other _ known

theorem popAudio (number : Nat) (running : session.forwarder ≠ .ended) :
    (session.popAudio number).Smooth :=
  smooth.setSegment number running (fun _ => rfl)

theorem finish (plays : session.Plays reader started) {rest : List (Option Nat)}
    (ordering : session.forwarder = .ordering) (order : session.order = none :: rest) :
    Smooth { session with order := rest, forwarder := .ended } := by
  have marked := smooth.order
  rw [order] at marked
  cases marked.last
  have left : session.worker.inLoop = false :=
    (smooth.orderMark.mp (by rw [order]; exact List.mem_cons_self)).1
  have line := (plays.ordering ordering).2
  rw [order] at line
  have last : reader.lane = started := by
    have length := congrArg List.length line
    rw [List.length_range'] at length
    have none : started - reader.lane = 0 := length.symm
    have begun := plays.begun
    omega
  have nothing (number : Nat) : ¬ session.Unstarted number := by
    unfold Unstarted
    rw [smooth.afterLoop left]
    cases worker : session.worker with
    | taking =>
        rw [worker] at left
        cases left
    | acquiring segment =>
        rw [worker] at left
        cases left
    | waiting => exact List.not_mem_nil
    | cleaning => exact List.not_mem_nil
    | ended => exact List.not_mem_nil
  have complete := smooth.complete plays last nothing
  refine
    { smooth with
      alive := by intro failing; cases failing
      ended := fun _ => ⟨left, { complete with }⟩, cleaned := fun _ => rfl
      order := Marked.of_unmarked List.not_mem_nil, orderMark := ?_ }
  constructor
  · intro member
    cases member
  · rintro ⟨_, running⟩
    exact absurd rfl running

theorem forward (plays : session.Plays reader started) (moved : session.forward = some next) :
    next.Smooth := by
  have moving := forward_forwarder moved
  unfold YandexSession.forward at moved
  rcases moving with forwarder | ⟨segment, forwarder⟩
  · have running : session.forwarder ≠ .ended := by rw [forwarder]; intro ended; cases ended
    simp only [forwarder] at moved
    split at moved
    · cases moved
    · cases moved
      exact smooth.finish plays forwarder ‹_›
    · rename_i segment rest order
      cases moved
      have marked := smooth.order
      have mark := smooth.orderMark
      rw [order] at marked mark
      have mark' : none ∈ rest ↔
          session.worker.inLoop = false ∧ session.forwarder ≠ .ended := by
        rw [← mark, List.mem_cons]
        exact ⟨Or.inr, fun member => member.resolve_left (Option.some_ne_none segment ∘ Eq.symm)⟩
      have popped : Smooth { session with order := rest } :=
        { smooth with
          ended := fun ended => absurd ended running, order := marked.tail, orderMark := mark' }
      exact popped.go running (by intro ended; cases ended) (by intro failing; cases failing)
  · have running : session.forwarder ≠ .ended := by rw [forwarder]; intro ended; cases ended
    simp only [forwarder] at moved
    split at moved
    · cases moved
    · rename_i found known
      split at moved
      · cases moved
      · cases moved
        exact (smooth.popAudio segment running).go running (by intro ended; cases ended)
          (by intro failing; cases failing)
      · rename_i message rest queued
        have here : session.forwarder.segment = some segment := by rw [forwarder]; rfl
        obtain ⟨rfl, _, _⟩ := plays.playing segment here
        have unread := plays.unread
          (Or.inr (by rw [here]; exact Option.some_ne_none _)) _ found known (Nat.le_refl _)
        rw [queued] at unread
        refine absurd ?_ (Segment.no_failure
          (smooth.clean found (List.mem_of_getElem? known)) (taken reader reader.lane) message)
        rw [← unread]
        exact List.mem_cons_self
      · rw [if_neg (by rw [smooth.unclosed]; exact Bool.false_ne_true)] at moved
        cases moved
        exact (smooth.popAudio segment running).go running (by intro ended; cases ended)
          (by intro failing; cases failing)

theorem handed (through : session.handed none = some next) : next.Smooth := by
  obtain ⟨segment, forwarder⟩ := handed_forwarder through
  unfold YandexSession.handed at through
  have running : session.forwarder ≠ .ended := by rw [forwarder]; intro ended; cases ended
  simp only [forwarder, Option.some.injEq] at through
  cases through
  exact smooth.go running (by intro ended; cases ended) (by intro failing; cases failing)

/-! ### Its syntheses -/

theorem running_of_flying (plays : session.Plays reader started) {number : Nat}
    (flying : { segment := number } ∈ session.fetches) : session.forwarder ≠ .ended := by
  intro ended
  obtain ⟨segment, found, unended⟩ := plays.running number flying
  have returned := (smooth.ended ended).2.returned segment (List.mem_of_getElem? found)
  rw [unended] at returned
  cases returned

theorem chunk (plays : session.Plays reader started) {number : Nat} (data : List UInt8)
    (flying : { segment := number } ∈ session.fetches) :
    (session.setSegment number (receive · data)).Smooth :=
  smooth.setSegment number (smooth.running_of_flying plays flying) (fun _ => rfl)

theorem fetchEnds (plays : session.Plays reader started) {number : Nat}
    (flying : { segment := number } ∈ session.fetches) :
    Smooth { session.setSegment number (conclude · .returned) with
      fetches := markEnded session.fetches number } := by
  have running := smooth.running_of_flying plays flying
  refine
    { smooth with ended := fun ended => absurd ended running, clean := ?_, placed := ?_ }
  · intro segment member
    obtain ⟨other, found⟩ := List.mem_iff_getElem?.mp member
    obtain ⟨before, known, ⟨_, rfl⟩ | ⟨_, rfl⟩⟩ := get_modify found
    · exact Or.inr rfl
    · exact smooth.clean _ (List.mem_of_getElem? known)
  · intro other segment found
    obtain ⟨before, known, ⟨_, rfl⟩ | ⟨different, rfl⟩⟩ := get_modify found
    · exact Or.inl rfl
    · rcases smooth.placed other _ known with returned | still | unstarted
      · exact Or.inl returned
      · refine Or.inr (Or.inl (List.mem_map.mpr ⟨_, still, ?_⟩))
        exact if_neg (Ne.symm different)
      · exact Or.inr (Or.inr unstarted)

theorem fetchDone (number slots : Nat) :
    Smooth { session with
      fetches := session.fetches.erase { segment := number, ended := true }
      slots := slots } := by
  refine { smooth with ended := ?_, placed := ?_ }
  · intro ended
    exact ⟨(smooth.ended ended).1, { (smooth.ended ended).2 with }⟩
  · intro other segment found
    rcases smooth.placed other segment found with returned | still | unstarted
    · exact Or.inl returned
    · refine Or.inr (Or.inl ((List.mem_erase_of_ne ?_).mpr still))
      intro same
      cases congrArg Fetch.ended same
    · exact Or.inr (Or.inr unstarted)

theorem step {action : SynthesisAction} (plays : session.Plays reader started)
    (undisturbed : session.Undisturbed action) (done : session.step action = some next) :
    next.Smooth := by
  cases action with
  | sendText text segments =>
      cases done
      unfold YandexSession.sendText
      split
      · exact smooth
      · let counted : YandexSession :=
          { session with charsSent := session.charsSent + text.length }
        have smoothCounted : counted.Smooth :=
          { smooth with
            ended := fun ended => ⟨(smooth.ended ended).1, { (smooth.ended ended).2 with }⟩ }
        exact (smoothCounted.enqueue undisturbed segments).1
  | flush segments =>
      cases done
      exact smooth.flush undisturbed segments
  | abandon => cases undisturbed
  | close => cases undisturbed
  | work => exact smooth.work done
  | workerCancelled =>
      simp only [YandexSession.step, YandexSession.workerCancelled, smooth.uncancelled] at done
      cases done
  | forward => exact smooth.forward plays done
  | handed raised =>
      cases undisturbed
      exact smooth.handed done
  | errorReported =>
      simp only [YandexSession.step, Option.ite_none_right_eq_some] at done
      exact absurd done.1 smooth.alive
  | forwarderCancelled =>
      simp only [YandexSession.step, Option.ite_none_right_eq_some] at done
      exact absurd (smooth.cleaned done.1.1) done.1.2
  | chunk number data =>
      obtain ⟨flying, same⟩ := Option.ite_none_right_eq_some.mp done
      cases same
      exact smooth.chunk plays data ((Plays.fetching_iff number).mp flying)
  | fetchEnds number outcome =>
      obtain ⟨flying, same⟩ := Option.ite_none_right_eq_some.mp done
      cases same
      cases undisturbed
      exact smooth.fetchEnds plays ((Plays.fetching_iff number).mp flying)
  | fetchDone number =>
      obtain ⟨_, same⟩ := Option.ite_none_right_eq_some.mp done
      cases same
      exact smooth.fetchDone number _

end

end Smooth

end YandexSession

/-! ### The steps that are left -/

def AudioItem.work : AudioItem → Nat
  | .chunk _ => 2
  | .failure _ => 1
  | .done => 1

def Segment.work (segment : Segment) : Nat :=
  (segment.audio.map AudioItem.work).sum

def Fetch.work (fetch : Fetch) : Nat :=
  if fetch.ended then 1 else 3

def UtteranceWorker.work : UtteranceWorker → Nat
  | .taking => 2
  | .acquiring _ => 8
  | .waiting => 2
  | .cleaning => 1
  | .ended => 0

def Forwarder.work : Forwarder → Nat
  | .ordering => 1
  | .playing _ => 1
  | .handing _ => 2
  | .failing => 1
  | .ended => 0

def SynthesisAction.isOwn : SynthesisAction → Bool
  | .sendText _ _ => false
  | .flush _ => false
  | .abandon => false
  | .close => false
  | .chunk _ _ => false
  | _ => true

namespace YandexSession

variable {session next : YandexSession} {reader : LaneReader (List UInt8)} {started : Nat}

/-- More than the own steps that can follow. -/
def remaining (session : YandexSession) : Nat :=
  7 * session.queue.length + session.worker.work + session.order.length +
    (session.fetches.map Fetch.work).sum + session.forwarder.work +
    (session.segments.map Segment.work).sum

theorem work_remaining (worked : session.work = some next) :
    next.remaining < session.remaining := by
  unfold YandexSession.work at worked
  unfold remaining
  cases worker : session.worker with
  | taking =>
      simp only [worker] at worked
      split at worked
      · cases worked
      · rename_i rest queue
        cases worked
        simp only [leaveLoop, queue, UtteranceWorker.work, List.length_append, List.length_cons,
          List.length_nil]
        omega
      · rename_i segment rest queue
        split at worked
        · cases worked
          simp only [leaveLoop, queue, UtteranceWorker.work, List.length_append,
            List.length_cons, List.length_nil]
          omega
        · cases worked
          simp only [queue, UtteranceWorker.work, List.length_cons]
          omega
  | acquiring segment =>
      simp only [worker] at worked
      split at worked
      · cases worked
      · cases worked
        simp only [UtteranceWorker.work, List.length_append, List.length_singleton,
          List.map_append, List.sum_append, List.map_singleton, List.sum_singleton, Fetch.work]
        simp only [Bool.false_eq_true, if_false]
        omega
  | waiting =>
      simp only [worker, Option.ite_none_right_eq_some] at worked
      obtain ⟨_, same⟩ := worked
      cases same
      simp only [UtteranceWorker.work]
      omega
  | cleaning =>
      simp only [worker, Option.ite_none_right_eq_some] at worked
      obtain ⟨_, same⟩ := worked
      cases same
      simp only [UtteranceWorker.work]
      omega
  | ended =>
      simp only [worker] at worked
      cases worked

theorem workerCancelled_remaining (cancelled : session.workerCancelled = some next) :
    next.remaining < session.remaining := by
  unfold YandexSession.workerCancelled at cancelled
  unfold remaining
  split at cancelled
  · cases cancelled
  · cases worker : session.worker with
    | ended =>
        simp only [worker] at cancelled
        cases cancelled
    | taking =>
        simp only [worker] at cancelled
        cases cancelled
        simp only [UtteranceWorker.work]
        omega
    | acquiring segment =>
        simp only [worker] at cancelled
        cases cancelled
        simp only [UtteranceWorker.work]
        omega
    | waiting =>
        simp only [worker] at cancelled
        cases cancelled
        simp only [UtteranceWorker.work]
        omega
    | cleaning =>
        simp only [worker] at cancelled
        cases cancelled
        simp only [UtteranceWorker.work]
        omega

theorem popAudio_remaining {number : Nat} {segment : Segment} {item : AudioItem}
    {rest : List AudioItem} (found : session.segments[number]? = some segment)
    (queued : segment.audio = item :: rest) :
    (session.popAudio number).remaining + item.work = session.remaining := by
  have moved := sum_modify Segment.work found
    (fun found => { found with audio := found.audio.tail })
  unfold remaining popAudio setSegment
  simp only [Segment.work, queued, List.tail_cons, List.map_cons, List.sum_cons] at moved ⊢
  omega

theorem forward_remaining (moved : session.forward = some next) :
    next.remaining < session.remaining := by
  have moving := forward_forwarder moved
  unfold YandexSession.forward at moved
  rcases moving with forwarder | ⟨segment, forwarder⟩
  · unfold remaining
    simp only [forwarder] at moved
    split at moved
    · cases moved
    · rename_i rest order
      cases moved
      simp only [order, forwarder, Forwarder.work, List.length_cons]
      omega
    · rename_i segment rest order
      cases moved
      simp only [order, forwarder, Forwarder.work, List.length_cons]
      omega
  · simp only [forwarder] at moved
    split at moved
    · cases moved
    · rename_i found known
      split at moved
      · cases moved
      · have popped := popAudio_remaining known ‹_›
        cases moved
        unfold remaining at popped ⊢
        simp only [popAudio, setSegment, forwarder, Forwarder.work, AudioItem.work] at popped ⊢
        omega
      · have popped := popAudio_remaining known ‹_›
        cases moved
        unfold remaining at popped ⊢
        simp only [popAudio, setSegment, fail, forwarder, Forwarder.work,
          AudioItem.work] at popped ⊢
        omega
      · have popped := popAudio_remaining known ‹_›
        split at moved
        · cases moved
          unfold remaining at popped ⊢
          simp only [popAudio, setSegment, forwarder, Forwarder.work,
            AudioItem.work] at popped ⊢
          omega
        · cases moved
          unfold remaining at popped ⊢
          simp only [popAudio, setSegment, forwarder, Forwarder.work,
            AudioItem.work] at popped ⊢
          omega

theorem handed_remaining {raised : Option Text} (through : session.handed raised = some next) :
    next.remaining < session.remaining := by
  obtain ⟨segment, forwarder⟩ := handed_forwarder through
  unfold YandexSession.handed at through
  unfold remaining
  simp only [forwarder] at through
  split at through
  · cases through
    simp only [forwarder, Forwarder.work]
    omega
  · cases through
    simp only [fail, forwarder, Forwarder.work]
    omega

theorem markEnded_work_le (fetches : List Fetch) (number : Nat) :
    ((markEnded fetches number).map Fetch.work).sum ≤ (fetches.map Fetch.work).sum := by
  unfold markEnded
  rw [List.map_map]
  refine List.sum_le_sum ?_
  rintro ⟨segment, ended⟩ _
  dsimp only [Function.comp]
  split
  · cases ended with
    | true => exact Nat.le_refl _
    | false =>
        change 1 ≤ 3
        decide
  · exact Nat.le_refl _

theorem markEnded_work {fetches : List Fetch} {number : Nat}
    (flying : { segment := number } ∈ fetches) :
    ((markEnded fetches number).map Fetch.work).sum + 2 ≤ (fetches.map Fetch.work).sum := by
  induction fetches with
  | nil => cases flying
  | cons first rest ih =>
      unfold markEnded at ih ⊢
      simp only [List.map_cons, List.sum_cons]
      rcases List.mem_cons.mp flying with rfl | later
      · have others := markEnded_work_le rest number
        unfold markEnded at others
        simp only [if_true, Fetch.work, Bool.false_eq_true, if_false] at others ⊢
        omega
      · have others := ih later
        have one := markEnded_work_le [first] number
        unfold markEnded at one
        simp only [List.map_singleton, List.sum_singleton] at one
        omega

theorem erase_work {fetches : List Fetch} {fetch : Fetch} (member : fetch ∈ fetches) :
    ((fetches.erase fetch).map Fetch.work).sum + fetch.work = (fetches.map Fetch.work).sum := by
  rw [((List.perm_cons_erase member).map Fetch.work).sum_eq, List.map_cons, List.sum_cons]
  exact Nat.add_comm _ _

theorem own_step {action : SynthesisAction} (plays : session.Plays reader started)
    (own : action.isOwn = true) (done : session.step action = some next) :
    next.remaining < session.remaining := by
  cases action with
  | work => exact work_remaining done
  | workerCancelled => exact workerCancelled_remaining done
  | forward => exact forward_remaining done
  | handed raised => exact handed_remaining done
  | errorReported =>
      obtain ⟨failing, same⟩ := Option.ite_none_right_eq_some.mp done
      cases same
      unfold remaining
      simp only [failing, Forwarder.work]
      omega
  | forwarderCancelled =>
      simp only [YandexSession.step, Option.ite_none_right_eq_some] at done
      obtain ⟨⟨_, running⟩, same⟩ := done
      cases same
      have busy : 0 < session.forwarder.work := by
        cases forwarder : session.forwarder with
        | ended => exact absurd forwarder running
        | ordering => exact Nat.succ_pos _
        | playing segment => exact Nat.succ_pos _
        | handing segment => exact Nat.succ_pos _
        | failing => exact Nat.succ_pos _
      have stopped : Forwarder.ended.work = 0 := rfl
      unfold remaining
      dsimp only
      rw [stopped]
      omega
  | fetchEnds number outcome =>
      obtain ⟨flying, same⟩ := Option.ite_none_right_eq_some.mp done
      cases same
      have flying := (Plays.fetching_iff number).mp flying
      obtain ⟨segment, found, _⟩ := plays.running number flying
      have fewer := markEnded_work flying
      have moved := sum_modify Segment.work found (conclude · outcome)
      have mark : (outcome.mark.map AudioItem.work).sum ≤ 1 := by
        cases outcome with
        | returned => exact Nat.le_refl _
        | raised message => exact Nat.le_refl _
        | silent => exact Nat.zero_le _
      unfold remaining setSegment
      simp only [Segment.work, conclude, List.map_append, List.sum_append] at moved ⊢
      omega
  | fetchDone number =>
      obtain ⟨member, same⟩ := Option.ite_none_right_eq_some.mp done
      cases same
      have fewer := erase_work member
      unfold remaining
      simp only [Fetch.work, if_true] at fewer ⊢
      omega
  | sendText text segments => cases own
  | flush segments => cases own
  | abandon => cases own
  | close => cases own
  | chunk number data => cases own

def AtRest (session : YandexSession) : Prop :=
  ∀ action : SynthesisAction, action.isOwn = true → session.step action = none

theorem AtRest.fetches (rest : session.AtRest) : session.fetches = [] := by
  refine List.eq_nil_iff_forall_not_mem.mpr ?_
  rintro ⟨number, ended⟩ member
  cases ended with
  | true =>
      have idle := rest (.fetchDone number) rfl
      simp only [YandexSession.step] at idle
      rw [if_pos member] at idle
      cases idle
  | false =>
      have idle := rest (.fetchEnds number .returned) rfl
      simp only [YandexSession.step] at idle
      rw [if_pos ((Plays.fetching_iff number).mpr member)] at idle
      cases idle

theorem AtRest.unstarted (rest : session.AtRest) (smooth : session.Smooth)
    (slotted : session.Slotted) (number : Nat) : ¬ session.Unstarted number := by
  have idle := rest .work rfl
  simp only [YandexSession.step, YandexSession.work] at idle
  unfold Unstarted
  cases worker : session.worker with
  | taking =>
      simp only [worker] at idle
      cases queue : session.queue with
      | nil => exact List.not_mem_nil
      | cons item others =>
          rw [queue] at idle
          cases item with
          | none =>
              dsimp only at idle
              cases idle
          | some segment =>
              dsimp only at idle
              split at idle
              · cases idle
              · cases idle
  | acquiring segment =>
      simp only [worker] at idle
      split at idle
      · rename_i full
        unfold Slotted at slotted
        rw [rest.fetches, full] at slotted
        cases slotted
      · cases idle
  | waiting =>
      rw [smooth.afterLoop (by rw [worker]; rfl)]
      exact List.not_mem_nil
  | cleaning =>
      rw [smooth.afterLoop (by rw [worker]; rfl)]
      exact List.not_mem_nil
  | ended =>
      rw [smooth.afterLoop (by rw [worker]; rfl)]
      exact List.not_mem_nil

theorem Smooth.at_rest (smooth : session.Smooth) (plays : session.Plays reader started)
    (slotted : session.Slotted) (rest : session.AtRest) : session.Complete := by
  have unstarted := rest.unstarted smooth slotted
  have idle := rest .forward rfl
  simp only [YandexSession.step, YandexSession.forward] at idle
  cases forwarder : session.forwarder with
  | ended => exact (smooth.ended forwarder).2
  | failing => exact absurd forwarder smooth.alive
  | handing segment =>
      have through := rest (.handed none) rfl
      simp only [YandexSession.step, YandexSession.handed, forwarder] at through
      cases through
  | ordering =>
      simp only [forwarder] at idle
      cases order : session.order with
      | nil =>
          have line := (plays.ordering forwarder).2
          rw [order] at line
          have length := congrArg List.length line
          rw [List.length_range'] at length
          have none : started - reader.lane = 0 := length.symm
          have begun := plays.begun
          exact smooth.complete plays (by omega) unstarted
      | cons item others =>
          rw [order] at idle
          cases item with
          | none =>
              dsimp only at idle
              cases idle
          | some segment =>
              dsimp only at idle
              cases idle
  | playing segment =>
      have here : session.forwarder.segment = some segment := by rw [forwarder]; rfl
      obtain ⟨rfl, begun, _⟩ := plays.playing segment here
      have bound := Nat.lt_of_lt_of_le begun plays.known
      have found := List.getElem?_eq_getElem bound
      have returned := smooth.placed _ _ found
      rw [rest.fetches] at returned
      have ended := (returned.resolve_right (fun other =>
        other.elim (fun member => by cases member) (unstarted _)))
      have unread := plays.unread (Or.inr (by rw [here]; exact Option.some_ne_none _)) _ _ found
        (Nat.le_refl _)
      simp only [forwarder, found] at idle
      split at idle
      · rename_i empty
        rw [empty, Segment.unread, Segment.mark, ended] at unread
        exact absurd unread.symm (List.append_ne_nil_of_right_ne_nil _ (List.cons_ne_nil _ _))
      · cases idle
      · cases idle
      · split at idle
        · cases idle
        · cases idle

/-! ### Runs -/

def Step (session : YandexSession) (action : SynthesisAction) (next : YandexSession) : Prop :=
  session.step action = some next

def UndisturbedStep (session : YandexSession) (action : SynthesisAction)
    (next : YandexSession) : Prop :=
  session.Step action next ∧ session.Undisturbed action

def synthesized (session : YandexSession) : List UInt8 :=
  (session.segments.map (fun segment => segment.received.flatten)).flatten

theorem chunks_flatten (segment : Segment) : segment.chunks.flatten = segment.received.flatten := by
  unfold Segment.chunks
  induction segment.received with
  | nil => rfl
  | cons data rest ih =>
      by_cases empty : data = []
      · rw [List.filter_cons_of_neg (by simpa using empty), List.flatten_cons, empty,
          List.nil_append, ih]
      · rw [List.filter_cons_of_pos (by simpa using empty), List.flatten_cons,
          List.flatten_cons, ih]

theorem synthesized_eq (session : YandexSession) :
    session.synthesized = (session.segments.map Segment.chunks).flatten.flatten := by
  unfold synthesized
  rw [List.flatten_flatten, List.map_map]
  refine congrArg List.flatten (List.map_congr_left ?_)
  intro segment _
  exact (chunks_flatten segment).symm

theorem plays_run {actions : List SynthesisAction} {last : YandexSession}
    (run : Run Step {} actions last) :
    last.Slotted ∧ ∃ reader started, last.Plays reader started :=
  run.invariant
    (fun state : YandexSession => state.Slotted ∧ ∃ reader started, state.Plays reader started)
    {} ⟨rfl, {}, 0, .initial⟩ (by
      rintro session action next ⟨slotted, reader, started, plays⟩ done
      exact ⟨slotted.step done, plays.step done⟩)

theorem smooth_run {actions : List SynthesisAction} {last : YandexSession}
    (run : Run UndisturbedStep {} actions last) : last.Smooth := by
  induction run with
  | nil => exact .initial
  | snoc before step ih =>
      obtain ⟨_, reader, started, plays⟩ := plays_run (before.mono (fun _ _ _ step => step.1))
      exact ih.step plays step.2 step.1

theorem own_run {session last : YandexSession} {actions : List SynthesisAction}
    (run : Run Step session actions last) (own : ∀ action ∈ actions, action.isOwn = true)
    (reached : ∃ reader started, session.Plays reader started) :
    last.remaining + actions.length ≤ session.remaining := by
  induction run with
  | nil => exact Nat.le_refl _
  | @snoc actions middle last action before done ih =>
      have bound := ih (fun earlier member => own earlier (List.mem_append_left _ member))
      obtain ⟨reader, started, plays⟩ := before.invariant
        (fun state : YandexSession => ∃ reader started, state.Plays reader started) session
        reached (by
          rintro state action next ⟨reader, started, plays⟩ done
          exact plays.step done)
      have less := own_step plays (own action (by simp)) done
      rw [List.length_append, List.length_singleton]
      omega

/-- In every run what is handed to the consumer is a prefix of the segments' audio, segment by
segment, and no more than three syntheses are in flight. A session that is left alone comes to
rest, and then, or once its worker has ended, every segment has been synthesized and all of its
audio handed on. -/
theorem ordered_playback (actions : List SynthesisAction) (last : YandexSession)
    (run : Run Step {} actions last) :
    last.forwarded.flatten <+: last.synthesized ∧
      last.fetches.length ≤ maxInFlight ∧
      (∀ more rest, Run Step last more rest → (∀ action ∈ more, action.isOwn = true) →
        more.length ≤ last.remaining) ∧
      (Run UndisturbedStep {} actions last → last.AtRest ∨ last.worker = .ended →
        last.forwarded.flatten = last.synthesized ∧
          ∀ segment ∈ last.segments, segment.outcome = some .returned) := by
  obtain ⟨slotted, reader, started, plays⟩ := plays_run run
  refine ⟨?_, ?_, ?_, ?_⟩
  · rw [synthesized_eq, plays.read, ← plays.lanes]
    exact reader.read_prefix.flatten
  · unfold Slotted at slotted
    omega
  · intro more rest further own
    have bound := own_run further own ⟨reader, started, plays⟩
    omega
  · intro undisturbed finished
    have smooth := smooth_run undisturbed
    have complete : last.Complete := by
      rcases finished with rest | ended
      · exact smooth.at_rest plays slotted rest
      · exact (smooth.ended (smooth.cleaned (Or.inr ended))).2
    refine ⟨?_, complete.returned⟩
    rw [synthesized_eq, complete.played]

def overtakingSyntheses : List SynthesisAction :=
  [.sendText ['a', 'b'] [['a'], ['b']], .work, .work, .work, .work, .chunk 1 [2],
    .fetchEnds 1 .returned, .forward, .chunk 0 [1], .forward, .handed none,
    .fetchEnds 0 .returned, .flush [], .forward, .fetchDone 1, .fetchDone 0, .work, .forward,
    .forward, .handed none, .forward, .forward, .work, .work]

instance (session : YandexSession) :
    (action : SynthesisAction) → Decidable (session.Undisturbed action)
  | .sendText _ _ => inferInstanceAs (Decidable (session.flushed = false))
  | .flush _ => inferInstanceAs (Decidable (session.flushed = false))
  | .abandon | .close => isFalse id
  | .handed raised => inferInstanceAs (Decidable (raised = none))
  | .fetchEnds _ outcome => inferInstanceAs (Decidable (outcome = .returned))
  | .work | .workerCancelled | .forward | .errorReported | .forwarderCancelled | .chunk _ _
  | .fetchDone _ => isTrue trivial

theorem ordered_playback_overtaking :
    ∃ last, Run Step {} overtakingSyntheses last ∧ last.fetches.length ≤ maxInFlight ∧
      last.forwarded.flatten = last.synthesized := by
  obtain ⟨last, undisturbed, ended⟩ := Run.of_guardedStep step Undisturbed {} overtakingSyntheses
    YandexSession.worker .ended (by decide +kernel)
  have run : Run Step {} overtakingSyntheses last :=
    undisturbed.mono (fun _ _ _ step => step.1)
  obtain ⟨_, bound, _, finished⟩ := ordered_playback overtakingSyntheses last run
  exact ⟨last, run, bound, (finished undisturbed (Or.inr ended)).1⟩

end YandexSession

end Assemblix.Realtime
