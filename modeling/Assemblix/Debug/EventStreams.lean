import Mathlib.Logic.Function.Basic
import Assemblix.Library.Json
import Assemblix.Library.Run

/-
Event streams of debug runs.

A debug request starts a background run and then looks for a stream. The run registers the
stream of its execution in a registry shared by all requests, and the request takes the
first stream it finds there. It then reads the queue of that stream or, when there is a Redis
transport, subscribes to the channel of the execution, where what was published before is lost.
Requests, runs, deliveries and cleanups interleave in any order.
-/

namespace Assemblix.Debug

open Library

inductive DebugEventType
  | stepStart
  | stepComplete
  | streamDelta
  | audioDelta
  | executionComplete
  | error
  deriving DecidableEq, Repr

/-- The types after which a request stops reading. -/
def DebugEventType.terminal : DebugEventType → Bool
  | .executionComplete => true
  | .error => true
  | _ => false

variable {R X : Type}

structure DebugEvent (X : Type) where
  eventType : DebugEventType
  executionId : X
  data : Json
  deriving DecidableEq

/-- What a request writes into its response. -/
inductive Sent (X : Type)
  | started (executionId : X)
  | event (event : DebugEvent X)
  | timeout
  deriving DecidableEq

inductive Generator (X : Type)
  | idle
  | polling (left : Nat)
  | draining (executionId : X)
  | subscribed (executionId : X)
  | lapsed (executionId : X)
  | closed (terminal : Bool)
  deriving DecidableEq

/-- The stream the generator cleans up when it ends. -/
def Generator.attached : Generator X → Option X
  | .draining executionId => some executionId
  | .subscribed executionId => some executionId
  | .lapsed executionId => some executionId
  | _ => none

/-- One request with its run: the execution once the run has created it, what its subscription has
received and it has not read, and every event the run has emitted. -/
structure Request (X : Type) where
  execution : Option X
  generator : Generator X
  inbox : List (DebugEvent X)
  emitted : List (DebugEvent X)
  sent : List (Sent X)
  deriving DecidableEq

def Request.fresh : Request X :=
  { execution := none, generator := .idle, inbox := [], emitted := [], sent := [] }

def Request.ended (request : Request X) : Bool :=
  request.emitted.any (fun event => event.eventType.terminal)

/-- The executions created so far, the registered ones, oldest first, and the queue objects; a
queue lives on after it was taken out of the registry. `cleanups` notes which request removed
which stream. -/
structure DebugEventManager (R X : Type) where
  hasRedisTransport : Bool
  executions : List X
  streams : List X
  queues : X → List (DebugEvent X)
  requests : R → Request X
  cleanups : List (R × X)

inductive DebugAction (X : Type)
  | dispatch
  | createStream (executionId : X)
  | emit (eventType : DebugEventType) (data : Json)
  | poll
  | subscribe
  | deliver
  | keepalive
  | disconnect
  | expire

namespace DebugEventManager

section

variable [DecidableEq R] [DecidableEq X] (manager : DebugEventManager R X) (request : R)

def initial (hasRedisTransport : Bool) : DebugEventManager R X :=
  { hasRedisTransport := hasRedisTransport
    executions := []
    streams := []
    queues := fun _ => []
    requests := fun _ => .fresh
    cleanups := [] }

def withRequest (changed : Request X) : DebugEventManager R X :=
  { manager with requests := Function.update manager.requests request changed }

/-- `cleanup_stream`. -/
def cleanupStream (executionId : X) : DebugEventManager R X :=
  { manager with
    streams := manager.streams.filter (fun other => !decide (other = executionId)) }

/-- The `finally` of the generator. -/
def closeGenerator (executionId : X) : DebugEventManager R X :=
  { manager.cleanupStream executionId with
    cleanups := manager.cleanups ++ [(request, executionId)] }

/-- `emit_event`: published to those who have subscribed, or put into the queue of the stream. -/
def emitEvent (event : DebugEvent X) : DebugEventManager R X :=
  if manager.hasRedisTransport then
    { manager with
      requests := fun other =>
        if (manager.requests other).generator = .subscribed event.executionId then
          { manager.requests other with inbox := (manager.requests other).inbox ++ [event] }
        else manager.requests other }
  else if event.executionId ∈ manager.streams then
    { manager with
      queues := Function.update manager.queues event.executionId
        (manager.queues event.executionId ++ [event]) }
  else manager

/-- An event is written into the response, which ends with a terminal one. -/
def send (executionId : X) (event : DebugEvent X) : DebugEventManager R X :=
  let sent := (manager.requests request).sent ++ [Sent.event event]
  if event.eventType.terminal then
    (manager.closeGenerator request executionId).withRequest request
      { manager.requests request with generator := .closed true, sent := sent }
  else manager.withRequest request { manager.requests request with sent := sent }

def step : DebugAction X → Option (DebugEventManager R X)
  | .dispatch =>
      match (manager.requests request).generator with
      | .idle => some (manager.withRequest request
          { manager.requests request with generator := .polling 100 })
      | _ => none
  | .createStream executionId =>
      match (manager.requests request).generator, (manager.requests request).execution with
      | .idle, _ => none
      | _, some _ => none
      | _, none =>
          if executionId ∈ manager.executions ∨ executionId ∈ manager.streams then none
          else some
            ({ manager with
                executions := manager.executions ++ [executionId]
                streams := manager.streams ++ [executionId]
                queues := Function.update manager.queues executionId [] }.withRequest request
              { manager.requests request with execution := some executionId })
  | .emit eventType data =>
      match (manager.requests request).execution with
      | none => none
      | some executionId =>
          if (manager.requests request).ended then none
          else
            let event : DebugEvent X := ⟨eventType, executionId, data⟩
            let told := manager.emitEvent event
            some (told.withRequest request
              { told.requests request with emitted := (told.requests request).emitted ++ [event] })
  | .poll =>
      match (manager.requests request).generator with
      | .polling (left + 1) =>
          match manager.streams with
          | executionId :: _ =>
              some (manager.withRequest request
                { manager.requests request with
                  generator := .draining executionId
                  sent := (manager.requests request).sent ++ [Sent.started executionId] })
          | [] =>
              some (manager.withRequest request
                (if left = 0 then
                  { manager.requests request with
                    generator := .closed false
                    sent := (manager.requests request).sent ++ [Sent.timeout] }
                else { manager.requests request with generator := .polling left }))
      | _ => none
  | .subscribe =>
      match (manager.requests request).generator with
      | .draining executionId =>
          if manager.hasRedisTransport then
            some (manager.withRequest request
              { manager.requests request with generator := .subscribed executionId, inbox := [] })
          else none
      | _ => none
  | .deliver =>
      match (manager.requests request).generator with
      | .draining executionId =>
          if manager.hasRedisTransport then none
          else
            match manager.queues executionId with
            | [] => none
            | event :: rest =>
                some ({ manager with
                  queues := Function.update manager.queues executionId rest }.send
                    request executionId event)
      | .subscribed executionId =>
          match (manager.requests request).inbox with
          | [] => none
          | event :: rest =>
              some ((manager.withRequest request
                { manager.requests request with inbox := rest }).send request executionId event)
      | .lapsed executionId =>
          some ((manager.closeGenerator request executionId).withRequest request
            { manager.requests request with generator := .closed true })
      | _ => none
  | .keepalive =>
      match (manager.requests request).generator, (manager.requests request).inbox with
      | .subscribed executionId, [] =>
          -- the timeout cancels the read, and with it the subscription
          some (manager.withRequest request
            { manager.requests request with generator := .lapsed executionId })
      | _, _ => none
  | .disconnect =>
      match (manager.requests request).generator.attached with
      | some executionId =>
          some ((manager.closeGenerator request executionId).withRequest request
            { manager.requests request with generator := .closed false })
      | none =>
          match (manager.requests request).generator with
          | .polling _ => some (manager.withRequest request
              { manager.requests request with generator := .closed false })
          | _ => none
  | .expire =>
      match (manager.requests request).execution with
      | some executionId =>
          if (manager.requests request).ended then some (manager.cleanupStream executionId)
          else none
      | none => none

/-- A poll finds the request's own stream first, and a subscription is there before the run has
emitted anything and is not left without an event for the time of a keepalive. -/
def careful : DebugAction X → Bool
  | .poll =>
      match manager.streams.head? with
      | none => true
      | some executionId => decide ((manager.requests request).execution = some executionId)
  | .subscribe => (manager.requests request).emitted.isEmpty
  | .keepalive => false
  | _ => true

def Step (manager : DebugEventManager R X) (label : R × DebugAction X)
    (next : DebugEventManager R X) : Prop :=
  manager.step label.1 label.2 = some next

def CarefulStep (manager : DebugEventManager R X) (label : R × DebugAction X)
    (next : DebugEventManager R X) : Prop :=
  manager.Step label next ∧ manager.careful label.1 label.2 = true

end

end DebugEventManager

/-! ### What a request may be sent -/

def Sent.executionOf : Sent X → Option X
  | .started executionId => some executionId
  | .event carried => some carried.executionId
  | .timeout => none

def Sent.eventOf : Sent X → Option (DebugEvent X)
  | .event carried => some carried
  | _ => none

def Request.delivered (request : Request X) : List (DebugEvent X) :=
  request.sent.filterMap Sent.eventOf

/-- What a request that reads has still to read. -/
def DebugEventManager.awaited (manager : DebugEventManager R X) (request : Request X) :
    Option (List (DebugEvent X)) :=
  match request.generator with
  | .draining executionId =>
      if manager.hasRedisTransport then none else some (manager.queues executionId)
  | .subscribed _ => some request.inbox
  | _ => none

/-- The response has ended by itself, or will. -/
def Generator.finished : Generator X → Bool
  | .lapsed _ => true
  | .closed terminal => terminal
  | _ => false

/-- Everything sent is about the request's own execution; its events come in order from the
first; while the request reads none is missing, and when the response ends by itself all of them
were sent and the last was terminal. -/
structure Request.Routed (manager : DebugEventManager R X) (request : Request X) : Prop where
  own : ∀ sent ∈ request.sent, ∀ executionId, sent.executionOf = some executionId →
    request.execution = some executionId
  inOrder : request.delivered <+: request.emitted
  unbroken : ∀ rest, manager.awaited request = some rest →
    request.delivered ++ rest = request.emitted
  complete : request.generator.finished = true → request.delivered = request.emitted ∧
    request.ended = true

structure DebugEventManager.Routed (manager : DebugEventManager R X) : Prop where
  requests : ∀ request, (manager.requests request).Routed manager
  cleanups : ∀ cleanup ∈ manager.cleanups,
    (manager.requests cleanup.1).execution = some cleanup.2

/-! ### The invariant -/

/-- The queue has what was not delivered yet, and stays registered until the run is over. -/
structure Request.ReadsQueue (manager : DebugEventManager R X) (request : Request X)
    (executionId : X) : Prop where
  rest : request.delivered ++ manager.queues executionId = request.emitted
  registered : request.ended = true ∨ executionId ∈ manager.streams

def Request.Attends (manager : DebugEventManager R X) (request : Request X) : Generator X → Prop
  | .idle => request.execution = none ∧ request.sent = []
  | .polling _ => request.sent = [] ∧ (manager.hasRedisTransport = false →
      ∀ executionId, request.execution = some executionId → request.ReadsQueue manager executionId)
  | .draining executionId => request.execution = some executionId ∧
      if manager.hasRedisTransport then request.delivered = []
      else request.ReadsQueue manager executionId
  | .subscribed executionId => request.execution = some executionId ∧
      manager.hasRedisTransport = true ∧ request.delivered ++ request.inbox = request.emitted ∧
      ∀ event ∈ request.delivered, event.eventType.terminal = false
  | .lapsed _ => False
  | .closed terminal => terminal = true →
      request.delivered = request.emitted ∧ request.ended = true

structure Request.Sound (manager : DebugEventManager R X) (request : Request X) : Prop where
  own : ∀ sent ∈ request.sent, ∀ executionId, sent.executionOf = some executionId →
    request.execution = some executionId
  emittedOwn : ∀ event ∈ request.emitted, request.execution = some event.executionId
  terminalLast : ∀ before event after, request.emitted = before ++ event :: after →
    event.eventType.terminal = true → after = []
  unsent : request.execution = none → request.delivered = []
  inOrder : request.delivered <+: request.emitted
  attends : request.Attends manager request.generator

structure DebugEventManager.Sound (manager : DebugEventManager R X) : Prop where
  requests : ∀ request, (manager.requests request).Sound manager
  distinct : ∀ left right executionId, (manager.requests left).execution = some executionId →
    (manager.requests right).execution = some executionId → left = right
  created : ∀ request executionId, (manager.requests request).execution = some executionId →
    executionId ∈ manager.executions
  cleanups : ∀ cleanup ∈ manager.cleanups,
    (manager.requests cleanup.1).execution = some cleanup.2

section Requests

variable {manager after : DebugEventManager R X} {request : Request X} {event : DebugEvent X}
  {rest inbox : List (DebugEvent X)} {executionId : X}

theorem Request.Sound.attached (sound : request.Sound manager)
    (attached : request.generator.attached = some executionId) :
    request.execution = some executionId := by
  have attends := sound.attends
  cases generator : request.generator with
  | draining other =>
      rw [generator] at attached attends
      cases attached
      exact attends.1
  | subscribed other =>
      rw [generator] at attached attends
      cases attached
      exact attends.1
  | lapsed other =>
      rw [generator] at attends
      exact attends.elim
  | _ =>
      rw [generator] at attached
      cases attached

theorem Request.Sound.draining (sound : request.Sound manager)
    (drains : request.generator = .draining executionId) :
    if manager.hasRedisTransport then request.delivered = []
    else request.ReadsQueue manager executionId := by
  have attends := sound.attends
  rw [drains] at attends
  exact attends.2

theorem Request.Sound.hearing (sound : request.Sound manager)
    (hears : request.generator = .subscribed executionId) :
    manager.hasRedisTransport = true ∧ request.delivered ++ request.inbox = request.emitted ∧
      ∀ event ∈ request.delivered, event.eventType.terminal = false := by
  have attends := sound.attends
  rw [hears] at attends
  exact attends.2

/-- What a request relies on when the others move. -/
theorem Request.Sound.elsewhere (sound : request.Sound manager)
    (transport : after.hasRedisTransport = manager.hasRedisTransport)
    (apart : ∀ executionId, request.execution = some executionId →
      after.queues executionId = manager.queues executionId ∧
        (executionId ∈ manager.streams → request.ended = true ∨ executionId ∈ after.streams)) :
    request.Sound after := by
  have moved : ∀ executionId, request.execution = some executionId →
      request.ReadsQueue manager executionId → request.ReadsQueue after executionId := by
    intro executionId own reads
    obtain ⟨sameQueue, stays⟩ := apart executionId own
    constructor
    · rw [sameQueue]
      exact reads.rest
    · exact reads.registered.elim .inl stays
  have attends := sound.attends
  refine { sound with attends := ?_ }
  cases generator : request.generator with
  | polling left =>
      rw [generator] at attends
      refine ⟨attends.1, ?_⟩
      rw [transport]
      exact fun unpublished executionId own =>
        moved executionId own (attends.2 unpublished executionId own)
  | draining executionId =>
      rw [generator] at attends
      obtain ⟨own, reads⟩ := attends
      refine ⟨own, ?_⟩
      rw [transport]
      split at reads
      case isTrue published =>
        rw [if_pos published]
        exact reads
      case isFalse unpublished =>
        rw [if_neg unpublished]
        exact moved executionId own reads
  | subscribed executionId =>
      rw [generator] at attends
      obtain ⟨own, published, rest⟩ := attends
      exact ⟨own, transport.trans published, rest⟩
  | _ =>
      rw [generator] at attends
      exact attends

theorem Request.Sound.silent (sound : request.Sound manager)
    (unstarted : request.execution = none) : request.emitted = [] := by
  apply List.eq_nil_iff_forall_not_mem.mpr
  intro event emitted
  cases unstarted.symm.trans (sound.emittedOwn event emitted)

theorem Request.Sound.created (sound : request.Sound manager)
    (unstarted : request.execution = none) (started : request.generator ≠ .idle)
    (empty : after.queues executionId = []) (registered : executionId ∈ after.streams) :
    Request.Sound after { request with execution := some executionId } := by
  have unattached : ∀ other, request.generator.attached ≠ some other := by
    intro other attached
    cases unstarted.symm.trans (sound.attached attached)
  have attends := sound.attends
  exact
    { sound with
      own := by
        intro sent member other owns
        cases unstarted.symm.trans (sound.own sent member other owns)
      emittedOwn := by
        intro event emitted
        change event ∈ request.emitted at emitted
        rw [sound.silent unstarted] at emitted
        cases emitted
      unsent := fun absent => by cases absent
      attends := by
        change Request.Attends after _ request.generator
        cases generator : request.generator with
        | idle => exact absurd generator started
        | polling left =>
            rw [generator] at attends
            refine ⟨attends.1, ?_⟩
            intro _ own same
            cases same
            refine ⟨?_, .inr registered⟩
            change request.delivered ++ after.queues executionId = request.emitted
            rw [sound.unsent unstarted, sound.silent unstarted, empty]
            rfl
        | closed terminal =>
            rw [generator] at attends
            exact attends
        | draining other | subscribed other | lapsed other =>
            apply absurd _ (unattached other)
            rw [generator]
            rfl }

theorem Request.delivered_append (request : Request X) (sent : Sent X) :
    Request.delivered { request with sent := request.sent ++ [sent] } =
      request.delivered ++ (sent.eventOf).toList := by
  unfold delivered
  rw [List.filterMap_append]
  cases eventOf : sent.eventOf <;> simp [eventOf]

theorem Request.ended_of_emitted (emitted : event ∈ request.emitted)
    (terminal : event.eventType.terminal = true) : request.ended = true := by
  unfold Request.ended
  rw [List.any_eq_true]
  exact ⟨event, emitted, terminal⟩

/-- The run emits: the event goes to the end of what is still to be read. -/
theorem Request.Sound.emits (sound : request.Sound manager)
    (owns : request.execution = some event.executionId) (running : ¬ request.ended = true)
    (transport : after.hasRedisTransport = manager.hasRedisTransport)
    (streams : after.streams = manager.streams)
    (queued : manager.hasRedisTransport = false → event.executionId ∈ manager.streams →
      after.queues event.executionId = manager.queues event.executionId ++ [event])
    (published : ∀ executionId, request.generator = .subscribed executionId →
      inbox = request.inbox ++ [event]) :
    Request.Sound after
      { request with inbox := inbox, emitted := request.emitted ++ [event] } := by
  have reads : ∀ generator executionId, request.execution = some executionId →
      manager.hasRedisTransport = false → request.ReadsQueue manager executionId →
      Request.ReadsQueue after
        { request with
          generator := generator
          inbox := inbox
          emitted := request.emitted ++ [event] } executionId := by
    intro generator executionId own unpublished reads
    cases owns.symm.trans own
    have there := reads.registered.resolve_left running
    constructor
    · change request.delivered ++ _ = request.emitted ++ _
      rw [queued unpublished there, ← List.append_assoc, reads.rest]
    · right
      rw [streams]
      exact there
  have attends := sound.attends
  exact
    { sound with
      emittedOwn := by
        intro other emitted
        rcases List.mem_append.mp emitted with old | new
        · exact sound.emittedOwn other old
        · rw [List.mem_singleton.mp new]
          exact owns
      terminalLast := by
        intro before other after split terminal
        rcases List.eq_nil_or_concat after with empty | ⟨earlier, last, concat⟩
        · exact empty
        · rw [concat, List.concat_eq_append, ← List.cons_append, ← List.append_assoc] at split
          obtain ⟨same, _⟩ := List.append_inj' split rfl
          apply absurd _ running
          apply Request.ended_of_emitted _ terminal
          rw [same]
          simp
      inOrder := sound.inOrder.trans (List.prefix_append _ _)
      attends := by
        change Request.Attends after _ request.generator
        cases generator : request.generator with
        | idle =>
            rw [generator] at attends
            cases owns.symm.trans attends.1
        | polling left =>
            rw [generator] at attends
            refine ⟨attends.1, ?_⟩
            rw [transport]
            exact fun unpublished executionId own =>
              reads _ executionId own unpublished (attends.2 unpublished executionId own)
        | draining executionId =>
            rw [generator] at attends
            obtain ⟨own, before⟩ := attends
            refine ⟨own, ?_⟩
            rw [transport]
            split at before
            case isTrue shared =>
              rw [if_pos shared]
              exact before
            case isFalse unpublished =>
              rw [if_neg unpublished]
              exact reads _ executionId own ((Bool.not_eq_true _).mp unpublished) before
        | subscribed executionId =>
            rw [generator] at attends
            obtain ⟨own, shared, before, ongoing⟩ := attends
            refine ⟨own, transport.trans shared, ?_, ongoing⟩
            change request.delivered ++ inbox = request.emitted ++ _
            rw [published executionId generator, ← List.append_assoc, before]
        | lapsed executionId =>
            rw [generator] at attends
            exact attends.elim
        | closed terminal =>
            rw [generator] at attends
            exact fun finished => absurd (attends finished).2 running }

/-- The next event is sent: what is left to show is what the generator then relies on. -/
theorem Request.Sound.sends (sound : request.Sound manager)
    (arrives : request.delivered ++ event :: rest = request.emitted) {generator : Generator X}
    (attends : Request.Attends after
      { request with
        generator := generator
        inbox := inbox
        sent := request.sent ++ [.event event] } generator) :
    Request.Sound after
      { request with
        generator := generator
        inbox := inbox
        sent := request.sent ++ [.event event] } := by
  have member : event ∈ request.emitted := by
    rw [← arrives]
    exact List.mem_append_right _ List.mem_cons_self
  have owns := sound.emittedOwn event member
  exact
    { sound with
      own := by
        intro sent member executionId about
        rcases List.mem_append.mp member with old | new
        · exact sound.own sent old executionId about
        · rw [List.mem_singleton.mp new] at about
          cases about
          exact owns
      unsent := fun absent => by cases owns.symm.trans absent
      inOrder := by
        have kept : (request.delivered ++ [event]) ++ rest = request.emitted := by
          rw [List.append_assoc]
          exact arrives
        exact ⟨rest, (congrArg (· ++ rest) (request.delivered_append (.event event))).trans kept⟩
      attends := attends }

end Requests

namespace DebugEventManager

theorem initial_sound {hasRedisTransport : Bool} :
    (initial hasRedisTransport : DebugEventManager R X).Sound where
  requests := by
    intro request
    constructor <;> simp [initial, Request.fresh, Request.delivered, Request.Attends]
  distinct := by simp [initial, Request.fresh]
  created := by simp [initial, Request.fresh]
  cleanups := by simp [initial]

section

variable [DecidableEq R] {manager changed : DebugEventManager R X} {request other : R}

theorem withRequest_self (after : Request X) :
    (manager.withRequest request after).requests request = after := Function.update_self _ _ _

theorem withRequest_of_ne (after : Request X) (different : other ≠ request) :
    (manager.withRequest request after).requests other = manager.requests other :=
  Function.update_of_ne different _ _

/-- A step of one request: what it changes besides the request itself concerns that request's
execution only. -/
theorem Sound.act (sound : manager.Sound) {after : Request X}
    (same : ∀ other, other ≠ request → changed.requests other = manager.requests other)
    (transport : changed.hasRedisTransport = manager.hasRedisTransport)
    (executions : changed.executions = manager.executions)
    (keeps : after.execution = (manager.requests request).execution) (own : after.Sound changed)
    (apart : ∀ executionId, (manager.requests request).execution ≠ some executionId →
      changed.queues executionId = manager.queues executionId ∧
        (executionId ∈ manager.streams → executionId ∈ changed.streams))
    (cleanups : ∀ cleanup ∈ changed.cleanups, cleanup ∈ manager.cleanups ∨
      (cleanup.1 = request ∧ after.execution = some cleanup.2)) :
    (changed.withRequest request after).Sound := by
  have executionOf : ∀ other,
      ((changed.withRequest request after).requests other).execution =
        (manager.requests other).execution := by
    intro other
    by_cases self : other = request
    · subst self
      rw [withRequest_self, keeps]
    · rw [withRequest_of_ne _ self, same other self]
  constructor
  · intro other
    by_cases self : other = request
    · subst self
      rw [withRequest_self]
      exact own.elsewhere rfl (fun _ _ => ⟨rfl, .inr⟩)
    · rw [withRequest_of_ne _ self, same other self]
      apply (sound.requests other).elsewhere
      · exact transport
      · intro executionId named
        have foreign : (manager.requests request).execution ≠ some executionId := by
          intro shared
          exact self (sound.distinct other request executionId named shared)
        exact ⟨(apart executionId foreign).1, fun member => .inr ((apart executionId foreign).2 member)⟩
  · intro left right executionId leftOwns rightOwns
    rw [executionOf] at leftOwns rightOwns
    exact sound.distinct left right executionId leftOwns rightOwns
  · intro other executionId owns
    rw [executionOf] at owns
    change executionId ∈ changed.executions
    rw [executions]
    exact sound.created other executionId owns
  · intro cleanup member
    rw [executionOf]
    rcases cleanups cleanup member with old | ⟨self, owns⟩
    · exact sound.cleanups cleanup old
    · rw [self, ← keeps]
      exact owns

theorem Sound.alone (sound : manager.Sound) {after : Request X}
    (keeps : after.execution = (manager.requests request).execution) (own : after.Sound manager) :
    (manager.withRequest request after).Sound :=
  sound.act (fun _ _ => rfl) rfl rfl keeps own (fun _ _ => ⟨rfl, id⟩)
    (fun _ member => .inl member)

end

variable [DecidableEq R] [DecidableEq X] {manager changed next : DebugEventManager R X}
  {request : R}

theorem stays_registered {streams : List X} {executionId other : X}
    (different : other ≠ executionId) (member : other ∈ streams) :
    other ∈ streams.filter (fun kept => !decide (kept = executionId)) := by
  rw [List.mem_filter]
  exact ⟨member, by simp [different]⟩

/-- A read changes the queue of its own stream at most, besides the request itself. -/
structure Spares (manager changed : DebugEventManager R X) (request : R) (executionId : X) :
    Prop where
  others : ∀ other, other ≠ request → changed.requests other = manager.requests other
  transport : changed.hasRedisTransport = manager.hasRedisTransport
  executions : changed.executions = manager.executions
  streams : changed.streams = manager.streams
  cleanups : changed.cleanups = manager.cleanups
  queues : ∀ other, other ≠ executionId → changed.queues other = manager.queues other

/-- A generator ends and cleans up its own stream. -/
theorem Sound.close (sound : manager.Sound) {executionId : X} {after : Request X}
    (spares : Spares manager changed request executionId)
    (owns : (manager.requests request).execution = some executionId)
    (keeps : after.execution = (manager.requests request).execution)
    (own : after.Sound (changed.closeGenerator request executionId)) :
    ((changed.closeGenerator request executionId).withRequest request after).Sound := by
  have apart : ∀ other, (manager.requests request).execution ≠ some other → other ≠ executionId := by
    intro other different same
    rw [same] at different
    exact different owns
  apply sound.act
  · exact spares.others
  · exact spares.transport
  · exact spares.executions
  · exact keeps
  · exact own
  · intro other different
    constructor
    · exact spares.queues other (apart other different)
    · intro member
      apply stays_registered (apart other different)
      rw [spares.streams]
      exact member
  · intro cleanup member
    change cleanup ∈ changed.cleanups ++ _ at member
    rw [spares.cleanups] at member
    rcases List.mem_append.mp member with old | new
    · exact .inl old
    · rw [List.mem_singleton.mp new]
      exact .inr ⟨rfl, keeps.trans owns⟩

theorem Sound.dispatch (sound : manager.Sound) (taken : manager.step request .dispatch = some next) :
    next.Sound := by
  have self := sound.requests request
  simp only [step] at taken
  split at taken
  case h_2 => cases taken
  case h_1 idle =>
    cases taken
    have attends := self.attends
    rw [idle] at attends
    obtain ⟨unstarted, unsent⟩ := attends
    apply sound.alone
    · rfl
    · refine { self with attends := ⟨unsent, ?_⟩ }
      intro _ executionId owns
      cases unstarted.symm.trans owns

theorem Sound.createStream (sound : manager.Sound) {executionId : X}
    (taken : manager.step request (.createStream executionId) = some next) : next.Sound := by
  have self := sound.requests request
  simp only [step] at taken
  split at taken
  case h_1 => cases taken
  case h_2 => cases taken
  case h_3 unstarted started =>
    split at taken
    case isTrue => cases taken
    case isFalse fresh =>
      cases taken
      rw [not_or] at fresh
      have unknown : ∀ other, (manager.requests other).execution ≠ some executionId := by
        intro other owns
        exact fresh.1 (sound.created other executionId owns)
      constructor
      · intro other
        by_cases same : other = request
        · subst same
          rw [withRequest_self]
          apply self.created unstarted started
          · exact Function.update_self _ _ _
          · exact List.mem_append_right _ List.mem_cons_self
        · rw [withRequest_of_ne _ same]
          apply (sound.requests other).elsewhere
          · rfl
          · intro owned owns
            have different : owned ≠ executionId := by
              intro equal
              rw [equal] at owns
              exact unknown other owns
            exact ⟨Function.update_of_ne different _ _,
              fun member => .inr (List.mem_append_left _ member)⟩
      · intro left right owned leftOwns rightOwns
        by_cases leftSame : left = request
        · by_cases rightSame : right = request
          · exact leftSame.trans rightSame.symm
          · subst leftSame
            rw [withRequest_self] at leftOwns
            rw [withRequest_of_ne _ rightSame] at rightOwns
            cases leftOwns
            exact absurd rightOwns (unknown right)
        · by_cases rightSame : right = request
          · subst rightSame
            rw [withRequest_of_ne _ leftSame] at leftOwns
            rw [withRequest_self] at rightOwns
            cases rightOwns
            exact absurd leftOwns (unknown left)
          · rw [withRequest_of_ne _ leftSame] at leftOwns
            rw [withRequest_of_ne _ rightSame] at rightOwns
            exact sound.distinct left right owned leftOwns rightOwns
      · intro other owned owns
        by_cases same : other = request
        · subst same
          rw [withRequest_self] at owns
          cases owns
          exact List.mem_append_right _ List.mem_cons_self
        · rw [withRequest_of_ne _ same] at owns
          exact List.mem_append_left _ (sound.created other owned owns)
      · intro cleanup member
        have owns := sound.cleanups cleanup member
        have other : cleanup.1 ≠ request := by
          intro same
          rw [same, unstarted] at owns
          cases owns
        rw [withRequest_of_ne _ other]
        exact owns

section Emission

variable (event : DebugEvent X)

omit [DecidableEq R] in
theorem emitEvent_kept (manager : DebugEventManager R X) :
    (manager.emitEvent event).hasRedisTransport = manager.hasRedisTransport ∧
      (manager.emitEvent event).executions = manager.executions ∧
      (manager.emitEvent event).streams = manager.streams ∧
      (manager.emitEvent event).cleanups = manager.cleanups := by
  unfold emitEvent
  split
  · exact ⟨rfl, rfl, rfl, rfl⟩
  · split <;> exact ⟨rfl, rfl, rfl, rfl⟩

omit [DecidableEq R] in
theorem emitEvent_requests (other : R) :
    (manager.emitEvent event).requests other =
      { manager.requests other with
        inbox := ((manager.emitEvent event).requests other).inbox } := by
  unfold emitEvent
  split
  · dsimp only
    split <;> rfl
  · split <;> rfl

omit [DecidableEq R] in
theorem emitEvent_unheard {other : R}
    (unheard : (manager.requests other).generator ≠ .subscribed event.executionId) :
    (manager.emitEvent event).requests other = manager.requests other := by
  unfold emitEvent
  split
  · exact if_neg unheard
  · split <;> rfl

omit [DecidableEq R] in
theorem emitEvent_heard (published : manager.hasRedisTransport = true)
    (heard : (manager.requests request).generator = .subscribed event.executionId) :
    ((manager.emitEvent event).requests request).inbox =
      (manager.requests request).inbox ++ [event] := by
  unfold emitEvent
  rw [if_pos published]
  dsimp only
  rw [if_pos heard]

omit [DecidableEq R] in
theorem emitEvent_queued (unpublished : manager.hasRedisTransport = false)
    (registered : event.executionId ∈ manager.streams) :
    (manager.emitEvent event).queues event.executionId =
      manager.queues event.executionId ++ [event] := by
  unfold emitEvent
  rw [if_neg (by simp [unpublished]), if_pos registered]
  exact Function.update_self _ _ _

omit [DecidableEq R] in
theorem emitEvent_queues {executionId : X} (different : executionId ≠ event.executionId) :
    (manager.emitEvent event).queues executionId = manager.queues executionId := by
  unfold emitEvent
  split
  · rfl
  · split
    · exact Function.update_of_ne different _ _
    · rfl

end Emission

theorem Sound.emit (sound : manager.Sound) {eventType : DebugEventType} {data : Json}
    (taken : manager.step request (.emit eventType data) = some next) : next.Sound := by
  have self := sound.requests request
  simp only [step] at taken
  split at taken
  case h_1 => cases taken
  case h_2 executionId owns =>
    split at taken
    case isTrue => cases taken
    case isFalse running =>
      cases taken
      obtain ⟨transport, executions, streams, cleanups⟩ :=
        emitEvent_kept ⟨eventType, executionId, data⟩ manager
      apply sound.act
      · intro other different
        apply emitEvent_unheard
        intro heard
        have shared := (sound.requests other).attached (by rw [heard]; rfl)
        exact different (sound.distinct other request executionId shared owns)
      · exact transport
      · exact executions
      · change ((manager.emitEvent _).requests request).execution = _
        rw [emitEvent_requests]
      · rw [emitEvent_requests]
        apply self.emits
        · exact owns
        · exact running
        · exact transport
        · exact streams
        · exact emitEvent_queued _
        · intro heard hears
          cases owns.symm.trans (self.attached (by rw [hears]; rfl))
          exact emitEvent_heard _ (self.hearing hears).1 hears
      · intro other different
        constructor
        · apply emitEvent_queues
          intro same
          apply different
          rw [same]
          exact owns
        · rw [streams]
          exact id
      · rw [cleanups]
        exact fun _ member => .inl member

theorem Sound.poll (sound : manager.Sound) (careful : manager.careful request .poll = true)
    (taken : manager.step request .poll = some next) : next.Sound := by
  have self := sound.requests request
  simp only [step] at taken
  split at taken
  case h_2 => cases taken
  case h_1 left polls =>
    have attends := self.attends
    rw [polls] at attends
    obtain ⟨unsent, reads⟩ := attends
    have undelivered : (manager.requests request).delivered = [] := by
      unfold Request.delivered
      rw [unsent]
      rfl
    cases streams : manager.streams with
    | cons executionId others =>
        simp only [streams, Option.some.injEq] at taken
        subst taken
        have owns : (manager.requests request).execution = some executionId := by
          simpa [DebugEventManager.careful, streams] using careful
        have delivers := (manager.requests request).delivered_append (.started executionId)
        simp only [Sent.eventOf, Option.toList_none, List.append_nil] at delivers
        apply sound.alone
        · rfl
        · refine
            { self with
              own := ?_
              unsent := fun absent => by cases owns.symm.trans absent
              inOrder := delivers ▸ self.inOrder
              attends := ⟨owns, ?_⟩ }
          · intro sent member named about
            rw [unsent, List.nil_append, List.mem_singleton] at member
            subst member
            cases about
            exact owns
          · split
            case isTrue => exact delivers.trans undelivered
            case isFalse unpublished =>
              have before := reads ((Bool.not_eq_true _).mp unpublished) executionId owns
              exact ⟨delivers ▸ before.rest, before.registered⟩
    | nil =>
        simp only [streams] at taken
        split at taken
        · cases taken
          have delivers := (manager.requests request).delivered_append .timeout
          simp only [Sent.eventOf, Option.toList_none, List.append_nil] at delivers
          apply sound.alone
          · rfl
          · refine
              { self with
                own := ?_
                unsent := fun absent => delivers ▸ self.unsent absent
                inOrder := delivers ▸ self.inOrder
                attends := fun finished => by cases finished }
            intro sent member named about
            rw [unsent, List.nil_append, List.mem_singleton] at member
            subst member
            cases about
        · cases taken
          apply sound.alone
          · rfl
          · exact
              { self with
                attends := ⟨unsent, fun unpublished executionId owns =>
                  ⟨(reads unpublished executionId owns).rest,
                    (reads unpublished executionId owns).registered⟩⟩ }

theorem Sound.subscribe (sound : manager.Sound)
    (careful : manager.careful request .subscribe = true)
    (taken : manager.step request .subscribe = some next) : next.Sound := by
  have self := sound.requests request
  simp only [step] at taken
  split at taken
  case h_2 => cases taken
  case h_1 executionId drains =>
    split at taken
    case isFalse => cases taken
    case isTrue published =>
      cases taken
      have undelivered := self.draining drains
      rw [if_pos published] at undelivered
      have silent : (manager.requests request).emitted = [] := List.isEmpty_iff.mp careful
      apply sound.alone
      · rfl
      · refine
          { self with attends := ⟨self.attached (by rw [drains]; rfl), published, ?_, ?_⟩ }
        · change (manager.requests request).delivered ++ [] = _
          rw [undelivered]
          exact silent.symm
        · intro event member
          change event ∈ (manager.requests request).delivered at member
          rw [undelivered] at member
          cases member

/-- The next event is taken from what the request has still to read and sent. -/
theorem Sound.send (sound : manager.Sound) {executionId : X} {event : DebugEvent X}
    {rest inbox : List (DebugEvent X)} (spares : Spares manager changed request executionId)
    (here : changed.requests request = { manager.requests request with inbox := inbox })
    (attached : (manager.requests request).generator.attached = some executionId)
    (arrives : (manager.requests request).delivered ++ event :: rest =
      (manager.requests request).emitted)
    (attends : event.eventType.terminal = false → Request.Attends changed
      { manager.requests request with
        inbox := inbox
        sent := (manager.requests request).sent ++ [.event event] }
      (manager.requests request).generator) :
    (changed.send request executionId event).Sound := by
  have self := sound.requests request
  have owns := self.attached attached
  unfold DebugEventManager.send
  rw [here]
  split
  case isTrue terminal =>
    apply sound.close
    · exact spares
    · exact owns
    · rfl
    · apply self.sends arrives
      intro _
      have last : rest = [] := self.terminalLast _ _ _ arrives.symm terminal
      constructor
      · rw [last] at arrives
        exact ((manager.requests request).delivered_append (.event event)).trans arrives
      · apply Request.ended_of_emitted _ terminal
        rw [← arrives]
        exact List.mem_append_right _ List.mem_cons_self
  case isFalse ongoing =>
    apply sound.act
    · exact spares.others
    · exact spares.transport
    · exact spares.executions
    · rfl
    · exact self.sends arrives (attends ((Bool.not_eq_true _).mp ongoing))
    · intro other different
      constructor
      · apply spares.queues
        intro same
        rw [same] at different
        exact different owns
      · rw [spares.streams]
        exact id
    · rw [spares.cleanups]
      exact fun _ member => .inl member

theorem Sound.deliver (sound : manager.Sound)
    (taken : manager.step request .deliver = some next) : next.Sound := by
  have self := sound.requests request
  have delivers (event : DebugEvent X) :=
    (manager.requests request).delivered_append (.event event)
  simp only [step] at taken
  split at taken
  case h_4 => cases taken
  case h_3 executionId lapsed =>
    have attends := self.attends
    rw [lapsed] at attends
    exact attends.elim
  case h_1 executionId drains =>
    have attached : (manager.requests request).generator.attached = some executionId := by
      rw [drains]
      rfl
    split at taken
    case isTrue => cases taken
    case isFalse unpublished =>
      split at taken
      case h_1 => cases taken
      case h_2 event rest queue =>
        cases taken
        have reads := self.draining drains
        rw [if_neg unpublished] at reads
        have arrives := reads.rest
        rw [queue] at arrives
        apply sound.send
        · exact ⟨fun _ _ => rfl, rfl, rfl, rfl, rfl,
            fun other different => Function.update_of_ne different _ _⟩
        · rfl
        · exact attached
        · exact arrives
        · intro _
          rw [drains]
          refine ⟨self.attached attached, ?_⟩
          rw [if_neg unpublished]
          refine ⟨?_, reads.registered⟩
          refine (congrArg₂ _ (delivers event) (Function.update_self _ _ _)).trans ?_
          rw [List.append_assoc]
          exact arrives
  case h_2 executionId hears =>
    split at taken
    case h_1 => cases taken
    case h_2 event rest inbox =>
      cases taken
      obtain ⟨published, arrives, before⟩ := self.hearing hears
      rw [inbox] at arrives
      have attached : (manager.requests request).generator.attached = some executionId := by
        rw [hears]
        rfl
      apply sound.send
      · exact ⟨fun other different => withRequest_of_ne _ different, rfl, rfl, rfl, rfl,
          fun _ _ => rfl⟩
      · exact withRequest_self _
      · exact attached
      · exact arrives
      · intro ongoing
        rw [hears]
        refine ⟨self.attached attached, published, ?_, ?_⟩
        · refine (congrArg (· ++ rest) (delivers event)).trans ?_
          rw [List.append_assoc]
          exact arrives
        · intro other member
          rcases List.mem_append.mp (delivers event ▸ member) with old | new
          · exact before other old
          · rw [List.mem_singleton.mp new]
            exact ongoing

theorem Sound.disconnect (sound : manager.Sound)
    (taken : manager.step request .disconnect = some next) : next.Sound := by
  have self := sound.requests request
  simp only [step] at taken
  split at taken
  case h_1 executionId attached =>
    cases taken
    apply sound.close
    · exact ⟨fun _ _ => rfl, rfl, rfl, rfl, rfl, fun _ _ => rfl⟩
    · exact self.attached attached
    · rfl
    · exact { self with attends := fun finished => by cases finished }
  case h_2 =>
    split at taken
    case h_2 => cases taken
    case h_1 =>
      cases taken
      apply sound.alone
      · rfl
      · exact { self with attends := fun finished => by cases finished }

theorem Sound.expire (sound : manager.Sound)
    (taken : manager.step request .expire = some next) : next.Sound := by
  simp only [step] at taken
  split at taken
  case h_2 => cases taken
  case h_1 executionId owns =>
    split at taken
    case isFalse => cases taken
    case isTrue ended =>
      cases taken
      constructor
      · intro other
        apply (sound.requests other).elsewhere
        · rfl
        · intro owned ownsIt
          refine ⟨rfl, ?_⟩
          intro member
          by_cases same : owned = executionId
          · subst same
            rw [sound.distinct other request owned ownsIt owns]
            exact .inl ended
          · exact .inr (stays_registered same member)
      · exact sound.distinct
      · exact sound.created
      · exact sound.cleanups

theorem CarefulStep.sound {label : R × DebugAction X} (sound : manager.Sound)
    (taken : manager.CarefulStep label next) : next.Sound := by
  obtain ⟨request, action⟩ := label
  obtain ⟨taken, careful⟩ := taken
  cases action with
  | dispatch => exact sound.dispatch taken
  | createStream executionId => exact sound.createStream taken
  | emit eventType data => exact sound.emit taken
  | poll => exact sound.poll careful taken
  | subscribe => exact sound.subscribe careful taken
  | deliver => exact sound.deliver taken
  | keepalive => cases careful
  | disconnect => exact sound.disconnect taken
  | expire => exact sound.expire taken

omit [DecidableEq R] [DecidableEq X] in
theorem Sound.routed (sound : manager.Sound) : manager.Routed where
  requests := by
    intro request
    have self := sound.requests request
    have attends := self.attends
    refine ⟨self.own, self.inOrder, ?_, ?_⟩
    · intro rest awaited
      unfold DebugEventManager.awaited at awaited
      split at awaited
      case h_1 executionId drains =>
        have reads := self.draining drains
        split at awaited
        case isTrue => cases awaited
        case isFalse unpublished =>
          cases awaited
          rw [if_neg unpublished] at reads
          exact reads.rest
      case h_2 executionId hears =>
        cases awaited
        exact (self.hearing hears).2.1
      case h_3 => cases awaited
    · intro finished
      cases generator : (manager.requests request).generator with
      | lapsed executionId =>
          rw [generator] at attends
          exact attends.elim
      | closed terminal =>
          rw [generator] at attends finished
          exact attends finished
      | _ =>
          rw [generator] at finished
          cases finished
  cleanups := sound.cleanups

/-! ### Careless steps -/

theorem poll_careless (careless : manager.careful request .poll = false)
    (taken : manager.step request .poll = some next) : ¬ next.Routed := by
  intro routed
  cases streams : manager.streams with
  | nil => simp [careful, streams] at careless
  | cons executionId others =>
      have foreign : (manager.requests request).execution ≠ some executionId := by
        simpa [careful, streams] using careless
      simp only [step, streams] at taken
      split at taken
      · cases taken
        have own := (routed.requests request).own (.started executionId)
        rw [withRequest_self] at own
        exact foreign (own (List.mem_append_right _ List.mem_cons_self) executionId rfl)
      · cases taken

theorem subscribe_careless (sound : manager.Sound)
    (careless : manager.careful request .subscribe = false)
    (taken : manager.step request .subscribe = some next) : ¬ next.Routed := by
  intro routed
  simp only [step] at taken
  split at taken
  case h_2 => cases taken
  case h_1 executionId drains =>
    split at taken
    case isFalse => cases taken
    case isTrue published =>
      cases taken
      have unbroken := (routed.requests request).unbroken []
      rw [withRequest_self] at unbroken
      have all : (manager.requests request).delivered ++ [] = (manager.requests request).emitted :=
        unbroken rfl
      have undelivered := (sound.requests request).draining drains
      rw [if_pos published] at undelivered
      rw [undelivered] at all
      change (manager.requests request).emitted.isEmpty = false at careless
      rw [← all] at careless
      cases careless

/-- Nothing more can come from a subscription that a keepalive has cancelled. -/
theorem keepalive_careless (sound : manager.Sound)
    (taken : manager.step request .keepalive = some next) : ¬ next.Routed := by
  intro routed
  simp only [step] at taken
  split at taken
  case h_2 => cases taken
  case h_1 executionId hears inbox =>
    cases taken
    obtain ⟨_, _, ongoing⟩ := (sound.requests request).hearing hears
    have complete := (routed.requests request).complete
    rw [withRequest_self] at complete
    obtain ⟨all, ended⟩ := complete rfl
    change (manager.requests request).delivered = (manager.requests request).emitted at all
    change (manager.requests request).ended = true at ended
    obtain ⟨event, emitted, terminal⟩ := List.any_eq_true.mp ended
    rw [← all] at emitted
    rw [ongoing event emitted] at terminal
    cases terminal

theorem Step.routed_iff {label : R × DebugAction X} (sound : manager.Sound)
    (taken : Step manager label next) :
    next.Routed ↔ manager.careful label.1 label.2 = true := by
  obtain ⟨request, action⟩ := label
  constructor
  · intro routed
    by_contra careless
    rw [Bool.not_eq_true] at careless
    cases action with
    | poll => exact poll_careless careless taken routed
    | subscribe => exact subscribe_careless sound careless taken routed
    | keepalive => exact keepalive_careless sound taken routed
    | _ => cases careless
  · intro careful
    exact (CarefulStep.sound sound ⟨taken, careful⟩).routed

theorem Step.functional (manager : DebugEventManager R X) (label : R × DebugAction X)
    (next other : DebugEventManager R X) (taken : Step manager label next)
    (again : Step manager label other) : next = other :=
  Option.some.inj (taken.symm.trans again)

/-- In all states of a run every request is sent its own execution's events only, in order from the
first and up to the terminal one, and cleans up its own stream only, exactly when every request
that finds a stream finds its own first and no subscription is late or idle. -/
theorem streams_routed_iff {hasRedisTransport : Bool} {labels : List (R × DebugAction X)}
    {last : DebugEventManager R X} (run : Run Step (initial hasRedisTransport) labels last) :
    (∀ past middle, past <+: labels → Run Step (initial hasRedisTransport) past middle →
        middle.Routed) ↔
      Run CarefulStep (initial hasRedisTransport) labels last :=
  run.everywhere_iff Sound Routed
    (fun manager (label : R × DebugAction X) => manager.careful label.1 label.2 = true)
    Step.functional initial_sound
    (fun _ _ _ sound taken careful => CarefulStep.sound sound ⟨taken, careful⟩)
    initial_sound.routed (fun _ _ _ sound _ taken => Step.routed_iff sound taken)

def overlapping : List (Bool × DebugAction Nat) :=
  [(false, .dispatch), (true, .dispatch), (false, .createStream 1), (false, .poll),
    (false, .subscribe), (false, .emit .executionComplete .null), (false, .deliver),
    (true, .createStream 2), (true, .poll), (true, .subscribe), (true, .emit .stepStart .null),
    (true, .deliver), (true, .emit .executionComplete .null), (true, .deliver)]

/-- Two overlapping runs over Redis: the second request polls after the first was served. -/
theorem streams_routed_iff_overlapping :
    ∃ last : DebugEventManager Bool Nat,
      Run Step (initial true) overlapping last ∧
        (last.requests true).delivered = [⟨.stepStart, 2, .null⟩, ⟨.executionComplete, 2, .null⟩] ∧
        ∀ past middle, past <+: overlapping → Run Step (initial true) past middle →
          middle.Routed := by
  obtain ⟨last, careful, seen⟩ := Run.of_guardedStep
    (fun (manager : DebugEventManager Bool Nat) label => manager.step label.1 label.2)
    (fun manager label => manager.careful label.1 label.2 = true) (initial true) overlapping
    (fun last => (last.requests true).delivered)
    [⟨.stepStart, 2, .null⟩, ⟨.executionComplete, 2, .null⟩] (by decide +kernel)
  have run : Run Step (initial true) overlapping last := careful.mono (fun _ _ _ both => both.1)
  exact ⟨last, run, seen, (streams_routed_iff run).mpr careful⟩

/-- Both runs have registered their streams when the second request looks: it is sent an event of
the first execution and at its end removes the first stream. -/
theorem streams_cross :
    ∃ last : DebugEventManager Bool Nat,
      Run Step (initial false)
        [(false, .dispatch), (true, .dispatch), (false, .createStream 1),
          (true, .createStream 2), (true, .poll), (false, .emit .stepStart .null),
          (true, .deliver), (true, .disconnect)] last ∧
        (last.requests true).execution = some 2 ∧
        (last.requests true).delivered = [⟨.stepStart, 1, .null⟩] ∧
        last.cleanups = [(true, 1)] ∧ ¬ last.Routed := by
  refine ⟨_, Run.of_foldlM _ _ _ rfl, ?_, ?_, ?_, ?_⟩
  · decide +kernel
  · decide +kernel
  · decide +kernel
  · intro routed
    have own := routed.cleanups (true, 1) (by decide +kernel)
    revert own
    decide +kernel

end DebugEventManager
end Assemblix.Debug
