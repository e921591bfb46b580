import Assemblix.Realtime.SpeechTally

/-
The characters that a half-cascade call is charged for when it ends.

`VoiceSessionRuntime` takes the events of the bridge one by one and adds up the turn ends; the
route reads the sum once `run` is over, whichever way. Here it may be read in any state: the
runtime's pump may have been stopped at any `await` or live on after its `run`, and the bridge
may have been closed or not. Nothing else of the runtime touches the sum.
-/

namespace Assemblix.Realtime

open Library

/-- Where `_pump_bridge` is. -/
inductive Listener
  | waiting
  | handling (event : ConversationEvent)
  -- In its call of `interrupt`, for a start of speech.
  | interrupting
  | stopped
  deriving DecidableEq

structure SpeechCall where
  bridge : HalfCascadeBridge := {}
  -- What runs on of the chains whose last link was cancelled.
  apart : List (List Link) := []
  -- The events of the queue that were dealt with.
  handled : Nat := 0
  listener : Listener := .waiting
  speechChars : Nat := 0
  -- What `close_voice_session` was given.
  reported : Option Nat := none
  deriving DecidableEq

inductive SpeechCallAction
  | bridge (action : HalfCascadeAction)
  -- `_pump_inner` raises or is cancelled.
  | innerStops
  | takes
  | handles
  | interrupts (heardMs : Nat)
  | interruptReturns
  -- `_pump_bridge` raises or is cancelled.
  | stops
  -- `close`, up to its first `await`.
  | closes
  | cancelsPending
  | apart (chain : Nat) (action : HalfCascadeAction)
  | reports
  deriving DecidableEq

def HalfCascadeAction.isInterrupt : HalfCascadeAction → Bool
  | .interrupt _ => true
  | .interruptReturns _ => true
  | _ => false

def HalfCascadeAction.isLink : HalfCascadeAction → Bool
  | .nextLink => true
  | .finish _ => true
  | _ => false

instance (bridge : HalfCascadeBridge) :
    (action : HalfCascadeAction) → Decidable (bridge.Countable action)
  | .flushEnds session (.returned chars) =>
      inferInstanceAs (Decidable (chars ≤ bridge.sentOf session))
  | .flushEnds _ .raised | .flushEnds _ .cancelled | .receive _ | .innerEnds | .resume | .nextLink
  | .finish _ | .onAudio _ _ | .onError _ _ | .interrupt _ | .interruptReturns _ => isTrue trivial

namespace SpeechCall

def handle (call : SpeechCall) (event : ConversationEvent) : SpeechCall :=
  let past := { call with handled := call.handled + 1, listener := .waiting }
  match event with
  | .turnEnded report => { past with speechChars := past.speechChars + report.charged }
  | .bridgeError _ _ true => { past with listener := .stopped }
  | .sessionClosed _ => { past with listener := .stopped }
  | _ => past

/-- `_cancel_pending`: the last link is cancelled and the ones before it run on, but nothing waits
for them any more. -/
def cancelPending (call : SpeechCall) : SpeechCall :=
  { call with
    bridge := { call.bridge with pending := [] }
    apart := call.apart ++ [call.bridge.pending.dropLast] }

def step (config : HalfCascadeConfig) (call : SpeechCall) : SpeechCallAction → Option SpeechCall
  | .bridge action =>
      if action.isInterrupt = false ∧ call.bridge.Countable action then
        (call.bridge.step config action).map (fun bridge => { call with bridge := bridge })
      else none
  | .innerStops => some { call with bridge := { call.bridge with pump := .ended } }
  | .takes =>
      if call.listener = .waiting then
        ((call.bridge.queue config)[call.handled]?).map (fun event =>
          { call with listener := .handling event })
      else none
  | .handles =>
      match call.listener with
      | .handling event => some (call.handle event)
      | _ => none
  | .interrupts heardMs =>
      if call.listener = .handling .speechStarted then
        (call.bridge.step config (.interrupt heardMs)).map (fun bridge =>
          { call with bridge := bridge, listener := .interrupting })
      else none
  | .interruptReturns =>
      if call.listener = .interrupting then
        (call.bridge.step config (.interruptReturns 0)).map (fun bridge =>
          { call with bridge := bridge, listener := .waiting, handled := call.handled + 1 })
      else none
  | .stops => some { call with listener := .stopped }
  | .closes => some { call with bridge := call.bridge.abortSpeech }
  | .cancelsPending => some call.cancelPending
  | .apart chain action =>
      if action.isLink then
        match call.apart[chain]? with
        | some links =>
            (HalfCascadeBridge.step config { call.bridge with pending := links } action).map
              (fun bridge => { call with
                  bridge := { bridge with pending := call.bridge.pending }
                  apart := call.apart.set chain bridge.pending })
        | none => none
      else none
  | .reports =>
      if call.reported = none then some { call with reported := some call.speechChars } else none

def Step (config : HalfCascadeConfig) (call : SpeechCall) (action : SpeechCallAction)
    (next : SpeechCall) : Prop :=
  call.step config action = some next

end SpeechCall

/-! ### When all is reported -/

def HalfCascadeBridge.Complete (bridge : HalfCascadeBridge) : HalfCascadeAction → Prop
  | .finish index => ∀ sent chars, bridge.flushAt index = some (sent, .returned chars) →
      sent ≤ chars
  | _ => True

namespace SpeechCall

/-- No text is with a session or a flush, the turn's counter is empty and every turn end that
charges anything has been dealt with. -/
structure Settled (config : HalfCascadeConfig) (call : SpeechCall) : Prop where
  opened : call.bridge.session ≠ none → call.bridge.sessionChars = 0
  pending : ∀ link ∈ call.bridge.pending, link.waiting = 0
  apart : ∀ chain ∈ call.apart, ∀ link ∈ chain, link.waiting = 0
  turn : call.bridge.turnChars = 0
  queue : ∀ event ∈ (call.bridge.queue config).drop call.handled, event.charged = 0

/-- Before the sum is read nothing is dropped on its way to it, then nothing is missing, and after
that no text is sent. -/
def Keeps (config : HalfCascadeConfig) (call : SpeechCall) (action : SpeechCallAction) : Prop :=
  match call.reported with
  | some _ =>
      match action with
      | .bridge action => call.bridge.handed action = 0
      | _ => True
  | none =>
      match action with
      | .bridge action => call.bridge.Complete action
      | .apart chain action => ∀ links, call.apart[chain]? = some links →
          HalfCascadeBridge.Complete { call.bridge with pending := links } action
      | .cancelsPending => ∀ link, call.bridge.pending.getLast? = some link → link.waiting = 0
      | .reports => call.Settled config
      | _ => True

/-! ### The account of a call -/

variable {config : HalfCascadeConfig} {call next : SpeechCall}

def apartWaiting (call : SpeechCall) : Nat :=
  (call.apart.map Link.waitingAll).sum

def unreported (config : HalfCascadeConfig) (call : SpeechCall) : Nat :=
  call.bridge.held + Link.waitingAll call.bridge.pending + call.apartWaiting +
    call.bridge.turnChars +
      (((call.bridge.queue config).drop call.handled).map ConversationEvent.charged).sum

def accounted (config : HalfCascadeConfig) (call : SpeechCall) : Nat :=
  match call.reported with
  | some chars => chars
  | none => call.bridge.tally config + call.apartWaiting

/-- The characters that a step keeps from being charged. -/
def dropped (config : HalfCascadeConfig) (call : SpeechCall) (action : SpeechCallAction) : Nat :=
  match call.reported with
  | some _ =>
      match action with
      | .bridge action => call.bridge.handed action
      | _ => 0
  | none =>
      match action with
      | .bridge action => call.bridge.short action
      | .apart chain action => (call.apart[chain]?.map (fun links =>
          HalfCascadeBridge.short { call.bridge with pending := links } action)).getD 0
      | .cancelsPending => (call.bridge.pending.getLast?.map Link.waiting).getD 0
      | .reports => call.unreported config
      | _ => 0

theorem short_eq_zero_iff (bridge : HalfCascadeBridge) (action : HalfCascadeAction) :
    bridge.short action = 0 ↔ bridge.Complete action := by
  cases action with
  | finish index =>
      change ((bridge.flushAt index).map (fun flush => flush.2.short flush.1)).getD 0 = 0 ↔
        ∀ sent chars, bridge.flushAt index = some (sent, .returned chars) → sent ≤ chars
      cases bridge.flushAt index with
      | none => exact ⟨(fun _ sent chars none => by cases none), fun _ => rfl⟩
      | some flush =>
          obtain ⟨sent, outcome⟩ := flush
          cases outcome with
          | returned chars =>
              change sent - chars = 0 ↔ _
              constructor
              · intro none other returned same
                cases same
                exact Nat.sub_eq_zero_iff_le.mp none
              · intro all
                exact Nat.sub_eq_zero_iff_le.mpr (all sent chars rfl)
          | raised => exact ⟨(fun _ other chars same => by cases same), fun _ => rfl⟩
          | cancelled => exact ⟨(fun _ other chars same => by cases same), fun _ => rfl⟩
  | receive event => exact iff_of_true rfl trivial
  | innerEnds => exact iff_of_true rfl trivial
  | resume => exact iff_of_true rfl trivial
  | flushEnds session outcome => exact iff_of_true rfl trivial
  | nextLink => exact iff_of_true rfl trivial
  | onAudio session pcm => exact iff_of_true rfl trivial
  | onError session message => exact iff_of_true rfl trivial
  | interrupt audioEndMs => exact iff_of_true rfl trivial
  | interruptReturns index => exact iff_of_true rfl trivial

theorem waitingAll_eq_zero_iff (links : List Link) :
    Link.waitingAll links = 0 ↔ ∀ link ∈ links, link.waiting = 0 := by
  unfold Link.waitingAll
  rw [List.sum_eq_zero_iff_forall_eq_nat]
  exact List.forall_mem_map

theorem unreported_eq_zero_iff : call.unreported config = 0 ↔ call.Settled config := by
  have opened : call.bridge.held = 0 ↔
      (call.bridge.session ≠ none → call.bridge.sessionChars = 0) := by
    unfold HalfCascadeBridge.held
    cases call.bridge.session with
    | none => exact iff_of_true rfl (fun some => absurd rfl some)
    | some session =>
        exact ⟨fun none _ => none, fun empty => empty (Option.some_ne_none session)⟩
  have apart : call.apartWaiting = 0 ↔
      ∀ chain ∈ call.apart, ∀ link ∈ chain, link.waiting = 0 := by
    unfold apartWaiting
    rw [List.sum_eq_zero_iff_forall_eq_nat, List.forall_mem_map]
    exact forall₂_congr (fun chain _ => waitingAll_eq_zero_iff chain)
  have queue : (((call.bridge.queue config).drop call.handled).map
      ConversationEvent.charged).sum = 0 ↔
        ∀ event ∈ (call.bridge.queue config).drop call.handled, event.charged = 0 := by
    rw [List.sum_eq_zero_iff_forall_eq_nat]
    exact List.forall_mem_map
  have pending := waitingAll_eq_zero_iff call.bridge.pending
  unfold unreported
  constructor
  · intro nothing
    exact
      { opened := opened.mp (by omega)
        pending := pending.mp (by omega)
        apart := apart.mp (by omega)
        turn := by omega
        queue := queue.mp (by omega) }
  · intro settled
    have one := opened.mpr settled.opened
    have two := pending.mpr settled.pending
    have three := apart.mpr settled.apart
    have four := settled.turn
    have five := queue.mpr settled.queue
    omega

theorem dropped_eq_zero_iff (action : SpeechCallAction) :
    call.dropped config action = 0 ↔ call.Keeps config action := by
  unfold dropped Keeps
  cases call.reported with
  | some chars =>
      cases action with
      | bridge action => exact Iff.rfl
      | _ => exact iff_of_true rfl trivial
  | none =>
      cases action with
      | bridge action => exact short_eq_zero_iff _ action
      | apart chain action =>
          dsimp only
          cases call.apart[chain]? with
          | none => exact ⟨(fun _ links none => by cases none), fun _ => rfl⟩
          | some links =>
              refine (short_eq_zero_iff _ action).trans ⟨?_, fun complete => complete links rfl⟩
              intro complete other same
              cases same
              exact complete
      | cancelsPending =>
          dsimp only
          cases call.bridge.pending.getLast? with
          | none => exact ⟨(fun _ link none => by cases none), fun _ => rfl⟩
          | some last =>
              refine ⟨?_, fun none => none last rfl⟩
              intro nothing link same
              cases same
              exact nothing
      | reports => exact unreported_eq_zero_iff
      | _ => exact iff_of_true rfl trivial

/-! ### Every step -/

structure Followed (config : HalfCascadeConfig) (call : SpeechCall) : Prop where
  tallied : call.bridge.Tallied
  waits : call.bridge.Waits
  apart : ∀ chain ∈ call.apart, ∀ link ∈ chain, call.bridge.Counts link
  inside : call.handled ≤ (call.bridge.queue config).length
  handling : ∀ event, call.listener = .handling event →
    (call.bridge.queue config)[call.handled]? = some event
  interrupting : call.listener = .interrupting →
    (call.bridge.queue config)[call.handled]? = some .speechStarted
  counted : call.speechChars =
    (((call.bridge.queue config).take call.handled).map ConversationEvent.charged).sum

theorem Followed.initial : Followed config {} where
  tallied := .initial
  waits := by intro transcript tail here; cases here
  apart := by intro chain member; cases member
  inside := Nat.zero_le _
  handling := by intro event here; cases here
  interrupting := by intro here; cases here
  counted := rfl

theorem Followed.carried {bridge : HalfCascadeBridge} (followed : call.Followed config)
    (waits : bridge.Waits) (carried : call.bridge.Carried bridge) :
    Followed config { call with bridge := bridge } := by
  obtain ⟨more, longer⟩ := carried.log.filterMap (Happening.event config)
  change call.bridge.queue config ++ more = bridge.queue config at longer
  have later {event : ConversationEvent}
      (found : (call.bridge.queue config)[call.handled]? = some event) :
      (bridge.queue config)[call.handled]? = some event := by
    rw [← longer, List.getElem?_append_left (List.getElem?_eq_some_iff.mp found).1]
    exact found
  refine
    { tallied := carried.tallied
      waits := waits
      apart := fun chain member link inside =>
        carried.counts (followed.apart chain member link inside)
      inside := ?_
      handling := fun event here => later (followed.handling event here)
      interrupting := fun here => later (followed.interrupting here)
      counted := ?_ }
  · change call.handled ≤ (bridge.queue config).length
    rw [← longer, List.length_append]
    exact Nat.le_add_right_of_le followed.inside
  · change call.speechChars = (((bridge.queue config).take call.handled).map _).sum
    rw [← longer, List.take_append_of_le_length followed.inside]
    exact followed.counted

theorem Followed.unreported_add (followed : call.Followed config) :
    call.unreported config + call.speechChars = call.bridge.tally config + call.apartWaiting := by
  have all : ((call.bridge.queue config).map ConversationEvent.charged).sum =
      call.speechChars +
        (((call.bridge.queue config).drop call.handled).map ConversationEvent.charged).sum := by
    rw [followed.counted, ← List.sum_append, ← List.map_append, List.take_append_drop]
  unfold unreported HalfCascadeBridge.tally HalfCascadeBridge.queued
  omega

theorem Followed.handled (followed : call.Followed config) {event : ConversationEvent}
    (found : (call.bridge.queue config)[call.handled]? = some event) (listener : Listener)
    (idle : listener = .waiting ∨ listener = .stopped) :
    Followed config { call with
      handled := call.handled + 1
      listener := listener
      speechChars := call.speechChars + event.charged } where
  tallied := followed.tallied
  waits := followed.waits
  apart := followed.apart
  inside := (List.getElem?_eq_some_iff.mp found).1
  handling := by
    rintro other rfl
    rcases idle with waiting | stopped
    · cases waiting
    · cases stopped
  interrupting := by
    rintro rfl
    rcases idle with waiting | stopped
    · cases waiting
    · cases stopped
  counted := by
    change call.speechChars + event.charged =
      (((call.bridge.queue config).take (call.handled + 1)).map _).sum
    rw [List.take_add_one, found, followed.counted, List.map_append, List.sum_append]
    rfl

structure Balanced (config : HalfCascadeConfig) (call next : SpeechCall) (dropped : Nat) :
    Prop where
  followed : next.Followed config
  balance : next.bridge.sentAll + call.accounted config =
    call.bridge.sentAll + next.accounted config + dropped

theorem Followed.elsewhere (followed : call.Followed config) (listener : Listener)
    (handling : ∀ event, listener = .handling event →
      (call.bridge.queue config)[call.handled]? = some event)
    (interrupting : listener = .interrupting →
      (call.bridge.queue config)[call.handled]? = some .speechStarted) :
    Followed config { call with listener := listener } :=
  { followed with handling := handling, interrupting := interrupting }

theorem balance_moved {bridge : HalfCascadeBridge} {handed short : Nat}
    (moved : call.bridge.Moved config bridge handed short) :
    bridge.sentAll + call.accounted config =
      call.bridge.sentAll + accounted config { call with bridge := bridge } +
        (if call.reported = none then short else handed) := by
  have total := moved.total
  have tally := moved.tally
  unfold accounted
  cases call.reported with
  | none =>
      change bridge.sentAll + (call.bridge.tally config + call.apartWaiting) =
        call.bridge.sentAll + (bridge.tally config + call.apartWaiting) + short
      omega
  | some chars =>
      change bridge.sentAll + chars = call.bridge.sentAll + chars + handed
      omega

theorem Balanced.apart {chain : Nat} {action : HalfCascadeAction} {links : List Link}
    {after : HalfCascadeBridge} (followed : call.Followed config) (isLink : action.isLink = true)
    (found : call.apart[chain]? = some links)
    (taken : HalfCascadeBridge.step config { call.bridge with pending := links } action =
      some after) :
    Balanced config call
      { call with
        bridge := { after with pending := call.bridge.pending }
        apart := call.apart.set chain after.pending }
      (call.dropped config (.apart chain action)) := by
  let beside : HalfCascadeBridge := { call.bridge with pending := links }
  let bridge : HalfCascadeBridge := { after with pending := call.bridge.pending }
  have tallied : beside.Tallied :=
    { opened := followed.tallied.opened
      linked := followed.apart links (List.mem_of_getElem? found)
      bounded := followed.tallied.bounded }
  have countable : beside.Countable action := by
    cases action with
    | nextLink => exact trivial
    | finish index => exact trivial
    | _ => cases isLink
  have silent : beside.handed action = 0 := by
    cases action with
    | nextLink => rfl
    | finish index => rfl
    | _ => cases isLink
  have waits : beside.Waits := followed.waits
  have moved := HalfCascadeBridge.Moved.step tallied waits countable taken
  rw [silent] at moved
  have carried : call.bridge.Carried bridge :=
    { moved.toCarried with
      tallied :=
        { opened := moved.tallied.opened
          linked := fun link inside => moved.counts (followed.tallied.linked link inside)
          bounded := moved.tallied.bounded } }
  have still : after.Waits := waits.step taken
  have onward : Followed config { call with bridge := bridge } := followed.carried still carried
  refine ⟨{ onward with apart := ?_ }, ?_⟩
  · intro other member link inside
    rcases List.mem_or_eq_of_mem_set member with before | rfl
    · exact moved.counts (followed.apart other before link inside)
    · exact moved.tallied.linked link inside
  · have chains := sum_modify Link.waitingAll found (fun _ => after.pending)
    rw [← List.set_eq_modify] at chains
    have total : bridge.sentAll = call.bridge.sentAll + 0 := moved.total
    have tally : after.held + Link.waitingAll after.pending + after.turnChars +
        after.queued config + beside.short action =
          call.bridge.held + Link.waitingAll links + call.bridge.turnChars +
            call.bridge.queued config + 0 := moved.tally
    unfold dropped accounted
    cases call.reported with
    | some chars => exact congrArg (· + chars) total
    | none =>
        dsimp only
        rw [found]
        change bridge.sentAll + (call.bridge.held + Link.waitingAll call.bridge.pending +
          call.bridge.turnChars + call.bridge.queued config +
            (call.apart.map Link.waitingAll).sum) =
          call.bridge.sentAll + (after.held + Link.waitingAll call.bridge.pending +
            after.turnChars + after.queued config +
              ((call.apart.set chain after.pending).map Link.waitingAll).sum) +
            beside.short action
        omega

theorem handle_same (call : SpeechCall) (event : ConversationEvent) :
    ∃ listener, (listener = .waiting ∨ listener = .stopped) ∧
      call.handle event = { call with
        handled := call.handled + 1
        listener := listener
        speechChars := call.speechChars + event.charged } := by
  cases event with
  | bridgeError code message isFatal =>
      cases isFatal with
      | true => exact ⟨.stopped, Or.inr rfl, rfl⟩
      | false => exact ⟨.waiting, Or.inl rfl, rfl⟩
  | sessionClosed reason => exact ⟨.stopped, Or.inr rfl, rfl⟩
  | turnEnded report => exact ⟨.waiting, Or.inl rfl, rfl⟩
  | audioDelta pcm => exact ⟨.waiting, Or.inl rfl, rfl⟩
  | userTranscript text isFinal => exact ⟨.waiting, Or.inl rfl, rfl⟩
  | agentTranscript text isFinal => exact ⟨.waiting, Or.inl rfl, rfl⟩
  | speechStarted => exact ⟨.waiting, Or.inl rfl, rfl⟩

theorem waitingAll_getLast (links : List Link) :
    Link.waitingAll links.dropLast + (links.getLast?.map Link.waiting).getD 0 =
      Link.waitingAll links := by
  rcases List.eq_nil_or_concat links with rfl | ⟨earlier, last, rfl⟩
  · rfl
  · unfold Link.waitingAll
    rw [List.concat_eq_append, List.dropLast_concat, List.getLast?_concat, List.map_append,
      List.sum_append]
    rfl

theorem Balanced.of_moved {bridge : HalfCascadeBridge} (followed : call.Followed config)
    (waits : bridge.Waits) (moved : call.bridge.Moved config bridge 0 0) :
    Balanced config call { call with bridge := bridge } 0 := by
  refine ⟨followed.carried waits moved.toCarried, ?_⟩
  have balance := balance_moved moved
  rw [ite_self] at balance
  exact balance

theorem Balanced.cancelPending (followed : call.Followed config) :
    Balanced config call call.cancelPending (call.dropped config .cancelsPending) := by
  have linked (link : Link) (member : link ∈ call.bridge.pending.dropLast) :
      call.bridge.Counts link :=
    followed.tallied.linked link (List.dropLast_subset _ member)
  refine ⟨?_, ?_⟩
  · exact
      { tallied :=
          { opened := followed.tallied.opened
            linked := by intro link member; cases member
            bounded := followed.tallied.bounded }
        waits := followed.waits
        apart := by
          intro chain member link inside
          rcases List.mem_append.mp member with before | last
          · exact followed.apart chain before link inside
          · rw [List.mem_singleton.mp last] at inside
            exact linked link inside
        inside := followed.inside
        handling := followed.handling
        interrupting := followed.interrupting
        counted := followed.counted }
  · have whole := waitingAll_getLast call.bridge.pending
    have chains : ((call.apart ++ [call.bridge.pending.dropLast]).map Link.waitingAll).sum =
        call.apartWaiting + Link.waitingAll call.bridge.pending.dropLast := by
      rw [List.map_append, List.sum_append]
      rfl
    unfold dropped accounted SpeechCall.cancelPending
    cases call.reported with
    | some chars => rfl
    | none =>
        change call.bridge.sentAll + (call.bridge.held + Link.waitingAll call.bridge.pending +
          call.bridge.turnChars + call.bridge.queued config + call.apartWaiting) =
          call.bridge.sentAll + (call.bridge.held + 0 + call.bridge.turnChars +
            call.bridge.queued config +
              ((call.apart ++ [call.bridge.pending.dropLast]).map Link.waitingAll).sum) +
            (call.bridge.pending.getLast?.map Link.waiting).getD 0
        omega

theorem Balanced.handle (followed : call.Followed config) {event : ConversationEvent}
    (here : call.listener = .handling event) : Balanced config call (call.handle event) 0 := by
  obtain ⟨listener, idle, same⟩ := handle_same call event
  rw [same]
  exact ⟨followed.handled (followed.handling event here) listener idle, rfl⟩

/-- A step of the runtime or of `close` that cannot drop any characters. -/
def Spares : SpeechCallAction → Bool
  | .bridge _ => false
  | .apart _ _ => false
  | .cancelsPending => false
  | .reports => false
  | _ => true

theorem dropped_of_spares {action : SpeechCallAction} (spares : Spares action = true) :
    call.dropped config action = 0 := by
  unfold dropped
  cases call.reported with
  | none =>
      cases action with
      | bridge action => cases spares
      | apart chain action => cases spares
      | cancelsPending => cases spares
      | reports => cases spares
      | _ => rfl
  | some chars =>
      cases action with
      | bridge action => cases spares
      | _ => rfl

theorem Balanced.spare {action : SpeechCallAction} (followed : call.Followed config)
    (spares : Spares action = true) (taken : call.Step config action next) :
    Balanced config call next 0 := by
  cases action with
  | bridge action => cases spares
  | innerStops =>
      cases taken
      refine .of_moved followed ?_ ?_
      · intro transcript tail here
        cases here
      · exact .of_same followed.tallied rfl rfl rfl rfl rfl rfl
  | takes =>
      simp only [Step, SpeechCall.step, Option.ite_none_right_eq_some,
        Option.map_eq_some_iff] at taken
      obtain ⟨_, event, found, rfl⟩ := taken
      refine ⟨followed.elsewhere _ ?_ ?_, rfl⟩
      · intro other same
        cases same
        exact found
      · intro here
        cases here
  | handles =>
      simp only [Step, SpeechCall.step] at taken
      split at taken
      case h_1 event here =>
        cases taken
        exact .handle followed here
      case h_2 => cases taken
  | interrupts heardMs =>
      simp only [Step, SpeechCall.step, Option.ite_none_right_eq_some,
        Option.map_eq_some_iff] at taken
      obtain ⟨here, bridge, stepped, rfl⟩ := taken
      have countable : call.bridge.Countable (.interrupt heardMs) := trivial
      have moved : call.bridge.Moved config bridge 0 0 :=
        .step followed.tallied followed.waits countable stepped
      obtain ⟨onward, balance⟩ := Balanced.of_moved followed (followed.waits.step stepped) moved
      have still := onward.handling .speechStarted here
      refine ⟨onward.elsewhere _ ?_ (fun _ => still), balance⟩
      intro other same
      cases same
  | interruptReturns =>
      simp only [Step, SpeechCall.step, Option.ite_none_right_eq_some,
        Option.map_eq_some_iff] at taken
      obtain ⟨here, bridge, stepped, rfl⟩ := taken
      have countable : call.bridge.Countable (.interruptReturns 0) := trivial
      have moved : call.bridge.Moved config bridge 0 0 :=
        .step followed.tallied followed.waits countable stepped
      obtain ⟨onward, balance⟩ := Balanced.of_moved followed (followed.waits.step stepped) moved
      exact ⟨onward.handled (onward.interrupting here) .waiting (Or.inl rfl), balance⟩
  | stops =>
      cases taken
      refine ⟨followed.elsewhere _ ?_ ?_, rfl⟩
      · intro other same
        cases same
      · intro here
        cases here
  | closes =>
      cases taken
      refine .of_moved followed ?_ (.abortSpeech followed.tallied)
      intro transcript tail _
      rfl
  | cancelsPending => cases spares
  | apart chain action => cases spares
  | reports => cases spares

theorem Balanced.step {action : SpeechCallAction} (followed : call.Followed config)
    (taken : call.Step config action next) :
    Balanced config call next (call.dropped config action) := by
  by_cases spares : Spares action = true
  · rw [dropped_of_spares spares]
    exact .spare followed spares taken
  · cases action with
    | bridge action =>
        simp only [Step, SpeechCall.step, Option.ite_none_right_eq_some,
          Option.map_eq_some_iff] at taken
        obtain ⟨⟨_, countable⟩, bridge, stepped, rfl⟩ := taken
        have moved := HalfCascadeBridge.Moved.step followed.tallied followed.waits countable stepped
        refine ⟨followed.carried (followed.waits.step stepped) moved.toCarried, ?_⟩
        have balance := balance_moved moved
        unfold dropped
        cases reported : call.reported with
        | none => simpa only [reported, if_true] using balance
        | some chars => simpa only [reported, reduceCtorEq, if_false] using balance
    | cancelsPending =>
        cases taken
        exact .cancelPending followed
    | apart chain action =>
        simp only [Step, SpeechCall.step, Option.ite_none_right_eq_some] at taken
        obtain ⟨isLink, taken⟩ := taken
        split at taken
        case h_1 links found =>
          obtain ⟨after, stepped, rfl⟩ := Option.map_eq_some_iff.mp taken
          exact .apart followed isLink found stepped
        case h_2 => cases taken
    | reports =>
        simp only [Step, SpeechCall.step, Option.ite_none_right_eq_some] at taken
        obtain ⟨unread, same⟩ := taken
        cases same
        refine ⟨{ followed with }, ?_⟩
        have account := followed.unreported_add
        unfold dropped accounted
        rw [unread]
        change call.bridge.sentAll + (call.bridge.tally config + call.apartWaiting) =
          call.bridge.sentAll + call.speechChars + call.unreported config
        omega
    | _ => exact absurd rfl spares

/-- The characters that will never be charged. -/
def lost (config : HalfCascadeConfig) (call : SpeechCall) : Nat :=
  call.bridge.sentAll - call.accounted config

structure Kept (config : HalfCascadeConfig) (call : SpeechCall) : Prop where
  followed : call.Followed config
  within : call.accounted config ≤ call.bridge.sentAll

theorem Kept.initial : Kept config {} where
  followed := .initial
  within := Nat.zero_le _

theorem Kept.step {action : SpeechCallAction} (kept : call.Kept config)
    (taken : call.Step config action next) : next.Kept config := by
  obtain ⟨followed, balance⟩ := Balanced.step kept.followed taken
  have within := kept.within
  exact ⟨followed, by omega⟩

theorem lost_step {action : SpeechCallAction} (kept : call.Kept config)
    (taken : call.Step config action next) :
    next.lost config = 0 ↔ call.lost config = 0 ∧ call.Keeps config action := by
  have balance := (Balanced.step kept.followed taken).balance
  have before := kept.within
  have after := (kept.step taken).within
  rw [← dropped_eq_zero_iff]
  unfold lost
  omega

/-- In every run, however the call ended: what is reported is what was sent to the synthesizer
exactly where no step of the run dropped any of it. -/
theorem speech_reported_iff (config : HalfCascadeConfig) (actions : List SpeechCallAction)
    (last : SpeechCall) (chars : Nat) (run : Run (Step config) {} actions last)
    (reported : last.reported = some chars) :
    chars = last.bridge.sentAll ↔
      Run (fun call action next => call.Step config action next ∧ call.Keeps config action) {}
        actions last := by
  have guarded := run.guarded_iff (Kept config) (fun call => call.lost config = 0) (Keeps config)
    .initial (fun _ _ _ kept taken => kept.step taken) rfl
    (fun _ _ _ kept taken => lost_step kept taken)
  have kept := run.invariant (Kept config) {} .initial (fun _ _ _ kept taken => kept.step taken)
  have account : last.accounted config = chars := by
    unfold accounted
    rw [reported]
  have within := kept.within
  rw [← guarded]
  unfold lost
  omega

def spokenOut : List SpeechCallAction :=
  [.bridge (.receive (.agentTranscript ['h', 'i'] true)), .bridge .resume, .bridge .resume,
    .bridge .resume, .bridge (.flushEnds 0 (.returned 2)), .bridge (.finish 0),
    .bridge .nextLink, .bridge .nextLink, .bridge (.receive (.turnEnded {})), .takes, .handles,
    .takes, .handles, .stops, .innerStops, .closes, .cancelsPending, .reports]

theorem speech_reported_iff_spokenOut :
    ∃ last, Run (fun call action next =>
      Step HalfCascadeBridge.plainSynthesis call action next ∧
        Keeps HalfCascadeBridge.plainSynthesis call action) {} spokenOut last ∧
      last.reported = some 2 := by
  obtain ⟨last, run, seen⟩ := Run.of_foldlM_map (step HalfCascadeBridge.plainSynthesis) {}
    spokenOut (fun last => (last.reported, last.bridge.sentAll)) (some 2, 2) (by decide +kernel)
  obtain ⟨reported, sent⟩ := Prod.mk.inj seen
  exact ⟨last, (speech_reported_iff HalfCascadeBridge.plainSynthesis spokenOut last 2 run
    reported).mp sent.symm, reported⟩

def hungUpOn : List SpeechCallAction :=
  [.bridge (.receive (.agentTranscript ['h', 'i'] false)), .bridge .resume, .bridge .resume,
    .bridge .resume, .bridge (.onAudio 0 [1, 2]), .takes, .handles, .takes, .stops, .innerStops,
    .closes, .cancelsPending, .reports]

theorem hung_up_unbilled :
    ∃ actions last, Run (Step HalfCascadeBridge.plainSynthesis) {} actions last ∧
      last.reported = some 0 ∧ last.bridge.sentAll = 2 := by
  obtain ⟨last, run, seen⟩ := Run.of_foldlM_map (step HalfCascadeBridge.plainSynthesis) {}
    hungUpOn (fun last => (last.reported, last.bridge.sentAll)) (some 0, 2) (by decide +kernel)
  obtain ⟨reported, sent⟩ := Prod.mk.inj seen
  exact ⟨hungUpOn, last, run, reported, sent⟩

end SpeechCall
end Assemblix.Realtime
