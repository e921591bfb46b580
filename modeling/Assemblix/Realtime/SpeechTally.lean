import Assemblix.Realtime.SpeechBilling

/-
Where the characters of a half-cascade call are until they are charged.

Characters that were handed to a session are held by the open session, by the chain behind a
flush, by the turn's counter or by a turn end on the queue. Every step of the bridge moves them
from one to the next; a flush that returns fewer than its session was sent is the only one that
drops any. Nothing here asks what else is in the chain, so it holds after a chain was let go.
-/

namespace Assemblix.Realtime

open Library

def Link.waiting : Link → Nat
  | .finish _ sent false => sent
  | _ => 0

def ConversationEvent.charged : ConversationEvent → Nat
  | .turnEnded report => report.charged
  | _ => 0

def Happening.queued (config : HalfCascadeConfig) (happening : Happening) : Nat :=
  ((happening.event config).map ConversationEvent.charged).getD 0

def Link.waitingAll (links : List Link) : Nat :=
  (links.map Link.waiting).sum

def FlushOutcome.short (sent : Nat) : FlushOutcome → Nat
  | .returned chars => sent - chars
  | .raised => 0
  | .cancelled => 0

namespace HalfCascadeBridge

/-- What was handed to the synthesizer so far. -/
def sentAll (bridge : HalfCascadeBridge) : Nat :=
  (bridge.sessions.map SpeechSession.sent).sum

def held (bridge : HalfCascadeBridge) : Nat :=
  if bridge.session.isSome then bridge.sessionChars else 0

def queued (config : HalfCascadeConfig) (bridge : HalfCascadeBridge) : Nat :=
  ((bridge.queue config).map ConversationEvent.charged).sum

def tally (config : HalfCascadeConfig) (bridge : HalfCascadeBridge) : Nat :=
  bridge.held + Link.waitingAll bridge.pending + bridge.turnChars + bridge.queued config

def handed (bridge : HalfCascadeBridge) : HalfCascadeAction → Nat
  | .receive (.agentTranscript text _) =>
      if bridge.cancelledTurn = some bridge.turn ∨ bridge.session = none then 0
      else (bridge.unspoken text).length
  | .resume =>
      match bridge.pump with
      | .opening _ tail session => if bridge.session = some session then tail.length else 0
      | _ => 0
  | _ => 0

/-! ### What a step moves -/

variable {config : HalfCascadeConfig} {bridge middle next : HalfCascadeBridge}

def Counts (bridge : HalfCascadeBridge) : Link → Prop
  | .finish session sent false => bridge.Closed session ∧ bridge.sentOf session = sent
  | _ => True

structure Tallied (bridge : HalfCascadeBridge) : Prop where
  opened : ∀ session, bridge.session = some session →
    session < bridge.sessions.length ∧ bridge.sentOf session = bridge.sessionChars
  linked : ∀ link ∈ bridge.pending, bridge.Counts link
  bounded : ∀ (session : Nat) (speech : SpeechSession) (chars : Nat),
    bridge.sessions[session]? = some speech → speech.flush = .ended (.returned chars) →
      chars ≤ speech.sent

structure Carried (bridge next : HalfCascadeBridge) : Prop where
  tallied : next.Tallied
  length : bridge.sessions.length ≤ next.sessions.length
  opened : ∀ session, next.session = some session →
    bridge.session = some session ∨ bridge.sessions.length ≤ session
  sent : ∀ session, bridge.Closed session → next.sentOf session = bridge.sentOf session
  log : bridge.log <+: next.log

structure Moved (config : HalfCascadeConfig) (bridge next : HalfCascadeBridge)
    (handed short : Nat) : Prop extends Carried bridge next where
  total : next.sentAll = bridge.sentAll + handed
  tally : next.tally config + short = bridge.tally config + handed

theorem queued_note (happening : Happening) :
    (bridge.note happening).queued config = bridge.queued config + happening.queued config := by
  unfold queued queue note Happening.queued
  rw [List.filterMap_append, List.map_append, List.sum_append]
  cases known : happening.event config with
  | none => simp [known]
  | some event => simp [known]

theorem Counts.carry {link : Link} (counted : bridge.Counts link)
    (keeps : ∀ session, bridge.Closed session →
      next.Closed session ∧ next.sentOf session = bridge.sentOf session) : next.Counts link := by
  cases link with
  | finish session sent accounted =>
      cases accounted with
      | false =>
          obtain ⟨closed, sentAll⟩ := counted
          obtain ⟨still, same⟩ := keeps session closed
          exact ⟨still, same.trans sentAll⟩
      | true => exact trivial
  | transcript text => exact trivial
  | endTurn turn report => exact trivial

theorem sent_markAborted (sessions : List SpeechSession) (taken : Option Nat) :
    (markAborted sessions taken).map SpeechSession.sent = sessions.map SpeechSession.sent := by
  cases taken with
  | none => rfl
  | some session => exact map_modify_of_same SpeechSession.sent sessions session (fun _ => rfl)

theorem Tallied.initial : Tallied {} where
  opened := by intro session isOpen; cases isOpen
  linked := by intro link member; cases member
  bounded := by intro session speech chars known; cases known

namespace Carried

theorem closed (carried : bridge.Carried next) {session : Nat} (closed : bridge.Closed session) :
    next.Closed session := by
  obtain ⟨known, notOpen⟩ := closed
  refine ⟨Nat.lt_of_lt_of_le known carried.length, ?_⟩
  intro isOpen
  rcases carried.opened session isOpen with before | new
  · exact notOpen before
  · omega

theorem counts (carried : bridge.Carried next) {link : Link} (counted : bridge.Counts link) :
    next.Counts link :=
  counted.carry (fun session closed => ⟨carried.closed closed, carried.sent session closed⟩)

theorem trans (first : bridge.Carried middle) (second : middle.Carried next) :
    bridge.Carried next where
  tallied := second.tallied
  length := Nat.le_trans first.length second.length
  opened := by
    intro session isOpen
    have longer := first.length
    rcases second.opened session isOpen with before | new
    · exact first.opened session before
    · exact Or.inr (by omega)
  sent := by
    intro session closed
    rw [second.sent session (first.closed closed), first.sent session closed]
  log := first.log.trans second.log

end Carried

namespace Moved

variable {handed short more further : Nat}

theorem trans (first : Moved config bridge middle handed short)
    (second : Moved config middle next more further) :
    Moved config bridge next (handed + more) (short + further) where
  toCarried := first.toCarried.trans second.toCarried
  total := by
    rw [second.total, first.total, Nat.add_assoc]
  tally := by
    have one := first.tally
    have two := second.tally
    omega

/-- A step that nothing here depends on. -/
theorem of_same (tallied : bridge.Tallied) (sessions : next.sessions = bridge.sessions)
    (session : next.session = bridge.session) (chars : next.sessionChars = bridge.sessionChars)
    (pending : next.pending = bridge.pending) (turnChars : next.turnChars = bridge.turnChars)
    (log : next.log = bridge.log) : Moved config bridge next 0 0 where
  tallied := by
    constructor
    · intro other isOpen
      unfold sentOf
      rw [sessions, chars]
      exact tallied.opened other (session ▸ isOpen)
    · intro link member
      have counted := tallied.linked link (pending ▸ member)
      unfold Counts Closed sentOf at counted ⊢
      rw [sessions, session]
      exact counted
    · intro other speech chars known
      exact tallied.bounded other speech chars (sessions ▸ known)
  length := Nat.le_of_eq (congrArg List.length sessions.symm)
  opened := fun _ isOpen => Or.inl (session ▸ isOpen)
  sent := by
    intro other _
    unfold sentOf
    rw [sessions]
  log := log ▸ List.prefix_refl _
  total := congrArg (fun sessions => (sessions.map SpeechSession.sent).sum) sessions
  tally := by
    unfold HalfCascadeBridge.tally held queued queue
    rw [session, chars, pending, turnChars, log]

theorem refl (tallied : bridge.Tallied) : Moved config bridge bridge 0 0 :=
  of_same tallied rfl rfl rfl rfl rfl rfl

/-- And then nothing of it changes. -/
theorem aside (moved : Moved config bridge middle handed short)
    (sessions : next.sessions = middle.sessions) (session : next.session = middle.session)
    (chars : next.sessionChars = middle.sessionChars) (pending : next.pending = middle.pending)
    (turnChars : next.turnChars = middle.turnChars) (log : next.log = middle.log) :
    Moved config bridge next handed short :=
  moved.trans (of_same moved.tallied sessions session chars pending turnChars log)

section

variable (tallied : bridge.Tallied)
include tallied

theorem note {happening : Happening} (free : happening.queued config = 0) :
    Moved config bridge (bridge.note happening) 0 0 where
  tallied := { tallied with }
  length := Nat.le_refl _
  opened := fun _ isOpen => Or.inl isOpen
  sent := fun _ _ => rfl
  log := List.prefix_append _ _
  total := rfl
  tally := by
    have queue : (bridge.note happening).queued config =
        bridge.queued config + happening.queued config := queued_note happening
    unfold HalfCascadeBridge.tally
    change bridge.held + Link.waitingAll bridge.pending + bridge.turnChars + _ + 0 = _
    omega

theorem put {event : ConversationEvent} (free : event.charged = 0) :
    Moved config bridge (bridge.put event) 0 0 :=
  note tallied free

theorem deliver (link : Link) : Moved config bridge (bridge.deliver link) 0 0 := by
  cases link with
  | finish session sent accounted => exact refl tallied
  | transcript text => exact put tallied rfl
  | endTurn turn report =>
      refine
        { tallied := { tallied with }
          length := Nat.le_refl _
          opened := fun _ isOpen => Or.inl isOpen
          sent := fun _ _ => rfl
          log := List.prefix_append _ _
          total := rfl
          tally := ?_ }
      let emptied : HalfCascadeBridge := { bridge with turnChars := 0, counted := [] }
      let entry : Happening := .turnEnded turn report bridge.turnChars bridge.counted
      have queue : (emptied.note entry).queued config =
          bridge.queued config + entry.queued config := queued_note entry
      have charged : entry.queued config = bridge.turnChars :=
        report.spoken_charged config bridge.turnChars
      change bridge.held + Link.waitingAll bridge.pending + 0 +
        (emptied.note entry).queued config + 0 = bridge.held + _ + bridge.turnChars + _ + 0
      omega

theorem rechain {pending : List Link} (linked : ∀ link ∈ pending, bridge.Counts link)
    (same : Link.waitingAll pending = Link.waitingAll bridge.pending) :
    Moved config bridge { bridge with pending := pending } 0 0 where
  tallied := { opened := tallied.opened, linked := linked, bounded := tallied.bounded }
  length := Nat.le_refl _
  opened := fun _ isOpen => Or.inl isOpen
  sent := fun _ _ => rfl
  log := List.prefix_refl _
  total := rfl
  tally := by
    unfold HalfCascadeBridge.tally
    dsimp only
    rw [same]
    rfl

theorem inOrder {link : Link} (step : link.isFinish = false) :
    Moved config bridge (bridge.inOrder link) 0 0 := by
  unfold HalfCascadeBridge.inOrder
  split
  · exact deliver tallied link
  · refine rechain tallied ?_ ?_
    · intro other member
      rcases List.mem_append.mp member with earlier | last
      · exact tallied.linked other earlier
      · rw [List.mem_singleton.mp last]
        cases link with
        | finish session sent accounted => cases step
        | transcript text => exact trivial
        | endTurn turn report => exact trivial
    · unfold Link.waitingAll
      rw [List.map_append, List.sum_append]
      cases link with
      | finish session sent accounted => cases step
      | transcript text => rfl
      | endTurn turn report => rfl

theorem startFlush {session : Nat} (spoken : Text) (isOpen : bridge.session = some session) :
    Moved config bridge
      ({ bridge with session := none, spoken := spoken }.startFlush session) 0 0 := by
  obtain ⟨known, all⟩ := tallied.opened session isOpen
  let after : HalfCascadeBridge :=
    { bridge with session := none, spoken := spoken }.startFlush session
  have length : after.sessions.length = bridge.sessions.length := List.length_modify _ _ _
  have sent (other : Nat) : after.sentOf other = bridge.sentOf other :=
    sentOf_modify rfl (fun _ _ => rfl)
  have closed {other : Nat} (inside : other < bridge.sessions.length) : after.Closed other :=
    ⟨length ▸ inside, Option.some_ne_none other ∘ Eq.symm⟩
  refine
    { tallied := ?_, length := Nat.le_of_eq length.symm, opened := ?_, sent := fun _ _ => sent _,
      log := List.prefix_refl _, total := ?_, tally := ?_ }
  · constructor
    · intro other none
      cases none
    · intro link member
      rcases List.mem_append.mp member with earlier | last
      · exact (tallied.linked link earlier).carry
          (fun other before => ⟨closed before.1, sent other⟩)
      · rw [List.mem_singleton.mp last]
        exact ⟨closed known, (sent session).trans all⟩
    · intro other speech chars found returned
      obtain ⟨before, known', ⟨_, rfl⟩ | ⟨_, rfl⟩⟩ := get_modify found
      · cases returned
      · exact tallied.bounded other _ chars known' returned
  · intro other none
    cases none
  · exact congrArg List.sum
      (map_modify_of_same SpeechSession.sent bridge.sessions session (fun _ => rfl))
  · have held : bridge.held = bridge.sessionChars := by
      unfold HalfCascadeBridge.held
      rw [isOpen]
      rfl
    have chain : Link.waitingAll (bridge.pending ++ [.finish session bridge.sessionChars false]) =
        Link.waitingAll bridge.pending + bridge.sessionChars := by
      unfold Link.waitingAll
      rw [List.map_append, List.sum_append]
      rfl
    change 0 + Link.waitingAll (bridge.pending ++ [.finish session bridge.sessionChars false]) +
      bridge.turnChars + bridge.queued config + 0 = bridge.tally config + 0
    unfold HalfCascadeBridge.tally
    rw [held, chain]
    omega

theorem abortSpeech : Moved config bridge bridge.abortSpeech 0 0 := by
  have sent (other : Nat) : bridge.abortSpeech.sentOf other = bridge.sentOf other := by
    let first : HalfCascadeBridge :=
      { bridge with sessions := markAborted bridge.sessions bridge.flushing }
    have second : bridge.abortSpeech.sentOf other = first.sentOf other :=
      sentOf_markAborted other rfl
    exact second.trans (sentOf_markAborted other rfl)
  have length : bridge.abortSpeech.sessions.length = bridge.sessions.length := by
    change (markAborted (markAborted _ _) _).length = _
    rw [length_markAborted, length_markAborted]
  refine
    { tallied := ?_, length := Nat.le_of_eq length.symm, opened := ?_, sent := fun _ _ => sent _,
      log := List.prefix_append _ _, total := ?_, tally := ?_ }
  · constructor
    · intro other none
      cases none
    · intro link member
      refine (tallied.linked link member).carry ?_
      intro other closed
      exact ⟨⟨length ▸ closed.1, Option.some_ne_none other ∘ Eq.symm⟩, sent other⟩
    · intro other speech chars found returned
      obtain ⟨before, known, _, _, same, flush, _⟩ := get_abortSpeech found
      rw [same]
      exact tallied.bounded other before chars known (flush.symm.trans returned)
  · intro other none
    cases none
  · change ((markAborted (markAborted _ _) _).map SpeechSession.sent).sum = _
    rw [sent_markAborted, sent_markAborted]
    rfl
  · have queue : bridge.abortSpeech.queued config = bridge.queued config + 0 :=
      queued_note (.abort bridge.sessions.length)
    change 0 + Link.waitingAll bridge.pending +
      (if bridge.session.isSome then bridge.turnChars + bridge.sessionChars
        else bridge.turnChars) + bridge.abortSpeech.queued config + 0 = _
    unfold HalfCascadeBridge.tally HalfCascadeBridge.held
    split
    · omega
    · omega

theorem handOver {session : Nat} (isOpen : bridge.session = some session) (count : Nat) :
    Moved config bridge { bridge with
      sessionChars := bridge.sessionChars + count
      sessions := bridge.sessions.modify session
        (fun speech => { speech with sent := speech.sent + count }) } count 0 := by
  obtain ⟨known, all⟩ := tallied.opened session isOpen
  obtain ⟨speech, found⟩ : ∃ speech, bridge.sessions[session]? = some speech :=
    ⟨_, List.getElem?_eq_getElem known⟩
  let after : HalfCascadeBridge := { bridge with
    sessionChars := bridge.sessionChars + count
    sessions := bridge.sessions.modify session
      (fun speech => { speech with sent := speech.sent + count }) }
  have length : after.sessions.length = bridge.sessions.length := List.length_modify _ _ _
  have sent (other : Nat) (closed : bridge.Closed other) :
      after.sentOf other = bridge.sentOf other := by
    refine sentOf_modify rfl ?_
    rintro rfl
    exact absurd isOpen closed.2
  refine
    { tallied := ?_, length := Nat.le_of_eq length.symm, opened := fun _ same => Or.inl same,
      sent := sent, log := List.prefix_refl _, total := ?_, tally := ?_ }
  · constructor
    · intro other otherOpen
      have same : session = other := Option.some.inj (isOpen.symm.trans otherOpen)
      subst same
      refine ⟨length ▸ known, ?_⟩
      have added : after.sessions[session]? = some { speech with sent := speech.sent + count } :=
        get_modify_self _ found
      have before := sentOf_known found
      change after.sentOf session = bridge.sessionChars + count
      rw [sentOf_known added, ← all, before]
    · intro link member
      exact (tallied.linked link member).carry
        (fun other closed => ⟨⟨length ▸ closed.1, closed.2⟩, sent other closed⟩)
    · intro other after chars found' returned
      obtain ⟨before, known', ⟨_, rfl⟩ | ⟨_, rfl⟩⟩ := get_modify found'
      · exact Nat.le_trans (tallied.bounded other before chars known' returned)
          (Nat.le_add_right _ _)
      · exact tallied.bounded other _ chars known' returned
  · have moved := sum_modify SpeechSession.sent found
      (fun speech => { speech with sent := speech.sent + count })
    change after.sentAll + speech.sent = bridge.sentAll + (speech.sent + count) at moved
    change after.sentAll = bridge.sentAll + count
    omega
  · have before : bridge.held = bridge.sessionChars := by
      unfold HalfCascadeBridge.held
      rw [isOpen]
      rfl
    have later : after.held = bridge.sessionChars + count := by
      unfold HalfCascadeBridge.held
      change (if bridge.session.isSome then _ else 0) = _
      rw [isOpen]
      rfl
    change after.held + Link.waitingAll bridge.pending + bridge.turnChars + bridge.queued config +
      0 = bridge.tally config + count
    unfold HalfCascadeBridge.tally
    rw [before, later]
    omega

theorem openSession (transcript : Transcript) (tail : Text) (closed : bridge.session = none) :
    Moved config bridge (bridge.openSession transcript tail) 0 0 := by
  have length : (bridge.openSession transcript tail).sessions.length =
      bridge.sessions.length + 1 := List.length_append
  have sent (other : Nat) (known : other < bridge.sessions.length) :
      (bridge.openSession transcript tail).sentOf other = bridge.sentOf other := by
    unfold sentOf
    change ((bridge.sessions ++ [_])[other]?.map _).getD 0 = _
    rw [List.getElem?_append_left known]
  refine
    { tallied := ?_, length := by omega, opened := ?_,
      sent := fun other known => sent other known.1,
      log := List.prefix_refl _, total := ?_, tally := ?_ }
  · constructor
    · intro other isOpen
      have same : bridge.sessions.length = other := Option.some.inj isOpen
      refine ⟨by omega, ?_⟩
      rw [← same]
      have added : (bridge.openSession transcript tail).sessions[bridge.sessions.length]? =
          some { epoch := bridge.speechEpoch, turn := bridge.turn } :=
        List.getElem?_concat_length
      exact sentOf_known added
    · intro link member
      refine (tallied.linked link member).carry ?_
      rintro other ⟨known, _⟩
      refine ⟨⟨by omega, ?_⟩, sent other known⟩
      intro isOpen
      have same : bridge.sessions.length = other := Option.some.inj isOpen
      omega
    · intro other after chars found returned
      rcases get_concat found with known | ⟨_, rfl⟩
      · exact tallied.bounded other after chars known returned
      · cases returned
  · intro other isOpen
    exact Or.inr (Nat.le_of_eq (Option.some.inj isOpen))
  · change ((bridge.sessions ++ [_]).map SpeechSession.sent).sum = _
    rw [List.map_append, List.sum_append]
    rfl
  · have held : bridge.held = 0 := by
      unfold HalfCascadeBridge.held
      rw [closed]
      rfl
    change 0 + Link.waitingAll bridge.pending + bridge.turnChars + bridge.queued config + 0 =
      bridge.tally config + 0
    unfold HalfCascadeBridge.tally
    rw [held]

theorem flushEnds {session : Nat} {outcome : FlushOutcome}
    (countable : ∀ chars, outcome = .returned chars → chars ≤ bridge.sentOf session) :
    Moved config bridge { bridge with
      sessions := bridge.sessions.modify session ({ · with flush := .ended outcome }) } 0 0 := by
  let after : HalfCascadeBridge := { bridge with
    sessions := bridge.sessions.modify session ({ · with flush := .ended outcome }) }
  have sent (other : Nat) : after.sentOf other = bridge.sentOf other :=
    sentOf_modify rfl (fun _ _ => rfl)
  have length : after.sessions.length = bridge.sessions.length := List.length_modify _ _ _
  refine
    { tallied := ?_, length := Nat.le_of_eq length.symm, opened := fun _ isOpen => Or.inl isOpen,
      sent := fun other _ => sent other, log := List.prefix_refl _, total := ?_, tally := rfl }
  · constructor
    · intro other isOpen
      obtain ⟨inside, all⟩ := tallied.opened other isOpen
      exact ⟨length ▸ inside, (sent other).trans all⟩
    · intro link member
      exact (tallied.linked link member).carry
        (fun other closed => ⟨⟨length ▸ closed.1, closed.2⟩, sent other⟩)
    · intro other speech chars found returned
      obtain ⟨before, known, ⟨rfl, rfl⟩ | ⟨_, rfl⟩⟩ := get_modify found
      · rw [← sentOf_known known]
        exact countable chars (Flush.ended.inj returned)
      · exact tallied.bounded other _ chars known returned
  · exact congrArg List.sum
      (map_modify_of_same SpeechSession.sent bridge.sessions session (fun _ => rfl))

/-- A flush that has ended is added up, less what its result leaves out. -/
theorem finish {index session sent : Nat} {outcome : FlushOutcome}
    (linked : bridge.pending[index]? = some (.finish session sent false))
    (within : ∀ chars, outcome = .returned chars → chars ≤ sent) :
    Moved config bridge
      ({ bridge with
        pending := bridge.pending.set index (.finish session sent true) }.finish
          session sent outcome) 0 (outcome.short sent) := by
  refine
    { tallied := { opened := tallied.opened, linked := ?_, bounded := tallied.bounded },
      length := Nat.le_refl _,
      opened := fun _ isOpen => Or.inl isOpen, sent := fun _ _ => rfl,
      log := List.prefix_refl _, total := rfl, tally := ?_ }
  · intro link member
    rcases List.mem_or_eq_of_mem_set member with earlier | rfl
    · exact tallied.linked link earlier
    · exact trivial
  · have chain := sum_modify Link.waiting linked (fun _ => .finish session sent true)
    rw [← List.set_eq_modify] at chain
    change Link.waitingAll (bridge.pending.set index _) + sent =
      Link.waitingAll bridge.pending + 0 at chain
    cases outcome with
    | returned chars =>
        have fewer := within chars rfl
        change bridge.held + Link.waitingAll (bridge.pending.set index _) +
          (bridge.turnChars + chars) + bridge.queued config + (sent - chars) =
          bridge.tally config + 0
        unfold HalfCascadeBridge.tally
        omega
    | raised =>
        change bridge.held + Link.waitingAll (bridge.pending.set index _) +
          (bridge.turnChars + sent) + bridge.queued config + 0 = bridge.tally config + 0
        unfold HalfCascadeBridge.tally
        omega
    | cancelled =>
        change bridge.held + Link.waitingAll (bridge.pending.set index _) +
          (bridge.turnChars + sent) + bridge.queued config + 0 = bridge.tally config + 0
        unfold HalfCascadeBridge.tally
        omega

/-! ### Speaking -/

theorem spoke (transcript : Transcript) : Moved config bridge (bridge.spoke transcript) 0 0 := by
  have ready : Moved config bridge { bridge with pump := .ready } 0 0 :=
    of_same tallied rfl rfl rfl rfl rfl rfl
  unfold HalfCascadeBridge.spoke
  dsimp only
  split
  · exact ready.trans (inOrder ready.tallied rfl)
  · exact ready.trans (put ready.tallied rfl)

theorem textSent (transcript : Transcript) {session : Nat}
    (isOpen : bridge.session = some session) :
    Moved config bridge (bridge.textSent transcript session) 0 0 := by
  unfold HalfCascadeBridge.textSent
  split
  · have flushed : Moved config bridge _ 0 0 := startFlush tallied [] isOpen
    exact flushed.trans (spoke flushed.tallied transcript)
  · exact spoke tallied transcript

theorem sendText (transcript : Transcript) (tail : Text) {session : Nat}
    (isOpen : bridge.session = some session) :
    Moved config bridge (bridge.sendText transcript tail session) tail.length 0 := by
  unfold HalfCascadeBridge.sendText
  split
  case isTrue empty =>
    rw [empty]
    exact textSent tallied transcript isOpen
  case isFalse =>
    have handed : Moved config bridge _ tail.length 0 := handOver tallied isOpen tail.length
    exact handed.aside rfl rfl rfl rfl rfl rfl

theorem speak (transcript : Transcript) :
    Moved config bridge (bridge.speak transcript)
      (if bridge.cancelledTurn = some bridge.turn ∨ bridge.session = none then 0
        else (bridge.unspoken transcript.text).length) 0 := by
  let told : HalfCascadeBridge :=
    { bridge with spoken := bridge.spoken ++ bridge.unspoken transcript.text }
  have heard : Moved config bridge told 0 0 := of_same tallied rfl rfl rfl rfl rfl rfl
  unfold HalfCascadeBridge.speak
  split
  case isTrue cancelled =>
    rw [if_pos (Or.inl cancelled)]
    exact spoke tallied transcript
  case isFalse going =>
    dsimp only
    split
    case isTrue nothing =>
      have none : (bridge.unspoken transcript.text).length = 0 := by
        rw [nothing.1]
        rfl
      rw [none, ite_self]
      exact heard.trans (spoke heard.tallied transcript)
    case isFalse =>
      split
      case h_1 closed =>
        rw [if_pos (Or.inr closed)]
        exact heard.aside rfl rfl rfl rfl rfl rfl
      case h_2 session isOpen =>
        rw [if_neg (by
          rintro (cancelled | closed)
          · exact going cancelled
          · cases isOpen.symm.trans closed)]
        have sent : Moved config told _ _ 0 :=
          sendText heard.tallied transcript (bridge.unspoken transcript.text) isOpen
        have both := heard.trans sent
        rw [Nat.zero_add] at both
        exact both

/-! ### Every step -/

theorem receive (event : ConversationEvent) :
    Moved config bridge (bridge.receive event) (bridge.handed (.receive event)) 0 := by
  cases event with
  | agentTranscript text isFinal =>
      have opened : Moved config bridge { bridge with turnOpen := true } 0 0 :=
        of_same tallied rfl rfl rfl rfl rfl rfl
      have both := opened.trans (speak opened.tallied { text, isFinal })
      rw [Nat.zero_add] at both
      exact both
  | speechStarted =>
      unfold HalfCascadeBridge.receive
      dsimp only
      split
      · have cut : Moved config bridge
            { bridge with
              cancelledTurn := some bridge.turn
              spoken := []
              pump := .aborting bridge.flushing } 0 0 :=
          of_same tallied rfl rfl rfl rfl rfl rfl
        exact cut.trans (abortSpeech cut.tallied)
      · split
        · have waiting : Moved config bridge
              { bridge with pump := .aborting bridge.flushing } 0 0 :=
            of_same tallied rfl rfl rfl rfl rfl rfl
          exact waiting.trans (abortSpeech waiting.tallied)
        · exact note tallied rfl
  | turnEnded report =>
      have past : Moved config bridge
          { bridge with turnOpen := false, turn := bridge.turn + 1, spoken := [] } 0 0 :=
        of_same tallied rfl rfl rfl rfl rfl rfl
      exact past.trans (inOrder past.tallied rfl)
  | sessionClosed reason => exact of_same tallied rfl rfl rfl rfl rfl rfl
  | audioDelta pcm => exact put tallied rfl
  | userTranscript text isFinal => exact put tallied rfl
  | bridgeError code message isFatal => exact put tallied rfl

theorem resume (draining : ∀ transcript tail, bridge.pump = .draining transcript tail →
      bridge.session = none) (resumed : bridge.resume = some next) :
    Moved config bridge next (bridge.handed .resume) 0 := by
  unfold handed
  cases resume_some resumed with
  | openSession transcript tail pump _ =>
      rw [pump]
      exact openSession tallied transcript tail (draining transcript tail pump)
  | sendText transcript tail session pump isOpen =>
      simp only [pump, if_pos isOpen]
      exact sendText tallied transcript tail isOpen
  | unopened transcript tail session pump gone =>
      simp only [pump, if_neg gone]
      exact spoke tallied transcript
  | textSent transcript session pump isOpen =>
      rw [pump]
      exact textSent tallied transcript isOpen
  | unsent transcript session pump _ =>
      rw [pump]
      exact spoke tallied transcript
  | aborted flush pump _ =>
      rw [pump]
      have ready : Moved config bridge { bridge with pump := .ready } 0 0 :=
        of_same tallied rfl rfl rfl rfl rfl rfl
      exact ready.trans (note ready.tallied rfl)
  | closed reason pump _ =>
      rw [pump]
      have ended : Moved config bridge { bridge with pump := .ended } 0 0 :=
        of_same tallied rfl rfl rfl rfl rfl rfl
      exact ended.trans (put ended.tallied rfl)

end

end Moved

/-- The flush whose characters are to be added up at a place in the chain: what its session was
sent, and how it ended. -/
def flushAt (bridge : HalfCascadeBridge) (index : Nat) : Option (Nat × FlushOutcome) :=
  match bridge.pending[index]? with
  | some (.finish session sent false) =>
      match bridge.sessions[session]? with
      | some { flush := .ended outcome, .. } => some (sent, outcome)
      | _ => none
  | _ => none

/-- The characters that a step leaves out. -/
def short (bridge : HalfCascadeBridge) : HalfCascadeAction → Nat
  | .finish index => ((bridge.flushAt index).map (fun flush => flush.2.short flush.1)).getD 0
  | _ => 0

def Countable (bridge : HalfCascadeBridge) : HalfCascadeAction → Prop
  | .flushEnds session (.returned chars) => chars ≤ bridge.sentOf session
  | _ => True

def Waits (bridge : HalfCascadeBridge) : Prop :=
  ∀ transcript tail, bridge.pump = .draining transcript tail → bridge.session = none

theorem waits_resume (resumed : bridge.resume = some next) : next.Waits := by
  have idle (other : HalfCascadeBridge) (same : other.pump = .ready) : other.Waits := by
    intro transcript tail here
    cases same.symm.trans here
  cases resume_some resumed with
  | openSession transcript tail _ _ =>
      intro other more here
      cases here
  | sendText transcript tail session _ _ =>
      exact (PumpSound.sendText transcript tail session).draining
  | unopened transcript tail session _ _ =>
      exact idle _ (PumpSound.spoke_pump transcript)
  | textSent transcript session _ _ =>
      exact idle _ (PumpSound.textSent_pump transcript session)
  | unsent transcript session _ _ =>
      exact idle _ (PumpSound.spoke_pump transcript)
  | aborted flush _ _ =>
      exact idle _ rfl
  | closed reason _ _ =>
      intro other more here
      cases here

theorem Waits.step {action : HalfCascadeAction} (waits : bridge.Waits)
    (taken : bridge.step config action = some next) : next.Waits := by
  cases action with
  | receive event =>
      obtain ⟨ready, rfl⟩ := receive_some taken
      have idle (other : HalfCascadeBridge) (same : other.pump = .ready) : other.Waits := by
        intro transcript tail here
        cases same.symm.trans here
      cases event with
      | agentTranscript text isFinal => exact (PumpSound.speak { text, isFinal }).draining
      | speechStarted =>
          intro transcript tail here
          unfold receive at here ⊢
          dsimp only at here ⊢
          split at here
          · cases here
          · split at here
            · cases here
            · cases ready.symm.trans here
      | turnEnded report => exact idle _ ((PumpSound.inOrder_pump _).trans ready)
      | sessionClosed reason => intro transcript tail here; cases here
      | audioDelta pcm => exact idle _ ready
      | userTranscript text isFinal => exact idle _ ready
      | bridgeError code message isFatal => exact idle _ ready
  | innerEnds =>
      obtain ⟨_, rfl⟩ := innerEnds_some taken
      intro transcript tail here
      cases here
  | resume => exact waits_resume taken
  | flushEnds session outcome =>
      obtain ⟨_, _, _, rfl⟩ := flushEnds_some taken
      exact waits
  | nextLink =>
      obtain ⟨link, rest, _, _, rfl⟩ := nextLink_some taken
      cases link with
      | finish session sent accounted => exact waits
      | transcript text => exact waits
      | endTurn turn report => exact waits
  | finish index =>
      obtain ⟨_, _, _, _, _, _, _, rfl⟩ := finishAt_some taken
      exact waits
  | onAudio session pcm =>
      obtain ⟨_, _, ⟨_, rfl⟩ | ⟨_, rfl⟩⟩ := onAudio_some taken
      · exact waits
      · exact waits
  | onError session message =>
      rcases onError_some taken with rfl | rfl
      · exact waits
      · exact waits
  | interrupt audioEndMs =>
      cases taken
      intro transcript tail _
      rfl
  | interruptReturns index =>
      obtain ⟨_, _, rfl⟩ := interruptReturns_some taken
      exact waits

theorem flushAt_of {index session sent : Nat} {speech : SpeechSession} {outcome : FlushOutcome}
    (linked : bridge.pending[index]? = some (.finish session sent false))
    (known : bridge.sessions[session]? = some speech) (ended : speech.flush = .ended outcome) :
    bridge.flushAt index = some (sent, outcome) := by
  obtain ⟨epoch, turn, chars, flush, aborted⟩ := speech
  cases ended
  simp only [flushAt, linked, known]

/-- Every step moves the characters on: what it hands over is added, and only a flush that returns
fewer than its session was sent leaves some out. -/
theorem Moved.step {action : HalfCascadeAction} (tallied : bridge.Tallied) (waits : bridge.Waits)
    (countable : bridge.Countable action) (taken : bridge.step config action = some next) :
    Moved config bridge next (bridge.handed action) (bridge.short action) := by
  cases action with
  | receive event =>
      obtain ⟨_, rfl⟩ := receive_some taken
      have heard : Moved config bridge
          { bridge with received := bridge.received ++ [event] } 0 0 :=
        Moved.of_same tallied rfl rfl rfl rfl rfl rfl
      have both := heard.trans (Moved.receive heard.tallied event)
      rw [Nat.zero_add] at both
      cases event with
      | agentTranscript text isFinal => exact both
      | speechStarted => exact both
      | turnEnded report => exact both
      | sessionClosed reason => exact both
      | audioDelta pcm => exact both
      | userTranscript text isFinal => exact both
      | bridgeError code message isFatal => exact both
  | innerEnds =>
      obtain ⟨_, rfl⟩ := innerEnds_some taken
      exact Moved.of_same tallied rfl rfl rfl rfl rfl rfl
  | resume => exact Moved.resume tallied waits taken
  | flushEnds session outcome =>
      obtain ⟨_, _, _, rfl⟩ := flushEnds_some taken
      exact Moved.flushEnds tallied (by rintro chars rfl; exact countable)
  | nextLink =>
      obtain ⟨link, rest, chain, done, rfl⟩ := nextLink_some taken
      have unchained : Moved config bridge { bridge with pending := rest } 0 0 := by
        refine Moved.rechain tallied ?_ ?_
        · intro other member
          refine tallied.linked other ?_
          rw [chain]
          exact List.mem_cons_of_mem link member
        · rw [chain]
          unfold Link.waitingAll
          rw [List.map_cons, List.sum_cons]
          cases link with
          | finish session sent accounted =>
              cases accounted with
              | false => exact absurd rfl (done session sent)
              | true => exact (Nat.zero_add _).symm
          | transcript text => exact (Nat.zero_add _).symm
          | endTurn turn report => exact (Nat.zero_add _).symm
      exact unchained.trans (Moved.deliver unchained.tallied link)
  | finish index =>
      obtain ⟨session, sent, speech, outcome, linked, known, ended, rfl⟩ := finishAt_some taken
      have left : bridge.short (.finish index) = outcome.short sent := by
        change ((bridge.flushAt index).map (fun flush => flush.2.short flush.1)).getD 0 = _
        rw [flushAt_of linked known ended]
        rfl
      rw [left]
      refine Moved.finish tallied linked ?_
      rintro chars rfl
      obtain ⟨_, all⟩ := tallied.linked _ (List.mem_of_getElem? linked)
      rw [← all, sentOf_known known]
      exact tallied.bounded session speech chars known ended
  | onAudio session pcm =>
      obtain ⟨_, _, ⟨_, rfl⟩ | ⟨_, rfl⟩⟩ := onAudio_some taken
      · exact Moved.note tallied rfl
      · exact Moved.note tallied rfl
  | onError session message =>
      rcases onError_some taken with rfl | rfl
      · exact Moved.refl tallied
      · exact Moved.put tallied rfl
  | interrupt audioEndMs =>
      cases taken
      exact (Moved.abortSpeech tallied).aside rfl rfl rfl rfl rfl rfl
  | interruptReturns index =>
      obtain ⟨_, _, rfl⟩ := interruptReturns_some taken
      exact Moved.of_same tallied rfl rfl rfl rfl rfl rfl

end HalfCascadeBridge
end Assemblix.Realtime
