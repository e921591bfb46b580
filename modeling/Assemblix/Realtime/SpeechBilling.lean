import Assemblix.Realtime.HalfCascadeOrder

/-
What a half-cascade call charges for speaking.

A session is settled once an abort or its flush has added up what it was sent; from then on it
is sent nothing more. The turn's characters are those of the settled sessions that no turn end
has carried yet, and a turn end carries all of them.
-/

namespace Assemblix.Realtime

open Library

def Happening.billed : Happening → List Nat
  | .turnEnded _ _ _ billed => billed
  | _ => []

def Happening.chars : Happening → Nat
  | .turnEnded _ _ chars _ => chars
  | _ => 0

def Happening.isTurnEnd : Happening → Bool
  | .turnEnded _ _ _ _ => true
  | _ => false

def TurnEnded.charged (report : TurnEnded) : Nat :=
  report.speechChars.getD 0

theorem TurnEnded.spoken_charged (config : HalfCascadeConfig) (report : TurnEnded) (chars : Nat) :
    (report.spoken config chars).charged = chars := by
  unfold TurnEnded.charged TurnEnded.spoken
  dsimp only
  split
  · exact Eq.symm ‹_›
  · rfl

namespace HalfCascadeBridge

def billed (bridge : HalfCascadeBridge) : List Nat :=
  bridge.log.flatMap Happening.billed

def turnEnds (bridge : HalfCascadeBridge) : Nat :=
  bridge.log.countP Happening.isTurnEnd

def sentOf (bridge : HalfCascadeBridge) (session : Nat) : Nat :=
  (bridge.sessions[session]?.map SpeechSession.sent).getD 0

theorem sentOf_known {bridge : HalfCascadeBridge} {session : Nat} {speech : SpeechSession}
    (known : bridge.sessions[session]? = some speech) : bridge.sentOf session = speech.sent := by
  unfold sentOf
  rw [known]
  rfl

theorem sentOf_modify {bridge next : HalfCascadeBridge} {session other : Nat}
    {change : SpeechSession → SpeechSession}
    (sessions : next.sessions = bridge.sessions.modify session change)
    (keeps : session = other → ∀ speech, (change speech).sent = speech.sent) :
    next.sentOf other = bridge.sentOf other := by
  unfold sentOf
  rw [sessions, List.getElem?_modify]
  cases bridge.sessions[other]? with
  | none => rfl
  | some speech =>
      by_cases same : session = other
      · simpa [same] using keeps same speech
      · simp [same]

theorem sentOf_markAborted {bridge next : HalfCascadeBridge} {taken : Option Nat} (other : Nat)
    (sessions : next.sessions = markAborted bridge.sessions taken) :
    next.sentOf other = bridge.sentOf other := by
  cases taken with
  | none =>
      unfold sentOf
      rw [sessions]
      rfl
  | some session => exact sentOf_modify sessions (fun _ _ => rfl)

structure Settled (bridge : HalfCascadeBridge) (session : Nat) : Prop where
  opened : session < bridge.sessions.length
  closed : bridge.session ≠ some session
  added : ∀ sent, bridge.pending.head? ≠ some (.finish session sent false)

structure Billed (bridge : HalfCascadeBridge) : Prop where
  once : (bridge.billed ++ bridge.counted).Nodup
  settled : ∀ session, session ∈ bridge.billed ++ bridge.counted ↔ bridge.Settled session
  turn : bridge.turnChars = (bridge.counted.map bridge.sentOf).sum
  carried : ∀ entry ∈ bridge.log, entry.chars = (entry.billed.map bridge.sentOf).sum
  accurate : ∀ (session : Nat) (speech : SpeechSession) (chars : Nat),
    bridge.sessions[session]? = some speech → speech.flush = .ended (.returned chars) →
      chars = speech.sent

namespace Billed

variable {bridge next : HalfCascadeBridge}

theorem initial : Billed {} where
  once := List.nodup_nil
  settled := by
    intro session
    constructor
    · intro member
      cases member
    · intro settled
      exact absurd settled.opened (Nat.not_lt_zero session)
  turn := rfl
  carried := by intro entry member; cases member
  accurate := by intro session speech chars known; cases known

theorem mem_billed {entry : Happening} {session : Nat} (logged : entry ∈ bridge.log)
    (member : session ∈ entry.billed) : session ∈ bridge.billed :=
  List.mem_flatMap.mpr ⟨entry, logged, member⟩

theorem sum_congr {sessions : List Nat}
    (same : ∀ session ∈ sessions, next.sentOf session = bridge.sentOf session) :
    (sessions.map next.sentOf).sum = (sessions.map bridge.sentOf).sum :=
  congrArg List.sum (List.map_congr_left same)

section

variable (billed : bridge.Billed)
include billed

/-- A step that adds nothing up. -/
theorem of_same (log : next.log = bridge.log) (counted : next.counted = bridge.counted)
    (turnChars : next.turnChars = bridge.turnChars)
    (settled : ∀ session, next.Settled session ↔ bridge.Settled session)
    (sent : ∀ session, bridge.Settled session → next.sentOf session = bridge.sentOf session)
    (accurate : ∀ (session : Nat) (speech : SpeechSession) (chars : Nat),
      next.sessions[session]? = some speech → speech.flush = .ended (.returned chars) →
        chars = speech.sent) : next.Billed := by
  have sameBilled : next.billed = bridge.billed := congrArg (List.flatMap Happening.billed) log
  refine
    { once := ?_, settled := ?_, turn := ?_, carried := ?_, accurate := accurate }
  · rw [sameBilled, counted]
    exact billed.once
  · intro session
    rw [sameBilled, counted, settled session]
    exact billed.settled session
  · rw [turnChars, counted, billed.turn]
    refine (sum_congr ?_).symm
    intro session member
    exact sent session ((billed.settled session).mp (List.mem_append_right _ member))
  · intro entry member
    rw [log] at member
    rw [billed.carried entry member]
    refine (sum_congr ?_).symm
    intro session inEntry
    exact sent session ((billed.settled session).mp
      (List.mem_append_left _ (mem_billed member inEntry)))

/-- A step that nothing here depends on. -/
theorem aside (log : next.log = bridge.log) (sessions : next.sessions = bridge.sessions)
    (session : next.session = bridge.session) (pending : next.pending = bridge.pending)
    (turnChars : next.turnChars = bridge.turnChars) (counted : next.counted = bridge.counted) :
    next.Billed := by
  refine billed.of_same log counted turnChars ?_ ?_ ?_
  · intro other
    constructor
    · rintro ⟨opened, closed, added⟩
      exact ⟨sessions ▸ opened, session ▸ closed, pending ▸ added⟩
    · rintro ⟨opened, closed, added⟩
      exact ⟨sessions ▸ opened, session ▸ closed, pending ▸ added⟩
  · intro other _
    unfold sentOf
    rw [sessions]
  · intro other speech chars known
    exact billed.accurate other speech chars (sessions ▸ known)

theorem add {session : Nat} (log : next.log = bridge.log)
    (counted : next.counted = bridge.counted ++ [session])
    (turnChars : next.turnChars = bridge.turnChars + bridge.sentOf session)
    (unsettled : ¬ bridge.Settled session)
    (settled : ∀ other, next.Settled other ↔ bridge.Settled other ∨ other = session)
    (sent : ∀ other, next.sentOf other = bridge.sentOf other)
    (accurate : ∀ (session : Nat) (speech : SpeechSession) (chars : Nat),
      next.sessions[session]? = some speech → speech.flush = .ended (.returned chars) →
        chars = speech.sent) : next.Billed := by
  have sameBilled : next.billed = bridge.billed := congrArg (List.flatMap Happening.billed) log
  have fresh : session ∉ bridge.billed ++ bridge.counted :=
    fun member => unsettled ((billed.settled session).mp member)
  have everywhere (sessions : List Nat) :
      (sessions.map next.sentOf).sum = (sessions.map bridge.sentOf).sum :=
    sum_congr (fun other _ => sent other)
  refine
    { once := ?_, settled := ?_, turn := ?_, carried := ?_, accurate := accurate }
  · rw [sameBilled, counted, ← List.append_assoc]
    refine billed.once.append (List.nodup_singleton session) ?_
    exact List.disjoint_singleton.mpr fresh
  · intro other
    rw [sameBilled, counted, ← List.append_assoc, List.mem_append, List.mem_singleton,
      billed.settled other]
    exact (settled other).symm
  · rw [turnChars, counted, everywhere, List.map_append, List.sum_append, billed.turn]
    simp
  · intro entry member
    rw [log] at member
    rw [everywhere]
    exact billed.carried entry member

theorem note {entry : Happening} (carries : entry.billed = []) (charges : entry.chars = 0) :
    (bridge.note entry).Billed := by
  have sameBilled : (bridge.note entry).billed = bridge.billed := by
    unfold HalfCascadeBridge.billed HalfCascadeBridge.note
    rw [List.flatMap_append, List.flatMap_singleton, carries, List.append_nil]
  refine
    { once := ?_, settled := ?_, turn := billed.turn, carried := ?_, accurate := billed.accurate }
  · rw [sameBilled]
    exact billed.once
  · intro session
    rw [sameBilled]
    exact ⟨fun member => { (billed.settled session).mp member with },
      fun settled => (billed.settled session).mpr { settled with }⟩
  · intro other member
    rcases List.mem_append.mp member with earlier | last
    · exact billed.carried other earlier
    · rw [List.mem_singleton.mp last, carries, charges]
      rfl

theorem put (event : ConversationEvent) : (bridge.put event).Billed :=
  billed.note rfl rfl

theorem report (turn : Nat) (report : TurnEnded) :
    (bridge.deliver (.endTurn turn report)).Billed := by
  have moved : (bridge.deliver (.endTurn turn report)).billed =
      bridge.billed ++ bridge.counted := by
    unfold HalfCascadeBridge.billed HalfCascadeBridge.deliver HalfCascadeBridge.note
    rw [List.flatMap_append, List.flatMap_singleton]
    rfl
  have nothing : (bridge.deliver (.endTurn turn report)).counted = [] := rfl
  refine
    { once := ?_, settled := ?_, turn := rfl, carried := ?_, accurate := billed.accurate }
  · rw [moved, nothing, List.append_nil]
    exact billed.once
  · intro session
    rw [moved, nothing, List.append_nil]
    exact ⟨fun member => { (billed.settled session).mp member with },
      fun settled => (billed.settled session).mpr { settled with }⟩
  · intro entry member
    rcases List.mem_append.mp member with earlier | last
    · exact billed.carried entry earlier
    · rw [List.mem_singleton.mp last]
      exact billed.turn

theorem deliver (link : Link) : (bridge.deliver link).Billed := by
  cases link with
  | finish session sent accounted => exact billed
  | transcript text => exact billed.put _
  | endTurn turn report => exact billed.report turn report

/-! ### What each operation keeps -/

theorem rechain {pending : List Link}
    (first : ∀ session sent, pending.head? = some (.finish session sent false) ↔
      bridge.pending.head? = some (.finish session sent false)) :
    Billed { bridge with pending := pending } := by
  refine billed.of_same rfl rfl rfl ?_ (fun _ _ => rfl) billed.accurate
  intro session
  constructor
  · intro settled
    exact ⟨settled.opened, settled.closed, fun sent link =>
      settled.added sent ((first session sent).mpr link)⟩
  · intro settled
    exact ⟨settled.opened, settled.closed, fun sent link =>
      settled.added sent ((first session sent).mp link)⟩

theorem inOrder (link : Link) : (bridge.inOrder link).Billed := by
  unfold HalfCascadeBridge.inOrder
  split
  · exact billed.deliver link
  · refine billed.rechain ?_
    intro session sent
    rw [List.head?_append_of_ne_nil _ ‹_›]

theorem unchain (sound : bridge.Sound) {link : Link} {rest : List Link}
    (chain : bridge.pending = link :: rest)
    (done : ∀ session sent, link ≠ .finish session sent false) :
    Billed { bridge with pending := rest } := by
  refine billed.rechain ?_
  intro session sent
  constructor
  · intro first
    have behind := sound.behind
    rw [chain] at behind
    cases behind _ (List.mem_of_mem_head? first)
  · intro first
    rw [chain] at first
    exact absurd (Option.some.inj first) (done session sent)

theorem startFlush (sound : bridge.Sound) {session : Nat} (spoken : Text)
    (isOpen : bridge.session = some session) :
    ({ bridge with session := none, spoken := spoken }.startFlush session).Billed := by
  have empty := sound.quiet session isOpen
  have first : (bridge.pending ++ [Link.finish session bridge.sessionChars false]).head? =
      some (.finish session bridge.sessionChars false) := by
    rw [empty]
    rfl
  refine billed.of_same rfl rfl rfl ?_ ?_ ?_
  · intro other
    constructor
    · rintro ⟨opened, _, added⟩
      refine ⟨(List.length_modify _ _ _) ▸ opened, ?_, ?_⟩
      · intro otherOpen
        cases isOpen.symm.trans otherOpen
        exact added _ first
      · intro sent link
        rw [empty] at link
        cases link
    · rintro ⟨opened, closed, _⟩
      refine ⟨(List.length_modify _ _ _).symm ▸ opened, Option.some_ne_none _ ∘ Eq.symm, ?_⟩
      intro sent link
      cases first.symm.trans link
      exact closed isOpen
  · intro other _
    exact sentOf_modify rfl (fun _ _ => rfl)
  · intro other after chars found returned
    obtain ⟨before, known, ⟨rfl, rfl⟩ | ⟨_, rfl⟩⟩ := get_modify found
    · cases returned
    · exact billed.accurate other _ chars known returned

theorem openSession (transcript : Transcript) (tail : Text) (closed : bridge.session = none) :
    (bridge.openSession transcript tail).Billed := by
  have length : (bridge.openSession transcript tail).sessions.length =
      bridge.sessions.length + 1 := List.length_append
  refine billed.of_same rfl rfl rfl ?_ ?_ ?_
  · intro session
    constructor
    · rintro ⟨opened, otherOpen, added⟩
      rw [length] at opened
      have different : session ≠ bridge.sessions.length :=
        fun same => otherOpen (congrArg some same.symm)
      refine ⟨by omega, ?_, added⟩
      rw [closed]
      exact Option.some_ne_none _ ∘ Eq.symm
    · rintro ⟨opened, _, added⟩
      refine ⟨by omega, ?_, added⟩
      intro same
      have index : bridge.sessions.length = session := Option.some.inj same
      omega
  · intro session settled
    unfold sentOf
    change ((bridge.sessions ++ [_])[session]?.map _).getD 0 = _
    rw [List.getElem?_append_left settled.opened]
  · intro session after chars found returned
    change (bridge.sessions ++ [_])[session]? = some after at found
    rw [List.getElem?_append] at found
    split at found
    · exact billed.accurate session after chars found returned
    · cases List.mem_singleton.mp (List.mem_of_getElem? found)
      cases returned

theorem handOver (sound : bridge.Sound) {session : Nat} (isOpen : bridge.session = some session)
    (count : Nat) :
    Billed { bridge with
      sessionChars := bridge.sessionChars + count
      sessions := bridge.sessions.modify session
        (fun speech => { speech with sent := speech.sent + count }) } := by
  obtain ⟨speech, known, notStarted, _⟩ := sound.opened session isOpen
  refine billed.of_same rfl rfl rfl ?_ ?_ ?_
  · intro other
    constructor
    · rintro ⟨opened, closed, added⟩
      exact ⟨(List.length_modify _ _ _) ▸ opened, closed, added⟩
    · rintro ⟨opened, closed, added⟩
      exact ⟨(List.length_modify _ _ _).symm ▸ opened, closed, added⟩
  · intro other settled
    refine sentOf_modify rfl ?_
    rintro rfl
    exact absurd isOpen settled.closed
  · intro other after chars found returned
    obtain ⟨before, found', ⟨rfl, rfl⟩ | ⟨_, rfl⟩⟩ := get_modify found
    · cases known.symm.trans found'
      have ended : speech.flush = .ended (.returned chars) := returned
      cases notStarted.symm.trans ended
    · exact billed.accurate other _ chars found' returned

theorem flushEnds {session : Nat} {outcome : FlushOutcome}
    (accurate : ∀ chars, outcome = .returned chars → chars = bridge.sentOf session) :
    Billed { bridge with
      sessions := bridge.sessions.modify session ({ · with flush := .ended outcome }) } := by
  refine billed.of_same rfl rfl rfl ?_ ?_ ?_
  · intro other
    constructor
    · rintro ⟨opened, closed, added⟩
      exact ⟨(List.length_modify _ _ _) ▸ opened, closed, added⟩
    · rintro ⟨opened, closed, added⟩
      exact ⟨(List.length_modify _ _ _).symm ▸ opened, closed, added⟩
  · intro other _
    exact sentOf_modify rfl (fun _ _ => rfl)
  · intro other after chars found returned
    obtain ⟨before, known, ⟨rfl, rfl⟩ | ⟨_, rfl⟩⟩ := get_modify found
    · rw [accurate chars (Flush.ended.inj returned), sentOf_known known]
    · exact billed.accurate other _ chars known returned

theorem finish (sound : bridge.Sound) {session sent : Nat} {speech : SpeechSession}
    {rest : List Link} {outcome : FlushOutcome}
    (linked : bridge.pending = .finish session sent false :: rest)
    (known : bridge.sessions[session]? = some speech) (ended : speech.flush = .ended outcome) :
    ({ bridge with pending := .finish session sent true :: rest }.finish session sent
      outcome).Billed := by
  have first : bridge.pending.head? = some (.finish session sent false) := by
    rw [linked]
    rfl
  have counted : sent = bridge.sentOf session := by
    obtain ⟨same, found, _, counted⟩ := sound.linked session sent first
    rw [sentOf_known found]
    exact counted.symm
  refine billed.add rfl rfl ?_ (fun settled => settled.added sent first) ?_ (fun _ => rfl)
    billed.accurate
  · cases outcome with
    | returned chars =>
        have sentAll := billed.accurate session speech chars known ended
        change bridge.turnChars + chars = _
        rw [sentOf_known known, sentAll]
    | raised => exact congrArg (bridge.turnChars + ·) counted
    | cancelled => exact congrArg (bridge.turnChars + ·) counted
  · intro other
    constructor
    · rintro ⟨opened, closed, _⟩
      by_cases same : other = session
      · exact Or.inr same
      · refine Or.inl ⟨opened, closed, ?_⟩
        intro chars link
        cases first.symm.trans link
        exact same rfl
    · rintro (⟨opened, closed, _⟩ | rfl)
      · exact ⟨opened, closed, by intro chars link; cases link⟩
      · refine ⟨(List.getElem?_eq_some_iff.mp known).1, ?_, by intro chars link; cases link⟩
        intro isOpen
        have empty := sound.quiet other isOpen
        rw [linked] at empty
        cases empty

theorem abortSpeech (sound : bridge.Sound) : bridge.abortSpeech.Billed := by
  unfold HalfCascadeBridge.abortSpeech
  refine Billed.note ?_ rfl rfl
  have length (flushing taken : Option Nat) :
      (markAborted (markAborted bridge.sessions flushing) taken).length =
        bridge.sessions.length := by
    rw [length_markAborted, length_markAborted]
  have sent (next : HalfCascadeBridge) (other : Nat) (sessions : next.sessions =
      markAborted (markAborted bridge.sessions bridge.flushing) bridge.session) :
      next.sentOf other = bridge.sentOf other := by
    let middle : HalfCascadeBridge :=
      { bridge with sessions := markAborted bridge.sessions bridge.flushing }
    have second : next.sentOf other = middle.sentOf other := sentOf_markAborted other sessions
    exact second.trans (sentOf_markAborted other rfl)
  have accurate (session : Nat) (after : SpeechSession) (chars : Nat)
      (found : (markAborted (markAborted bridge.sessions bridge.flushing)
        bridge.session)[session]? = some after)
      (returned : after.flush = .ended (.returned chars)) : chars = after.sent := by
    obtain ⟨before, known, _, _, same, flush, _⟩ := get_abortSpeech found
    rw [same]
    exact billed.accurate session before chars known (flush.symm.trans returned)
  have closedAfter (other : Nat) : (none : Option Nat) ≠ some other :=
    Option.some_ne_none other ∘ Eq.symm
  rcases Option.eq_none_or_eq_some bridge.session with closed | ⟨session, isOpen⟩
  · refine billed.of_same rfl ?_ ?_ ?_ (fun other _ => sent _ other rfl) accurate
    · change bridge.counted ++ bridge.session.toList = _
      rw [closed, Option.toList_none, List.append_nil]
    · change (if bridge.session.isSome then _ else bridge.turnChars) = _
      rw [closed]
      rfl
    · intro other
      constructor
      · rintro ⟨opened, _, added⟩
        exact ⟨length _ _ ▸ opened, closed ▸ closedAfter other, added⟩
      · rintro ⟨opened, _, added⟩
        exact ⟨(length _ _).symm ▸ opened, closedAfter other, added⟩
  · obtain ⟨speech, known, _, _, all⟩ := sound.opened session isOpen
    have empty := sound.quiet session isOpen
    refine billed.add rfl ?_ ?_ (fun settled => settled.closed isOpen) ?_
      (fun other => sent _ other rfl) accurate
    · change bridge.counted ++ bridge.session.toList = _
      rw [isOpen, Option.toList_some]
    · change (if bridge.session.isSome then bridge.turnChars + bridge.sessionChars else _) = _
      rw [isOpen, Option.isSome_some, if_pos rfl, sentOf_known known, all]
    · intro other
      constructor
      · rintro ⟨opened, _, added⟩
        by_cases same : other = session
        · exact Or.inr same
        · refine Or.inl ⟨length _ _ ▸ opened, ?_, added⟩
          intro otherOpen
          exact same (Option.some.inj (otherOpen.symm.trans isOpen))
      · rintro (⟨opened, _, added⟩ | rfl)
        · exact ⟨(length _ _).symm ▸ opened, closedAfter other, added⟩
        · refine ⟨(length _ _).symm ▸ (List.getElem?_eq_some_iff.mp known).1,
            closedAfter other, ?_⟩
          intro chars link
          change bridge.pending.head? = _ at link
          rw [empty] at link
          cases link

/-! ### Every step -/

theorem spoke (transcript : Transcript) : (bridge.spoke transcript).Billed := by
  have ready : Billed { bridge with pump := .ready } := billed.aside rfl rfl rfl rfl rfl rfl
  unfold HalfCascadeBridge.spoke
  dsimp only
  split
  · exact ready.inOrder _
  · exact ready.put _

theorem textSent (sound : bridge.Sound) (transcript : Transcript) {session : Nat}
    (isOpen : bridge.session = some session) : (bridge.textSent transcript session).Billed := by
  unfold HalfCascadeBridge.textSent
  split
  · exact (billed.startFlush sound [] isOpen).spoke transcript
  · exact billed.spoke transcript

theorem sendText (sound : bridge.Sound) (transcript : Transcript) (tail : Text) {session : Nat}
    (isOpen : bridge.session = some session) :
    (bridge.sendText transcript tail session).Billed := by
  unfold HalfCascadeBridge.sendText
  split
  · exact billed.textSent sound transcript isOpen
  · exact (billed.handOver sound isOpen tail.length).aside rfl rfl rfl rfl rfl rfl

theorem speak (sound : bridge.Sound) (transcript : Transcript) :
    (bridge.speak transcript).Billed := by
  let told : HalfCascadeBridge :=
    { bridge with spoken := bridge.spoken ++ bridge.unspoken transcript.text }
  have toldBilled : told.Billed := billed.aside rfl rfl rfl rfl rfl rfl
  have toldSound : told.Sound := { sound with }
  unfold HalfCascadeBridge.speak
  split
  · exact billed.spoke transcript
  · dsimp only
    split
    · exact toldBilled.spoke transcript
    · split
      case h_1 closed => exact toldBilled.aside rfl rfl rfl rfl rfl rfl
      case h_2 session isOpen => exact toldBilled.sendText toldSound transcript _ isOpen

theorem receive (sound : bridge.Sound) (event : ConversationEvent) :
    (bridge.receive event).Billed := by
  cases event with
  | agentTranscript text isFinal =>
      have opened : Billed { bridge with turnOpen := true } :=
        billed.aside rfl rfl rfl rfl rfl rfl
      have openedSound : Sound { bridge with turnOpen := true } := { sound with }
      exact opened.speak openedSound _
  | speechStarted =>
      unfold HalfCascadeBridge.receive
      dsimp only
      split
      · let cut : HalfCascadeBridge :=
          { bridge with
            cancelledTurn := some bridge.turn
            spoken := []
            pump := .aborting bridge.flushing }
        have cutBilled : cut.Billed := billed.aside rfl rfl rfl rfl rfl rfl
        have cutSound : cut.Sound := { sound with }
        exact cutBilled.abortSpeech cutSound
      · split
        · let waiting : HalfCascadeBridge := { bridge with pump := .aborting bridge.flushing }
          have waitingBilled : waiting.Billed := billed.aside rfl rfl rfl rfl rfl rfl
          have waitingSound : waiting.Sound := { sound with }
          exact waitingBilled.abortSpeech waitingSound
        · exact billed.note rfl rfl
  | turnEnded report =>
      let past : HalfCascadeBridge :=
        { bridge with turnOpen := false, turn := bridge.turn + 1, spoken := [] }
      have pastBilled : past.Billed := billed.aside rfl rfl rfl rfl rfl rfl
      exact pastBilled.inOrder _
  | sessionClosed reason => exact billed.aside rfl rfl rfl rfl rfl rfl
  | audioDelta pcm => exact billed.put _
  | userTranscript text isFinal => exact billed.put _
  | bridgeError code message isFatal => exact billed.put _

theorem resume (kept : bridge.Kept) (resumed : bridge.resume = some next) : next.Billed := by
  cases resume_some resumed with
  | openSession transcript tail pump empty =>
      exact billed.openSession transcript tail (kept.pumps.draining transcript tail pump)
  | sendText transcript tail session _ isOpen =>
      exact billed.sendText kept.sound transcript tail isOpen
  | unopened transcript tail session _ _ =>
      exact billed.spoke transcript
  | textSent transcript session _ isOpen =>
      exact billed.textSent kept.sound transcript isOpen
  | unsent transcript session _ _ =>
      exact billed.spoke transcript
  | aborted flush pump _ =>
      have ready : Billed { bridge with pump := .ready } := billed.aside rfl rfl rfl rfl rfl rfl
      exact ready.note rfl rfl
  | closed reason pump _ =>
      have ended : Billed { bridge with pump := .ended } := billed.aside rfl rfl rfl rfl rfl rfl
      exact ended.put _

end

end Billed

def Accurate (bridge : HalfCascadeBridge) : HalfCascadeAction → Prop
  | .flushEnds session (.returned chars) => chars = bridge.sentOf session
  | _ => True

variable {config : HalfCascadeConfig} {bridge next : HalfCascadeBridge}

theorem Billed.step {action : HalfCascadeAction} (billed : bridge.Billed) (kept : bridge.Kept)
    (accurate : bridge.Accurate action) (taken : bridge.step config action = some next) :
    next.Billed := by
  cases action with
  | receive event =>
      obtain ⟨_, rfl⟩ := receive_some taken
      let heard : HalfCascadeBridge := { bridge with received := bridge.received ++ [event] }
      have heardBilled : heard.Billed := billed.aside rfl rfl rfl rfl rfl rfl
      have heardSound : heard.Sound := { kept.sound with }
      exact heardBilled.receive heardSound event
  | innerEnds =>
      obtain ⟨_, rfl⟩ := innerEnds_some taken
      exact billed.aside rfl rfl rfl rfl rfl rfl
  | resume => exact billed.resume kept taken
  | flushEnds session outcome =>
      obtain ⟨_, _, _, rfl⟩ := flushEnds_some taken
      refine billed.flushEnds ?_
      rintro chars rfl
      exact accurate
  | nextLink =>
      obtain ⟨link, rest, chain, done, rfl⟩ := nextLink_some taken
      exact (billed.unchain kept.sound chain done).deliver link
  | finish index =>
      obtain ⟨session, sent, speech, outcome, linked, known, ended, rfl⟩ := finishAt_some taken
      obtain ⟨rfl, rest, chain⟩ := kept.sound.finish_first linked
      rw [chain, List.set_cons_zero]
      exact billed.finish kept.sound chain known ended
  | onAudio session pcm =>
      obtain ⟨_, _, ⟨_, rfl⟩ | ⟨_, rfl⟩⟩ := onAudio_some taken
      · exact billed.note rfl rfl
      · exact billed.note rfl rfl
  | onError session message =>
      rcases onError_some taken with rfl | rfl
      · exact billed
      · exact billed.put _
  | interrupt audioEndMs =>
      cases taken
      exact (billed.abortSpeech kept.sound).aside rfl rfl rfl rfl rfl rfl
  | interruptReturns index =>
      obtain ⟨_, _, rfl⟩ := interruptReturns_some taken
      exact billed.aside rfl rfl rfl rfl rfl rfl

/-! ### Turn ends -/

theorem turnEnd_settles {action : HalfCascadeAction} (reached : bridge.Reached)
    (taken : bridge.step config action = some next) :
    bridge.log <+: next.log ∧ (next.turnEnds = bridge.turnEnds ∨
      next.counted = [] ∧ ∀ session sent,
        next.pending.head? ≠ some (.finish session sent false)) := by
  have logged := step_logged reached.kept reached.past taken
  rcases logged.log with same | ⟨entry, added, _⟩
  · exact ⟨same ▸ List.prefix_refl _, Or.inl (congrArg (List.countP Happening.isTurnEnd) same)⟩
  · refine ⟨added ▸ List.prefix_append _ _, ?_⟩
    have count : next.turnEnds = bridge.turnEnds + [entry].countP Happening.isTurnEnd := by
      unfold turnEnds
      rw [added, List.countP_append]
    have caused := step_caused reached.kept taken added
    cases entry with
    | turnEnded turn report chars billed =>
        right
        rcases caused with rfl | ⟨report', rfl⟩
        · obtain ⟨link, rest, chain, _, rfl⟩ := nextLink_some taken
          cases link with
          | finish session sent accounted => exact absurd added (by simp [deliver])
          | transcript text =>
              have entry := List.append_cancel_left added
              cases entry
          | endTurn turn report =>
              refine ⟨rfl, ?_⟩
              intro session sent first
              have behind := reached.kept.sound.behind
              rw [chain] at behind
              cases behind _ (List.mem_of_mem_head? first)
        · obtain ⟨_, same⟩ := Option.ite_none_right_eq_some.mp taken
          cases same
          unfold receive inOrder at added ⊢
          dsimp only at added ⊢
          split
          case isTrue empty =>
            refine ⟨rfl, ?_⟩
            intro session sent first
            change bridge.pending.head? = _ at first
            rw [empty] at first
            cases first
          case isFalse waits =>
            rw [if_neg waits] at added
            exact absurd added (by simp)
    | put event => exact Or.inl count
    | audio session turn pcm => exact Or.inl count
    | dropped session turn pcm => exact Or.inl count
    | abort opened => exact Or.inl count
    | speechStarted cut opened => exact Or.inl count

/-! ### The open session -/

theorem spoke_session (transcript : Transcript) :
    (bridge.spoke transcript).session = bridge.session :=
  (Aside.spoke bridge transcript).session

theorem textSent_session (transcript : Transcript) (session : Nat) :
    (bridge.textSent transcript session).session = bridge.session ∨
      (bridge.textSent transcript session).session = none := by
  unfold textSent
  split
  · exact Or.inr (spoke_session transcript)
  · exact Or.inl (spoke_session transcript)

theorem sendText_session (transcript : Transcript) (tail : Text) (session : Nat) :
    (bridge.sendText transcript tail session).session = bridge.session ∨
      (bridge.sendText transcript tail session).session = none := by
  unfold sendText
  split
  · exact textSent_session transcript session
  · exact Or.inl rfl

theorem speak_session (transcript : Transcript) :
    (bridge.speak transcript).session = bridge.session ∨
      (bridge.speak transcript).session = none := by
  unfold speak
  split
  · exact Or.inl (spoke_session transcript)
  · dsimp only
    split
    · exact Or.inl (spoke_session transcript)
    · split
      case h_1 closed => exact Or.inr closed
      case h_2 session isOpen => exact sendText_session transcript _ session

theorem receive_session (event : ConversationEvent) :
    (bridge.receive event).session = bridge.session ∨ (bridge.receive event).session = none := by
  cases event with
  | agentTranscript text isFinal =>
      let opened : HalfCascadeBridge := { bridge with turnOpen := true }
      have spoken : (opened.speak { text, isFinal }).session = opened.session ∨
          (opened.speak { text, isFinal }).session = none := speak_session _
      exact spoken
  | speechStarted =>
      unfold receive
      dsimp only
      split
      · exact Or.inr rfl
      · split
        · exact Or.inr rfl
        · exact Or.inl rfl
  | turnEnded report => exact Or.inl (Aside.inOrder _ _).session
  | sessionClosed reason => exact Or.inl rfl
  | audioDelta pcm => exact Or.inl rfl
  | userTranscript text isFinal => exact Or.inl rfl
  | bridgeError code message isFatal => exact Or.inl rfl

theorem resume_session (resumed : bridge.resume = some next) :
    next.session = bridge.session ∨ next.session = none ∨
      next.session = some bridge.sessions.length := by
  cases resume_some resumed with
  | openSession transcript tail _ _ =>
      exact Or.inr (Or.inr rfl)
  | sendText transcript tail session _ _ =>
      exact (sendText_session transcript tail session).imp_right Or.inl
  | unopened transcript tail session _ _ =>
      exact Or.inl (spoke_session transcript)
  | textSent transcript session _ _ =>
      exact (textSent_session transcript session).imp_right Or.inl
  | unsent transcript session _ _ =>
      exact Or.inl (spoke_session transcript)
  | aborted flush _ _ =>
      exact Or.inl rfl
  | closed reason _ _ =>
      exact Or.inl rfl

theorem step_session {action : HalfCascadeAction} (taken : bridge.step config action = some next) :
    next.session = bridge.session ∨ next.session = none ∨
      next.session = some bridge.sessions.length := by
  cases action with
  | receive event =>
      obtain ⟨_, rfl⟩ := receive_some taken
      let heard : HalfCascadeBridge := { bridge with received := bridge.received ++ [event] }
      have opened : (heard.receive event).session = bridge.session ∨
          (heard.receive event).session = none := receive_session event
      exact opened.imp_right Or.inl
  | innerEnds =>
      obtain ⟨_, rfl⟩ := innerEnds_some taken
      exact Or.inl rfl
  | resume => exact resume_session taken
  | flushEnds session outcome =>
      obtain ⟨_, _, _, rfl⟩ := flushEnds_some taken
      exact Or.inl rfl
  | nextLink =>
      obtain ⟨link, rest, _, _, rfl⟩ := nextLink_some taken
      exact Or.inl (Aside.deliver _ link).session
  | finish index =>
      obtain ⟨_, _, _, _, _, _, _, rfl⟩ := finishAt_some taken
      exact Or.inl rfl
  | onAudio session pcm =>
      obtain ⟨_, _, ⟨_, rfl⟩ | ⟨_, rfl⟩⟩ := onAudio_some taken
      · exact Or.inl rfl
      · exact Or.inl rfl
  | onError session message =>
      rcases onError_some taken with rfl | rfl
      · exact Or.inl rfl
      · exact Or.inl rfl
  | interrupt audioEndMs =>
      cases taken
      exact Or.inr (Or.inl rfl)
  | interruptReturns index =>
      obtain ⟨_, _, rfl⟩ := interruptReturns_some taken
      exact Or.inl rfl

/-- Nothing more is sent to the session: an abort or its flush has taken it. -/
def Closed (bridge : HalfCascadeBridge) (session : Nat) : Prop :=
  session < bridge.sessions.length ∧ bridge.session ≠ some session

theorem Sound.closed (sound : bridge.Sound) {session : Nat} {speech : SpeechSession}
    (known : bridge.sessions[session]? = some speech)
    (taken : speech.aborted = true ∨ speech.flush ≠ .notStarted) : bridge.Closed session := by
  refine ⟨(List.getElem?_eq_some_iff.mp known).1, ?_⟩
  intro isOpen
  obtain ⟨other, found, notStarted, fresh, _⟩ := sound.opened session isOpen
  cases known.symm.trans found
  rcases taken with aborted | started
  · rw [fresh] at aborted
    cases aborted
  · exact started notStarted

theorem Closed.step {action : HalfCascadeAction} {session : Nat} (closed : bridge.Closed session)
    (reached : bridge.Reached) (taken : bridge.step config action = some next) :
    next.Closed session := by
  have longer := (step_logged reached.kept reached.past taken).later.length
  obtain ⟨known, notOpen⟩ := closed
  refine ⟨Nat.lt_of_lt_of_le known longer, ?_⟩
  rcases step_session taken with same | none | opened
  · rw [same]
    exact notOpen
  · rw [none]
    exact Option.some_ne_none session ∘ Eq.symm
  · rw [opened]
    intro same
    have index : bridge.sessions.length = session := Option.some.inj same
    omega

/-! ### Runs -/

def AccurateStep (config : HalfCascadeConfig) (bridge : HalfCascadeBridge)
    (action : HalfCascadeAction) (next : HalfCascadeBridge) : Prop :=
  bridge.Step config action next ∧ bridge.Accurate action

theorem billed_run {last : HalfCascadeBridge} {actions : List HalfCascadeAction}
    (reached : bridge.Reached) (billed : bridge.Billed)
    (run : Run (AccurateStep config) bridge actions last) : last.Reached ∧ last.Billed :=
  run.invariant (fun state => state.Reached ∧ state.Billed) bridge ⟨reached, billed⟩ (by
    rintro state action next ⟨reached, billed⟩ ⟨taken, accurate⟩
    exact ⟨reached.step taken, billed.step reached.kept accurate taken⟩)

theorem carried_later {last : HalfCascadeBridge} {actions : List HalfCascadeAction}
    {session : Nat} (reached : bridge.Reached) (billed : bridge.Billed)
    (closed : bridge.Closed session) (run : Run (AccurateStep config) bridge actions last) :
    last.Closed session ∧ (last.turnEnds = bridge.turnEnds ∨ session ∈ last.billed) := by
  induction run with
  | nil => exact ⟨closed, Or.inl rfl⟩
  | @snoc actions middle last action before step ih =>
      obtain ⟨taken, accurate⟩ := step
      obtain ⟨closedBefore, earlier⟩ := ih
      obtain ⟨reachedBefore, billedBefore⟩ := billed_run reached billed before
      have closedAfter := closedBefore.step reachedBefore taken
      have billedAfter := billedBefore.step reachedBefore.kept accurate taken
      refine ⟨closedAfter, ?_⟩
      obtain ⟨extended, same | ⟨nothing, settles⟩⟩ := turnEnd_settles reachedBefore taken
      · rcases earlier with none | carried
        · exact Or.inl (same.trans none)
        · exact Or.inr ((extended.flatMap _).subset carried)
      · right
        have settled : last.Settled session :=
          ⟨closedAfter.1, closedAfter.2, settles session⟩
        have member := (billedAfter.settled session).mpr settled
        rw [nothing, List.append_nil] at member
        exact member

/-- In every run whose flushes return what they were sent: no session is carried by two turn
ends, a turn end charges the characters that its sessions were sent, and once a turn end is put
after a session was aborted or its flush began, one has carried it. -/
theorem speech_billed (config : HalfCascadeConfig) (before after : List HalfCascadeAction)
    (middle last : HalfCascadeBridge) (first : Run (AccurateStep config) {} before middle)
    (rest : Run (AccurateStep config) middle after last) :
    last.billed.Nodup ∧
      (∀ turn report chars billed, Happening.turnEnded turn report chars billed ∈ last.log →
        (report.spoken config chars).charged = (billed.map last.sentOf).sum) ∧
      ∀ (session : Nat) (speech : SpeechSession), middle.sessions[session]? = some speech →
        speech.aborted = true ∨ speech.flush ≠ .notStarted →
          middle.turnEnds < last.turnEnds → session ∈ last.billed := by
  obtain ⟨reached, billed⟩ := billed_run .initial .initial first
  obtain ⟨_, final⟩ := billed_run reached billed rest
  refine ⟨(List.nodup_append.mp final.once).1, ?_, ?_⟩
  · intro turn report chars billed member
    rw [TurnEnded.spoken_charged]
    exact final.carried _ member
  · intro session speech known taken more
    have closed := reached.kept.sound.closed known taken
    rcases (carried_later reached billed closed rest).2 with same | carried
    · omega
    · exact carried

instance (bridge : HalfCascadeBridge) :
    (action : HalfCascadeAction) → Decidable (bridge.Accurate action)
  | .flushEnds session (.returned chars) =>
      inferInstanceAs (Decidable (chars = bridge.sentOf session))
  | .flushEnds _ .raised | .flushEnds _ .cancelled | .receive _ | .innerEnds | .resume | .nextLink
  | .finish _ | .onAudio _ _ | .onError _ _ | .interrupt _ | .interruptReturns _ => isTrue trivial

/-- The reply that was cut off is charged with its own turn. -/
theorem speech_billed_interrupted :
    ∃ middle last, Run (AccurateStep plainSynthesis) {} (interruptedCall.take 6) middle ∧
      Run (AccurateStep plainSynthesis) middle (interruptedCall.drop 6) last ∧
      last.billed.Nodup ∧ 0 ∈ last.billed := by
  have there : ((interruptedCall.take 6).foldlM
      (Run.guardedStep (step plainSynthesis) Accurate) {}).any (fun middle =>
        ((interruptedCall.drop 6).foldlM
            (Run.guardedStep (step plainSynthesis) Accurate) middle).any (fun last =>
          decide ((middle.sessions[0]?.map SpeechSession.aborted) = some true ∧
            middle.turnEnds < last.turnEnds))) = true := by
    decide +kernel
  obtain ⟨middle, reached, there⟩ := (Option.any_eq_true _ _).mp there
  obtain ⟨last, later, holds⟩ := (Option.any_eq_true _ _).mp there
  obtain ⟨aborted, more⟩ := of_decide_eq_true holds
  obtain ⟨speech, known, taken⟩ := Option.map_eq_some_iff.mp aborted
  have first := Run.of_guarded reached
  have rest := Run.of_guarded later
  obtain ⟨once, _, carried⟩ := speech_billed plainSynthesis _ _ middle last first rest
  exact ⟨middle, last, first, rest, once, carried 0 speech known (Or.inl taken) more⟩

end HalfCascadeBridge

end Assemblix.Realtime
