import Assemblix.Realtime.HalfCascadeSessions

/-
Barge-ins of a half-cascade call.

An abort ends an epoch, so that no session opened before it is heard again. The chain behind a
flush holds final transcripts and turn ends back until the audio of the turn is out, and hands
them on in the order in which the inner bridge sent them.
-/

namespace Assemblix.Realtime

open Library

namespace HalfCascadeBridge

/-! ### What a step does to the sessions and to the log -/

/-- Sessions keep their epoch and turn, and what has ended or was aborted stays so; a session
that is new belongs to the epoch and turn it is opened in. -/
structure Later (bridge next : HalfCascadeBridge) : Prop where
  epoch : bridge.speechEpoch ≤ next.speechEpoch
  length : bridge.sessions.length ≤ next.sessions.length
  turn : bridge.turn ≤ next.turn
  sessions : ∀ (session : Nat) (after : SpeechSession), next.sessions[session]? = some after →
    (∃ before : SpeechSession, bridge.sessions[session]? = some before ∧
      after.epoch = before.epoch ∧ after.turn = before.turn ∧ (after.Live → before.Live) ∧
      (before.aborted = true → after.aborted = true)) ∨
    bridge.sessions.length ≤ session ∧ after.turn = bridge.turn

namespace Later

variable {bridge middle next : HalfCascadeBridge}

theorem of_same (sessions : next.sessions = bridge.sessions)
    (epoch : bridge.speechEpoch ≤ next.speechEpoch) (turn : bridge.turn ≤ next.turn) :
    Later bridge next where
  epoch := epoch
  length := by rw [sessions]
  turn := turn
  sessions := by
    intro session after found
    rw [sessions] at found
    exact Or.inl ⟨after, found, rfl, rfl, id, id⟩

theorem refl (bridge : HalfCascadeBridge) : Later bridge bridge :=
  of_same rfl (Nat.le_refl _) (Nat.le_refl _)

theorem of_modify {session : Nat} {change : SpeechSession → SpeechSession}
    (sessions : next.sessions = bridge.sessions.modify session change)
    (epoch : bridge.speechEpoch ≤ next.speechEpoch) (turn : bridge.turn ≤ next.turn)
    (keeps : ∀ speech, (change speech).epoch = speech.epoch ∧
      (change speech).turn = speech.turn ∧
      (bridge.sessions[session]? = some speech → (change speech).Live → speech.Live) ∧
      (speech.aborted = true → (change speech).aborted = true)) : Later bridge next where
  epoch := epoch
  length := by rw [sessions, List.length_modify]
  turn := turn
  sessions := by
    intro other after found
    rw [sessions] at found
    obtain ⟨before, known, ⟨rfl, rfl⟩ | ⟨_, rfl⟩⟩ := get_modify found
    · obtain ⟨sameEpoch, sameTurn, live, aborted⟩ := keeps before
      exact Or.inl ⟨before, known, sameEpoch, sameTurn, live known, aborted⟩
    · exact Or.inl ⟨_, known, rfl, rfl, id, id⟩

theorem trans (first : Later bridge middle) (second : Later middle next)
    (turn : middle.turn = bridge.turn) : Later bridge next where
  epoch := Nat.le_trans first.epoch second.epoch
  length := Nat.le_trans first.length second.length
  turn := Nat.le_trans first.turn second.turn
  sessions := by
    intro session after found
    rcases second.sessions session after found with
      ⟨between, foundBetween, epoch, sameTurn, live, aborted⟩ | ⟨beyond, opened⟩
    · rcases first.sessions session between foundBetween with
        ⟨before, known, epoch', sameTurn', live', aborted'⟩ | ⟨beyond, opened⟩
      · exact Or.inl ⟨before, known, epoch.trans epoch', sameTurn.trans sameTurn',
          live' ∘ live, aborted ∘ aborted'⟩
      · exact Or.inr ⟨beyond, sameTurn.trans opened⟩
    · exact Or.inr ⟨Nat.le_trans first.length beyond, opened.trans turn⟩

theorem abortSpeech (bridge : HalfCascadeBridge) : Later bridge bridge.abortSpeech where
  epoch := Nat.le_succ _
  length := by
    change _ ≤ (markAborted (markAborted _ _) _).length
    rw [length_markAborted, length_markAborted]
  turn := Nat.le_refl _
  sessions := by
    intro session after found
    obtain ⟨before, known, epoch, turn, _, flush, marks⟩ := get_abortSpeech found
    refine Or.inl ⟨before, known, epoch, turn, ?_, ?_⟩
    · rintro ⟨fresh, unended⟩
      refine ⟨?_, flush ▸ unended⟩
      rcases marks with ⟨marked, _⟩ | ⟨same, _⟩
      · rw [fresh] at marked
        cases marked
      · exact same.symm.trans fresh
    · intro already
      rcases marks with ⟨marked, _⟩ | ⟨same, _⟩
      · exact marked
      · exact same.trans already

theorem startFlush {session : Nat} {speech : SpeechSession} (spoken : Text)
    (known : bridge.sessions[session]? = some speech) (notStarted : speech.flush = .notStarted) :
    Later bridge ({ bridge with session := none, spoken := spoken }.startFlush session) := by
  refine of_modify rfl (Nat.le_refl _) (Nat.le_refl _) ?_
  intro other
  refine ⟨rfl, rfl, ?_, id⟩
  intro here live
  rw [known] at here
  cases here
  exact ⟨live.1, by rw [notStarted]; rfl⟩

end Later


theorem Later.openSession {bridge : HalfCascadeBridge} (transcript : Transcript)
    (tail : Text) : Later bridge (bridge.openSession transcript tail) where
  epoch := Nat.le_refl _
  length := by
    change _ ≤ (bridge.sessions ++ [_]).length
    rw [List.length_append]
    exact Nat.le_add_right _ _
  turn := Nat.le_refl _
  sessions := by
    intro session after found
    change (bridge.sessions ++ [_])[session]? = some after at found
    rw [List.getElem?_append] at found
    split at found
    · exact Or.inl ⟨after, found, rfl, rfl, id, id⟩
    · rename_i beyond
      have last : after = { epoch := bridge.speechEpoch, turn := bridge.turn } :=
        List.mem_singleton.mp (List.mem_of_getElem? found)
      exact Or.inr ⟨Nat.le_of_not_lt beyond, by rw [last]⟩

structure Cutoff (next : HalfCascadeBridge) (opened : Nat) : Prop where
  all : opened = next.sessions.length
  unheard : ∀ (session : Nat) (speech : SpeechSession),
    next.sessions[session]? = some speech → speech.epoch < next.speechEpoch

/-- What a step that adds an entry to the log may do. -/
def Allowed (bridge next : HalfCascadeBridge) : Happening → Prop
  | .audio session turn _ => ∃ speech : SpeechSession,
      bridge.sessions[session]? = some speech ∧ speech.turn = turn ∧
        speech.epoch = bridge.speechEpoch ∧ next.sessions = bridge.sessions ∧
        next.speechEpoch = bridge.speechEpoch
  | .dropped session turn _ => ∃ speech : SpeechSession,
      bridge.sessions[session]? = some speech ∧ speech.turn = turn ∧
        speech.epoch ≠ bridge.speechEpoch ∧ next.sessions = bridge.sessions ∧
        next.speechEpoch = bridge.speechEpoch
  | .abort opened => Cutoff next opened
  | .speechStarted cut opened => cut = true → Cutoff next opened
  | .turnEnded turn _ _ _ => turn < next.turn ∧ next.session = bridge.session ∧
      ∀ (session : Nat) (speech : SpeechSession), next.sessions[session]? = some speech →
        speech.Live → next.session = some session
  | .put _ => True

/-- A step adds at most one entry to the log. -/
structure Logged (bridge next : HalfCascadeBridge) : Prop where
  later : Later bridge next
  log : next.log = bridge.log ∨
    ∃ happening, next.log = bridge.log ++ [happening] ∧ Allowed bridge next happening

theorem Logged.of_same {bridge middle next : HalfCascadeBridge} (logged : Logged middle next)
    (sessions : middle.sessions = bridge.sessions) (session : middle.session = bridge.session)
    (epoch : middle.speechEpoch = bridge.speechEpoch) (turn : middle.turn = bridge.turn)
    (log : middle.log = bridge.log) : Logged bridge next where
  later := (Later.of_same sessions (Nat.le_of_eq epoch.symm) (Nat.le_of_eq turn.symm)).trans
    logged.later turn
  log := by
    rcases logged.log with same | ⟨happening, added, allowed⟩
    · exact Or.inl (same.trans log)
    · refine Or.inr ⟨happening, by rw [added, log], ?_⟩
      cases happening with
      | put event => exact trivial
      | audio number turn pcm =>
          obtain ⟨speech, known, rest⟩ := allowed
          rw [sessions, epoch] at rest
          exact ⟨speech, sessions ▸ known, rest⟩
      | dropped number turn pcm =>
          obtain ⟨speech, known, rest⟩ := allowed
          rw [sessions, epoch] at rest
          exact ⟨speech, sessions ▸ known, rest⟩
      | abort opened => exact allowed
      | speechStarted cut opened => exact allowed
      | turnEnded turn report chars billed =>
          obtain ⟨past, same, live⟩ := allowed
          exact ⟨past, same.trans session, live⟩

def TurnsPast (bridge : HalfCascadeBridge) : Prop :=
  ∀ turn report, Link.endTurn turn report ∈ bridge.pending → turn < bridge.turn

structure Quiet (bridge next : HalfCascadeBridge) : Prop where
  later : Later bridge next
  turn : next.turn = bridge.turn
  log : next.log = bridge.log ∨ ∃ event, next.log = bridge.log ++ [.put event]
  pending : ∀ turn report, Link.endTurn turn report ∈ next.pending →
    Link.endTurn turn report ∈ bridge.pending

namespace Quiet

variable {bridge middle next : HalfCascadeBridge}

theorem logged (quiet : Quiet bridge next) : Logged bridge next where
  later := quiet.later
  log := by
    rcases quiet.log with same | ⟨event, added⟩
    · exact Or.inl same
    · exact Or.inr ⟨_, added, trivial⟩

theorem past (quiet : Quiet bridge next) (past : bridge.TurnsPast) : next.TurnsPast := by
  intro turn report member
  rw [quiet.turn]
  exact past turn report (quiet.pending turn report member)

theorem trans (first : Quiet bridge middle) (silent : middle.log = bridge.log)
    (second : Quiet middle next) : Quiet bridge next where
  later := first.later.trans second.later first.turn
  turn := second.turn.trans first.turn
  log := by
    rw [← silent]
    exact second.log
  pending := fun turn report member =>
    first.pending turn report (second.pending turn report member)

theorem of_same (sessions : next.sessions = bridge.sessions)
    (epoch : next.speechEpoch = bridge.speechEpoch) (turn : next.turn = bridge.turn)
    (log : next.log = bridge.log) (pending : next.pending = bridge.pending) :
    Quiet bridge next where
  later := .of_same sessions (Nat.le_of_eq epoch.symm) (Nat.le_of_eq turn.symm)
  turn := turn
  log := Or.inl log
  pending := by
    intro turn report member
    exact pending ▸ member

theorem put (event : ConversationEvent) : Quiet bridge (bridge.put event) where
  later := .of_same rfl (Nat.le_refl _) (Nat.le_refl _)
  turn := rfl
  log := Or.inr ⟨event, rfl⟩
  pending := fun _ _ member => member

theorem chain {link : Link} (step : ∀ turn report, link ≠ .endTurn turn report) :
    Quiet bridge { bridge with pending := bridge.pending ++ [link] } where
  later := .of_same rfl (Nat.le_refl _) (Nat.le_refl _)
  turn := rfl
  log := Or.inl rfl
  pending := by
    intro turn report member
    rcases List.mem_append.mp member with earlier | last
    · exact earlier
    · exact absurd (List.mem_singleton.mp last).symm (step turn report)

theorem spoke (transcript : Transcript) : Quiet bridge (bridge.spoke transcript) := by
  have ready : Quiet bridge { bridge with pump := .ready } := .of_same rfl rfl rfl rfl rfl
  unfold HalfCascadeBridge.spoke inOrder
  dsimp only
  split
  · split
    · exact ready.trans rfl (.put _)
    · exact ready.trans rfl (.chain (by simp))
  · exact ready.trans rfl (.put _)

theorem startFlush (sound : bridge.Sound) {session : Nat} (isOpen : bridge.session = some session) :
    Quiet bridge ({ bridge with session := none, spoken := [] }.startFlush session) := by
  obtain ⟨speech, known, notStarted, _⟩ := sound.opened session isOpen
  have chained : Quiet bridge
      { bridge with
        pending := bridge.pending ++ [.finish session bridge.sessionChars false] } :=
    .chain (by simp)
  exact
    { later := .startFlush [] known notStarted
      turn := rfl
      log := Or.inl rfl
      pending := chained.pending }

theorem textSent (sound : bridge.Sound) (transcript : Transcript) {session : Nat}
    (isOpen : bridge.session = some session) :
    Quiet bridge (bridge.textSent transcript session) := by
  unfold HalfCascadeBridge.textSent
  split
  · exact (startFlush sound isOpen).trans rfl (.spoke transcript)
  · exact .spoke transcript

theorem sendText (sound : bridge.Sound) (transcript : Transcript) (tail : Text) {session : Nat}
    (isOpen : bridge.session = some session) :
    Quiet bridge (bridge.sendText transcript tail session) := by
  unfold HalfCascadeBridge.sendText
  split
  · exact textSent sound transcript isOpen
  · refine
      { later := .of_modify rfl (Nat.le_refl _) (Nat.le_refl _) ?_
        turn := rfl
        log := Or.inl rfl
        pending := fun _ _ member => member }
    exact fun speech => ⟨rfl, rfl, fun _ live => live, id⟩

theorem speak (sound : bridge.Sound) (transcript : Transcript) :
    Quiet bridge (bridge.speak transcript) := by
  let told : HalfCascadeBridge :=
    { bridge with spoken := bridge.spoken ++ bridge.unspoken transcript.text }
  have toldSound : told.Sound := { sound with }
  have quiet : Quiet bridge told := .of_same rfl rfl rfl rfl rfl
  unfold HalfCascadeBridge.speak
  split
  · exact .spoke transcript
  · dsimp only
    split
    · exact quiet.trans rfl (.spoke transcript)
    · split
      case h_1 => exact .of_same rfl rfl rfl rfl rfl
      case h_2 session isOpen =>
        exact quiet.trans rfl (.sendText toldSound transcript _ isOpen)

end Quiet

theorem Sound.abort_logged {bridge : HalfCascadeBridge} (sound : bridge.Sound) :
    Logged bridge bridge.abortSpeech where
  later := .abortSpeech bridge
  log := by
    refine Or.inr ⟨_, rfl, ?_, ?_⟩
    · change bridge.sessions.length = (markAborted (markAborted _ _) _).length
      rw [length_markAborted, length_markAborted]
    · intro session after found
      obtain ⟨before, known, epoch, _⟩ := get_abortSpeech found
      rw [epoch]
      exact Nat.lt_succ_of_le (sound.bounded session before known)

theorem Sound.live_open {bridge : HalfCascadeBridge} (sound : bridge.Sound)
    (noFlush : ∀ session sent, bridge.pending.head? ≠ some (.finish session sent false))
    {session : Nat} {speech : SpeechSession} (known : bridge.sessions[session]? = some speech)
    (live : speech.Live) : bridge.session = some session := by
  rcases sound.live known live with isOpen | flushing
  · exact isOpen
  · obtain ⟨sent, first⟩ := sound.flushLinked session flushing
    exact absurd first (noFlush session sent)

theorem endTurn_logged {bridge : HalfCascadeBridge} (sound : bridge.Sound)
    (report : TurnEnded) :
    Logged bridge (bridge.receive (.turnEnded report)) := by
  unfold receive inOrder
  dsimp only
  split
  · refine
      { later := .of_same rfl (Nat.le_refl _) (Nat.le_succ _)
        log := Or.inr ⟨_, rfl, Nat.lt_succ_self _, rfl, ?_⟩ }
    rename_i empty
    intro session speech known live
    refine sound.live_open ?_ known live
    intro other sent first
    change bridge.pending = [] at empty
    rw [empty] at first
    cases first
  · exact
      { later := .of_same rfl (Nat.le_refl _) (Nat.le_succ _)
        log := Or.inl rfl }

theorem receive_logged {bridge : HalfCascadeBridge} (sound : bridge.Sound)
    (event : ConversationEvent) : Logged bridge (bridge.receive event) := by
  cases event with
  | agentTranscript text isFinal =>
      have opened : Sound { bridge with turnOpen := true } := { sound with }
      have quiet : Quiet bridge { bridge with turnOpen := true } := .of_same rfl rfl rfl rfl rfl
      exact (quiet.trans rfl (.speak opened _)).logged
  | speechStarted =>
      unfold receive
      dsimp only
      split
      · let cut : HalfCascadeBridge :=
          { bridge with
            cancelledTurn := some bridge.turn
            spoken := []
            pump := .aborting bridge.flushing }
        have cutSound : cut.Sound := { sound with }
        exact cutSound.abort_logged.of_same rfl rfl rfl rfl rfl
      · split
        · let waiting : HalfCascadeBridge := { bridge with pump := .aborting bridge.flushing }
          have waitingSound : waiting.Sound := { sound with }
          exact waitingSound.abort_logged.of_same rfl rfl rfl rfl rfl
        · exact
            { later := .of_same rfl (Nat.le_refl _) (Nat.le_refl _)
              log := Or.inr ⟨_, rfl, fun cut => by cases cut⟩ }
  | turnEnded report => exact endTurn_logged sound report
  | sessionClosed reason =>
      have closing : Quiet bridge { bridge with pump := .closing reason } :=
        .of_same rfl rfl rfl rfl rfl
      exact closing.logged
  | audioDelta pcm => exact (Quiet.put _).logged
  | userTranscript text isFinal => exact (Quiet.put _).logged
  | bridgeError code message isFatal => exact (Quiet.put _).logged

variable {config : HalfCascadeConfig} {bridge next : HalfCascadeBridge}

theorem resume_quiet (kept : bridge.Kept) (notAborting : ∀ flush, bridge.pump ≠ .aborting flush)
    (resumed : bridge.resume = some next) : Quiet bridge next := by
  cases resume_some resumed with
  | openSession transcript tail _ _ =>
      exact
        { later := Later.openSession transcript tail
          turn := rfl
          log := Or.inl rfl
          pending := fun _ _ member => member }
  | sendText transcript tail session _ isOpen =>
      exact .sendText kept.sound transcript tail isOpen
  | unopened transcript tail session _ _ =>
      exact .spoke transcript
  | textSent transcript session _ isOpen =>
      exact .textSent kept.sound transcript isOpen
  | unsent transcript session _ _ =>
      exact .spoke transcript
  | aborted flush pump _ => exact absurd pump (notAborting flush)
  | closed reason _ _ =>
      have ended : Quiet bridge { bridge with pump := .ended } := .of_same rfl rfl rfl rfl rfl
      exact ended.trans rfl (.put _)

theorem resume_aborting {flush : Option Nat} (pump : bridge.pump = .aborting flush)
    (resumed : bridge.resume = some next) :
    next = { bridge with pump := .ready }.note (.speechStarted true bridge.sessions.length) := by
  unfold resume at resumed
  simp only [pump, Option.ite_none_right_eq_some] at resumed
  exact (Option.some.inj resumed.2).symm

theorem resume_logged (kept : bridge.Kept) (resumed : bridge.resume = some next) :
    Logged bridge next := by
  by_cases aborts : ∃ flush, bridge.pump = .aborting flush
  · obtain ⟨flush, pump⟩ := aborts
    rw [resume_aborting pump resumed]
    exact
      { later := .of_same rfl (Nat.le_refl _) (Nat.le_refl _)
        log := Or.inr ⟨_, rfl, fun _ => ⟨rfl, kept.pumps.cutOff flush pump⟩⟩ }
  · exact (resume_quiet kept (fun flush pump => aborts ⟨flush, pump⟩) resumed).logged

theorem TurnsPast.resume (past : bridge.TurnsPast) (kept : bridge.Kept)
    (resumed : bridge.resume = some next) : next.TurnsPast := by
  by_cases aborts : ∃ flush, bridge.pump = .aborting flush
  · obtain ⟨flush, pump⟩ := aborts
    rw [resume_aborting pump resumed]
    exact past
  · exact (resume_quiet kept (fun flush pump => aborts ⟨flush, pump⟩) resumed).past past

theorem TurnsPast.receive (past : bridge.TurnsPast) (sound : bridge.Sound)
    (event : ConversationEvent) : (bridge.receive event).TurnsPast := by
  cases event with
  | agentTranscript text isFinal =>
      have opened : Sound { bridge with turnOpen := true } := { sound with }
      have quiet : Quiet bridge { bridge with turnOpen := true } := .of_same rfl rfl rfl rfl rfl
      exact (quiet.trans rfl (.speak opened _)).past past
  | speechStarted =>
      unfold HalfCascadeBridge.receive
      dsimp only
      split
      · exact past
      · split
        · exact past
        · exact past
  | turnEnded report =>
      unfold HalfCascadeBridge.receive inOrder
      dsimp only
      have grown : ∀ turn other, Link.endTurn turn other ∈ bridge.pending →
          turn < bridge.turn + 1 :=
        fun turn other member => Nat.lt_succ_of_lt (past turn other member)
      split
      · exact grown
      · intro turn other member
        rcases List.mem_append.mp member with earlier | last
        · exact grown turn other earlier
        · cases List.mem_singleton.mp last
          exact Nat.lt_succ_self _
  | sessionClosed reason => exact past
  | audioDelta pcm => exact past
  | userTranscript text isFinal => exact past
  | bridgeError code message isFatal => exact past

theorem TurnsPast.step {action : HalfCascadeAction} (past : bridge.TurnsPast)
    (kept : bridge.Kept) (taken : bridge.step config action = some next) : next.TurnsPast := by
  cases action with
  | receive event =>
      obtain ⟨_, rfl⟩ := receive_some taken
      let heard : HalfCascadeBridge := { bridge with received := bridge.received ++ [event] }
      have heardSound : heard.Sound := { kept.sound with }
      have heardPast : heard.TurnsPast := past
      exact heardPast.receive heardSound event
  | innerEnds =>
      obtain ⟨_, rfl⟩ := innerEnds_some taken
      exact past
  | resume => exact past.resume kept taken
  | flushEnds session outcome =>
      obtain ⟨_, _, _, rfl⟩ := flushEnds_some taken
      exact past
  | nextLink =>
      obtain ⟨link, rest, chain, _, rfl⟩ := nextLink_some taken
      have fewer : ∀ turn report, Link.endTurn turn report ∈ rest → turn < bridge.turn := by
        intro turn report member
        refine past turn report ?_
        rw [chain]
        exact List.mem_cons_of_mem link member
      cases link with
      | finish session sent accounted => exact fewer
      | transcript text => exact fewer
      | endTurn turn report => exact fewer
  | finish index =>
      obtain ⟨session, sent, _, outcome, _, _, _, rfl⟩ := finishAt_some taken
      intro turn report member
      rcases List.mem_or_eq_of_mem_set member with earlier | same
      · exact past turn report earlier
      · cases same
  | onAudio session pcm =>
      obtain ⟨_, _, ⟨_, rfl⟩ | ⟨_, rfl⟩⟩ := onAudio_some taken
      · exact past
      · exact past
  | onError session message =>
      rcases onError_some taken with rfl | rfl
      · exact past
      · exact past
  | interrupt audioEndMs =>
      cases taken
      exact past
  | interruptReturns index =>
      obtain ⟨_, _, rfl⟩ := interruptReturns_some taken
      exact past

theorem step_logged {action : HalfCascadeAction} (kept : bridge.Kept) (past : bridge.TurnsPast)
    (taken : bridge.step config action = some next) : Logged bridge next := by
  cases action with
  | receive event =>
      obtain ⟨_, rfl⟩ := receive_some taken
      let heard : HalfCascadeBridge := { bridge with received := bridge.received ++ [event] }
      have heardSound : heard.Sound := { kept.sound with }
      exact (receive_logged heardSound event).of_same rfl rfl rfl rfl rfl
  | innerEnds =>
      obtain ⟨_, rfl⟩ := innerEnds_some taken
      have closing : Quiet bridge { bridge with pump := .closing "inner_ended" } :=
        .of_same rfl rfl rfl rfl rfl
      exact closing.logged
  | resume => exact resume_logged kept taken
  | flushEnds session outcome =>
      obtain ⟨speech, known, running, rfl⟩ := flushEnds_some taken
      refine { later := .of_modify rfl (Nat.le_refl _) (Nat.le_refl _) ?_, log := Or.inl rfl }
      exact fun speech => ⟨rfl, rfl, fun _ live => absurd live.2 (by simp [Flush.hasEnded]), id⟩
  | nextLink =>
      obtain ⟨link, rest, chain, done, rfl⟩ := nextLink_some taken
      have later : Later bridge { bridge with pending := rest } :=
        .of_same rfl (Nat.le_refl _) (Nat.le_refl _)
      cases link with
      | finish session sent accounted => exact { later := later, log := Or.inl rfl }
      | transcript text =>
          exact
            { later := later.trans (.of_same rfl (Nat.le_refl _) (Nat.le_refl _)) rfl
              log := Or.inr ⟨_, rfl, trivial⟩ }
      | endTurn turn report =>
          refine
            { later := later.trans (.of_same rfl (Nat.le_refl _) (Nat.le_refl _)) rfl
              log := Or.inr ⟨_, rfl, ?_, rfl, ?_⟩ }
          · refine past turn report ?_
            rw [chain]
            exact List.mem_cons_self
          · intro session speech known live
            refine kept.sound.live_open ?_ known live
            intro other sent first
            rw [chain] at first
            exact done other sent (Option.some.inj first)
  | finish index =>
      obtain ⟨session, sent, _, outcome, _, _, _, rfl⟩ := finishAt_some taken
      exact { later := .of_same rfl (Nat.le_refl _) (Nat.le_refl _), log := Or.inl rfl }
  | onAudio session pcm =>
      obtain ⟨speech, known, ⟨current, rfl⟩ | ⟨stale, rfl⟩⟩ := onAudio_some taken
      · exact
          { later := .of_same rfl (Nat.le_refl _) (Nat.le_refl _)
            log := Or.inr ⟨_, rfl, speech, known, rfl, current, rfl, rfl⟩ }
      · exact
          { later := .of_same rfl (Nat.le_refl _) (Nat.le_refl _)
            log := Or.inr ⟨_, rfl, speech, known, rfl, stale, rfl, rfl⟩ }
  | onError session message =>
      rcases onError_some taken with rfl | rfl
      · exact { later := .refl _, log := Or.inl rfl }
      · exact (Quiet.put _).logged
  | interrupt audioEndMs =>
      cases taken
      obtain ⟨later, log⟩ := kept.sound.abort_logged
      refine { later := later.trans (.of_same rfl (Nat.le_refl _) (Nat.le_refl _)) rfl, log := ?_ }
      rcases log with same | ⟨happening, added, allowed⟩
      · exact Or.inl same
      · cases happening with
        | abort opened => exact Or.inr ⟨_, added, allowed.all, allowed.unheard⟩
        | _ => cases List.append_cancel_left added
  | interruptReturns index =>
      obtain ⟨_, _, rfl⟩ := interruptReturns_some taken
      exact { later := .of_same rfl (Nat.le_refl _) (Nat.le_refl _), log := Or.inl rfl }

end HalfCascadeBridge

/-! ### What may be heard after an entry of the log -/

def Happening.cuts : Happening → Option Nat
  | .abort opened => some opened
  | .speechStarted true opened => some opened
  | _ => none

def Happening.Precedes (session turn : Nat) : Happening → Prop
  | .audio other _ _ => other ≤ session
  | .turnEnded ended _ _ _ => ended < turn
  | _ => True

/-- The steps that can add an entry. -/
def Happening.Caused (action : HalfCascadeAction) : Happening → Prop
  | .audio session _ pcm => action = .onAudio session pcm
  | .dropped session _ pcm => action = .onAudio session pcm
  | .turnEnded _ _ _ _ => action = .nextLink ∨ ∃ report, action = .receive (.turnEnded report)
  | _ => True

namespace HalfCascadeBridge

def CutOff (past : List Happening) : Happening → Prop
  | .audio session _ _ => ∀ entry ∈ past, ∀ opened, entry.cuts = some opened → opened ≤ session
  | _ => True

def InTurn (past : List Happening) : Happening → Prop
  | .audio session turn _ => ∀ entry ∈ past, entry.Precedes session turn
  | _ => True

/-- Who is cut off now, and that nothing of theirs was put since. -/
structure Severed (bridge : HalfCascadeBridge) : Prop where
  opened : ∀ entry ∈ bridge.log, ∀ opened, entry.cuts = some opened →
    opened ≤ bridge.sessions.length
  unheard : ∀ entry ∈ bridge.log, ∀ opened, entry.cuts = some opened →
    ∀ (session : Nat) (speech : SpeechSession), bridge.sessions[session]? = some speech →
      session < opened → speech.epoch < bridge.speechEpoch
  silent : EachPrefix CutOff bridge.log

variable {config : HalfCascadeConfig} {bridge next : HalfCascadeBridge}

theorem Severed.initial : Severed {} where
  opened := by intro entry member; cases member
  unheard := by intro entry member; cases member
  silent := EachPrefix.nil

theorem Severed.later (severed : bridge.Severed) (later : Later bridge next)
    {entry : Happening} (member : entry ∈ bridge.log) {opened : Nat}
    (cuts : entry.cuts = some opened) :
    opened ≤ next.sessions.length ∧
      ∀ (session : Nat) (speech : SpeechSession), next.sessions[session]? = some speech →
        session < opened → speech.epoch < next.speechEpoch := by
  have known := severed.opened entry member opened cuts
  refine ⟨Nat.le_trans known later.length, ?_⟩
  intro session after found before
  rcases later.sessions session after found with ⟨speech, here, epoch, _⟩ | ⟨beyond, _⟩
  · rw [epoch]
    exact Nat.lt_of_lt_of_le
      (severed.unheard entry member opened cuts session speech here before) later.epoch
  · omega

theorem Severed.logged (severed : bridge.Severed) (logged : Logged bridge next) :
    next.Severed := by
  have earlier {entry : Happening} (member : entry ∈ bridge.log) {opened : Nat}
      (cuts : entry.cuts = some opened) := severed.later logged.later member cuts
  rcases logged.log with same | ⟨happening, added, allowed⟩
  · refine { opened := ?_, unheard := ?_, silent := ?_ }
    · intro entry member opened cuts
      exact (earlier (same ▸ member) cuts).1
    · intro entry member opened cuts
      exact (earlier (same ▸ member) cuts).2
    · rw [same]
      exact severed.silent
  · have cutoff {opened : Nat} (cuts : happening.cuts = some opened) : Cutoff next opened := by
      cases happening with
      | abort opened =>
          cases cuts
          exact allowed
      | speechStarted cut opened =>
          cases cut with
          | true =>
              cases cuts
              exact allowed rfl
          | false => cases cuts
      | put event => cases cuts
      | audio session turn pcm => cases cuts
      | dropped session turn pcm => cases cuts
      | turnEnded turn report chars billed => cases cuts
    refine { opened := ?_, unheard := ?_, silent := ?_ }
    · intro entry member opened cuts
      rw [added] at member
      rcases List.mem_append.mp member with before | last
      · exact (earlier before cuts).1
      · rw [List.mem_singleton.mp last] at cuts
        exact Nat.le_of_eq (cutoff cuts).all
    · intro entry member opened cuts
      rw [added] at member
      rcases List.mem_append.mp member with before | last
      · exact (earlier before cuts).2
      · rw [List.mem_singleton.mp last] at cuts
        exact fun session speech found _ => (cutoff cuts).unheard session speech found
    · rw [added]
      refine EachPrefix.snoc.mpr ⟨severed.silent, ?_⟩
      cases happening with
      | audio session turn pcm =>
          obtain ⟨speech, known, _, current, _⟩ := allowed
          intro entry member opened cuts
          by_contra before
          have stale := severed.unheard entry member opened cuts session speech known
            (Nat.lt_of_not_le before)
          rw [current] at stale
          exact Nat.lt_irrefl _ stale
      | _ => trivial

/-! ### Turn by turn -/

def unfinished (received : List ConversationEvent) : Bool :=
  received.foldl (fun unfinished event =>
    match event with
    | .agentTranscript _ isFinal => !isFinal
    | .turnEnded _ => false
    | _ => unfinished) false

/-- What is assumed of the inner bridge and of the synthesizer: a turn with text ends with a
final transcript, and a flush ends after the last callback of its session, unless the session
was aborted. -/
def Regular (bridge : HalfCascadeBridge) : HalfCascadeAction → Prop
  | .receive (.turnEnded _) => unfinished bridge.received = false
  | .onAudio session _ => ∀ speech : SpeechSession, bridge.sessions[session]? = some speech →
      speech.aborted = true ∨ speech.flush.hasEnded = false
  | _ => True

end HalfCascadeBridge

def Pump.transcript : Pump → Option Transcript
  | .draining transcript _ => some transcript
  | .opening transcript _ _ => some transcript
  | .sending transcript _ => some transcript
  | _ => none

namespace HalfCascadeBridge

variable {config : HalfCascadeConfig} {bridge next : HalfCascadeBridge}

structure Disciplined (bridge : HalfCascadeBridge) : Prop where
  cancelled : ∀ turn, bridge.cancelledTurn = some turn → turn ≤ bridge.turn
  silenced : bridge.cancelledTurn = some bridge.turn → bridge.session = none
  draining : ∀ transcript tail, bridge.pump = .draining transcript tail →
    bridge.cancelledTurn ≠ some bridge.turn
  opening : ∀ transcript tail session, bridge.pump = .opening transcript tail session →
    bridge.session = none ∨ bridge.session = some session
  sending : ∀ transcript session, bridge.pump = .sending transcript session →
    bridge.session = none ∨ bridge.session = some session
  atRest : ∀ session, bridge.pump = .ready → bridge.session = some session →
    unfinished bridge.received = true
  holding : ∀ transcript, bridge.pump.transcript = some transcript →
    unfinished bridge.received = !transcript.isFinal

/-- The fields that the turn of the pump depends on are those of another state. -/
structure Aside (bridge next : HalfCascadeBridge) : Prop where
  session : next.session = bridge.session
  turn : next.turn = bridge.turn
  cancelledTurn : next.cancelledTurn = bridge.cancelledTurn
  received : next.received = bridge.received

theorem Aside.spoke (bridge : HalfCascadeBridge) (transcript : Transcript) :
    Aside bridge (bridge.spoke transcript) := by
  unfold HalfCascadeBridge.spoke inOrder
  dsimp only
  split
  · split
    · exact ⟨rfl, rfl, rfl, rfl⟩
    · exact ⟨rfl, rfl, rfl, rfl⟩
  · exact ⟨rfl, rfl, rfl, rfl⟩

theorem Aside.deliver (bridge : HalfCascadeBridge) (link : Link) :
    Aside bridge (bridge.deliver link) := by
  cases link <;> exact ⟨rfl, rfl, rfl, rfl⟩

theorem Aside.inOrder (bridge : HalfCascadeBridge) (link : Link) :
    Aside bridge (bridge.inOrder link) := by
  unfold HalfCascadeBridge.inOrder
  split
  · exact .deliver bridge link
  · exact ⟨rfl, rfl, rfl, rfl⟩

namespace Disciplined

theorem ready (pump : next.pump = .ready)
    (cancelled : ∀ turn, next.cancelledTurn = some turn → turn ≤ next.turn)
    (silenced : next.cancelledTurn = some next.turn → next.session = none)
    (atRest : ∀ session, next.session = some session → unfinished next.received = true) :
    next.Disciplined where
  cancelled := cancelled
  silenced := silenced
  draining := by intro transcript tail here; rw [pump] at here; cases here
  opening := by intro transcript tail session here; rw [pump] at here; cases here
  sending := by intro transcript session here; rw [pump] at here; cases here
  atRest := fun session _ isOpen => atRest session isOpen
  holding := by intro transcript here; rw [pump] at here; cases here

theorem stopped (disciplined : bridge.Disciplined) (session : next.session = bridge.session)
    (turn : next.turn = bridge.turn) (cancelledTurn : next.cancelledTurn = bridge.cancelledTurn)
    (idle : next.pump.transcript = none) (busy : next.pump ≠ .ready) : next.Disciplined where
  cancelled := by
    rw [cancelledTurn, turn]
    exact disciplined.cancelled
  silenced := by
    rw [cancelledTurn, turn, session]
    exact disciplined.silenced
  draining := by intro transcript tail here; rw [here] at idle; cases idle
  opening := by intro transcript tail session here; rw [here] at idle; cases idle
  sending := by intro transcript session here; rw [here] at idle; cases idle
  atRest := fun session here => absurd here busy
  holding := by intro transcript here; rw [idle] at here; cases here

theorem of_aside (disciplined : bridge.Disciplined) (aside : Aside bridge next)
    (pump : next.pump = bridge.pump) : next.Disciplined := by
  obtain ⟨session, turn, cancelledTurn, received⟩ := aside
  refine
    { cancelled := ?_, silenced := ?_, draining := ?_, opening := ?_, sending := ?_
      atRest := ?_, holding := ?_ }
  · rw [cancelledTurn, turn]
    exact disciplined.cancelled
  · rw [cancelledTurn, turn, session]
    exact disciplined.silenced
  · rw [cancelledTurn, turn, pump]
    exact disciplined.draining
  · rw [session, pump]
    exact disciplined.opening
  · rw [session, pump]
    exact disciplined.sending
  · rw [session, pump, received]
    exact disciplined.atRest
  · rw [pump, received]
    exact disciplined.holding

theorem spoke (transcript : Transcript)
    (cancelled : ∀ turn, bridge.cancelledTurn = some turn → turn ≤ bridge.turn)
    (silenced : bridge.cancelledTurn = some bridge.turn → bridge.session = none)
    (atRest : ∀ session, bridge.session = some session → unfinished bridge.received = true) :
    (bridge.spoke transcript).Disciplined := by
  obtain ⟨session, turn, cancelledTurn, received⟩ := Aside.spoke bridge transcript
  refine ready (PumpSound.spoke_pump transcript) ?_ ?_ ?_
  · rw [cancelledTurn, turn]
    exact cancelled
  · rw [cancelledTurn, turn, session]
    exact silenced
  · rw [session, received]
    exact atRest

theorem textSent {transcript : Transcript} (session : Nat)
    (cancelled : ∀ turn, bridge.cancelledTurn = some turn → turn ≤ bridge.turn)
    (silenced : bridge.cancelledTurn = some bridge.turn → bridge.session = none)
    (held : unfinished bridge.received = !transcript.isFinal) :
    (bridge.textSent transcript session).Disciplined := by
  unfold HalfCascadeBridge.textSent
  split
  · refine spoke transcript cancelled (fun _ => rfl) ?_
    intro other isOpen
    cases isOpen
  · rename_i notFinal
    refine spoke transcript cancelled silenced ?_
    intro _ _
    rw [held, Bool.eq_false_iff.mpr notFinal]
    rfl

theorem sendText {transcript : Transcript} (tail : Text) {session : Nat}
    (cancelled : ∀ turn, bridge.cancelledTurn = some turn → turn ≤ bridge.turn)
    (silenced : bridge.cancelledTurn = some bridge.turn → bridge.session = none)
    (isOpen : bridge.session = some session)
    (held : unfinished bridge.received = !transcript.isFinal) :
    (bridge.sendText transcript tail session).Disciplined := by
  unfold HalfCascadeBridge.sendText
  split
  · exact textSent session cancelled silenced held
  · exact
      { cancelled := cancelled
        silenced := silenced
        draining := by intro transcript tail here; cases here
        opening := by intro transcript tail session here; cases here
        sending := by
          intro transcript session here
          cases here
          exact Or.inr isOpen
        atRest := by intro session here; cases here
        holding := by
          intro transcript here
          cases here
          exact held }

theorem speak {transcript : Transcript}
    (cancelled : ∀ turn, bridge.cancelledTurn = some turn → turn ≤ bridge.turn)
    (silenced : bridge.cancelledTurn = some bridge.turn → bridge.session = none)
    (held : unfinished bridge.received = !transcript.isFinal) :
    (bridge.speak transcript).Disciplined := by
  unfold HalfCascadeBridge.speak
  split
  · rename_i cancelledNow
    refine spoke transcript cancelled silenced ?_
    intro session isOpen
    rw [silenced cancelledNow] at isOpen
    cases isOpen
  · rename_i speaking
    dsimp only
    split
    · rename_i nothing
      refine spoke transcript cancelled silenced ?_
      intro _ _
      exact held.trans (by rw [nothing.2]; rfl)
    · split
      case h_1 closed =>
        exact
          { cancelled := cancelled
            silenced := silenced
            draining := fun _ _ _ => speaking
            opening := by intro transcript tail session here; cases here
            sending := by intro transcript session here; cases here
            atRest := by intro session here; cases here
            holding := by
              intro transcript here
              cases here
              exact held }
      case h_2 session isOpen =>
        exact sendText _ cancelled silenced isOpen held

theorem abortSpeech (disciplined : bridge.Disciplined) : bridge.abortSpeech.Disciplined where
  cancelled := disciplined.cancelled
  silenced := fun _ => rfl
  draining := disciplined.draining
  opening := fun _ _ _ _ => Or.inl rfl
  sending := fun _ _ _ => Or.inl rfl
  atRest := by intro session _ isOpen; cases isOpen
  holding := disciplined.holding

theorem aborting {flush : Option Nat} (pump : bridge.pump = .aborting flush)
    (cancelled : ∀ turn, bridge.cancelledTurn = some turn → turn ≤ bridge.turn) :
    bridge.abortSpeech.Disciplined where
  cancelled := cancelled
  silenced := fun _ => rfl
  draining := by intro transcript tail here; cases pump.symm.trans here
  opening := fun _ _ _ _ => Or.inl rfl
  sending := fun _ _ _ => Or.inl rfl
  atRest := by intro session _ isOpen; cases isOpen
  holding := by
    intro transcript here
    change bridge.pump.transcript = _ at here
    rw [pump] at here
    cases here

theorem unfinished_other {received : List ConversationEvent} {event : ConversationEvent}
    (notTranscript : ∀ text isFinal, event ≠ .agentTranscript text isFinal)
    (notEnd : ∀ report, event ≠ .turnEnded report) :
    unfinished (received ++ [event]) = unfinished received := by
  unfold unfinished
  rw [List.foldl_append, List.foldl_cons, List.foldl_nil]
  cases event with
  | agentTranscript text isFinal => exact absurd rfl (notTranscript text isFinal)
  | turnEnded report => exact absurd rfl (notEnd report)
  | _ => rfl

theorem closed (disciplined : bridge.Disciplined) (pump : bridge.pump = .ready)
    (finished : unfinished bridge.received = false) : bridge.session = none := by
  cases isOpen : bridge.session with
  | none => rfl
  | some session =>
      have stillOpen := disciplined.atRest session pump isOpen
      rw [finished] at stillOpen
      cases stillOpen

theorem receive (disciplined : bridge.Disciplined) (pump : bridge.pump = .ready)
    (event : ConversationEvent)
    (regular : ∀ report, event = .turnEnded report → unfinished bridge.received = false) :
    ({ bridge with received := bridge.received ++ [event] }.receive event).Disciplined := by
  have passed (notTranscript : ∀ text isFinal, event ≠ .agentTranscript text isFinal)
      (notEnd : ∀ report, event ≠ .turnEnded report) :
      Disciplined { bridge with received := bridge.received ++ [event] } := by
    refine ready pump disciplined.cancelled disciplined.silenced ?_
    intro session isOpen
    rw [unfinished_other notTranscript notEnd]
    exact disciplined.atRest session pump isOpen
  cases event with
  | agentTranscript text isFinal =>
      refine speak disciplined.cancelled disciplined.silenced ?_
      change unfinished (bridge.received ++ [.agentTranscript text isFinal]) = _
      unfold unfinished
      rw [List.foldl_append]
      rfl
  | speechStarted =>
      unfold HalfCascadeBridge.receive
      dsimp only
      split
      · exact aborting rfl (fun turn here => Nat.le_of_eq (Option.some.inj here).symm)
      · split
        · exact aborting rfl disciplined.cancelled
        · exact (passed (by simp) (by simp)).of_aside ⟨rfl, rfl, rfl, rfl⟩ rfl
  | turnEnded report =>
      obtain ⟨session, turn, cancelledTurn, received⟩ := Aside.inOrder
        { bridge with
          received := bridge.received ++ [.turnEnded report]
          turnOpen := false, turn := bridge.turn + 1, spoken := [] }
        (.endTurn bridge.turn report)
      have closed := disciplined.closed pump (regular report rfl)
      refine ready ((PumpSound.inOrder_pump _).trans pump) ?_ ?_ ?_
      · intro finished here
        have before := disciplined.cancelled finished (cancelledTurn.symm.trans here)
        exact turn ▸ Nat.le_succ_of_le before
      · intro _
        exact session.trans closed
      · intro other isOpen
        cases (session.symm.trans isOpen).symm.trans closed
  | sessionClosed reason =>
      exact disciplined.stopped rfl rfl rfl rfl nofun
  | audioDelta pcm => exact (passed (by simp) (by simp)).of_aside ⟨rfl, rfl, rfl, rfl⟩ rfl
  | userTranscript text isFinal =>
      exact (passed (by simp) (by simp)).of_aside ⟨rfl, rfl, rfl, rfl⟩ rfl
  | bridgeError code message isFatal =>
      exact (passed (by simp) (by simp)).of_aside ⟨rfl, rfl, rfl, rfl⟩ rfl

theorem spokeAborted (disciplined : bridge.Disciplined) (transcript : Transcript)
    {session : Nat} (was : bridge.session = none ∨ bridge.session = some session)
    (aborted : bridge.session ≠ some session) : (bridge.spoke transcript).Disciplined := by
  refine spoke transcript disciplined.cancelled disciplined.silenced ?_
  intro other isOpen
  rcases was with closed | same
  · rw [closed] at isOpen
    cases isOpen
  · exact absurd same aborted

theorem resume (disciplined : bridge.Disciplined) (kept : bridge.Kept)
    (resumed : bridge.resume = some next) : next.Disciplined := by
  cases resume_some resumed with
  | openSession transcript tail pump _ =>
      have speaking := disciplined.draining transcript tail pump
      exact
        { cancelled := disciplined.cancelled
          silenced := fun cancelled => absurd cancelled speaking
          draining := by intro transcript tail here; cases here
          opening := by
            intro transcript tail session here
            cases here
            exact Or.inr rfl
          sending := by intro transcript session here; cases here
          atRest := by intro session here; cases here
          holding := by
            intro held here
            cases here
            exact disciplined.holding transcript (by rw [pump]; rfl) }
  | sendText transcript tail session pump isOpen =>
      have held := disciplined.holding transcript (by rw [pump]; rfl)
      exact sendText tail disciplined.cancelled disciplined.silenced isOpen held
  | unopened transcript tail session pump gone =>
      have held := disciplined.holding transcript (by rw [pump]; rfl)
      exact disciplined.spokeAborted transcript
        (disciplined.opening transcript tail session pump) gone
  | textSent transcript session pump _ =>
      have held := disciplined.holding transcript (by rw [pump]; rfl)
      exact textSent session disciplined.cancelled disciplined.silenced held
  | unsent transcript session pump gone =>
      have held := disciplined.holding transcript (by rw [pump]; rfl)
      exact disciplined.spokeAborted transcript
        (disciplined.sending transcript session pump) gone
  | aborted flush pump _ =>
      refine ready rfl disciplined.cancelled disciplined.silenced ?_
      intro session isOpen
      cases (kept.pumps.aborting flush pump).1.symm.trans isOpen
  | closed reason _ _ =>
      exact disciplined.stopped rfl rfl rfl rfl nofun

theorem initial : Disciplined {} := by
  refine ready rfl ?_ ?_ ?_
  · intro turn here
    cases here
  · intro here
    cases here
  · intro session isOpen
    cases isOpen

theorem step {action : HalfCascadeAction} (disciplined : bridge.Disciplined)
    (kept : bridge.Kept) (regular : bridge.Regular action)
    (taken : bridge.step config action = some next) : next.Disciplined := by
  cases action with
  | receive event =>
      obtain ⟨pump, rfl⟩ := receive_some taken
      refine disciplined.receive pump event ?_
      rintro report rfl
      exact regular
  | innerEnds =>
      obtain ⟨_, rfl⟩ := innerEnds_some taken
      exact disciplined.stopped rfl rfl rfl rfl nofun
  | resume => exact disciplined.resume kept taken
  | flushEnds session outcome =>
      obtain ⟨_, _, _, rfl⟩ := flushEnds_some taken
      exact disciplined.of_aside ⟨rfl, rfl, rfl, rfl⟩ rfl
  | nextLink =>
      obtain ⟨link, rest, _, _, rfl⟩ := nextLink_some taken
      obtain ⟨session, turn, cancelledTurn, received⟩ :=
        Aside.deliver { bridge with pending := rest } link
      exact disciplined.of_aside ⟨session, turn, cancelledTurn, received⟩
        (PumpSound.deliver_pump link)
  | finish index =>
      obtain ⟨session, sent, _, outcome, _, _, _, rfl⟩ := finishAt_some taken
      exact disciplined.of_aside ⟨rfl, rfl, rfl, rfl⟩ rfl
  | onAudio session pcm =>
      obtain ⟨_, _, ⟨_, rfl⟩ | ⟨_, rfl⟩⟩ := onAudio_some taken
      · exact disciplined.of_aside ⟨rfl, rfl, rfl, rfl⟩ rfl
      · exact disciplined.of_aside ⟨rfl, rfl, rfl, rfl⟩ rfl
  | onError session message =>
      rcases onError_some taken with rfl | rfl
      · exact disciplined
      · exact disciplined.of_aside ⟨rfl, rfl, rfl, rfl⟩ rfl
  | interrupt audioEndMs =>
      cases taken
      exact disciplined.abortSpeech.of_aside ⟨rfl, rfl, rfl, rfl⟩ rfl
  | interruptReturns index =>
      obtain ⟨_, _, rfl⟩ := interruptReturns_some taken
      exact disciplined.of_aside ⟨rfl, rfl, rfl, rfl⟩ rfl

end Disciplined

/-! ### Audio in its turn -/

/-- The session or the turn that an entry names has begun, and callbacks are dropped only of
aborted sessions. -/
def Standing (bridge : HalfCascadeBridge) : Happening → Prop
  | .audio session _ _ => session < bridge.sessions.length
  | .dropped session _ _ => session < bridge.sessions.length ∧ ∀ speech : SpeechSession,
      bridge.sessions[session]? = some speech → speech.aborted = true
  | .turnEnded turn _ _ _ => turn < bridge.turn
  | _ => True

structure Voiced (bridge : HalfCascadeBridge) : Prop where
  turns : ∀ (session : Nat) (speech : SpeechSession), bridge.sessions[session]? = some speech →
    speech.turn ≤ bridge.turn
  standing : ∀ entry ∈ bridge.log, bridge.Standing entry
  live : ∀ entry ∈ bridge.log, ∀ (session : Nat) (speech : SpeechSession),
    bridge.sessions[session]? = some speech → speech.Live → entry.Precedes session speech.turn
  inTurn : EachPrefix InTurn bridge.log

theorem Voiced.initial : Voiced {} where
  turns := by intro session speech known; cases known
  standing := by intro entry member; cases member
  live := by intro entry member; cases member
  inTurn := EachPrefix.nil

theorem Quiet.caused (quiet : Quiet bridge next) {happening : Happening}
    (added : next.log = bridge.log ++ [happening]) (action : HalfCascadeAction) :
    happening.Caused action := by
  rcases quiet.log with same | ⟨event, put⟩
  · rw [same] at added
    exact absurd added (by simp)
  · rw [put] at added
    cases List.append_cancel_left added
    exact trivial

theorem unchanged_caused {happening : Happening} {action : HalfCascadeAction}
    (same : next.log = bridge.log) (added : next.log = bridge.log ++ [happening]) :
    happening.Caused action := by
  rw [same] at added
  exact absurd added (by simp)

theorem receive_caused {happening : Happening} {event : ConversationEvent} (kept : bridge.Kept)
    (added : ({ bridge with received := bridge.received ++ [event] }.receive event).log =
      bridge.log ++ [happening]) : happening.Caused (.receive event) := by
  cases event with
  | agentTranscript text isFinal =>
      have sound : Sound
          { bridge with
            received := bridge.received ++ [.agentTranscript text isFinal]
            turnOpen := true } := { kept.sound with }
      exact (Quiet.speak sound { text, isFinal }).caused added _
  | speechStarted =>
      unfold HalfCascadeBridge.receive at added
      dsimp only at added
      split at added
      · cases List.append_cancel_left added
        exact trivial
      · split at added
        · cases List.append_cancel_left added
          exact trivial
        · cases List.append_cancel_left added
          exact trivial
  | turnEnded report =>
      unfold HalfCascadeBridge.receive inOrder at added
      dsimp only at added
      split at added
      · cases List.append_cancel_left added
        exact Or.inr ⟨report, rfl⟩
      · exact absurd added (by simp)
  | sessionClosed reason => exact absurd added (by simp [HalfCascadeBridge.receive])
  | audioDelta pcm =>
      cases List.append_cancel_left added
      exact trivial
  | userTranscript text isFinal =>
      cases List.append_cancel_left added
      exact trivial
  | bridgeError code message isFatal =>
      cases List.append_cancel_left added
      exact trivial

theorem step_caused {action : HalfCascadeAction} {happening : Happening} (kept : bridge.Kept)
    (taken : bridge.step config action = some next)
    (added : next.log = bridge.log ++ [happening]) : happening.Caused action := by
  cases action with
  | receive event =>
      obtain ⟨_, rfl⟩ := receive_some taken
      exact receive_caused kept added
  | innerEnds =>
      obtain ⟨_, rfl⟩ := innerEnds_some taken
      exact unchanged_caused rfl added
  | resume =>
      by_cases aborts : ∃ flush, bridge.pump = .aborting flush
      · obtain ⟨flush, pump⟩ := aborts
        rw [resume_aborting pump taken] at added
        cases List.append_cancel_left added
        exact trivial
      · exact (resume_quiet kept (fun flush pump => aborts ⟨flush, pump⟩) taken).caused added _
  | flushEnds session outcome =>
      obtain ⟨_, _, _, rfl⟩ := flushEnds_some taken
      exact unchanged_caused rfl added
  | nextLink =>
      obtain ⟨link, rest, _, _, rfl⟩ := nextLink_some taken
      cases link with
      | finish session sent accounted => exact unchanged_caused rfl added
      | transcript text =>
          cases List.append_cancel_left added
          exact trivial
      | endTurn turn report =>
          cases List.append_cancel_left added
          exact Or.inl rfl
  | finish index =>
      obtain ⟨session, sent, _, outcome, _, _, _, rfl⟩ := finishAt_some taken
      exact unchanged_caused rfl added
  | onAudio session pcm =>
      obtain ⟨_, _, ⟨_, rfl⟩ | ⟨_, rfl⟩⟩ := onAudio_some taken
      · cases List.append_cancel_left added
        rfl
      · cases List.append_cancel_left added
        rfl
  | onError session message =>
      rcases onError_some taken with rfl | rfl
      · exact unchanged_caused rfl added
      · cases List.append_cancel_left added
        exact trivial
  | interrupt audioEndMs =>
      cases taken
      cases List.append_cancel_left added
      exact trivial
  | interruptReturns index =>
      obtain ⟨_, _, rfl⟩ := interruptReturns_some taken
      exact unchanged_caused rfl added

/-- What the assumptions say of an entry when it is added. -/
def Fitting (bridge : HalfCascadeBridge) : Happening → Prop
  | .audio session _ _ => ∀ speech : SpeechSession,
      bridge.sessions[session]? = some speech → speech.aborted = true ∨ speech.flush.hasEnded = false
  | .dropped session _ _ => ∀ speech : SpeechSession,
      bridge.sessions[session]? = some speech → speech.aborted = true ∨ speech.flush.hasEnded = false
  | .turnEnded _ _ _ _ => bridge.session = none
  | _ => True

theorem step_fitting {action : HalfCascadeAction} {happening : Happening} (kept : bridge.Kept)
    (disciplined : bridge.Disciplined) (regular : bridge.Regular action)
    (taken : bridge.step config action = some next)
    (added : next.log = bridge.log ++ [happening]) : bridge.Fitting happening := by
  have caused := step_caused kept taken added
  cases happening with
  | audio session turn pcm =>
      cases caused
      exact regular
  | dropped session turn pcm =>
      cases caused
      exact regular
  | turnEnded turn report chars billed =>
      rcases caused with rfl | ⟨received, rfl⟩
      · obtain ⟨link, rest, chain, _⟩ := nextLink_some taken
        cases isOpen : bridge.session with
        | none => exact isOpen
        | some session =>
            have empty := kept.sound.quiet session isOpen
            rw [chain] at empty
            cases empty
      · simp only [step, Option.ite_none_right_eq_some] at taken
        exact disciplined.closed taken.1 regular
  | put event => exact trivial
  | abort opened => exact trivial
  | speechStarted cut opened => exact trivial

theorem Standing.later {entry : Happening} (standing : bridge.Standing entry)
    (later : Later bridge next) : next.Standing entry := by
  cases entry with
  | audio session turn pcm => exact Nat.lt_of_lt_of_le standing later.length
  | dropped session turn pcm =>
      obtain ⟨bound, already⟩ := standing
      refine ⟨Nat.lt_of_lt_of_le bound later.length, ?_⟩
      intro after found
      rcases later.sessions session after found with
        ⟨before, known, _, _, _, aborted⟩ | ⟨beyond, _⟩
      · exact aborted (already before known)
      · exact absurd bound (Nat.not_lt_of_le beyond)
  | turnEnded turn report chars billed => exact Nat.lt_of_lt_of_le standing later.turn
  | put event => exact trivial
  | abort opened => exact trivial
  | speechStarted cut opened => exact trivial

theorem Voiced.live_later (voiced : bridge.Voiced) (later : Later bridge next)
    {entry : Happening} (member : entry ∈ bridge.log) {session : Nat} {after : SpeechSession}
    (found : next.sessions[session]? = some after) (live : after.Live) :
    entry.Precedes session after.turn := by
  rcases later.sessions session after found with
    ⟨before, known, _, turn, stillLive, _⟩ | ⟨beyond, turn⟩
  · rw [turn]
    exact voiced.live entry member session before known (stillLive live)
  · rw [turn]
    have standing := voiced.standing entry member
    cases entry with
    | audio other spoken pcm => exact Nat.le_of_lt (Nat.lt_of_lt_of_le standing beyond)
    | turnEnded ended report chars billed => exact standing
    | put event => exact trivial
    | dropped other spoken pcm => exact trivial
    | abort opened => exact trivial
    | speechStarted cut opened => exact trivial

theorem Sound.heard_live (sound : bridge.Sound) {session : Nat} {speech : SpeechSession}
    (known : bridge.sessions[session]? = some speech)
    (current : speech.epoch = bridge.speechEpoch)
    (fitting : speech.aborted = true ∨ speech.flush.hasEnded = false) : speech.Live := by
  have fresh : speech.aborted = false := by
    cases aborted : speech.aborted with
    | false => rfl
    | true => exact absurd current (Nat.ne_of_lt (sound.stale session speech known aborted))
  refine ⟨fresh, fitting.resolve_left ?_⟩
  rw [fresh]
  exact Bool.false_ne_true

theorem Sound.dropped_aborted (sound : bridge.Sound) {session : Nat} {speech : SpeechSession}
    (known : bridge.sessions[session]? = some speech)
    (stale : speech.epoch ≠ bridge.speechEpoch)
    (fitting : speech.aborted = true ∨ speech.flush.hasEnded = false) : speech.aborted = true := by
  rcases fitting with aborted | unended
  · exact aborted
  · by_contra fresh
    exact stale (sound.current session speech known ⟨Bool.eq_false_iff.mpr fresh, unended⟩)

theorem Voiced.entry (voiced : bridge.Voiced) (sound : bridge.Sound) {happening : Happening}
    (allowed : Allowed bridge next happening) (fitting : bridge.Fitting happening) :
    next.Standing happening ∧ InTurn bridge.log happening ∧
      ∀ (session : Nat) (speech : SpeechSession), next.sessions[session]? = some speech →
        speech.Live → happening.Precedes session speech.turn := by
  cases happening with
  | audio session turn pcm =>
      obtain ⟨speech, known, rfl, current, sessions, _⟩ := allowed
      have live := sound.heard_live known current (fitting speech known)
      refine ⟨?_, ?_, ?_⟩
      · change session < next.sessions.length
        rw [sessions]
        exact (List.getElem?_eq_some_iff.mp known).1
      · intro entry member
        exact voiced.live entry member session speech known live
      · intro other otherSpeech found otherLive
        rw [sessions] at found
        exact Nat.le_of_eq (sound.live_unique known live found otherLive)
  | dropped session turn pcm =>
      obtain ⟨speech, known, rfl, stale, sessions, _⟩ := allowed
      refine ⟨⟨?_, ?_⟩, trivial, fun _ _ _ _ => trivial⟩
      · rw [sessions]
        exact (List.getElem?_eq_some_iff.mp known).1
      · intro after found
        rw [sessions, known] at found
        cases found
        exact sound.dropped_aborted known stale (fitting speech known)
  | turnEnded turn report chars billed =>
      obtain ⟨past, session, live⟩ := allowed
      refine ⟨past, trivial, ?_⟩
      intro other speech found isLive
      cases (session.trans fitting).symm.trans (live other speech found isLive)
  | put event => exact ⟨trivial, trivial, fun _ _ _ _ => trivial⟩
  | abort opened => exact ⟨trivial, trivial, fun _ _ _ _ => trivial⟩
  | speechStarted cut opened => exact ⟨trivial, trivial, fun _ _ _ _ => trivial⟩

theorem Voiced.logged (voiced : bridge.Voiced) (sound : bridge.Sound)
    (logged : Logged bridge next)
    (fitting : ∀ happening, next.log = bridge.log ++ [happening] → bridge.Fitting happening) :
    next.Voiced := by
  have later := logged.later
  have turns : ∀ (session : Nat) (speech : SpeechSession),
      next.sessions[session]? = some speech → speech.turn ≤ next.turn := by
    intro session after found
    rcases later.sessions session after found with ⟨before, known, _, turn, _⟩ | ⟨_, turn⟩
    · rw [turn]
      exact Nat.le_trans (voiced.turns session before known) later.turn
    · rw [turn]
      exact later.turn
  rcases logged.log with same | ⟨happening, added, allowed⟩
  · refine { turns := turns, standing := ?_, live := ?_, inTurn := ?_ }
    · intro entry member
      exact (voiced.standing entry (same ▸ member)).later later
    · intro entry member session after found live
      exact voiced.live_later later (same ▸ member) found live
    · rw [same]
      exact voiced.inTurn
  · obtain ⟨stands, inTurn, leaves⟩ := voiced.entry sound allowed (fitting happening added)
    refine { turns := turns, standing := ?_, live := ?_, inTurn := ?_ }
    · intro entry member
      rw [added] at member
      rcases List.mem_append.mp member with before | last
      · exact (voiced.standing entry before).later later
      · rw [List.mem_singleton.mp last]
        exact stands
    · intro entry member session after found live
      rw [added] at member
      rcases List.mem_append.mp member with before | last
      · exact voiced.live_later later before found live
      · rw [List.mem_singleton.mp last]
        exact leaves session after found live
    · rw [added]
      exact EachPrefix.snoc.mpr ⟨voiced.inTurn, inTurn⟩

/-! ### Callbacks -/

def callbacksOf (session : Nat) (actions : List HalfCascadeAction) : List (List UInt8) :=
  actions.filterMap (fun action =>
    match action with
    | .onAudio other pcm => if other = session then some pcm else none
    | _ => none)

def audioOf (session : Nat) (log : List Happening) : List (List UInt8) :=
  log.filterMap (fun entry =>
    match entry with
    | .audio other _ pcm => if other = session then some pcm else none
    | _ => none)

def calledBack (session : Nat) (log : List Happening) : List (List UInt8) :=
  log.filterMap (fun entry =>
    match entry with
    | .audio other _ pcm => if other = session then some pcm else none
    | .dropped other _ pcm => if other = session then some pcm else none
    | _ => none)

theorem calledBack_step {action : HalfCascadeAction} (kept : bridge.Kept)
    (past : bridge.TurnsPast) (taken : bridge.step config action = some next) (session : Nat) :
    calledBack session next.log =
      calledBack session bridge.log ++ callbacksOf session [action] := by
  by_cases isCallback : ∃ other pcm, action = .onAudio other pcm
  · obtain ⟨other, pcm, rfl⟩ := isCallback
    obtain ⟨_, _, ⟨_, rfl⟩ | ⟨_, rfl⟩⟩ := onAudio_some taken
    · exact List.filterMap_append
    · exact List.filterMap_append
  · have noCallback : callbacksOf session [action] = [] := by
      cases action with
      | onAudio other pcm => exact absurd ⟨other, pcm, rfl⟩ isCallback
      | _ => rfl
    rw [noCallback, List.append_nil]
    rcases (step_logged kept past taken).log with same | ⟨happening, added, _⟩
    · rw [same]
    · have caused := step_caused kept taken added
      rw [added, calledBack, List.filterMap_append]
      cases happening with
      | audio other turn pcm => exact absurd ⟨other, pcm, caused⟩ isCallback
      | dropped other turn pcm => exact absurd ⟨other, pcm, caused⟩ isCallback
      | _ => exact List.append_nil _

theorem Voiced.heard_in_full (voiced : bridge.Voiced) {session : Nat} {speech : SpeechSession}
    (known : bridge.sessions[session]? = some speech) (fresh : speech.aborted = false) :
    audioOf session bridge.log = calledBack session bridge.log := by
  refine List.filterMap_congr ?_
  intro entry member
  cases entry with
  | dropped other turn pcm =>
      by_cases same : other = session
      · subst same
        have aborted := (voiced.standing _ member).2 speech known
        rw [fresh] at aborted
        cases aborted
      · exact (if_neg same).symm
  | _ => rfl

end HalfCascadeBridge

end Assemblix.Realtime
