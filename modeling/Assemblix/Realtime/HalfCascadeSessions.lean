import Assemblix.Library.ListUpdate
import Assemblix.Library.Run
import Assemblix.Realtime.HalfCascade

/-
Which sessions of a half-cascade call may still speak.

An open session and one that is being flushed are the two places of a session that may still
be heard; while one of them is taken the other is not. A flush is followed by the chain of
steps that wait for it, and no session is open while a step is left in the chain.
-/

namespace Assemblix.Realtime

open Library

def Flush.hasEnded : Flush → Bool
  | .ended _ => true
  | _ => false

def SpeechSession.Live (speech : SpeechSession) : Prop :=
  speech.aborted = false ∧ speech.flush.hasEnded = false

def Link.isFinish : Link → Bool
  | .finish _ _ _ => true
  | _ => false

namespace HalfCascadeBridge

/-! ### What an abort leaves -/

theorem get_markAborted {sessions : List SpeechSession} {taken : Option Nat} {session : Nat}
    {after : SpeechSession} (found : (markAborted sessions taken)[session]? = some after) :
    ∃ before, sessions[session]? = some before ∧
      (taken = some session ∧ after = { before with aborted := true } ∨
        taken ≠ some session ∧ after = before) := by
  cases taken with
  | none => exact ⟨after, found, Or.inr ⟨Option.some_ne_none _ ∘ Eq.symm, rfl⟩⟩
  | some marked =>
      obtain ⟨before, known, ⟨same, changed⟩ | ⟨different, kept⟩⟩ := get_modify found
      · exact ⟨before, known, Or.inl ⟨congrArg some same, changed⟩⟩
      · exact ⟨before, known, Or.inr ⟨fun equal => different (Option.some.inj equal), kept⟩⟩

theorem length_markAborted (sessions : List SpeechSession) (taken : Option Nat) :
    (markAborted sessions taken).length = sessions.length := by
  cases taken with
  | none => rfl
  | some session => exact List.length_modify _ _ _

theorem get_abortSpeech {bridge : HalfCascadeBridge} {session : Nat} {after : SpeechSession}
    (found : bridge.abortSpeech.sessions[session]? = some after) :
    ∃ before, bridge.sessions[session]? = some before ∧ after.epoch = before.epoch ∧
      after.turn = before.turn ∧ after.sent = before.sent ∧ after.flush = before.flush ∧
      (after.aborted = true ∧ (bridge.session = some session ∨ bridge.flushing = some session) ∨
        after.aborted = before.aborted ∧ bridge.session ≠ some session ∧
          bridge.flushing ≠ some session) := by
  obtain ⟨middle, between, outer⟩ := get_markAborted found
  obtain ⟨before, known, inner⟩ := get_markAborted between
  refine ⟨before, known, ?_⟩
  rcases outer with ⟨opened, rfl⟩ | ⟨notOpen, rfl⟩ <;>
    rcases inner with ⟨flushed, rfl⟩ | ⟨notFlushing, rfl⟩
  · exact ⟨rfl, rfl, rfl, rfl, Or.inl ⟨rfl, Or.inl opened⟩⟩
  · exact ⟨rfl, rfl, rfl, rfl, Or.inl ⟨rfl, Or.inl opened⟩⟩
  · exact ⟨rfl, rfl, rfl, rfl, Or.inl ⟨rfl, Or.inr flushed⟩⟩
  · exact ⟨rfl, rfl, rfl, rfl, Or.inr ⟨rfl, notOpen, notFlushing⟩⟩

/-! ### The invariant -/

structure Sound (bridge : HalfCascadeBridge) : Prop where
  bounded : ∀ (session : Nat) (speech : SpeechSession),
    bridge.sessions[session]? = some speech → speech.epoch ≤ bridge.speechEpoch
  current : ∀ (session : Nat) (speech : SpeechSession),
    bridge.sessions[session]? = some speech → speech.Live → speech.epoch = bridge.speechEpoch
  stale : ∀ (session : Nat) (speech : SpeechSession),
    bridge.sessions[session]? = some speech → speech.aborted = true →
      speech.epoch < bridge.speechEpoch
  opened : ∀ session, bridge.session = some session →
    ∃ speech : SpeechSession, bridge.sessions[session]? = some speech ∧ speech.flush = .notStarted ∧
      speech.aborted = false ∧ speech.sent = bridge.sessionChars
  held : ∀ (session : Nat) (speech : SpeechSession),
    bridge.sessions[session]? = some speech → speech.flush = .notStarted →
      speech.aborted = false → bridge.session = some session
  taken : ∀ session, bridge.flushing = some session →
    ∃ speech : SpeechSession, bridge.sessions[session]? = some speech ∧ speech.flush ≠ .notStarted ∧
      speech.aborted = false
  played : ∀ (session : Nat) (speech : SpeechSession),
    bridge.sessions[session]? = some speech → speech.flush = .running →
      speech.aborted = false → bridge.flushing = some session
  chained : ∀ (session : Nat) (speech : SpeechSession),
    bridge.sessions[session]? = some speech → speech.flush = .running →
      ∃ sent, bridge.pending.head? = some (.finish session sent false)
  linked : ∀ session sent, bridge.pending.head? = some (.finish session sent false) →
    ∃ speech : SpeechSession, bridge.sessions[session]? = some speech ∧ speech.flush ≠ .notStarted ∧
      speech.sent = sent
  flushLinked : ∀ session, bridge.flushing = some session →
    ∃ sent, bridge.pending.head? = some (.finish session sent false)
  quiet : ∀ session, bridge.session = some session → bridge.pending = []
  behind : ∀ link ∈ bridge.pending.tail, link.isFinish = false

namespace Sound

variable {bridge : HalfCascadeBridge}

theorem live (sound : bridge.Sound) {session : Nat} {speech : SpeechSession}
    (known : bridge.sessions[session]? = some speech) (live : speech.Live) :
    bridge.session = some session ∨ bridge.flushing = some session := by
  obtain ⟨fresh, unended⟩ := live
  cases flush : speech.flush with
  | notStarted => exact Or.inl (sound.held session speech known flush fresh)
  | running => exact Or.inr (sound.played session speech known flush fresh)
  | ended outcome =>
      rw [flush] at unended
      cases unended

theorem notFlushing (sound : bridge.Sound) {session : Nat} (isOpen : bridge.session = some session) :
    bridge.flushing = none := by
  cases flushing : bridge.flushing with
  | none => rfl
  | some other =>
      obtain ⟨sent, first⟩ := sound.flushLinked other flushing
      rw [sound.quiet session isOpen] at first
      cases first

theorem live_unique (sound : bridge.Sound) {first second : Nat} {one other : SpeechSession}
    (firstKnown : bridge.sessions[first]? = some one) (firstLive : one.Live)
    (secondKnown : bridge.sessions[second]? = some other) (secondLive : other.Live) :
    first = second := by
  rcases sound.live firstKnown firstLive with isOpen | flushing <;>
    rcases sound.live secondKnown secondLive with otherOpen | otherFlushing
  · exact Option.some.inj (isOpen.symm.trans otherOpen)
  · rw [sound.notFlushing isOpen] at otherFlushing
    cases otherFlushing
  · rw [sound.notFlushing otherOpen] at flushing
    cases flushing
  · exact Option.some.inj (flushing.symm.trans otherFlushing)

theorem initial : Sound {} where
  bounded := by intro session speech known; cases known
  current := by intro session speech known; cases known
  stale := by intro session speech known; cases known
  opened := by intro session isOpen; cases isOpen
  held := by intro session speech known; cases known
  taken := by intro session flushing; cases flushing
  played := by intro session speech known; cases known
  chained := by intro session speech known; cases known
  linked := by intro session sent first; cases first
  flushLinked := by intro session flushing; cases flushing
  quiet := by intro session isOpen; cases isOpen
  behind := by intro link member; cases member

/-! ### What each operation keeps -/

section

variable (sound : bridge.Sound)
include sound

theorem abortSpeech : bridge.abortSpeech.Sound := by
  have untaken {session : Nat} {before after : SpeechSession}
      (known : bridge.sessions[session]? = some before) (live : before.Live)
      (unmarked : after.aborted = false)
      (marks : after.aborted = true ∧
          (bridge.session = some session ∨ bridge.flushing = some session) ∨
        after.aborted = before.aborted ∧ bridge.session ≠ some session ∧
          bridge.flushing ≠ some session) : False := by
    rcases marks with ⟨marked, _⟩ | ⟨_, notOpen, notFlushing⟩
    · rw [unmarked] at marked
      cases marked
    · rcases sound.live known live with isOpen | flushing
      · exact notOpen isOpen
      · exact notFlushing flushing
  have liveBefore {session : Nat} {before after : SpeechSession}
      (unended : before.flush.hasEnded = false) (unmarked : after.aborted = false)
      (marks : after.aborted = true ∧
          (bridge.session = some session ∨ bridge.flushing = some session) ∨
        after.aborted = before.aborted ∧ bridge.session ≠ some session ∧
          bridge.flushing ≠ some session) : before.Live := by
    rcases marks with ⟨marked, _⟩ | ⟨same, _⟩
    · rw [unmarked] at marked
      cases marked
    · exact ⟨same.symm.trans unmarked, unended⟩
  refine
    { bounded := ?_, current := ?_, stale := ?_, opened := ?_, held := ?_, taken := ?_
      played := ?_, chained := ?_, linked := ?_, flushLinked := ?_, quiet := ?_
      behind := sound.behind }
  · intro session after found
    obtain ⟨before, known, epoch, _⟩ := get_abortSpeech found
    rw [epoch]
    exact Nat.le_succ_of_le (sound.bounded session before known)
  · intro session after found live
    obtain ⟨before, known, _, _, _, flush, marks⟩ := get_abortSpeech found
    have unended : before.flush.hasEnded = false := by rw [← flush]; exact live.2
    exact (untaken known (liveBefore unended live.1 marks) live.1 marks).elim
  · intro session after found _
    obtain ⟨before, known, epoch, _⟩ := get_abortSpeech found
    rw [epoch]
    exact Nat.lt_succ_of_le (sound.bounded session before known)
  · intro session isOpen
    cases isOpen
  · intro session after found notStarted unmarked
    obtain ⟨before, known, _, _, _, flush, marks⟩ := get_abortSpeech found
    have unended : before.flush.hasEnded = false := by rw [← flush, notStarted]; rfl
    exact (untaken known (liveBefore unended unmarked marks) unmarked marks).elim
  · intro session flushing
    cases flushing
  · intro session after found running unmarked
    obtain ⟨before, known, _, _, _, flush, marks⟩ := get_abortSpeech found
    have unended : before.flush.hasEnded = false := by rw [← flush, running]; rfl
    exact (untaken known (liveBefore unended unmarked marks) unmarked marks).elim
  · intro session after found running
    obtain ⟨before, known, _, _, _, flush, _⟩ := get_abortSpeech found
    exact sound.chained session before known (flush.symm.trans running)
  · intro session sent first
    obtain ⟨before, known, started, counted⟩ := sound.linked session sent first
    have bound : session < bridge.abortSpeech.sessions.length := by
      change session < (markAborted (markAborted _ _) _).length
      rw [length_markAborted, length_markAborted]
      exact (List.getElem?_eq_some_iff.mp known).1
    have found := List.getElem?_eq_getElem bound
    obtain ⟨before', known', _, _, sentSame, flush, _⟩ := get_abortSpeech found
    rw [known] at known'
    cases known'
    exact ⟨_, found, by rw [flush]; exact started, by rw [sentSame]; exact counted⟩
  · intro session flushing
    cases flushing
  · intro session isOpen
    cases isOpen

theorem startFlush {session : Nat} (spoken : Text) (isOpen : bridge.session = some session) :
    ({ bridge with session := none, spoken := spoken }.startFlush session).Sound := by
  obtain ⟨speech, known, notStarted, fresh, sent⟩ := sound.opened session isOpen
  have empty := sound.quiet session isOpen
  have first : (bridge.pending ++ [Link.finish session bridge.sessionChars false]).head? =
      some (.finish session bridge.sessionChars false) := by
    rw [empty]
    rfl
  have here := get_modify_self ({ · with flush := .running }) known
  refine
    { bounded := ?_, current := ?_, stale := ?_, opened := ?_, held := ?_, taken := ?_
      played := ?_, chained := ?_, linked := ?_, flushLinked := ?_, quiet := ?_, behind := ?_ }
  · intro other after found
    obtain ⟨before, known, ⟨rfl, rfl⟩ | ⟨_, rfl⟩⟩ := get_modify found
    · exact sound.bounded _ before known
    · exact sound.bounded _ _ known
  · intro other after found live
    obtain ⟨before, known', ⟨rfl, rfl⟩ | ⟨_, rfl⟩⟩ := get_modify found
    · rw [known] at known'
      cases known'
      exact sound.current _ speech known ⟨fresh, by rw [notStarted]; rfl⟩
    · exact sound.current _ _ known' live
  · intro other after found aborted
    obtain ⟨before, known, ⟨rfl, rfl⟩ | ⟨_, rfl⟩⟩ := get_modify found
    · exact sound.stale _ before known aborted
    · exact sound.stale _ _ known aborted
  · intro other isOpen
    cases isOpen
  · intro other after found unstarted unmarked
    obtain ⟨before, known', ⟨rfl, rfl⟩ | ⟨different, rfl⟩⟩ := get_modify found
    · cases unstarted
    · have same := sound.held other _ known' unstarted unmarked
      rw [isOpen] at same
      exact absurd (Option.some.inj same) different
  · intro other flushing
    cases flushing
    exact ⟨_, here, by simp, fresh⟩
  · intro other after found running unmarked
    obtain ⟨before, known', ⟨rfl, rfl⟩ | ⟨different, rfl⟩⟩ := get_modify found
    · rfl
    · obtain ⟨sent, link⟩ := sound.chained other _ known' running
      rw [empty] at link
      cases link
  · intro other after found running
    obtain ⟨before, known', ⟨rfl, rfl⟩ | ⟨different, rfl⟩⟩ := get_modify found
    · exact ⟨bridge.sessionChars, first⟩
    · obtain ⟨sent, link⟩ := sound.chained other _ known' running
      rw [empty] at link
      cases link
  · intro other chars link
    have same := first.symm.trans link
    cases same
    exact ⟨_, here, by simp, sent⟩
  · intro other flushing
    cases flushing
    exact ⟨bridge.sessionChars, first⟩
  · intro other isOpen
    cases isOpen
  · change ∀ link ∈ (bridge.pending ++ [Link.finish session bridge.sessionChars false]).tail, _
    rw [empty]
    intro link member
    cases member

theorem chain {link : Link} (waits : bridge.pending ≠ []) (step : link.isFinish = false) :
    Sound { bridge with pending := bridge.pending ++ [link] } := by
  have first : (bridge.pending ++ [link]).head? = bridge.pending.head? :=
    List.head?_append_of_ne_nil _ waits
  refine
    { sound with chained := ?_, linked := ?_, flushLinked := ?_, quiet := ?_, behind := ?_ }
  · intro session speech known running
    exact first ▸ sound.chained session speech known running
  · intro session sent link
    exact sound.linked session sent (first.symm.trans link)
  · intro session flushing
    exact first ▸ sound.flushLinked session flushing
  · intro session isOpen
    exact absurd (sound.quiet session isOpen) waits
  · change ∀ other ∈ (bridge.pending ++ [link]).tail, _
    rw [List.tail_append_of_ne_nil waits]
    intro other member
    rcases List.mem_append.mp member with earlier | last
    · exact sound.behind other earlier
    · rw [List.mem_singleton.mp last]
      exact step

theorem openSession (transcript : Transcript) (tail : Text) (empty : bridge.pending = [])
    (closed : bridge.session = none) : (bridge.openSession transcript tail).Sound := by
  have found {session : Nat} {after : SpeechSession}
      (known : (bridge.openSession transcript tail).sessions[session]? = some after) :
      bridge.sessions[session]? = some after ∨
        session = bridge.sessions.length ∧
          after = { epoch := bridge.speechEpoch, turn := bridge.turn } := by
    change (bridge.sessions ++ [_])[session]? = some after at known
    rw [List.getElem?_append] at known
    split at known
    · exact Or.inl known
    · rename_i beyond
      obtain ⟨last, same⟩ := List.getElem?_eq_some_iff.mp known
      rw [List.length_singleton] at last
      have index : session = bridge.sessions.length := by omega
      subst index
      simp only [Nat.sub_self, List.getElem_cons_zero] at same
      exact Or.inr ⟨rfl, same.symm⟩
  have kept {session : Nat} {before : SpeechSession}
      (known : bridge.sessions[session]? = some before) :
      (bridge.openSession transcript tail).sessions[session]? = some before := by
    have bound := (List.getElem?_eq_some_iff.mp known).1
    change (bridge.sessions ++ [_])[session]? = some before
    rw [List.getElem?_append, if_pos bound, known]
  refine
    { bounded := ?_, current := ?_, stale := ?_, opened := ?_, held := ?_, taken := ?_
      played := ?_, chained := ?_, linked := ?_, flushLinked := sound.flushLinked, quiet := ?_
      behind := sound.behind }
  · intro session after known
    rcases found known with earlier | ⟨_, rfl⟩
    · exact sound.bounded session after earlier
    · exact Nat.le_refl _
  · intro session after known live
    rcases found known with earlier | ⟨_, rfl⟩
    · exact sound.current session after earlier live
    · rfl
  · intro session after known aborted
    rcases found known with earlier | ⟨_, rfl⟩
    · exact sound.stale session after earlier aborted
    · cases aborted
  · intro session isOpen
    cases isOpen
    refine ⟨_, List.getElem?_concat_length, rfl, rfl, rfl⟩
  · intro session after known notStarted fresh
    rcases found known with earlier | ⟨rfl, _⟩
    · have isOpen := sound.held session after earlier notStarted fresh
      rw [closed] at isOpen
      cases isOpen
    · rfl
  · intro session flushing
    obtain ⟨speech, known, started⟩ := sound.taken session flushing
    exact ⟨speech, kept known, started⟩
  · intro session after known running fresh
    rcases found known with earlier | ⟨_, rfl⟩
    · exact sound.played session after earlier running fresh
    · cases running
  · intro session after known running
    rcases found known with earlier | ⟨_, rfl⟩
    · exact sound.chained session after earlier running
    · cases running
  · intro session sent first
    obtain ⟨speech, known, started⟩ := sound.linked session sent first
    exact ⟨speech, kept known, started⟩
  · intro session _
    exact empty

theorem handOver {session : Nat} (isOpen : bridge.session = some session) (count : Nat) :
    Sound { bridge with
      sessionChars := bridge.sessionChars + count
      sessions := bridge.sessions.modify session
        (fun speech => { speech with sent := speech.sent + count }) } := by
  obtain ⟨speech, known, notStarted, fresh, sent⟩ := sound.opened session isOpen
  have empty := sound.quiet session isOpen
  have here := get_modify_self
    (fun speech => { speech with sent := speech.sent + count }) known
  refine
    { bounded := ?_, current := ?_, stale := ?_, opened := ?_, held := ?_, taken := ?_
      played := ?_, chained := ?_, linked := ?_, flushLinked := sound.flushLinked
      quiet := sound.quiet, behind := sound.behind }
  · intro other after found
    obtain ⟨before, known, ⟨rfl, rfl⟩ | ⟨_, rfl⟩⟩ := get_modify found
    · exact sound.bounded _ before known
    · exact sound.bounded _ _ known
  · intro other after found live
    obtain ⟨before, known, ⟨rfl, rfl⟩ | ⟨_, rfl⟩⟩ := get_modify found
    · exact sound.current _ before known live
    · exact sound.current _ _ known live
  · intro other after found aborted
    obtain ⟨before, known, ⟨rfl, rfl⟩ | ⟨_, rfl⟩⟩ := get_modify found
    · exact sound.stale _ before known aborted
    · exact sound.stale _ _ known aborted
  · intro other otherOpen
    rw [show other = session from Option.some.inj (otherOpen.symm.trans isOpen)]
    exact ⟨_, here, notStarted, fresh, congrArg (· + count) sent⟩
  · intro other after found unstarted unmarked
    obtain ⟨before, known, ⟨rfl, rfl⟩ | ⟨_, rfl⟩⟩ := get_modify found
    · exact sound.held _ before known unstarted unmarked
    · exact sound.held _ _ known unstarted unmarked
  · intro other flushing
    rw [sound.notFlushing isOpen] at flushing
    cases flushing
  · intro other after found running unmarked
    obtain ⟨before, known, ⟨rfl, rfl⟩ | ⟨_, rfl⟩⟩ := get_modify found
    · exact sound.played _ before known running unmarked
    · exact sound.played _ _ known running unmarked
  · intro other after found running
    obtain ⟨before, known, ⟨rfl, rfl⟩ | ⟨_, rfl⟩⟩ := get_modify found
    · exact sound.chained _ before known running
    · exact sound.chained _ _ known running
  · intro other chars first
    change bridge.pending.head? = _ at first
    rw [empty] at first
    cases first

theorem flushEnds {session : Nat} {speech : SpeechSession} (outcome : FlushOutcome)
    (known : bridge.sessions[session]? = some speech) (running : speech.flush = .running) :
    Sound { bridge with
      sessions := bridge.sessions.modify session ({ · with flush := .ended outcome }) } := by
  have here := get_modify_self ({ · with flush := .ended outcome }) known
  refine
    { bounded := ?_, current := ?_, stale := ?_, opened := ?_, held := ?_, taken := ?_
      played := ?_, chained := ?_, linked := ?_, flushLinked := sound.flushLinked
      quiet := sound.quiet, behind := sound.behind }
  · intro other after found
    obtain ⟨before, known, ⟨rfl, rfl⟩ | ⟨_, rfl⟩⟩ := get_modify found
    · exact sound.bounded _ before known
    · exact sound.bounded _ _ known
  · intro other after found live
    obtain ⟨before, known, ⟨rfl, rfl⟩ | ⟨_, rfl⟩⟩ := get_modify found
    · cases live.2
    · exact sound.current _ _ known live
  · intro other after found aborted
    obtain ⟨before, known, ⟨rfl, rfl⟩ | ⟨_, rfl⟩⟩ := get_modify found
    · exact sound.stale _ before known aborted
    · exact sound.stale _ _ known aborted
  · intro other isOpen
    obtain ⟨opened, found, notStarted, rest⟩ := sound.opened other isOpen
    have different : session ≠ other := by
      rintro rfl
      rw [known] at found
      cases found
      rw [running] at notStarted
      cases notStarted
    exact ⟨opened, get_modify_of_ne _ different found, notStarted, rest⟩
  · intro other after found unstarted unmarked
    obtain ⟨before, known, ⟨rfl, rfl⟩ | ⟨_, rfl⟩⟩ := get_modify found
    · cases unstarted
    · exact sound.held _ _ known unstarted unmarked
  · intro other flushing
    obtain ⟨before, found, started, fresh⟩ := sound.taken other flushing
    by_cases same : session = other
    · subst same
      rw [known] at found
      cases found
      exact ⟨_, here, by simp, fresh⟩
    · exact ⟨before, get_modify_of_ne _ same found, started, fresh⟩
  · intro other after found stillRunning unmarked
    obtain ⟨before, known, ⟨rfl, rfl⟩ | ⟨_, rfl⟩⟩ := get_modify found
    · cases stillRunning
    · exact sound.played _ _ known stillRunning unmarked
  · intro other after found stillRunning
    obtain ⟨before, known, ⟨rfl, rfl⟩ | ⟨_, rfl⟩⟩ := get_modify found
    · cases stillRunning
    · exact sound.chained _ _ known stillRunning
  · intro other sent first
    obtain ⟨before, found, started, counted⟩ := sound.linked other sent first
    by_cases same : session = other
    · subst same
      rw [known] at found
      cases found
      exact ⟨_, here, by simp, counted⟩
    · exact ⟨before, get_modify_of_ne _ same found, started, counted⟩

theorem finish_first {index session sent : Nat}
    (linked : bridge.pending[index]? = some (.finish session sent false)) :
    index = 0 ∧ ∃ rest, bridge.pending = .finish session sent false :: rest := by
  cases index with
  | zero =>
      cases chain : bridge.pending with
      | nil =>
          rw [chain] at linked
          cases linked
      | cons first rest =>
          rw [chain] at linked
          cases linked
          exact ⟨rfl, rest, rfl⟩
  | succ index =>
      have member : Link.finish session sent false ∈ bridge.pending.tail := by
        have found : bridge.pending.tail[index]? = some (.finish session sent false) := by
          rw [List.getElem?_tail]
          exact linked
        exact List.mem_of_getElem? found
      cases sound.behind _ member

theorem finish {session sent : Nat} {speech : SpeechSession} {rest : List Link}
    {outcome : FlushOutcome} (linked : bridge.pending = .finish session sent false :: rest)
    (known : bridge.sessions[session]? = some speech) (ended : speech.flush = .ended outcome) :
    ({ bridge with pending := .finish session sent true :: rest }.finish session sent
      outcome).Sound := by
  have first : bridge.pending.head? = some (.finish session sent false) := by
    rw [linked]
    rfl
  have cleared {other : Nat} (flushing : (if bridge.flushing = some session then none
      else bridge.flushing) = some other) : False := by
    split at flushing
    · cases flushing
    · rename_i different
      obtain ⟨chars, link⟩ := sound.flushLinked other flushing
      have same := first.symm.trans link
      cases same
      exact different flushing
  have idle {other : Nat} {after : SpeechSession}
      (found : bridge.sessions[other]? = some after) (running : after.flush = .running) :
      False := by
    obtain ⟨chars, link⟩ := sound.chained other after found running
    have same := first.symm.trans link
    cases same
    rw [known] at found
    cases found
    rw [ended] at running
    cases running
  refine
    { bounded := sound.bounded, current := sound.current, stale := sound.stale
      opened := sound.opened, held := sound.held, taken := ?_, played := ?_, chained := ?_
      linked := ?_, flushLinked := ?_, quiet := ?_, behind := ?_ }
  · intro other flushing
    exact (cleared flushing).elim
  · intro other after found running _
    exact (idle found running).elim
  · intro other after found running
    exact (idle found running).elim
  · intro other chars link
    cases link
  · intro other flushing
    exact (cleared flushing).elim
  · intro other isOpen
    have empty := sound.quiet other isOpen
    rw [linked] at empty
    cases empty
  · have behind := sound.behind
    rw [linked] at behind
    exact behind

theorem unchain {link : Link} {rest : List Link} (chain : bridge.pending = link :: rest)
    (done : ∀ session sent, link ≠ .finish session sent false) :
    Sound { bridge with pending := rest } := by
  have stays {session sent : Nat}
      (first : bridge.pending.head? = some (.finish session sent false)) : False := by
    rw [chain] at first
    exact done session sent (Option.some.inj first)
  refine
    { sound with chained := ?_, linked := ?_, flushLinked := ?_, quiet := ?_, behind := ?_ }
  · intro session speech known running
    obtain ⟨sent, first⟩ := sound.chained session speech known running
    exact (stays first).elim
  · intro session sent first
    have behind := sound.behind
    rw [chain] at behind
    cases behind _ (List.mem_of_mem_head? first)
  · intro session flushing
    obtain ⟨sent, first⟩ := sound.flushLinked session flushing
    exact (stays first).elim
  · intro session isOpen
    have empty := sound.quiet session isOpen
    rw [chain] at empty
    cases empty
  · intro other member
    refine sound.behind other ?_
    rw [chain]
    exact List.mem_of_mem_tail member

theorem note (happening : Happening) : (bridge.note happening).Sound :=
  { sound with }

theorem deliver (link : Link) : (bridge.deliver link).Sound := by
  cases link with
  | finish session sent accounted => exact sound
  | transcript text => exact sound.note _
  | endTurn turn report => exact { sound with }

theorem inOrder {link : Link} (step : link.isFinish = false) : (bridge.inOrder link).Sound := by
  unfold HalfCascadeBridge.inOrder
  split
  · exact sound.deliver link
  · exact sound.chain ‹_› step

theorem spoke (transcript : Transcript) : (bridge.spoke transcript).Sound := by
  have ready : Sound { bridge with pump := .ready } := { sound with }
  unfold HalfCascadeBridge.spoke
  dsimp only
  split
  · exact ready.inOrder rfl
  · exact ready.note _

theorem textSent (transcript : Transcript) {session : Nat}
    (isOpen : bridge.session = some session) : (bridge.textSent transcript session).Sound := by
  unfold HalfCascadeBridge.textSent
  split
  · exact (sound.startFlush [] isOpen).spoke transcript
  · exact sound.spoke transcript

theorem sendText (transcript : Transcript) (tail : Text) {session : Nat}
    (isOpen : bridge.session = some session) : (bridge.sendText transcript tail session).Sound := by
  unfold HalfCascadeBridge.sendText
  split
  · exact sound.textSent transcript isOpen
  · exact { sound.handOver isOpen tail.length with }

theorem speak (transcript : Transcript) : (bridge.speak transcript).Sound := by
  let told : HalfCascadeBridge :=
    { bridge with spoken := bridge.spoken ++ bridge.unspoken transcript.text }
  have toldSound : told.Sound := { sound with }
  unfold HalfCascadeBridge.speak
  split
  · exact sound.spoke transcript
  · dsimp only
    split
    · exact toldSound.spoke transcript
    · split
      case h_1 closed => exact { toldSound with }
      case h_2 session isOpen => exact toldSound.sendText transcript _ isOpen

theorem receive (event : ConversationEvent) : (bridge.receive event).Sound := by
  cases event with
  | agentTranscript text isFinal =>
      have opened : Sound { bridge with turnOpen := true } := { sound with }
      exact opened.speak _
  | speechStarted =>
      unfold HalfCascadeBridge.receive
      dsimp only
      split
      · let cut : HalfCascadeBridge :=
          { bridge with
            cancelledTurn := some bridge.turn
            spoken := []
            pump := .aborting bridge.flushing }
        have cutSound : cut.Sound := { sound with }
        exact cutSound.abortSpeech
      · split
        · have waiting : Sound { bridge with pump := .aborting bridge.flushing } :=
            { sound with }
          exact waiting.abortSpeech
        · exact sound.note _
  | turnEnded report =>
      let past : HalfCascadeBridge :=
        { bridge with turnOpen := false, turn := bridge.turn + 1, spoken := [] }
      have pastSound : past.Sound := { sound with }
      exact pastSound.inOrder rfl
  | sessionClosed reason => exact { sound with }
  | audioDelta pcm => exact sound.note _
  | userTranscript text isFinal => exact sound.note _
  | bridgeError code message isFatal => exact sound.note _

end

end Sound

structure PumpSound (bridge : HalfCascadeBridge) : Prop where
  draining : ∀ transcript tail, bridge.pump = .draining transcript tail → bridge.session = none
  aborting : ∀ flush, bridge.pump = .aborting flush →
    bridge.session = none ∧ bridge.flushing = none
  cutOff : ∀ flush, bridge.pump = .aborting flush → ∀ (session : Nat) (speech : SpeechSession),
    bridge.sessions[session]? = some speech → speech.epoch < bridge.speechEpoch
  awaited : ∀ session, bridge.pump = .aborting (some session) →
    ∃ speech : SpeechSession, bridge.sessions[session]? = some speech ∧
      speech.flush ≠ .notStarted

namespace PumpSound

variable {bridge : HalfCascadeBridge}

theorem elsewhere (notDraining : ∀ transcript tail, bridge.pump ≠ .draining transcript tail)
    (notAborting : ∀ flush, bridge.pump ≠ .aborting flush) : bridge.PumpSound where
  draining := fun transcript tail here => absurd here (notDraining transcript tail)
  aborting := fun flush here => absurd here (notAborting flush)
  cutOff := fun flush here => absurd here (notAborting flush)
  awaited := fun session here => absurd here (notAborting (some session))

theorem of_ready (ready : bridge.pump = .ready) : bridge.PumpSound :=
  elsewhere (by rw [ready]; simp) (by rw [ready]; simp)

theorem deliver_pump (link : Link) : (bridge.deliver link).pump = bridge.pump := by
  cases link <;> rfl

theorem inOrder_pump (link : Link) : (bridge.inOrder link).pump = bridge.pump := by
  unfold inOrder
  split
  · exact deliver_pump link
  · rfl

theorem spoke_pump (transcript : Transcript) : (bridge.spoke transcript).pump = .ready := by
  unfold spoke
  dsimp only
  split
  · exact inOrder_pump _
  · rfl

theorem textSent_pump (transcript : Transcript) (session : Nat) :
    (bridge.textSent transcript session).pump = .ready := by
  unfold textSent
  split
  · exact spoke_pump _
  · exact spoke_pump _

theorem sendText (transcript : Transcript) (tail : Text) (session : Nat) :
    (bridge.sendText transcript tail session).PumpSound := by
  unfold HalfCascadeBridge.sendText
  split
  · exact of_ready (textSent_pump _ _)
  · exact elsewhere (by simp) (by simp)

theorem speak (transcript : Transcript) : (bridge.speak transcript).PumpSound := by
  unfold HalfCascadeBridge.speak
  split
  · exact of_ready (spoke_pump _)
  · dsimp only
    split
    · exact of_ready (spoke_pump _)
    · split
      case h_1 closed =>
        exact
          { draining := fun _ _ _ => closed
            aborting := by intro flush here; cases here
            cutOff := by intro flush here; cases here
            awaited := by intro session here; cases here }
      case h_2 session _ => exact sendText _ _ _

theorem abortSpeech (sound : bridge.Sound)
    (awaited : ∀ session, bridge.pump = .aborting (some session) →
      ∃ speech : SpeechSession, bridge.sessions[session]? = some speech ∧
        speech.flush ≠ .notStarted) : bridge.abortSpeech.PumpSound where
  draining := fun _ _ _ => rfl
  aborting := fun _ _ => ⟨rfl, rfl⟩
  cutOff := by
    intro flush _ session after found
    obtain ⟨before, known, epoch, _⟩ := get_abortSpeech found
    rw [epoch]
    exact Nat.lt_succ_of_le (sound.bounded session before known)
  awaited := by
    intro session here
    obtain ⟨before, known, started⟩ := awaited session here
    have bound : session < bridge.abortSpeech.sessions.length := by
      change session < (markAborted (markAborted _ _) _).length
      rw [length_markAborted, length_markAborted]
      exact (List.getElem?_eq_some_iff.mp known).1
    have found := List.getElem?_eq_getElem bound
    obtain ⟨before', known', _, _, _, flush, _⟩ := get_abortSpeech found
    rw [known] at known'
    cases known'
    exact ⟨_, found, by rw [flush]; exact started⟩

theorem startAbort (sound : bridge.Sound) :
    ({ bridge with pump := .aborting bridge.flushing }.abortSpeech).PumpSound := by
  have waiting : Sound { bridge with pump := .aborting bridge.flushing } := { sound with }
  refine abortSpeech waiting ?_
  intro session here
  have flushing : bridge.flushing = some session := Pump.aborting.inj here
  obtain ⟨speech, known, started, _⟩ := sound.taken session flushing
  exact ⟨speech, known, started⟩

theorem receive (sound : bridge.Sound) (ready : bridge.pump = .ready)
    (event : ConversationEvent) : (bridge.receive event).PumpSound := by
  cases event with
  | agentTranscript text isFinal => exact speak _
  | speechStarted =>
      unfold HalfCascadeBridge.receive
      dsimp only
      split
      · have cut : Sound { bridge with cancelledTurn := some bridge.turn, spoken := [] } :=
          { sound with }
        exact startAbort cut
      · split
        · exact startAbort sound
        · exact of_ready ready
  | turnEnded report => exact of_ready ((inOrder_pump _).trans ready)
  | sessionClosed reason =>
      unfold HalfCascadeBridge.receive
      exact elsewhere (by simp) (by simp)
  | audioDelta pcm => exact of_ready ready
  | userTranscript text isFinal => exact of_ready ready
  | bridgeError code message isFatal => exact of_ready ready

end PumpSound

/-! ### Every step -/

variable {config : HalfCascadeConfig} {bridge next : HalfCascadeBridge}

theorem Sound.resume (sound : bridge.Sound) (pumps : bridge.PumpSound)
    (resumed : bridge.resume = some next) : next.Sound ∧ next.PumpSound := by
  cases resume_some resumed with
  | openSession transcript tail pump empty =>
      exact ⟨sound.openSession transcript tail empty (pumps.draining transcript tail pump),
        .elsewhere (by simp [HalfCascadeBridge.openSession])
          (by simp [HalfCascadeBridge.openSession])⟩
  | sendText transcript tail session _ isOpen =>
      exact ⟨sound.sendText transcript tail isOpen, .sendText transcript tail session⟩
  | unopened transcript tail session _ _ =>
      exact ⟨sound.spoke transcript, .of_ready (PumpSound.spoke_pump transcript)⟩
  | textSent transcript session _ isOpen =>
      exact ⟨sound.textSent transcript isOpen,
        .of_ready (PumpSound.textSent_pump transcript session)⟩
  | unsent transcript session _ _ =>
      exact ⟨sound.spoke transcript, .of_ready (PumpSound.spoke_pump transcript)⟩
  | aborted flush pump _ =>
      have ready : Sound { bridge with pump := .ready } := { sound with }
      exact ⟨ready.note _, .of_ready rfl⟩
  | closed reason pump _ =>
      have closed : Sound { bridge with pump := .ended } := { sound with }
      exact ⟨closed.note _,
        .elsewhere (by simp [HalfCascadeBridge.put, HalfCascadeBridge.note])
          (by simp [HalfCascadeBridge.put, HalfCascadeBridge.note])⟩

/-- What an ended flush looks like where its `finish` looks. -/
theorem finishAt_some {index : Nat} (finished : bridge.finishAt index = some next) :
    ∃ session sent speech outcome,
      bridge.pending[index]? = some (.finish session sent false) ∧
      bridge.sessions[session]? = some speech ∧ speech.flush = .ended outcome ∧
      next = { bridge with
        pending := bridge.pending.set index (.finish session sent true) }.finish
          session sent outcome := by
  unfold finishAt at finished
  split at finished
  case h_1 session sent linked =>
    split at finished
    case h_1 epoch turn chars outcome aborted known =>
      cases finished
      exact ⟨session, sent, _, outcome, linked, known, rfl, rfl⟩
    case h_2 => cases finished
  case h_2 => cases finished

theorem nextLink_some (ran : bridge.nextLink = some next) :
    ∃ link rest, bridge.pending = link :: rest ∧
      (∀ session sent, link ≠ .finish session sent false) ∧
      next = { bridge with pending := rest }.deliver link := by
  unfold nextLink at ran
  split at ran
  case h_1 => cases ran
  case h_2 => cases ran
  case h_3 link rest notFinish chain =>
    cases ran
    exact ⟨link, rest, chain, notFinish, rfl⟩

theorem flushEnds_some {session : Nat} {outcome : FlushOutcome}
    (ended : bridge.step config (.flushEnds session outcome) = some next) :
    ∃ speech, bridge.sessions[session]? = some speech ∧ speech.flush = .running ∧
      next = { bridge with
        sessions := bridge.sessions.modify session ({ · with flush := .ended outcome }) } := by
  simp only [step] at ended
  split at ended
  case h_1 epoch turn sent aborted known =>
    cases ended
    exact ⟨_, known, rfl, rfl⟩
  case h_2 => cases ended

theorem onAudio_some {session : Nat} {pcm : List UInt8}
    (called : bridge.step config (.onAudio session pcm) = some next) :
    ∃ speech, bridge.sessions[session]? = some speech ∧
      (speech.epoch = bridge.speechEpoch ∧
          next = bridge.note (.audio session speech.turn pcm) ∨
        speech.epoch ≠ bridge.speechEpoch ∧
          next = bridge.note (.dropped session speech.turn pcm)) := by
  simp only [step] at called
  split at called
  case h_1 speech known =>
    split at called
    · cases called
      exact ⟨speech, known, Or.inl ⟨‹_›, rfl⟩⟩
    · cases called
      exact ⟨speech, known, Or.inr ⟨‹_›, rfl⟩⟩
  case h_2 => cases called

theorem onError_some {session : Nat} {message : String}
    (called : bridge.step config (.onError session message) = some next) :
    next = bridge ∨
      next = bridge.put (.bridgeError (some "tts_unavailable") message true) := by
  simp only [step] at called
  split at called
  case h_1 speech known =>
    split at called
    · cases called
      exact Or.inr rfl
    · cases called
      exact Or.inl rfl
  case h_2 => cases called

theorem interruptReturns_some {index : Nat}
    (returned : bridge.step config (.interruptReturns index) = some next) :
    ∃ interrupts told, next = { bridge with interrupts := interrupts, told := told } := by
  simp only [step] at returned
  split at returned
  case h_1 =>
    split at returned
    · cases returned
      exact ⟨_, _, rfl⟩
    · cases returned
  case h_2 => cases returned

structure Kept (bridge : HalfCascadeBridge) : Prop where
  sound : bridge.Sound
  pumps : bridge.PumpSound

theorem Kept.initial : Kept {} := ⟨.initial, .of_ready rfl⟩

theorem Kept.step {action : HalfCascadeAction} (kept : bridge.Kept)
    (taken : bridge.step config action = some next) : next.Kept := by
  obtain ⟨sound, pumps⟩ := kept
  cases action with
  | receive event =>
      obtain ⟨ready, rfl⟩ := receive_some taken
      have heard : Sound { bridge with received := bridge.received ++ [event] } := { sound with }
      exact ⟨heard.receive event, PumpSound.receive heard ready event⟩
  | innerEnds =>
      obtain ⟨_, rfl⟩ := innerEnds_some taken
      exact ⟨{ sound with }, .elsewhere (by simp) (by simp)⟩
  | resume =>
      obtain ⟨resumed, pumped⟩ := sound.resume pumps taken
      exact ⟨resumed, pumped⟩
  | flushEnds session outcome =>
      obtain ⟨speech, known, running, rfl⟩ := flushEnds_some taken
      refine ⟨sound.flushEnds outcome known running,
        { draining := pumps.draining, aborting := pumps.aborting, cutOff := ?_, awaited := ?_ }⟩
      · intro flush here other after found
        obtain ⟨before, known', ⟨_, rfl⟩ | ⟨_, rfl⟩⟩ := get_modify found
        · exact pumps.cutOff flush here other before known'
        · exact pumps.cutOff flush here other _ known'
      · intro other here
        obtain ⟨before, known', started⟩ := pumps.awaited other here
        by_cases same : session = other
        · subst same
          exact ⟨_, get_modify_self _ known', by simp⟩
        · exact ⟨before, get_modify_of_ne _ same known', started⟩
  | nextLink =>
      obtain ⟨link, rest, chain, done, rfl⟩ := nextLink_some taken
      refine ⟨(sound.unchain chain done).deliver link, ?_⟩
      cases link with
      | finish session sent accounted => exact { pumps with }
      | transcript text => exact { pumps with }
      | endTurn turn report => exact { pumps with }
  | finish index =>
      obtain ⟨session, sent, speech, outcome, linked, known, ended, rfl⟩ := finishAt_some taken
      obtain ⟨rfl, rest, chain⟩ := sound.finish_first linked
      refine ⟨?_, ?_⟩
      · rw [chain, List.set_cons_zero]
        exact sound.finish chain known ended
      · refine { pumps with aborting := ?_ }
        intro flush here
        obtain ⟨closed, none⟩ := pumps.aborting flush here
        refine ⟨closed, ?_⟩
        change (if bridge.flushing = some session then Option.none else bridge.flushing) = _
        rw [none]
        rfl
  | onAudio session pcm =>
      obtain ⟨speech, _, ⟨_, rfl⟩ | ⟨_, rfl⟩⟩ := onAudio_some taken
      · exact ⟨sound.note _, { pumps with }⟩
      · exact ⟨sound.note _, { pumps with }⟩
  | onError session message =>
      rcases onError_some taken with rfl | rfl
      · exact ⟨sound, pumps⟩
      · exact ⟨sound.note _, { pumps with }⟩
  | interrupt audioEndMs =>
      cases taken
      have aborted := sound.abortSpeech
      exact ⟨{ aborted with }, { PumpSound.abortSpeech sound pumps.awaited with }⟩
  | interruptReturns index =>
      obtain ⟨interrupts, told, rfl⟩ := interruptReturns_some taken
      exact ⟨{ sound with }, { pumps with }⟩

end HalfCascadeBridge

end Assemblix.Realtime
