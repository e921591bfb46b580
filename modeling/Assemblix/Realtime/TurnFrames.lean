import Assemblix.Realtime.TurnDetector

/-
The turns of a detector, frame by frame.

Outside a turn the ring and the onset hold the last frames that were processed, back to the end
of the turn before at most; a turn takes them over with its second speech frame. Inside a turn
every frame goes to the recognizer, and the silence counts the frames since the last speech.
-/

namespace Assemblix.Realtime

open Library

/-! ### Frames of the input -/

namespace DetectorSetup

variable (setup : DetectorSetup)

def vadAfter (audio : List UInt8) : Nat → setup.vad.State
  | 0 => setup.vad.fresh
  | count + 1 =>
      (setup.vad.speechProbability (vadAfter audio count) (samples (setup.frame audio count))).2

def isSpeech (audio : List UInt8) (index : Nat) : Bool :=
  decide (speechThreshold ≤
    (setup.vad.speechProbability (setup.vadAfter audio index)
      (samples (setup.frame audio index))).1)

/-- The frames from `start` up to `stop`. -/
def stretch (audio : List UInt8) (start stop : Nat) : List UInt8 :=
  (audio.drop (start * setup.frameBytes)).take ((stop - start) * setup.frameBytes)

def framesWith (audio : List UInt8) (kind : Signal → Bool) (count : Nat) : List Nat :=
  (List.range count).flatMap fun index =>
    ((setup.signalsAt audio index).filter kind).map fun _ => index

end DetectorSetup

def Signal.isStart : Signal → Bool
  | .speechStart => true
  | _ => false

def Signal.isEnd : Signal → Bool
  | .endOfTurn _ => true
  | _ => false

/-- Neither the beginning of a turn nor its end. -/
def Signal.Within (signals : List Signal) : Prop :=
  ∀ signal ∈ signals, signal.isStart = false ∧ signal.isEnd = false

/-! ### What one frame does -/

namespace Listening

variable {setup : DetectorSetup}

/-- One frame and the answer to the question asked in it, from a detector that waits for
nothing. -/
inductive Advances (state : Listening setup) (frame : List UInt8) :
    Bool → Listening setup → List UInt8 → List Signal → Prop
  | quiet {next : Listening setup} (outside : state.inTurn = false)
      (preroll : next.preroll = (state.preroll.extend state.onset).append frame)
      (onset : next.onset = []) (still : next.inTurn = false)
      (silence : next.silenceMs = state.silenceMs) :
      Advances state frame false next [] []
  | onset {next : Listening setup} (outside : state.inTurn = false)
      (few : state.onset.length + 1 < onsetFrames) (preroll : next.preroll = state.preroll)
      (onset : next.onset = state.onset ++ [frame]) (still : next.inTurn = false)
      (silence : next.silenceMs = state.silenceMs) :
      Advances state frame true next [] []
  | starts {next : Listening setup} (outside : state.inTurn = false)
      (enough : onsetFrames ≤ state.onset.length + 1) (preroll : next.preroll = {})
      (onset : next.onset = []) (begun : next.inTurn = true) (silence : next.silenceMs = 0) :
      Advances state frame true next (state.preroll.items ++ (state.onset ++ [frame])).flatten
        [.speechStart]
  | goes {next : Listening setup} (speech : Bool) (signals : List Signal)
      (inside : state.inTurn = true) (preroll : next.preroll = state.preroll)
      (onset : next.onset = state.onset) (still : next.inTurn = true)
      (silence : next.silenceMs = if speech then 0 else state.silenceMs + setup.frameMs)
      (short : next.silenceMs < setup.config.maxSilenceMs)
      (within : Signal.Within signals) :
      Advances state frame speech next frame signals
  | ends {next : Listening setup} (signals : List Signal) (ending : EndOfTurn)
      (inside : state.inTurn = true) (preroll : next.preroll = state.preroll)
      (onset : next.onset = state.onset) (past : next.inTurn = false)
      (silence : next.silenceMs = 0)
      (within : Signal.Within signals) :
      Advances state frame false next frame (signals ++ [.endOfTurn ending])

variable {state : Listening setup} {frame : List UInt8}

theorem whole_of_free (free : (state.onFrame frame).1.ask = none) :
    setup.reader.whole state frame = ((state.onFrame frame).1, [(state.onFrame frame).2]) := by
  have unblocked : setup.reader.blocked (setup.reader.process state frame).1 = false := by
    change (state.onFrame frame).1.ask.isSome = false
    rw [free]
    rfl
  unfold FrameReader.whole
  dsimp only
  rw [setup.reader.settled_of_unblocked unblocked, setup.reader.awaited_of_unblocked unblocked]
  rfl

theorem whole_of_asked (asked : (state.onFrame frame).1.ask.isSome = true) :
    setup.reader.whole state frame = ((state.onFrame frame).1.settleAsk.1,
      [(state.onFrame frame).2, (state.onFrame frame).1.settleAsk.2]) := by
  have blocked : setup.reader.blocked (setup.reader.process state frame).1 = true := asked
  unfold FrameReader.whole FrameReader.settled FrameReader.awaited
  dsimp only
  rw [if_pos blocked, if_pos blocked]
  rfl

theorem sent_add (frame : List UInt8) {added : TurnUpdate} (silent : added.sttAudio = []) :
    ({ sttAudio := frame } : TurnUpdate).add added =
      { sttAudio := frame, signals := added.signals } := by
  unfold TurnUpdate.add
  rw [silent]
  exact congrArg (TurnUpdate.mk · _ _) (List.append_nil frame)

def silent (state : Listening setup) (frame : List UInt8) : Listening setup :=
  { state with
    turnAudio := state.turnAudio.append frame
    silenceMs := state.silenceMs + setup.frameMs }

theorem onFrameInside_silent (state : Listening setup) (frame : List UInt8) :
    state.onFrameInside frame false =
      if setup.config.maxSilenceMs ≤ state.silenceMs + setup.frameMs then
        ((state.silent frame).endTurn.1,
          { sttAudio := frame, signals := (state.silent frame).endTurn.2.signals })
      else if setup.config.smartTurn ∧ state.nextAskMs ≤ state.silenceMs + setup.frameMs then
        ((state.silent frame).startAsk.1,
          { sttAudio := frame, signals := (state.silent frame).startAsk.2.signals })
      else (state.silent frame, { sttAudio := frame }) := by
  unfold onFrameInside
  rw [if_neg Bool.false_ne_true]
  dsimp only
  split
  · exact congrArg (Prod.mk _) (sent_add frame rfl)
  · split
    · exact congrArg (Prod.mk _) (sent_add frame rfl)
    · rfl

theorem settleAsk_cases (state : Listening setup) :
    (∃ ending, state.settleAsk.2.signals = [.endOfTurn ending] ∧
      state.settleAsk.1.inTurn = false ∧ state.settleAsk.1.silenceMs = 0) ∨
    (state.settleAsk.2.signals = [] ∧ state.settleAsk.1.inTurn = state.inTurn ∧
      state.settleAsk.1.silenceMs = state.silenceMs) := by
  unfold settleAsk
  rcases state.ask with _ | value | _ | _
  · exact Or.inr ⟨rfl, rfl, rfl⟩
  · dsimp only
    split
    · exact Or.inl ⟨_, rfl, rfl, rfl⟩
    · exact Or.inr ⟨rfl, rfl, rfl⟩
  · exact Or.inr ⟨rfl, rfl, rfl⟩
  · exact Or.inr ⟨rfl, rfl, rfl⟩

theorem settleAsk_kept (state : Listening setup) :
    state.settleAsk.1.preroll = state.preroll ∧ state.settleAsk.1.onset = state.onset ∧
      state.settleAsk.1.vad = state.vad := by
  unfold settleAsk
  rcases state.ask with _ | value | _ | _
  · exact ⟨rfl, rfl, rfl⟩
  · dsimp only
    split
    · exact ⟨rfl, rfl, rfl⟩
    · exact ⟨rfl, rfl, rfl⟩
  · exact ⟨rfl, rfl, rfl⟩
  · exact ⟨rfl, rfl, rfl⟩

/-- The step that reads the frame takes, with the answer to a question it asks. -/
def Reads (state : Listening setup) (frame : List UInt8) (speech : Bool) : Prop :=
  state.Advances frame speech (setup.reader.whole state frame).1
    (sentAudio (setup.reader.whole state frame).2) (signalsOf (setup.reader.whole state frame).2)

theorem Reads.of_free {speech : Bool} (free : (state.onFrame frame).1.ask = none)
    (step : state.Advances frame speech (state.onFrame frame).1 (state.onFrame frame).2.sttAudio
      (state.onFrame frame).2.signals) : state.Reads frame speech := by
  unfold Reads
  rw [whole_of_free free, sentAudio_singleton, signalsOf_singleton]
  exact step

theorem Reads.of_asked (inside : state.inTurn = true)
    (asked : (state.onFrame frame).1.ask.isSome = true)
    (preroll : (state.onFrame frame).1.preroll = state.preroll)
    (onset : (state.onFrame frame).1.onset = state.onset)
    (still : (state.onFrame frame).1.inTurn = true)
    (silence : (state.onFrame frame).1.silenceMs = state.silenceMs + setup.frameMs)
    (short : state.silenceMs + setup.frameMs < setup.config.maxSilenceMs)
    (sent : (state.onFrame frame).2.sttAudio = frame)
    (within : Signal.Within (state.onFrame frame).2.signals) : state.Reads frame false := by
  let heard := state.onFrame frame
  obtain ⟨samePreroll, sameOnset, _⟩ := heard.1.settleAsk_kept
  have audio : sentAudio [heard.2, heard.1.settleAsk.2] = frame := by
    change heard.2.sttAudio ++ (heard.1.settleAsk.2.sttAudio ++ []) = frame
    rw [settleAsk_sttAudio, List.append_nil, List.append_nil]
    exact sent
  have signals : signalsOf [heard.2, heard.1.settleAsk.2] =
      heard.2.signals ++ heard.1.settleAsk.2.signals := by
    change heard.2.signals ++ (heard.1.settleAsk.2.signals ++ []) = _
    rw [List.append_nil]
  unfold Reads
  rw [whole_of_asked asked, audio, signals]
  rcases heard.1.settleAsk_cases with ⟨ending, said, ended, none⟩ | ⟨silent, same, sameSilence⟩
  · rw [said]
    exact .ends _ ending inside (samePreroll.trans preroll) (sameOnset.trans onset) ended none
      within
  · rw [silent, List.append_nil]
    refine .goes false _ inside (samePreroll.trans preroll) (sameOnset.trans onset)
      (same.trans still) (sameSilence.trans silence) ?_ within
    rw [sameSilence, silence]
    exact short

def speaks (state : Listening setup) (frame : List UInt8) : Bool :=
  decide (speechThreshold ≤ (setup.vad.speechProbability state.vad (samples frame)).1)

def judged (state : Listening setup) (frame : List UInt8) : Listening setup :=
  { state with vad := (setup.vad.speechProbability state.vad (samples frame)).2 }

section Reading

variable (idle : state.ask = none)
include idle

theorem outside_reads (outside : state.inTurn = false) :
    state.Reads frame (state.speaks frame) := by
  have processed : state.onFrame frame =
      (state.judged frame).onFrameOutside frame (state.speaks frame) :=
    if_neg (by rw [outside]; exact Bool.false_ne_true)
  cases speech : state.speaks frame with
  | false =>
      rw [speech] at processed
      apply Reads.of_free
      · rw [processed]
        exact idle
      · rw [processed]
        exact .quiet outside rfl rfl outside rfl
  | true =>
      rw [speech] at processed
      by_cases few : (state.onset ++ [frame]).length < onsetFrames
      · have waits : state.onFrame frame =
            ({ state.judged frame with onset := state.onset ++ [frame] }, {}) := by
          rw [processed]
          exact if_pos few
        apply Reads.of_free
        · rw [waits]
          exact idle
        · rw [waits]
          exact .onset outside (by simpa using few) rfl rfl outside rfl
      · have starts : state.onFrame frame =
            ({ state.judged frame with
                preroll := {}
                onset := []
                turnAudio := ({} : Deque _ _).extend
                  (state.preroll.items ++ (state.onset ++ [frame]))
                inTurn := true
                turnAsks := 0
                lastProb := none }.resetPause,
              { signals := [.speechStart]
                sttAudio := (state.preroll.items ++ (state.onset ++ [frame])).flatten }) := by
          rw [processed]
          exact if_neg few
        apply Reads.of_free
        · rw [starts]
          exact idle
        · rw [starts]
          exact .starts outside (by simpa using few) rfl rfl rfl rfl

variable (inside : state.inTurn = true)
include inside

theorem spoken_reads (speech : state.speaks frame = true)
    (short : state.silenceMs < setup.config.maxSilenceMs) : state.Reads frame true := by
  have spoken : state.onFrame frame =
      ({ state.judged frame with turnAudio := state.turnAudio.append frame }.resetPause,
        { sttAudio := frame
          signals := if state.paused then [.pauseCancelled] else [] }) := by
    change (if state.inTurn then (state.judged frame).onFrameInside frame (state.speaks frame)
      else _) = _
    rw [if_pos inside, speech]
    exact congrArg (Prod.mk _) (congrArg (TurnUpdate.mk · _ _) (List.append_nil frame))
  apply Reads.of_free
  · rw [spoken]
    exact idle
  · rw [spoken]
    refine .goes true _ inside rfl rfl inside rfl (Nat.zero_lt_of_lt short) ?_
    intro signal member
    change signal ∈ (if state.paused then [Signal.pauseCancelled] else []) at member
    split at member
    · rw [List.mem_singleton.mp member]
      exact ⟨rfl, rfl⟩
    · cases member

theorem silent_reads (noSpeech : state.speaks frame = false) : state.Reads frame false := by
  have processed : state.onFrame frame = (state.judged frame).onFrameInside frame false :=
    noSpeech ▸ if_pos inside
  rw [onFrameInside_silent] at processed
  let silent := (state.judged frame).silent frame
  by_cases long : setup.config.maxSilenceMs ≤ state.silenceMs + setup.frameMs
  · have ends := processed.trans (if_pos long)
    apply Reads.of_free
    · rw [ends]
      exact idle
    · rw [ends]
      refine .ends [] _ inside rfl rfl rfl rfl ?_
      intro signal member
      cases member
  · replace processed := processed.trans (if_neg long)
    have soon : state.silenceMs + setup.frameMs < setup.config.maxSilenceMs := Nat.lt_of_not_le long
    split at processed
    case isTrue asks =>
      have asked : (state.onFrame frame).1 = silent.startAsk.1 := by rw [processed]
      apply Reads.of_asked inside
      · rw [asked]
        rfl
      · rw [asked]
        rfl
      · rw [asked]
        rfl
      · rw [asked]
        exact inside
      · rw [asked]
        rfl
      · exact soon
      · rw [processed]
      · rw [processed]
        intro signal member
        change signal ∈ (if setup.config.speculative && !silent.paused
          then [Signal.pauseStart] else []) at member
        split at member
        · rw [List.mem_singleton.mp member]
          exact ⟨rfl, rfl⟩
        · cases member
    case isFalse =>
      apply Reads.of_free
      · rw [processed]
        exact idle
      · rw [processed]
        refine .goes false [] inside rfl rfl inside rfl soon ?_
        intro signal member
        cases member

end Reading

theorem whole_advances (idle : state.ask = none)
    (short : state.silenceMs < setup.config.maxSilenceMs) :
    state.Reads frame (state.speaks frame) := by
  cases inTurn : state.inTurn with
  | false => exact outside_reads idle inTurn
  | true =>
      cases speech : state.speaks frame with
      | true => exact spoken_reads idle inTurn speech short
      | false => exact silent_reads idle inTurn speech

theorem whole_idle : (setup.reader.whole state frame).1.ask = none := by
  have free := setup.reader.unblocked_settled (setup.reader.process state frame).1
  change (setup.reader.whole state frame).1.ask.isSome = false at free
  simpa using free

theorem onFrame_vad : (state.onFrame frame).1.vad =
    (setup.vad.speechProbability state.vad (samples frame)).2 := by
  unfold onFrame onFrameInside onFrameOutside
  dsimp only
  split
  · split
    · rfl
    · split
      · rfl
      · split <;> rfl
  · split
    · split <;> rfl
    · rfl

theorem whole_vad : (setup.reader.whole state frame).1.vad =
    (setup.vad.speechProbability state.vad (samples frame)).2 := by
  cases asked : (state.onFrame frame).1.ask with
  | none => rw [whole_of_free asked, onFrame_vad]
  | some answer =>
      rw [whole_of_asked (by rw [asked]; rfl), ← onFrame_vad]
      exact (state.onFrame frame).1.settleAsk_kept.2.2

end Listening

/-! ### Stretches of frames -/

section Stretches

variable {setup : DetectorSetup} (audio : List UInt8)

theorem stretch_succ {start stop : Nat} (within : start ≤ stop) :
    setup.stretch audio start (stop + 1) =
      setup.stretch audio start stop ++ setup.frame audio stop := by
  unfold DetectorSetup.stretch DetectorSetup.frame
  rw [Nat.succ_sub within, Nat.succ_mul, List.take_add, List.drop_drop, ← Nat.add_mul,
    Nat.add_sub_cancel' within]

theorem flatten_frames (start length : Nat) :
    ((List.range' start length).map (setup.frame audio)).flatten =
      setup.stretch audio start (start + length) := by
  induction length with
  | zero =>
      unfold DetectorSetup.stretch
      rw [Nat.add_zero, Nat.sub_self, Nat.zero_mul]
      rfl
  | succ length ih =>
      rw [List.range'_1_concat, List.map_append, List.flatten_append, ih, ← Nat.add_assoc,
        stretch_succ audio (Nat.le_add_right _ _)]
      exact congrArg _ (List.append_nil _)

def DetectorSetup.framesUpTo (setup : DetectorSetup) (audio : List UInt8) (count : Nat) :
    List (List UInt8) :=
  (List.range count).map (setup.frame audio)

theorem framesUpTo_succ (count : Nat) : setup.framesUpTo audio (count + 1) =
    setup.framesUpTo audio count ++ [setup.frame audio count] := by
  unfold DetectorSetup.framesUpTo
  rw [List.range_succ, List.map_append]
  rfl

theorem flatten_suffix {frames : List (List UInt8)} {count : Nat}
    (last : frames <:+ setup.framesUpTo audio count) :
    frames.flatten = setup.stretch audio (count - frames.length) count := by
  have length := last.length_le
  have all : (setup.framesUpTo audio count).length = count := by
    rw [DetectorSetup.framesUpTo, List.length_map, List.length_range]
  rw [all] at length
  have same : frames =
      (List.range' (count - frames.length) frames.length).map (setup.frame audio) := by
    rw [List.suffix_iff_eq_drop.mp last, all, List.length_drop, all]
    unfold DetectorSetup.framesUpTo
    rw [← List.map_drop, List.range_eq_range', List.drop_range']
    congr 2
    · omega
  conv_lhs => rw [same]
  rw [flatten_frames, Nat.sub_add_cancel length]

end Stretches

namespace Deque

variable {A : Type} {maxlen : Nat}

theorem append_suffix (deque : Deque A maxlen) (item : A) :
    (deque.append item).items <:+ deque.items ++ [item] :=
  List.drop_suffix _ _

theorem extend_suffix (deque : Deque A maxlen) (items : List A) :
    (deque.extend items).items <:+ deque.items ++ items := by
  induction items generalizing deque with
  | nil =>
      rw [List.append_nil]
      exact List.suffix_refl _
  | cons item rest ih =>
      have first := append_suffix deque item
      obtain ⟨dropped, same⟩ := first
      refine (ih (deque.append item)).trans ⟨dropped, ?_⟩
      rw [← List.append_assoc, same, List.append_assoc]
      rfl

end Deque

/-! ### Turns -/

/-- A turn whose audio begins with frame `start` and goes up to frame `stop`. -/
structure SpokenTurn where
  start : Nat
  onset : Nat
  stop : Nat
  ended : Bool := false
  deriving DecidableEq

structure SpokenTurn.Within (setup : DetectorSetup) (audio : List UInt8) (turn : SpokenTurn) :
    Prop where
  preroll : turn.start ≤ turn.onset ∧ turn.onset ≤ turn.start + setup.prerollFrames
  onset : turn.onset + onsetFrames ≤ turn.stop
  spoken : ∀ index, turn.onset ≤ index → index < turn.onset + onsetFrames →
    setup.isSpeech audio index = true

structure SpokenTurn.SilentSince (setup : DetectorSetup) (audio : List UInt8) (turn : SpokenTurn)
    (last : Nat) : Prop where
  inside : turn.onset < last ∧ last < turn.stop
  speech : setup.isSpeech audio last = true
  silence : ∀ index, last < index → index < turn.stop → setup.isSpeech audio index = false

/-- The silence had not lasted its maximum before the frame in which the turn ended, or has not
so far. -/
def SpokenTurn.Timely (setup : DetectorSetup) (audio : List UInt8) (turn : SpokenTurn) : Prop :=
  ∃ last, turn.SilentSince setup audio last ∧
    (turn.stop - (last + 1) - turn.ended.toNat) * setup.frameMs < setup.config.maxSilenceMs

/-- The turns that the first `count` frames make, by their signals. -/
structure DetectorSetup.Turns (setup : DetectorSetup) (audio : List UInt8) (count : Nat)
    (turns : List SpokenTurn) : Prop where
  apart : turns.Pairwise (fun earlier later => earlier.stop ≤ later.start)
  within : ∀ turn ∈ turns, turn.Within setup audio
  closed : ∀ turn ∈ turns, turn.stop ≤ count ∧ (turn.ended = false → turn.stop = count)
  starts : setup.framesWith audio Signal.isStart count =
    turns.map (fun turn => turn.onset + 1)
  ends : setup.framesWith audio Signal.isEnd count =
    (turns.filter SpokenTurn.ended).map (fun turn => turn.stop - 1)

/-! ### The course of the frames -/

structure Listening.Between {setup : DetectorSetup} (state : Listening setup)
    (audio : List UInt8) (count : Nat) (turns : List SpokenTurn) : Prop where
  ended : ∀ turn ∈ turns, turn.ended = true
  held : state.preroll.items ++ state.onset <:+ setup.framesUpTo audio count
  since : ∀ turn ∈ turns, turn.stop + (state.preroll.items ++ state.onset).length ≤ count
  few : state.onset.length < onsetFrames
  spoken : ∀ index, count - state.onset.length ≤ index → index < count →
    setup.isSpeech audio index = true

/-- Inside a turn: nothing is held back, and the silence is that since the last speech. -/
structure Listening.Speaking {setup : DetectorSetup} (state : Listening setup)
    (audio : List UInt8) (earlier : List SpokenTurn) (turn : SpokenTurn) : Prop where
  ended : ∀ other ∈ earlier, other.ended = true
  going : turn.ended = false
  preroll : state.preroll.items = []
  onset : state.onset = []
  silence : ∃ last, turn.SilentSince setup audio last ∧
    state.silenceMs = (turn.stop - (last + 1)) * setup.frameMs

structure DetectorSetup.Course (setup : DetectorSetup) (audio : List UInt8) (count : Nat)
    (state : Listening setup) (turns : List SpokenTurn) : Prop where
  made : setup.Turns audio count turns
  timely : ∀ turn ∈ turns, turn.Timely setup audio
  sent : sentAudio (setup.emissions audio count) =
    turns.flatMap (fun turn => setup.stretch audio turn.start turn.stop)
  vad : state.vad = setup.vadAfter audio count
  idle : state.ask = none
  short : state.silenceMs < setup.config.maxSilenceMs
  outside : state.inTurn = false → state.Between audio count turns
  inside : state.inTurn = true → ∃ earlier turn, turns = earlier ++ [turn] ∧
    state.Speaking audio earlier turn

section Course

variable {setup : DetectorSetup} {audio : List UInt8} {count : Nat}

theorem framesWith_succ (kind : Signal → Bool) :
    setup.framesWith audio kind (count + 1) = setup.framesWith audio kind count ++
      ((setup.signalsAt audio count).filter kind).map (fun _ => count) := by
  unfold DetectorSetup.framesWith
  rw [List.range_succ, List.flatMap_append, List.flatMap_singleton]

theorem emissions_succ : setup.emissions audio (count + 1) = setup.emissions audio count ++
    (setup.reader.whole (setup.reader.after {} audio count) (setup.frame audio count)).2 := by
  unfold DetectorSetup.emissions
  rw [setup.reader.trace_succ, List.flatten_append, List.flatten_singleton]
  rfl

theorem DetectorSetup.Turns.quiet {turns : List SpokenTurn} (made : setup.Turns audio count turns)
    (ended : ∀ turn ∈ turns, turn.ended = true) (silent : setup.signalsAt audio count = []) :
    setup.Turns audio (count + 1) turns where
  apart := made.apart
  within := made.within
  closed := by
    intro turn member
    refine ⟨Nat.le_succ_of_le (made.closed turn member).1, ?_⟩
    intro going
    rw [ended turn member] at going
    cases going
  starts := by
    rw [framesWith_succ, silent, made.starts]
    exact List.append_nil _
  ends := by
    rw [framesWith_succ, silent, made.ends]
    exact List.append_nil _

theorem DetectorSetup.Turns.start {turns : List SpokenTurn} {turn : SpokenTurn}
    (made : setup.Turns audio count turns) (ended : ∀ earlier ∈ turns, earlier.ended = true)
    (within : turn.Within setup audio) (later : ∀ earlier ∈ turns, earlier.stop ≤ turn.start)
    (stop : turn.stop = count + 1) (going : turn.ended = false) (onset : turn.onset + 1 = count)
    (started : setup.signalsAt audio count = [.speechStart]) :
    setup.Turns audio (count + 1) (turns ++ [turn]) where
  apart := by
    rw [List.pairwise_append]
    refine ⟨made.apart, List.pairwise_singleton _ _, ?_⟩
    intro earlier member other last
    rw [List.mem_singleton.mp last]
    exact later earlier member
  within := by
    intro other member
    rcases List.mem_append.mp member with old | new
    · exact made.within other old
    · rw [List.mem_singleton.mp new]
      exact within
  closed := by
    intro other member
    rcases List.mem_append.mp member with old | new
    · refine ⟨Nat.le_succ_of_le (made.closed other old).1, ?_⟩
      intro open_
      rw [ended other old] at open_
      cases open_
    · rw [List.mem_singleton.mp new]
      exact ⟨Nat.le_of_eq stop, fun _ => stop⟩
  starts := by
    rw [framesWith_succ, started, made.starts, List.map_append]
    exact congrArg (fun last => turns.map (fun turn => turn.onset + 1) ++ [last]) onset.symm
  ends := by
    rw [framesWith_succ, started, made.ends, List.filter_append]
    simp [Signal.isEnd, going]

theorem DetectorSetup.Turns.extend {earlier : List SpokenTurn} {turn : SpokenTurn}
    (made : setup.Turns audio count (earlier ++ [turn]))
    (ended : ∀ other ∈ earlier, other.ended = true) (going : turn.ended = false) (past : Bool)
    (silent : (setup.signalsAt audio count).filter Signal.isStart = [])
    (ending : ((setup.signalsAt audio count).filter Signal.isEnd).map (fun _ => count) =
      if past then [count] else []) :
    setup.Turns audio (count + 1)
      (earlier ++ [{ turn with stop := count + 1, ended := past }]) where
  apart := by
    have apart := List.pairwise_append.mp made.apart
    rw [List.pairwise_append]
    refine ⟨apart.1, List.pairwise_singleton _ _, ?_⟩
    intro other member last same
    rw [List.mem_singleton.mp same]
    exact apart.2.2 other member turn (List.mem_singleton_self turn)
  within := by
    intro other member
    rcases List.mem_append.mp member with old | new
    · exact made.within other (List.mem_append_left _ old)
    · rw [List.mem_singleton.mp new]
      have last : turn ∈ earlier ++ [turn] :=
        List.mem_append_right _ (List.mem_singleton_self turn)
      have inside := made.within turn last
      have before := (made.closed turn last).1
      exact
        { preroll := inside.preroll
          onset := inside.onset.trans (Nat.le_succ_of_le before)
          spoken := inside.spoken }
  closed := by
    intro other member
    rcases List.mem_append.mp member with old | new
    · refine ⟨Nat.le_succ_of_le (made.closed other (List.mem_append_left _ old)).1, ?_⟩
      intro open_
      rw [ended other old] at open_
      cases open_
    · rw [List.mem_singleton.mp new]
      exact ⟨Nat.le_refl _, fun _ => rfl⟩
  starts := by
    rw [framesWith_succ, silent, made.starts, List.map_append, List.map_append]
    exact List.append_nil _
  ends := by
    rw [framesWith_succ, ending, made.ends, List.filter_append, List.filter_append,
      List.filter_singleton, List.filter_singleton, going]
    cases past with
    | false => simp
    | true => simp

theorem DetectorSetup.Course.initial : setup.Course audio 0 {} [] where
  made :=
    { apart := List.Pairwise.nil
      within := by intro turn member; cases member
      closed := by intro turn member; cases member
      starts := rfl
      ends := rfl }
  timely := by intro turn member; cases member
  sent := rfl
  vad := rfl
  idle := rfl
  short := Nat.lt_of_lt_of_le (show 0 < 200 by decide) setup.config.maxSilenceMs_range.1
  outside := fun _ =>
    { ended := by intro turn member; cases member
      held := List.nil_suffix
      since := by intro turn member; cases member
      few := show 0 < onsetFrames by decide
      spoken := by intro index above below; exact absurd below (Nat.not_lt_zero _) }
  inside := by intro inTurn; cases inTurn

variable {state next : Listening setup} {turns : List SpokenTurn}

/-- What frame `count` adds to the turns before it, and the detector that it leaves. -/
structure DetectorSetup.Adds (setup : DetectorSetup) (audio : List UInt8) (count : Nat)
    (turns : List SpokenTurn) (next : Listening setup) (sent : List UInt8)
    (signals : List Signal) : Prop where
  signals : setup.signalsAt audio count = signals
  sent : sentAudio (setup.emissions audio (count + 1)) =
    turns.flatMap (fun turn => setup.stretch audio turn.start turn.stop) ++ sent
  idle : next.ask = none
  vad : next.vad = setup.vadAfter audio (count + 1)

theorem DetectorSetup.Course.adds (course : setup.Course audio count state turns)
    (reached : state = setup.reader.after {} audio count) :
    let whole := setup.reader.whole state (setup.frame audio count)
    setup.Adds audio count turns whole.1 (sentAudio whole.2) (signalsOf whole.2) where
  signals := by
    unfold DetectorSetup.signalsAt
    rw [← reached]
  sent := by rw [emissions_succ, sentAudio_append, course.sent, reached]
  idle := Listening.whole_idle
  vad := by
    rw [Listening.whole_vad, course.vad]
    rfl

theorem suffix_snoc {A : Type} {items all : List A} (last : items <:+ all) (item : A) :
    items ++ [item] <:+ all ++ [item] := by
  obtain ⟨before, rfl⟩ := last
  exact ⟨before, (List.append_assoc _ _ _).symm⟩

section

variable (between : state.Between audio count turns)
include between

theorem Listening.Between.quiet
    (preroll : next.preroll = (state.preroll.extend state.onset).append (setup.frame audio count))
    (onset : next.onset = []) : next.Between audio (count + 1) turns := by
  have last : next.preroll.items <:+
      state.preroll.items ++ state.onset ++ [setup.frame audio count] := by
    rw [preroll]
    exact (Deque.append_suffix _ _).trans (suffix_snoc (Deque.extend_suffix _ _) _)
  have length := last.length_le
  rw [List.length_append, List.length_singleton] at length
  refine
    { ended := between.ended
      held := ?_
      since := ?_
      few := ?_
      spoken := ?_ }
  · rw [onset, List.append_nil, framesUpTo_succ]
    exact last.trans (suffix_snoc between.held _)
  · intro turn member
    have since := between.since turn member
    rw [onset, List.append_nil]
    omega
  · rw [onset]
    exact show 0 < onsetFrames by decide
  · intro index above below
    rw [onset, List.length_nil] at above
    omega

theorem Listening.Between.onset (few : state.onset.length + 1 < onsetFrames)
    (preroll : next.preroll = state.preroll)
    (onset : next.onset = state.onset ++ [setup.frame audio count])
    (speech : setup.isSpeech audio count = true) : next.Between audio (count + 1) turns := by
  have held : next.preroll.items ++ next.onset =
      state.preroll.items ++ state.onset ++ [setup.frame audio count] := by
    rw [preroll, onset, List.append_assoc]
  refine
    { ended := between.ended
      held := ?_
      since := ?_
      few := ?_
      spoken := ?_ }
  · rw [held, framesUpTo_succ]
    exact suffix_snoc between.held _
  · intro turn member
    have since := between.since turn member
    rw [held, List.length_append, List.length_singleton]
    omega
  · rw [onset, List.length_append]
    exact few
  · intro index above below
    rw [onset, List.length_append, List.length_singleton] at above
    rcases Nat.lt_succ_iff_lt_or_eq.mp below with earlier | same
    · exact between.spoken index (by omega) earlier
    · rw [same]
      exact speech

def Listening.startedTurn (state : Listening setup) (count : Nat) : SpokenTurn where
  start := count - (state.preroll.items ++ state.onset).length
  onset := count - state.onset.length
  stop := count + 1

theorem Listening.Between.held_le : state.preroll.items.length + state.onset.length ≤ count := by
  have length := between.held.length_le
  rw [DetectorSetup.framesUpTo, List.length_map, List.length_range, List.length_append] at length
  exact length

theorem Listening.Between.onset_length (enough : onsetFrames ≤ state.onset.length + 1) :
    state.onset.length + 1 = onsetFrames := by
  have few := between.few
  omega

theorem Listening.Between.started_within (enough : onsetFrames ≤ state.onset.length + 1)
    (speech : setup.isSpeech audio count = true) :
    (state.startedTurn count).Within setup audio := by
  have length := between.held_le
  have exactly := between.onset_length enough
  have ring := state.preroll.bounded
  refine { preroll := ⟨?_, ?_⟩, onset := ?_, spoken := ?_ }
  · change count - (state.preroll.items ++ state.onset).length ≤ count - state.onset.length
    rw [List.length_append]
    omega
  · change count - state.onset.length ≤
      count - (state.preroll.items ++ state.onset).length + setup.prerollFrames
    rw [List.length_append]
    omega
  · change count - state.onset.length + onsetFrames ≤ count + 1
    omega
  · intro index above below
    change count - state.onset.length ≤ index at above
    change index < count - state.onset.length + onsetFrames at below
    rcases Nat.lt_succ_iff_lt_or_eq.mp (show index < count + 1 by omega) with earlier | same
    · exact between.spoken index above earlier
    · rw [same]
      exact speech

theorem Listening.Between.started_sent :
    (state.preroll.items ++ (state.onset ++ [setup.frame audio count])).flatten =
      setup.stretch audio (state.startedTurn count).start (state.startedTurn count).stop := by
  have length := between.held_le
  rw [← List.append_assoc, List.flatten_append, List.flatten_singleton,
    flatten_suffix audio between.held]
  exact (stretch_succ audio (Nat.sub_le _ _)).symm

theorem Listening.Between.started_silence (enough : onsetFrames ≤ state.onset.length + 1)
    (speech : setup.isSpeech audio count = true) :
    (state.startedTurn count).SilentSince setup audio count where
  inside := by
    have length := between.held_le
    have exactly := between.onset_length enough
    have two : onsetFrames = 2 := rfl
    change count - state.onset.length < count ∧ count < count + 1
    omega
  speech := speech
  silence := by
    intro index above below
    change index < count + 1 at below
    omega

end

theorem DetectorSetup.Course.start (course : setup.Course audio count state turns)
    (outside : state.inTurn = false) (enough : onsetFrames ≤ state.onset.length + 1)
    (speech : setup.isSpeech audio count = true)
    (adds : setup.Adds audio count turns next
      (state.preroll.items ++ (state.onset ++ [setup.frame audio count])).flatten [.speechStart])
    (preroll : next.preroll = {}) (onset : next.onset = []) (begun : next.inTurn = true)
    (silence : next.silenceMs = 0) :
    setup.Course audio (count + 1) next (turns ++ [state.startedTurn count]) := by
  have between := course.outside outside
  have length := between.held_le
  have exactly := between.onset_length enough
  have two : onsetFrames = 2 := rfl
  have quiet := between.started_silence enough speech
  have none_silent : (state.startedTurn count).stop - (count + 1) = 0 := Nat.sub_self _
  have short : 0 < setup.config.maxSilenceMs :=
    Nat.lt_of_lt_of_le (show 0 < 200 by decide) setup.config.maxSilenceMs_range.1
  refine
    { made := ?_
      timely := ?_
      sent := ?_
      vad := adds.vad
      idle := adds.idle
      short := by rw [silence]; exact short
      outside := by intro past; rw [begun] at past; cases past
      inside := ?_ }
  · refine course.made.start between.ended (between.started_within enough speech) ?_ rfl rfl ?_
      adds.signals
    · intro earlier member
      have since := between.since earlier member
      change earlier.stop ≤ count - (state.preroll.items ++ state.onset).length
      omega
    · change count - state.onset.length + 1 = count
      omega
  · intro turn member
    rcases List.mem_append.mp member with old | new
    · exact course.timely turn old
    · rw [List.mem_singleton.mp new]
      refine ⟨count, quiet, ?_⟩
      rw [none_silent, Nat.zero_sub, Nat.zero_mul]
      exact short
  · rw [adds.sent, between.started_sent, List.flatMap_append, List.flatMap_singleton]
  · intro _
    refine ⟨turns, state.startedTurn count, rfl, ?_⟩
    exact
      { ended := between.ended
        going := rfl
        preroll := by rw [preroll]
        onset := onset
        silence := ⟨count, quiet, by rw [silence, none_silent, Nat.zero_mul]⟩ }

theorem SpokenTurn.SilentSince.extended {turn : SpokenTurn} {last : Nat}
    (since : turn.SilentSince setup audio last) (stop : turn.stop = count) (past : Bool) :
    ({ turn with stop := count + 1, ended := past } : SpokenTurn).SilentSince setup audio
      (if setup.isSpeech audio count then count else last) := by
  have inside := since.inside
  cases speech : setup.isSpeech audio count with
  | true =>
      rw [if_pos rfl]
      refine { inside := ⟨?_, Nat.lt_succ_self _⟩, speech := speech, silence := ?_ }
      · change turn.onset < count
        omega
      · intro index above below
        change index < count + 1 at below
        omega
  | false =>
      rw [if_neg Bool.false_ne_true]
      refine { inside := ⟨inside.1, ?_⟩, speech := since.speech, silence := ?_ }
      · change last < count + 1
        omega
      · intro index above below
        change index < count + 1 at below
        rcases Nat.lt_succ_iff_lt_or_eq.mp below with before | same
        · exact since.silence index above (by omega)
        · rw [same]
          exact speech

theorem DetectorSetup.Course.extend {earlier : List SpokenTurn} {turn : SpokenTurn}
    {said : List Signal} (course : setup.Course audio count state (earlier ++ [turn]))
    (speaking : state.Speaking audio earlier turn) (past : Bool)
    (adds : setup.Adds audio count (earlier ++ [turn]) next (setup.frame audio count) said)
    (silent : said.filter Signal.isStart = [])
    (ending : (said.filter Signal.isEnd).map (fun _ => count) = if past then [count] else [])
    (timely : ({ turn with stop := count + 1, ended := past } : SpokenTurn).Timely setup audio)
    (short : next.silenceMs < setup.config.maxSilenceMs)
    (outside : next.inTurn = false → next.Between audio (count + 1)
      (earlier ++ [{ turn with stop := count + 1, ended := past }]))
    (inside : next.inTurn = true → next.Speaking audio earlier
      { turn with stop := count + 1, ended := past }) :
    setup.Course audio (count + 1) next
      (earlier ++ [{ turn with stop := count + 1, ended := past }]) := by
  have last : turn ∈ earlier ++ [turn] :=
    List.mem_append_right _ (List.mem_singleton_self turn)
  have stop := (course.made.closed turn last).2 speaking.going
  have within := course.made.within turn last
  have started : turn.start ≤ count := by
    have first := within.preroll.1
    have onset := within.onset
    omega
  rw [← adds.signals] at silent ending
  refine
    { made := course.made.extend speaking.ended speaking.going past silent ending
      timely := ?_
      sent := ?_
      vad := adds.vad
      idle := adds.idle
      short := short
      outside := outside
      inside := fun goes => ⟨earlier, _, rfl, inside goes⟩ }
  · intro other member
    rcases List.mem_append.mp member with old | new
    · exact course.timely other (List.mem_append_left _ old)
    · rw [List.mem_singleton.mp new]
      exact timely
  · rw [adds.sent, List.flatMap_append, List.flatMap_append, List.flatMap_singleton,
      List.flatMap_singleton, List.append_assoc, stop]
    exact congrArg _ (stretch_succ audio started).symm

theorem DetectorSetup.Course.still (course : setup.Course audio count state turns)
    (adds : setup.Adds audio count turns next [] []) (outside : state.inTurn = false)
    (still : next.inTurn = false) (silence : next.silenceMs = state.silenceMs)
    (between : next.Between audio (count + 1) turns) :
    setup.Course audio (count + 1) next turns where
  made := course.made.quiet (course.outside outside).ended adds.signals
  timely := course.timely
  sent := adds.sent.trans (List.append_nil _)
  vad := adds.vad
  idle := adds.idle
  short := silence ▸ course.short
  outside := fun _ => between
  inside := by
    intro inTurn
    rw [still] at inTurn
    cases inTurn

theorem Signal.Within.starts {signals : List Signal} (within : Signal.Within signals) :
    signals.filter Signal.isStart = [] := by
  rw [List.filter_eq_nil_iff]
  intro signal member
  rw [(within signal member).1]
  exact Bool.false_ne_true

theorem Signal.Within.ends {signals : List Signal} (within : Signal.Within signals) :
    signals.filter Signal.isEnd = [] := by
  rw [List.filter_eq_nil_iff]
  intro signal member
  rw [(within signal member).2]
  exact Bool.false_ne_true

section Inside

variable {earlier : List SpokenTurn} {turn : SpokenTurn} {said : List Signal}
variable (course : setup.Course audio count state (earlier ++ [turn]))
  (speaking : state.Speaking audio earlier turn)
include course speaking

/-- The silence counts the frames since the last speech, this one included. -/
theorem Listening.Speaking.silence_succ
    (silence : next.silenceMs =
      if setup.isSpeech audio count then 0 else state.silenceMs + setup.frameMs) :
    ∃ last, ({ turn with stop := count + 1 } : SpokenTurn).SilentSince setup audio last ∧
      next.silenceMs = (count + 1 - (last + 1)) * setup.frameMs := by
  obtain ⟨last, since, lasted⟩ := speaking.silence
  have stop := (course.made.closed turn (by simp)).2 speaking.going
  refine ⟨_, since.extended stop turn.ended, ?_⟩
  have before := since.inside.2
  rw [silence, lasted, stop]
  cases setup.isSpeech audio count with
  | true => rw [if_pos rfl, if_pos rfl, Nat.sub_self, Nat.zero_mul]
  | false =>
      rw [if_neg Bool.false_ne_true, if_neg Bool.false_ne_true, ← Nat.succ_mul]
      congr 1
      omega

theorem DetectorSetup.Course.goes
    (adds : setup.Adds audio count (earlier ++ [turn]) next (setup.frame audio count) said)
    (preroll : next.preroll = state.preroll) (onset : next.onset = state.onset)
    (still : next.inTurn = true)
    (silence : next.silenceMs =
      if setup.isSpeech audio count then 0 else state.silenceMs + setup.frameMs)
    (short : next.silenceMs < setup.config.maxSilenceMs) (within : Signal.Within said) :
    setup.Course audio (count + 1) next (earlier ++ [{ turn with stop := count + 1 }]) := by
  obtain ⟨last, further, counted⟩ := speaking.silence_succ course silence
  have going := speaking.going
  obtain ⟨start, first, stop, ended⟩ := turn
  subst going
  refine course.extend speaking false adds within.starts ?_ ⟨_, further, counted ▸ short⟩ short
    ?_ ?_
  · rw [within.ends]
    rfl
  · intro past
    rw [still] at past
    cases past
  · intro _
    exact
      { ended := speaking.ended
        going := rfl
        preroll := by rw [preroll, speaking.preroll]
        onset := by rw [onset, speaking.onset]
        silence := ⟨_, further, counted⟩ }

theorem DetectorSetup.Course.ends {ending : EndOfTurn}
    (adds : setup.Adds audio count (earlier ++ [turn]) next (setup.frame audio count)
      (said ++ [.endOfTurn ending]))
    (speech : setup.isSpeech audio count = false) (preroll : next.preroll = state.preroll)
    (onset : next.onset = state.onset) (past : next.inTurn = false)
    (silence : next.silenceMs = 0) (within : Signal.Within said) :
    setup.Course audio (count + 1) next
      (earlier ++ [{ turn with stop := count + 1, ended := true }]) := by
  obtain ⟨last, since, lasted⟩ := speaking.silence
  have stop := (course.made.closed turn (by simp)).2 speaking.going
  have further := since.extended stop true
  rw [speech, if_neg Bool.false_ne_true] at further
  have none : 0 < setup.config.maxSilenceMs :=
    Nat.lt_of_lt_of_le (show 0 < 200 by decide) setup.config.maxSilenceMs_range.1
  refine course.extend speaking true adds ?_ ?_ ⟨last, further, ?_⟩ (silence ▸ none) ?_ ?_
  · rw [List.filter_append, within.starts]
    rfl
  · rw [List.filter_append, within.ends]
    rfl
  · have short := course.short
    rw [lasted, stop] at short
    change (count + 1 - (last + 1) - 1) * setup.frameMs < setup.config.maxSilenceMs
    have same : count + 1 - (last + 1) - 1 = count - (last + 1) := by omega
    rw [same]
    exact short
  · intro _
    refine
      { ended := ?_
        held := ?_
        since := ?_
        few := ?_
        spoken := ?_ }
    · intro other member
      rcases List.mem_append.mp member with old | new
      · exact speaking.ended other old
      · rw [List.mem_singleton.mp new]
    · rw [preroll, onset, speaking.preroll, speaking.onset]
      exact List.nil_suffix
    · intro other member
      rw [preroll, onset, speaking.preroll, speaking.onset]
      rcases List.mem_append.mp member with old | new
      · exact Nat.le_succ_of_le (course.made.closed other (List.mem_append_left _ old)).1
      · rw [List.mem_singleton.mp new]
        exact Nat.le_refl _
    · rw [onset, speaking.onset]
      exact show 0 < onsetFrames by decide
    · intro index above below
      rw [onset, speaking.onset, List.length_nil] at above
      omega
  · intro still
    rw [past] at still
    cases still

end Inside

theorem DetectorSetup.Course.step (course : setup.Course audio count state turns)
    (reached : state = setup.reader.after {} audio count) :
    ∃ turns, setup.Course audio (count + 1)
      (setup.reader.whole state (setup.frame audio count)).1 turns := by
  let whole := setup.reader.whole state (setup.frame audio count)
  have adds : setup.Adds audio count turns whole.1 (sentAudio whole.2) (signalsOf whole.2) :=
    course.adds reached
  have advance : state.Advances (setup.frame audio count) _ whole.1 (sentAudio whole.2)
      (signalsOf whole.2) := Listening.whole_advances course.idle course.short
  rw [Listening.speaks, course.vad] at advance
  change state.Advances (setup.frame audio count) (setup.isSpeech audio count) whole.1
    (sentAudio whole.2) (signalsOf whole.2) at advance
  change ∃ turns, setup.Course audio (count + 1) whole.1 turns
  generalize speech : setup.isSpeech audio count = spoken at advance
  generalize sentAudio whole.2 = sent at adds advance
  generalize signalsOf whole.2 = said at adds advance
  generalize whole.1 = next at adds advance ⊢
  cases advance with
  | quiet outside preroll onset still silence =>
      exact ⟨turns, course.still adds outside still silence
        ((course.outside outside).quiet preroll onset)⟩
  | onset outside few preroll onset still silence =>
      exact ⟨turns, course.still adds outside still silence
        ((course.outside outside).onset few preroll onset speech)⟩
  | starts outside enough preroll onset begun silence =>
      exact ⟨_, course.start outside enough speech adds preroll onset begun silence⟩
  | goes _ _ inside preroll onset still silence short within =>
      obtain ⟨earlier, turn, rfl, speaking⟩ := course.inside inside
      rw [← speech] at silence
      exact ⟨_, course.goes speaking adds preroll onset still silence short within⟩
  | ends saidBefore ending inside preroll onset past silence within =>
      obtain ⟨earlier, turn, rfl, speaking⟩ := course.inside inside
      exact ⟨_, course.ends speaking adds speech preroll onset past silence within⟩

theorem DetectorSetup.course (setup : DetectorSetup) (audio : List UInt8) (count : Nat) :
    ∃ turns, setup.Course audio count (setup.reader.after {} audio count) turns := by
  induction count with
  | zero => exact ⟨[], .initial⟩
  | succ count ih =>
      obtain ⟨turns, course⟩ := ih
      rw [setup.reader.after_succ]
      exact course.step rfl

end Course

/-! ### The signals of a turn -/

structure TurnSignals where
  cancelled : Nat
  paused : Bool
  ending : EndOfTurn

def TurnSignals.signals (turn : TurnSignals) : List Signal :=
  .speechStart ::
    ((List.replicate turn.cancelled [.pauseStart, .pauseCancelled]).flatten ++
      ((if turn.paused then [.pauseStart] else []) ++ [.endOfTurn turn.ending]))

def openSignals (cancelled : Nat) : List Signal :=
  .speechStart :: (List.replicate cancelled [.pauseStart, .pauseCancelled]).flatten

def WellFormed (signals : List Signal) : Prop :=
  ∃ turns : List TurnSignals, signals <+: turns.flatMap TurnSignals.signals

theorem openSignals_succ (cancelled : Nat) :
    openSignals (cancelled + 1) = openSignals cancelled ++ [.pauseStart, .pauseCancelled] := by
  unfold openSignals
  rw [List.replicate_succ', List.flatten_append, List.flatten_singleton, List.cons_append]

def DetectorPhase.Reached (signals : List Signal) : DetectorPhase → Prop
  | .idle => ∃ turns : List TurnSignals, signals = turns.flatMap TurnSignals.signals
  | .speaking => ∃ (turns : List TurnSignals) (cancelled : Nat),
      signals = turns.flatMap TurnSignals.signals ++ openSignals cancelled
  | .paused => ∃ (turns : List TurnSignals) (cancelled : Nat),
      signals = turns.flatMap TurnSignals.signals ++ (openSignals cancelled ++ [.pauseStart])

theorem DetectorPhase.Reached.hear {signals : List Signal} {phase next : DetectorPhase}
    {signal : Signal} (reached : phase.Reached signals) (heard : phase.hear signal = some next) :
    next.Reached (signals ++ [signal]) := by
  cases phase with
  | idle =>
      obtain ⟨turns, rfl⟩ := reached
      cases signal <;> cases heard
      exact ⟨turns, 0, rfl⟩
  | speaking =>
      obtain ⟨turns, cancelled, rfl⟩ := reached
      cases signal with
      | speechStart => cases heard
      | pauseCancelled => cases heard
      | pauseStart =>
          cases heard
          exact ⟨turns, cancelled, by rw [List.append_assoc]⟩
      | endOfTurn ending =>
          cases heard
          refine ⟨turns ++ [{ cancelled := cancelled, paused := false, ending := ending }], ?_⟩
          rw [List.flatMap_append, List.flatMap_singleton, List.append_assoc]
          rfl
  | paused =>
      obtain ⟨turns, cancelled, rfl⟩ := reached
      cases signal with
      | speechStart => cases heard
      | pauseStart => cases heard
      | pauseCancelled =>
          cases heard
          refine ⟨turns, cancelled + 1, ?_⟩
          rw [openSignals_succ, List.append_assoc, List.append_assoc]
          rfl
      | endOfTurn ending =>
          cases heard
          refine ⟨turns ++ [{ cancelled := cancelled, paused := true, ending := ending }], ?_⟩
          rw [List.flatMap_append, List.flatMap_singleton, List.append_assoc, List.append_assoc]
          rfl

theorem reached_of_foldlM {signals : List Signal} {phase : DetectorPhase}
    (led : signals.foldlM DetectorPhase.hear .idle = some phase) : phase.Reached signals := by
  induction signals using List.reverseRecOn generalizing phase with
  | nil =>
      cases led
      exact ⟨[], rfl⟩
  | append_singleton signals signal ih =>
      rw [List.foldlM_append] at led
      obtain ⟨before, earlier, heard⟩ := Option.bind_eq_some_iff.mp led
      have taken : before.hear signal = some phase := by simpa using heard
      exact (ih earlier).hear taken

theorem DetectorPhase.Reached.wellFormed {signals : List Signal} {phase : DetectorPhase}
    (reached : phase.Reached signals) : WellFormed signals := by
  cases phase with
  | idle =>
      obtain ⟨turns, rfl⟩ := reached
      exact ⟨turns, List.prefix_refl _⟩
  | speaking =>
      obtain ⟨turns, cancelled, rfl⟩ := reached
      refine ⟨turns ++ [{ cancelled := cancelled, paused := false, ending := {} }], ?_⟩
      rw [List.flatMap_append, List.flatMap_singleton]
      exact ⟨[.endOfTurn {}], List.append_assoc _ _ _⟩
  | paused =>
      obtain ⟨turns, cancelled, rfl⟩ := reached
      refine ⟨turns ++ [{ cancelled := cancelled, paused := true, ending := {} }], ?_⟩
      rw [List.flatMap_append, List.flatMap_singleton]
      refine ⟨[.endOfTurn {}], ?_⟩
      rw [List.append_assoc, List.append_assoc]
      rfl

namespace DetectorSetup

/-- However the audio comes and whatever the models say: what goes to the recognizer are whole
frames of the input in their order, one stretch for each turn. -/
theorem audio_intact (setup : DetectorSetup) (deliveries : List Delivery) :
    setup.framesRead deliveries * setup.frameBytes ≤ (audioOf deliveries).length ∧
      ∃ turns, setup.Turns (audioOf deliveries) (setup.framesRead deliveries) turns ∧
        sentAudio (setup.updatesOf deliveries) =
          turns.flatMap (fun turn => setup.stretch (audioOf deliveries) turn.start turn.stop) := by
  obtain ⟨turns, course⟩ := setup.course (audioOf deliveries) (setup.framesRead deliveries)
  refine ⟨?_, turns, course.made, (setup.updates_eq deliveries).1.trans course.sent⟩
  exact (Nat.div_mul_le_self _ _).trans (Nat.sub_le _ _)

/-- However the audio comes and whatever the models say: the signals are those of turns, one
after the other, and no turn goes on when the silence in it has lasted its maximum. The turns are
those of the frames processed, and no whole frame is left over but behind an open question. -/
theorem signals_well_formed (setup : DetectorSetup) (deliveries : List Delivery) :
    WellFormed (signalsOf (setup.updatesOf deliveries)) ∧
      (∃ turns, setup.Turns (audioOf deliveries) (setup.framesRead deliveries) turns ∧
        ∀ turn ∈ turns, turn.Timely setup (audioOf deliveries)) ∧
      ((setup.detectorAfter deliveries).listening.ask = none →
        setup.framesRead deliveries = (audioOf deliveries).length / setup.frameBytes) := by
  obtain ⟨turns, course⟩ := setup.course (audioOf deliveries) (setup.framesRead deliveries)
  refine ⟨?_, ⟨turns, course.made, course.timely⟩, setup.framesRead_of_idle deliveries⟩
  exact (reached_of_foldlM (TurnDetector.signals_in_order setup deliveries)).wellFormed

def impatientSetup : DetectorSetup :=
  { briskSetup with
    config :=
      { briskSetup.config with
        maxSilenceMs := 200
        maxSilenceMs_range := by decide
        silenceOrder := by decide } }

/-- Two frames of speech and the maximal silence behind them, in which the question about the
turn is never answered. -/
def unansweredPause : List Delivery :=
  [{ pcm := loudFrame ++ (loudFrame ++ quietFrames 200), done := fun _ => false }]

theorem unanswered_turn_goes_on :
    impatientSetup.config.maxSilenceMs ≤ 200 * impatientSetup.frameMs ∧
      (∀ index < 200,
        impatientSetup.isSpeech (audioOf unansweredPause) (index + 2) = false) ∧
      signalsOf (impatientSetup.updatesOf unansweredPause) = [.speechStart, .pauseStart] := by
  refine ⟨by decide, ?_, by decide +kernel⟩
  intro index below
  have behind : (audioOf unansweredPause).drop ((index + 2) * 32) =
      quietFrames (200 - index) := by
    change (loudFrame ++ (loudFrame ++ quietFrames 200) ++ []).drop _ = _
    have start : (index + 2) * 32 = loudFrame.length + (loudFrame.length + index * 32) := by
      rw [show loudFrame.length = 32 from rfl]
      omega
    rw [List.append_nil, start, List.drop_length_add_append, List.drop_length_add_append]
    unfold quietFrames
    rw [List.drop_replicate, Nat.mul_sub, Nat.mul_comm index]
  have zeros : impatientSetup.frame (audioOf unansweredPause) index.succ.succ =
      List.replicate 32 0 := by
    change ((audioOf unansweredPause).drop ((index + 2) * 32)).take 32 = _
    rw [behind]
    unfold quietFrames
    rw [List.take_replicate, Nat.min_eq_left (by omega)]
  change decide (speechThreshold ≤ (loudVad.speechProbability () (samples (impatientSetup.frame
    (audioOf unansweredPause) index.succ.succ))).1) = false
  rw [zeros]
  decide +kernel

end DetectorSetup

end Assemblix.Realtime
