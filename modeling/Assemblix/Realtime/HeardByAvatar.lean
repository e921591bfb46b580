import Assemblix.Realtime.AvatarOutput
import Mathlib.Tactic.Linarith

/-
What an interruption of an avatar answers.

One flag and one start time stand for all utterances, so they are right about the latest one where
its first audio is sent while nothing is marked as playing.
-/

namespace Assemblix.AvatarOutput

open Library

/-! ### What was given to the avatar -/

theorem truncate_le {number : ℚ} (nonneg : 0 ≤ number) : (truncate number : ℚ) ≤ number := by
  rw [truncate, if_pos nonneg]
  exact Int.floor_le number

theorem Utterance.send_nil (clock : ℚ) (utterance : Utterance) :
    utterance.send clock [] = utterance := by
  rw [Utterance.send, List.append_nil, if_neg (fun both => both.2 rfl)]

theorem Utterance.send_append (clock : ℚ) (first second : List UInt8) (utterance : Utterance) :
    (utterance.send clock first).send clock second = utterance.send clock (first ++ second) := by
  rw [send, send, send, Utterance.mk.injEq]
  refine ⟨rfl, List.append_assoc _ _ _, ?_, rfl⟩
  by_cases silent : utterance.audio = []
  · by_cases none : first = []
    · subst none
      simp [silent]
    · simp [silent, none]
  · simp [silent]

theorem sendLatest_nil (clock : ℚ) (utterances : List Utterance) :
    sendLatest clock [] utterances = utterances := by
  cases utterances with
  | nil => rfl
  | cons latest older => exact congrArg (· :: older) (latest.send_nil clock)

theorem duration_append (first second : List UInt8) :
    duration (first ++ second) = duration first + duration second := by
  unfold duration
  rw [List.length_append, Nat.cast_add, add_div]

theorem duration_nonneg (audio : List UInt8) : 0 ≤ duration audio :=
  div_nonneg (Nat.cast_nonneg _) (by norm_num)

def Recorded (clock : ℚ) (utterances : List Utterance) : Prop :=
  ∀ utterance ∈ utterances, utterance.id < utterances.length ∧
    ∀ start ∈ utterance.firstSent, start ≤ clock

namespace Recorded

variable {clock : ℚ} {utterances : List Utterance}

section

variable (recorded : Recorded clock utterances)
include recorded

theorem opened : Recorded clock (⟨utterances.length, [], none, false⟩ :: utterances) := by
  intro utterance member
  rw [List.length_cons]
  rcases List.mem_cons.mp member with rfl | member
  · exact ⟨Nat.lt_succ_self _, fun _ none => by cases none⟩
  · obtain ⟨below, before⟩ := recorded utterance member
    exact ⟨Nat.lt_succ_of_lt below, before⟩

theorem sendLatest (chunks : List (List UInt8)) :
    Recorded clock (sendLatest clock chunks utterances) := by
  cases utterances with
  | nil => exact recorded
  | cons latest older =>
      intro utterance member
      rcases List.mem_cons.mp member with rfl | member
      · obtain ⟨below, before⟩ := recorded latest List.mem_cons_self
        refine ⟨below, fun start sent => ?_⟩
        change start ∈ (if latest.audio = [] ∧ _ then some clock else latest.firstSent) at sent
        split at sent
        case isTrue => exact le_of_eq (Option.some.inj sent).symm
        case isFalse => exact before start sent
      · exact recorded utterance (List.mem_cons_of_mem _ member)

theorem map (past : Utterance → Bool) :
    Recorded clock (utterances.map (fun utterance => { utterance with past := past utterance })) := by
  intro other member
  obtain ⟨utterance, known, rfl⟩ := List.mem_map.mp member
  rw [List.length_map]
  exact recorded utterance known

theorem later {seconds : ℚ} (nonneg : 0 ≤ seconds) : Recorded (clock + seconds) utterances := by
  intro utterance member
  obtain ⟨below, before⟩ := recorded utterance member
  exact ⟨below, fun start sent => le_trans (before start sent) (le_add_of_nonneg_right nonneg)⟩

end

end Recorded

def AllOver (utterances : List Utterance) : Prop :=
  ∀ utterance ∈ utterances, utterance.audio ≠ [] → utterance.past = true

structure Measured (sentMs startedAt : ℚ) (utterance : Utterance) : Prop where
  sent : sentMs = duration utterance.audio
  started : utterance.firstSent = some startedAt

theorem Measured.answers {sentMs startedAt : ℚ} {clock : ℚ} {latest : Utterance}
    {older : List Utterance} (measured : Measured sentMs startedAt latest)
    (recorded : Recorded clock (latest :: older)) :
    ((truncate (min sentMs ((clock - startedAt) * 1000)) : Int) : ℚ) ≤ duration latest.audio ∧
      ∀ start ∈ latest.firstSent,
        ((truncate (min sentMs ((clock - startedAt) * 1000)) : Int) : ℚ) ≤
          (clock - start) * 1000 := by
  have before : startedAt ≤ clock :=
    (recorded latest List.mem_cons_self).2 startedAt measured.started
  have elapsed : 0 ≤ (clock - startedAt) * 1000 := by linarith
  have nonneg : 0 ≤ min sentMs ((clock - startedAt) * 1000) :=
    le_min (measured.sent ▸ duration_nonneg _) elapsed
  have below := truncate_le nonneg
  refine ⟨?_, fun start sent => ?_⟩
  · rw [← measured.sent]
    exact le_trans below (min_le_left _ _)
  · rw [measured.started] at sent
    cases sent
    exact le_trans below (min_le_right _ _)

theorem Measured.send {sentMs startedAt clock : ℚ} {latest : Utterance}
    (measured : Measured sentMs startedAt latest) (sent : latest.audio ≠ []) (audio : List UInt8) :
    Measured (sentMs + duration audio) startedAt (latest.send clock audio) where
  sent := by
    rw [measured.sent]
    exact (duration_append _ _).symm
  started := by
    rw [Utterance.send]
    dsimp only
    rw [if_neg (fun both => sent both.1)]
    exact measured.started

theorem Measured.first {clock : ℚ} {latest : Utterance} (silent : latest.audio = [])
    {audio : List UInt8} (some : audio ≠ []) :
    Measured (0 + duration audio) clock (latest.send clock audio) where
  sent := by
    rw [Utterance.send, silent, zero_add, List.nil_append]
  started := by
    rw [Utterance.send]
    dsimp only
    rw [if_pos ⟨silent, some⟩]

theorem Measured.mark {sentMs startedAt : ℚ} {latest : Utterance}
    (measured : Measured sentMs startedAt latest) (past : Bool) :
    Measured sentMs startedAt { latest with past := past } :=
  ⟨measured.sent, measured.started⟩

theorem AllOver.finish {utterances : List Utterance} (all : AllOver utterances) (utterance : Nat) :
    AllOver (finish utterance utterances) := by
  intro other member sent
  obtain ⟨known, here, rfl⟩ := List.mem_map.mp member
  change (known.past || _) = true
  rw [all known here sent, Bool.true_or]

/-- An utterance that is reported, with all that were sent before it over and none after it that
was sent and is not. -/
theorem allOver_finish {utterances : List Utterance} {utterance : Nat}
    (before : ∀ other ∈ utterances, other.id < utterance → other.audio ≠ [] → other.past = true)
    (after : ∀ other ∈ utterances, utterance < other.id → other.audio ≠ [] → other.past = true) :
    AllOver (finish utterance utterances) := by
  intro other member sent
  obtain ⟨known, here, rfl⟩ := List.mem_map.mp member
  change (known.past || decide (known.id = utterance)) = true
  rcases Nat.lt_trichotomy known.id utterance with earlier | same | later
  · rw [before known here earlier sent, Bool.true_or]
  · rw [decide_eq_true same, Bool.or_true]
  · rw [after known here later sent, Bool.true_or]

section

variable {S : Type} {device : Output S} {playback : Playback S}

theorem openLatest_of_open (opened : device.isOpen playback.output = true) :
    openLatest device playback = playback.utterances := by
  rw [openLatest, if_pos opened]

theorem openLatest_of_closed (closed : device.isOpen playback.output = false) :
    openLatest device playback =
      ⟨playback.utterances.length, [], none, false⟩ :: playback.utterances := by
  rw [openLatest, if_neg (Bool.eq_false_iff.mp closed)]

end

/-! ### The session socket -/

namespace LiveAvatarSocketOutput

structure Speaking (id : Nat) (output : LiveAvatarSocketOutput) (latest : Utterance) : Prop where
  opened : output.utteranceId = some id
  silent : output.chunksSent = 0 ↔ latest.audio = []
  playing : latest.audio ≠ [] → output.playing = true
  last : latest.audio ≠ [] → output.lastUtteranceId = some id
  measured : latest.audio ≠ [] → Measured output.sentMs output.startedAt latest

section

variable {sizes : ChunkSizes} {clock : ℚ} {id : Nat} {output : LiveAvatarSocketOutput}
  {latest : Utterance}

theorem Speaking.speak (speaking : Speaking id output latest) (clock : ℚ) {chunk : List UInt8}
    (some : chunk ≠ []) (quiet : latest.audio = [] → output.playing = false) :
    Speaking id (output.speak clock chunk) (latest.send clock chunk) := by
  have sent : latest.audio ++ chunk ≠ [] := List.append_ne_nil_of_right_ne_nil _ some
  by_cases silent : latest.audio = []
  · have begun : output.speak clock chunk =
        { output with
          lastUtteranceId := output.utteranceId
          startedAt := clock
          playing := true
          chunksSent := output.chunksSent + 1
          sentMs := 0 + duration chunk } := by
      unfold LiveAvatarSocketOutput.speak beginSpeech
      rw [if_pos (speaking.silent.mpr silent), quiet silent]
      rfl
    rw [begun]
    exact {
      opened := speaking.opened
      silent := iff_of_false (Nat.succ_ne_zero _) sent
      playing := fun _ => rfl
      last := fun _ => speaking.opened
      measured := fun _ => Measured.first silent some }
  · have later : output.speak clock chunk =
        { output with
          chunksSent := output.chunksSent + 1
          sentMs := output.sentMs + duration chunk } := by
      unfold LiveAvatarSocketOutput.speak
      rw [if_neg (fun none => silent (speaking.silent.mp none))]
      rfl
    rw [later]
    exact {
      opened := speaking.opened
      silent := iff_of_false (Nat.succ_ne_zero _) sent
      playing := fun _ => speaking.playing silent
      last := fun _ => speaking.last silent
      measured := fun _ => (speaking.measured silent).send silent chunk }

/-- What sending leaves of the rest. -/
structure Spoken (id : Nat) (output after : LiveAvatarSocketOutput) : Prop where
  playing : after.playing = false → output.playing = false
  last : after.lastUtteranceId = output.lastUtteranceId ∨ after.lastUtteranceId = some id

theorem Spoken.refl (id : Nat) (output : LiveAvatarSocketOutput) : Spoken id output output :=
  ⟨fun silent => silent, .inl rfl⟩

theorem Spoken.trans {middle after : LiveAvatarSocketOutput} (first : Spoken id output middle)
    (second : Spoken id middle after) : Spoken id output after where
  playing := fun silent => first.playing (second.playing silent)
  last := by
    rcases second.last with same | own
    · rw [same]
      exact first.last
    · exact .inr own

theorem Speaking.spoken (speaking : Speaking id output latest) (clock : ℚ) (chunk : List UInt8) :
    Spoken id output (output.speak clock chunk) := by
  unfold LiveAvatarSocketOutput.speak
  by_cases silent : output.chunksSent = 0
  · rw [if_pos silent]
    exact ⟨fun playing => Bool.noConfusion playing, Or.inr speaking.opened⟩
  · rw [if_neg silent]
    exact ⟨fun playing => playing, Or.inl rfl⟩

theorem openUtterance_buffer (fresh : Nat) :
    (output.openUtterance fresh).buffer = output.buffer ∧
      (output.openUtterance fresh).playing = output.playing := by
  unfold openUtterance
  split <;> exact ⟨rfl, rfl⟩

theorem nextChunkBytes_pos (sizes : ChunkSizes) (output : LiveAvatarSocketOutput) :
    0 < output.nextChunkBytes sizes := by
  have first := sizes.first_pos
  have chunk := sizes.chunk_pos
  unfold nextChunkBytes bytesPerMs avatarSampleRate bytesPerSample
  split <;> omega

theorem drain_buffer (rounds : Nat) (enough : output.buffer.length < rounds) :
    (drain sizes clock rounds output).1.buffer.length <
      (drain sizes clock rounds output).1.nextChunkBytes sizes := by
  induction rounds generalizing output with
  | zero => exact absurd enough (Nat.not_lt_zero _)
  | succ rounds ih =>
      rw [drain]
      dsimp only
      by_cases full : output.nextChunkBytes sizes ≤ output.buffer.length
      · rw [if_pos full]
        refine ih ?_
        have taken := nextChunkBytes_pos sizes output
        have rest : (speak clock (output.buffer.take (output.nextChunkBytes sizes))
            { output with buffer := output.buffer.drop (output.nextChunkBytes sizes) }).buffer =
              output.buffer.drop (output.nextChunkBytes sizes) := by
          unfold speak
          dsimp only
          split <;> rfl
        rw [rest, List.length_drop]
        omega
      · rw [if_neg full]
        exact Nat.not_le.mp full

theorem Speaking.drain (speaking : Speaking id output latest) (rounds : Nat)
    (quiet : latest.audio = [] → sizes.firstChunkMs * bytesPerMs ≤ output.buffer.length →
      output.playing = false) :
    Speaking id (drain sizes clock rounds output).1
        (latest.send clock (drain sizes clock rounds output).2.flatten) ∧
      Spoken id output (drain sizes clock rounds output).1 := by
  induction rounds generalizing output latest with
  | zero =>
      rw [LiveAvatarSocketOutput.drain, List.flatten_nil, Utterance.send_nil]
      exact ⟨speaking, Spoken.refl id output⟩
  | succ rounds ih =>
      rw [LiveAvatarSocketOutput.drain]
      dsimp only
      by_cases full : output.nextChunkBytes sizes ≤ output.buffer.length
      · rw [if_pos full]
        have chunk : output.buffer.take (output.nextChunkBytes sizes) ≠ [] := by
          have taken := nextChunkBytes_pos sizes output
          intro none
          have length := congrArg List.length none
          rw [List.length_take, List.length_nil] at length
          omega
        have emptied : Speaking id
            { output with buffer := output.buffer.drop (output.nextChunkBytes sizes) } latest :=
          { speaking with }
        have first : latest.audio = [] → output.playing = false := by
          intro silent
          refine quiet silent ?_
          rw [nextChunkBytes, if_pos (speaking.silent.mpr silent)] at full
          exact full
        have spoken := emptied.spoken clock (output.buffer.take (output.nextChunkBytes sizes))
        obtain ⟨after, others⟩ := ih (emptied.speak clock chunk first) (by
          intro silent
          exact absurd (List.append_eq_nil_iff.mp silent).2 chunk)
        rw [Utterance.send_append] at after
        refine ⟨?_, ⟨fun playing => spoken.playing (others.playing playing), ?_⟩⟩
        · exact after
        · exact (Spoken.trans spoken others).last
      · rw [if_neg full, List.flatten_nil, Utterance.send_nil]
        exact ⟨speaking, Spoken.refl id output⟩

end

/-- The first audio of an utterance is sent while nothing is marked as playing, and an utterance
of which nothing was sent is not interrupted while an earlier one is. -/
def Careful (sizes : ChunkSizes) (playback : Playback LiveAvatarSocketOutput) : Event → Prop
  | .push pcm =>
      playback.output.utteranceId = none ∨ playback.output.chunksSent = 0 →
        sizes.firstChunkMs * bytesPerMs ≤ playback.output.buffer.length + pcm.length →
          playback.output.playing = false
  | .endUtterance =>
      playback.output.chunksSent = 0 → playback.output.buffer ≠ [] →
        playback.output.playing = false
  | .interrupt =>
      playback.output.playing = true → ∀ latest ∈ playback.utterances.head?, latest.audio ≠ []
  | _ => True

def CarefulStep (sizes : ChunkSizes) (playback : Playback LiveAvatarSocketOutput) (event : Event)
    (next : Playback LiveAvatarSocketOutput) : Prop :=
  Step (device sizes) playback event next ∧ Careful sizes playback event

structure Sound (playback : Playback LiveAvatarSocketOutput) : Prop where
  recorded : Recorded playback.clock playback.utterances
  speaking : ∀ id, playback.output.utteranceId = some id →
    ∃ latest older, playback.utterances = latest :: older ∧ older.length = id ∧
      Speaking id playback.output latest
  silent : playback.output.playing = false → AllOver playback.utterances
  last : ∀ id, playback.output.lastUtteranceId = some id →
    ∀ utterance ∈ playback.utterances, id < utterance.id → utterance.audio = []
  playing : playback.output.playing = true → ∃ latest older,
    playback.utterances = latest :: older ∧
      (latest.audio ≠ [] → Measured playback.output.sentMs playback.output.startedAt latest)

namespace Sound

variable {sizes : ChunkSizes} {playback next : Playback LiveAvatarSocketOutput}

theorem opened (sound : Sound playback) (buffer : List UInt8) :
    Sound ⟨playback.clock,
        ({ playback.output with buffer := buffer }).openUtterance playback.utterances.length,
        openLatest (device sizes) playback⟩ ∧
      ∃ latest older, openLatest (device sizes) playback = latest :: older ∧
        Speaking older.length
          (({ playback.output with buffer := buffer }).openUtterance playback.utterances.length)
          latest ∧
        (latest.audio = [] → playback.output.utteranceId = none ∨ playback.output.chunksSent = 0) := by
  cases named : playback.output.utteranceId with
  | none =>
      have begun : openLatest (device sizes) playback =
          ⟨playback.utterances.length, [], none, false⟩ :: playback.utterances :=
        openLatest_of_closed (congrArg Option.isSome named)
      have output : ({ playback.output with buffer := buffer }).openUtterance
          playback.utterances.length =
            { playback.output with
              buffer := buffer
              utteranceId := some playback.utterances.length
              chunksSent := 0 } := by
        unfold openUtterance
        dsimp only
        rw [named]
      rw [begun, output]
      have speaking : Speaking playback.utterances.length
          { playback.output with
            buffer := buffer
            utteranceId := some playback.utterances.length
            chunksSent := 0 } ⟨playback.utterances.length, [], none, false⟩ :=
        ⟨rfl, iff_of_true rfl rfl, fun wrong => absurd rfl wrong, fun wrong => absurd rfl wrong,
          fun wrong => absurd rfl wrong⟩
      refine ⟨?_, _, _, rfl, speaking, fun _ => .inl rfl⟩
      exact {
        recorded := sound.recorded.opened
        speaking := by
          intro id named
          cases named
          exact ⟨_, _, rfl, rfl, speaking⟩
        silent := by
          intro silent utterance member sent
          rcases List.mem_cons.mp member with rfl | member
          · exact absurd rfl sent
          · exact sound.silent silent utterance member sent
        last := by
          intro id named utterance member later
          rcases List.mem_cons.mp member with rfl | member
          · rfl
          · exact sound.last id named utterance member later
        playing := fun _ => ⟨_, _, rfl, fun wrong => absurd rfl wrong⟩ }
  | some id =>
      have kept : openLatest (device sizes) playback = playback.utterances :=
        openLatest_of_open (congrArg Option.isSome named)
      have output : ({ playback.output with buffer := buffer }).openUtterance
          playback.utterances.length = { playback.output with buffer := buffer } := by
        unfold openUtterance
        dsimp only
        rw [named]
      obtain ⟨latest, older, utterances, length, speaking⟩ := sound.speaking id named
      rw [kept, output]
      have filled : Speaking id { playback.output with buffer := buffer } latest :=
        { speaking with }
      refine ⟨?_, latest, older, utterances, length ▸ filled, fun silent => ?_⟩
      · exact {
          recorded := sound.recorded
          speaking := by
            intro other own
            rw [named] at own
            cases own
            exact ⟨latest, older, utterances, length, filled⟩
          silent := sound.silent
          last := sound.last
          playing := sound.playing }
      · exact .inr (speaking.silent.mpr silent)

theorem sent {clock : ℚ} {output after : LiveAvatarSocketOutput} {latest : Utterance}
    {older : List Utterance} (sound : Sound ⟨clock, output, latest :: older⟩)
    (chunks : List (List UInt8))
    (speaking : Speaking older.length after (latest.send clock chunks.flatten))
    (spoken : Spoken older.length output after) :
    Sound ⟨clock, after, latest.send clock chunks.flatten :: older⟩ where
  recorded := sound.recorded.sendLatest chunks
  speaking := by
    intro id named
    rw [speaking.opened] at named
    cases named
    exact ⟨_, _, rfl, rfl, speaking⟩
  silent := by
    intro silent utterance member sent
    rcases List.mem_cons.mp member with rfl | member
    · rw [speaking.playing sent] at silent
      cases silent
    · exact sound.silent (spoken.playing silent) utterance (List.mem_cons_of_mem _ member) sent
  last := by
    intro id named utterance member later
    have below : utterance.id < older.length + 1 :=
      ((sound.recorded.sendLatest chunks) utterance member).1
    rcases List.mem_cons.mp member with rfl | member
    · by_contra sent
      rw [speaking.last sent] at named
      cases named
      omega
    · rcases spoken.last with same | own
      · exact sound.last id (same ▸ named) utterance (List.mem_cons_of_mem _ member) later
      · rw [own] at named
        cases named
        omega
  playing := fun _ => ⟨_, _, rfl, speaking.measured⟩

theorem shut {clock : ℚ} {output : LiveAvatarSocketOutput} {utterances : List Utterance}
    (sound : Sound ⟨clock, output, utterances⟩) :
    Sound ⟨clock, { output with utteranceId := none }, utterances⟩ where
  recorded := sound.recorded
  speaking := fun _ wrong => by cases wrong
  silent := sound.silent
  last := sound.last
  playing := sound.playing

theorem push (sound : Sound playback) {pcm : List UInt8}
    (careful : Careful sizes playback (.push pcm))
    (taken : Step (device sizes) playback (.push pcm) next) : Sound next := by
  unfold Step AvatarOutput.step at taken
  dsimp only [device, LiveAvatarSocketOutput.push] at taken
  by_cases closed : playback.output.closed = true
  · rw [if_pos closed] at taken
    cases taken
    exact sound
  · rw [if_neg closed] at taken
    cases taken
    obtain ⟨begun, latest, older, utterances, speaking, first⟩ :=
      @Sound.opened sizes playback sound (playback.output.buffer ++ pcm)
    have kept := @openUtterance_buffer { playback.output with buffer := playback.output.buffer ++ pcm }
      playback.utterances.length
    rw [utterances] at begun
    have drained := @Speaking.drain sizes playback.clock _ _ _ speaking
      ((playback.output.buffer ++ pcm).length + 1) (by
        intro silent full
        rw [kept.1, List.length_append] at full
        rw [kept.2]
        exact careful (first silent) full)
    have after := begun.sent _ drained.1 drained.2
    rw [← sendLatest, ← utterances] at after
    exact after

theorem endUtterance (sound : Sound playback)
    (careful : Careful sizes playback .endUtterance)
    (taken : Step (device sizes) playback .endUtterance next) : Sound next := by
  unfold Step AvatarOutput.step at taken
  dsimp only [device, LiveAvatarSocketOutput.endUtterance] at taken
  by_cases closed : playback.output.closed = true
  · rw [if_pos closed] at taken
    cases taken
    exact sound
  · rw [if_neg closed] at taken
    cases named : playback.output.utteranceId with
    | none =>
        rw [named] at taken
        cases taken
        rw [sendLatest_nil]
        exact sound
    | some id =>
        rw [named] at taken
        dsimp only at taken
        obtain ⟨clock, output, utterances⟩ := playback
        obtain ⟨latest, older, whole, length, speaking⟩ := sound.speaking id named
        change utterances = latest :: older at whole
        subst whole
        by_cases empty : output.buffer = []
        · rw [if_pos empty] at taken
          cases taken
          rw [sendLatest_nil, ← empty]
          exact sound.shut
        · rw [if_neg empty] at taken
          cases taken
          have emptied : Speaking older.length
              { output with buffer := [], utteranceId := some id } latest :=
            ⟨congrArg some length.symm, speaking.silent, speaking.playing,
              fun sent => length ▸ speaking.last sent, speaking.measured⟩
          have quiet : latest.audio = [] → output.playing = false :=
            fun silent => careful (speaking.silent.mpr silent) empty
          have spoken := emptied.spoken clock output.buffer
          have tail : Speaking older.length
              (speak clock output.buffer { output with buffer := [], utteranceId := some id })
              (latest.send clock [output.buffer].flatten) := by
            rw [List.flatten_singleton]
            exact emptied.speak clock empty quiet
          exact (sound.sent [output.buffer] tail ⟨spoken.playing, spoken.last⟩).shut

theorem interrupt (sound : Sound playback)
    (taken : Step (device sizes) playback .interrupt next) : Sound next := by
  have past : ∀ utterance ∈ playback.utterances.map (fun utterance =>
      ({ utterance with past := true } : Utterance)), utterance.past = true := by
    intro utterance member
    obtain ⟨other, -, rfl⟩ := List.mem_map.mp member
    rfl
  have last : ∀ id, playback.output.lastUtteranceId = some id →
      ∀ utterance ∈ playback.utterances.map (fun utterance =>
        ({ utterance with past := true } : Utterance)), id < utterance.id → utterance.audio = [] := by
    intro id named utterance member later
    obtain ⟨other, known, rfl⟩ := List.mem_map.mp member
    exact sound.last id named other known later
  unfold Step AvatarOutput.step at taken
  cases taken
  dsimp only [device, LiveAvatarSocketOutput.interrupt]
  split
  case isTrue nothing =>
    exact {
      recorded := sound.recorded.map (fun _ => true)
      speaking := fun id named => by
        rw [nothing.1] at named
        cases named
      silent := fun _ utterance member _ => past utterance member
      last := last
      playing := fun playing => by
        rw [nothing.2] at playing
        cases playing }
  case isFalse =>
    split
    case isTrue quiet =>
      exact {
        recorded := sound.recorded.map (fun _ => true)
        speaking := fun _ wrong => by cases wrong
        silent := fun _ utterance member _ => past utterance member
        last := last
        playing := fun playing => by
          change playback.output.playing = true at playing
          rw [quiet] at playing
          cases playing }
    case isFalse =>
      exact {
        recorded := sound.recorded.map (fun _ => true)
        speaking := fun _ wrong => by cases wrong
        silent := fun _ utterance member _ => past utterance member
        last := last
        playing := fun wrong => by cases wrong }

theorem playbackFinished (sound : Sound playback) {utterance : Nat}
    (taken : Step (device sizes) playback (.playbackFinished utterance) next) : Sound next := by
  have last : ∀ id, playback.output.lastUtteranceId = some id →
      ∀ other ∈ finish utterance playback.utterances, id < other.id → other.audio = [] := by
    intro id named other member later
    obtain ⟨known, here, rfl⟩ := List.mem_map.mp member
    exact sound.last id named known here later
  unfold Step AvatarOutput.step at taken
  dsimp only at taken
  split at taken
  case isTrue may =>
    cases taken
    dsimp only [device, speakEnded]
    split
    case isTrue ended =>
      have after : ∀ other ∈ playback.utterances, utterance < other.id → other.audio ≠ [] →
          other.past = true :=
        fun other member later sent => absurd (sound.last utterance ended.2 other member later) sent
      exact {
        recorded := sound.recorded.map (fun _ => _)
        speaking := fun id named => by
          rw [ended.1] at named
          cases named
        silent := fun _ => allOver_finish may.2.1 after
        last := last
        playing := fun wrong => by cases wrong }
    case isFalse =>
      exact {
        recorded := sound.recorded.map (fun _ => _)
        speaking := fun id named => by
          obtain ⟨latest, older, whole, length, speaking⟩ := sound.speaking id named
          refine ⟨_, finish utterance older, congrArg (finish utterance) whole, ?_, ?_⟩
          · rw [finish, List.length_map]
            exact length
          · exact ⟨speaking.opened, speaking.silent, speaking.playing, speaking.last,
              fun sent => (speaking.measured sent).mark _⟩
        silent := fun silent => (sound.silent silent).finish utterance
        last := last
        playing := fun playing => by
          obtain ⟨latest, older, whole, measured⟩ := sound.playing playing
          exact ⟨_, _, congrArg (finish utterance) whole, fun sent => (measured sent).mark _⟩ }
  case isFalse => cases taken

theorem step (sound : Sound playback) {event : Event}
    (taken : CarefulStep sizes playback event next) : Sound next := by
  obtain ⟨taken, careful⟩ := taken
  cases event with
  | push pcm => exact sound.push careful taken
  | endUtterance => exact sound.endUtterance careful taken
  | interrupt => exact sound.interrupt taken
  | playbackFinished utterance => exact sound.playbackFinished taken
  | hangUp =>
      cases taken
      refine { sound with speaking := fun id named => ?_ }
      obtain ⟨latest, older, whole, length, speaking⟩ := sound.speaking id named
      exact ⟨latest, older, whole, length, speaking.opened, speaking.silent, speaking.playing,
        speaking.last, speaking.measured⟩
  | advance seconds =>
      unfold Step AvatarOutput.step at taken
      dsimp only at taken
      split at taken
      case isTrue nonneg =>
        cases taken
        exact { sound with recorded := sound.recorded.later nonneg }
      case isFalse => cases taken

theorem initial (clock : ℚ) : Sound ⟨clock, LiveAvatarSocketOutput.initial, []⟩ where
  recorded := fun _ member => absurd member List.not_mem_nil
  speaking := fun _ wrong => by cases wrong
  silent := fun _ _ member => absurd member List.not_mem_nil
  last := fun _ wrong => by cases wrong
  playing := fun wrong => by cases wrong

theorem answers (sound : Sound playback) (careful : Careful sizes playback .interrupt) :
    Answers (device sizes) playback
      (LiveAvatarSocketOutput.interrupt playback.clock playback.output).2 := by
  unfold LiveAvatarSocketOutput.interrupt
  split
  case isTrue nothing =>
    exact ⟨congrArg Option.isSome nothing.1, sound.silent nothing.2⟩
  case isFalse some =>
    split
    case isTrue quiet =>
      have opened : playback.output.utteranceId ≠ none := fun none => some ⟨none, quiet⟩
      obtain ⟨id, named⟩ := Option.ne_none_iff_exists'.mp opened
      obtain ⟨latest, older, whole, -, -⟩ := sound.speaking id named
      refine ⟨latest, older, whole, ?_, fun start sent => ?_⟩
      · rw [Int.cast_zero]
        exact duration_nonneg _
      · have before := (sound.recorded latest (whole ▸ List.mem_cons_self)).2 start sent
        rw [Int.cast_zero]
        linarith
    case isFalse loud =>
      have playing := Bool.of_not_eq_false loud
      obtain ⟨latest, older, whole, measured⟩ := sound.playing playing
      have sent : latest.audio ≠ [] := by
        refine careful playing latest ?_
        rw [whole]
        rfl
      have recorded := sound.recorded
      rw [whole] at recorded
      exact ⟨latest, older, whole, (measured sent).answers recorded⟩

end Sound

end LiveAvatarSocketOutput

/-! ### The streams of a media room -/

namespace AvatarAudioOutput

theorem durationMs_eq (data : List UInt8) : durationMs data = duration data := by
  unfold durationMs duration bytesPerSample avatarSampleRate
  push_cast
  ring

/-- A stream is opened with audio and while nothing is marked as playing, and a report that comes
in while no stream is open finds no later utterance that was sent and is not over. -/
def Careful (playback : Playback AvatarAudioOutput) : Event → Prop
  | .push pcm =>
      playback.output.writer = none → playback.output.playing = false ∧ pcm ≠ []
  | .playbackFinished utterance =>
      playback.output.writer = none →
        ∀ other ∈ playback.utterances, utterance < other.id → other.audio ≠ [] → other.past = true
  | _ => True

def CarefulStep (playback : Playback AvatarAudioOutput) (event : Event)
    (next : Playback AvatarAudioOutput) : Prop :=
  Step device playback event next ∧ Careful playback event

/-- What is known of the streams. -/
structure Sound (playback : Playback AvatarAudioOutput) : Prop where
  recorded : Recorded playback.clock playback.utterances
  opened : playback.output.playing = false → playback.output.writer = none
  silent : playback.output.playing = false → AllOver playback.utterances
  playing : playback.output.playing = true → ∃ latest older,
    playback.utterances = latest :: older ∧ latest.audio ≠ [] ∧
      Measured playback.output.sentMs playback.output.startedAt latest

namespace Sound

variable {playback next : Playback AvatarAudioOutput}

theorem push (sound : Sound playback) {pcm : List UInt8} (careful : Careful playback (.push pcm))
    (taken : Step device playback (.push pcm) next) : Sound next := by
  unfold Step AvatarOutput.step at taken
  dsimp only [device, AvatarAudioOutput.push] at taken
  cases named : playback.output.writer with
  | none =>
      obtain ⟨quiet, some⟩ := careful named
      have begun : openLatest device playback =
          ⟨playback.utterances.length, [], none, false⟩ :: playback.utterances :=
        openLatest_of_closed (congrArg Option.isSome named)
      have output : playback.output.openStream playback.clock playback.utterances.length =
          ⟨Option.some playback.utterances.length, 0, playback.clock, true⟩ := by
        unfold openStream
        rw [named, quiet]
        rfl
      rw [if_neg some, output] at taken
      change Option.some (Playback.mk _ _ (sendLatest _ _ (openLatest device playback))) = _ at taken
      rw [begun] at taken
      cases taken
      have measured : Measured (0 + duration pcm) playback.clock
          (Utterance.send playback.clock pcm ⟨playback.utterances.length, [], none, false⟩) :=
        Measured.first rfl some
      rw [← durationMs_eq] at measured
      exact {
        recorded := sound.recorded.opened.sendLatest _
        opened := fun wrong => by cases wrong
        silent := fun wrong => by cases wrong
        playing := fun _ => by
          refine ⟨_, _, rfl, ?_, ?_⟩
          · rw [List.flatten_singleton]
            exact some
          · rw [List.flatten_singleton]
            exact measured }
  | some id =>
      have kept : openLatest device playback = playback.utterances :=
        openLatest_of_open (congrArg Option.isSome named)
      have output : playback.output.openStream playback.clock playback.utterances.length =
          playback.output := by
        unfold openStream
        rw [named]
      have loud : playback.output.playing = true := by
        by_contra quiet
        rw [sound.opened (Bool.eq_false_iff.mpr quiet)] at named
        cases named
      rw [output] at taken
      by_cases empty : pcm = []
      · rw [if_pos empty] at taken
        change Option.some (Playback.mk _ _ (sendLatest _ _ (openLatest device playback))) = _
          at taken
        rw [kept, sendLatest_nil] at taken
        cases taken
        exact sound
      · rw [if_neg empty] at taken
        change Option.some (Playback.mk _ _ (sendLatest _ _ (openLatest device playback))) = _
          at taken
        rw [kept] at taken
        cases taken
        obtain ⟨latest, older, whole, sent, measured⟩ := sound.playing loud
        have quiet : playback.output.playing ≠ false := by
          rw [loud]
          decide
        exact {
          recorded := sound.recorded.sendLatest _
          opened := fun silent => absurd silent quiet
          silent := fun silent => absurd silent quiet
          playing := fun _ => by
            refine ⟨_, older, congrArg (sendLatest playback.clock [pcm]) whole, ?_, ?_⟩
            · exact List.append_ne_nil_of_left_ne_nil sent _
            · rw [List.flatten_singleton, durationMs_eq]
              exact measured.send sent pcm }

theorem interrupt (sound : Sound playback) (taken : Step device playback .interrupt next) :
    Sound next := by
  have past : AllOver (playback.utterances.map (fun utterance =>
      ({ utterance with past := true } : Utterance))) := by
    intro utterance member _
    obtain ⟨other, -, rfl⟩ := List.mem_map.mp member
    rfl
  unfold Step AvatarOutput.step at taken
  cases taken
  dsimp only [device, AvatarAudioOutput.interrupt]
  split
  case isTrue quiet =>
    exact {
      recorded := sound.recorded.map (fun _ => true)
      opened := sound.opened
      silent := fun _ => past
      playing := fun playing => by
        rw [quiet] at playing
        cases playing }
  case isFalse =>
    exact {
      recorded := sound.recorded.map (fun _ => true)
      opened := fun _ => rfl
      silent := fun _ => past
      playing := fun wrong => by cases wrong }

theorem playbackFinished (sound : Sound playback) {utterance : Nat}
    (careful : Careful playback (.playbackFinished utterance))
    (taken : Step device playback (.playbackFinished utterance) next) : Sound next := by
  unfold Step AvatarOutput.step at taken
  dsimp only at taken
  split at taken
  case isTrue may =>
    cases taken
    dsimp only [device, onPlaybackFinished]
    cases named : playback.output.writer with
    | none =>
        exact {
          recorded := sound.recorded.map (fun _ => _)
          opened := fun _ => rfl
          silent := fun _ => allOver_finish may.2.1 (careful named)
          playing := fun wrong => by cases wrong }
    | some id =>
        exact {
          recorded := sound.recorded.map (fun _ => _)
          opened := sound.opened
          silent := fun silent => (sound.silent silent).finish utterance
          playing := fun playing => by
            obtain ⟨latest, older, whole, sent, measured⟩ := sound.playing playing
            exact ⟨_, _, congrArg (finish utterance) whole, sent, measured.mark _⟩ }
  case isFalse => cases taken

theorem step (sound : Sound playback) {event : Event} (taken : CarefulStep playback event next) :
    Sound next := by
  obtain ⟨taken, careful⟩ := taken
  cases event with
  | push pcm => exact sound.push careful taken
  | endUtterance =>
      unfold Step AvatarOutput.step at taken
      dsimp only [device] at taken
      cases taken
      rw [sendLatest_nil]
      exact { sound with opened := fun _ => rfl }
  | interrupt => exact sound.interrupt taken
  | playbackFinished utterance => exact sound.playbackFinished careful taken
  | hangUp =>
      cases taken
      exact sound
  | advance seconds =>
      unfold Step AvatarOutput.step at taken
      dsimp only at taken
      split at taken
      case isTrue nonneg =>
        cases taken
        exact { sound with recorded := sound.recorded.later nonneg }
      case isFalse => cases taken

theorem initial (clock : ℚ) : Sound ⟨clock, AvatarAudioOutput.initial, []⟩ where
  recorded := fun _ member => absurd member List.not_mem_nil
  opened := fun _ => rfl
  silent := fun _ _ member => absurd member List.not_mem_nil
  playing := fun wrong => by cases wrong

theorem answers (sound : Sound playback) :
    Answers device playback (AvatarAudioOutput.interrupt playback.clock playback.output).2 := by
  unfold AvatarAudioOutput.interrupt
  split
  case isTrue quiet =>
    exact ⟨congrArg Option.isSome (sound.opened quiet), sound.silent quiet⟩
  case isFalse loud =>
    obtain ⟨latest, older, whole, -, measured⟩ := sound.playing (Bool.of_not_eq_false loud)
    have recorded := sound.recorded
    rw [whole] at recorded
    exact ⟨latest, older, whole, measured.answers recorded⟩

end Sound

end AvatarAudioOutput

/-! ### Every run -/

/-- In a run of careful steps an interruption answers that nothing is left to be heard, or a
number that is right about the latest utterance, for both outputs. -/
theorem interrupt_answers (clock : ℚ) (events : List Event) :
    (∀ (sizes : ChunkSizes) (playback : Playback LiveAvatarSocketOutput),
      Run (LiveAvatarSocketOutput.CarefulStep sizes) ⟨clock, .initial, []⟩ events playback →
        LiveAvatarSocketOutput.Careful sizes playback .interrupt →
          Answers (LiveAvatarSocketOutput.device sizes) playback
            (LiveAvatarSocketOutput.interrupt playback.clock playback.output).2) ∧
    ∀ playback : Playback AvatarAudioOutput,
      Run AvatarAudioOutput.CarefulStep ⟨clock, .initial, []⟩ events playback →
        AvatarAudioOutput.Careful playback .interrupt →
          Answers AvatarAudioOutput.device playback
            (AvatarAudioOutput.interrupt playback.clock playback.output).2 := by
  constructor
  · intro sizes playback run careful
    have sound := run.invariant LiveAvatarSocketOutput.Sound _
      (LiveAvatarSocketOutput.Sound.initial clock) (fun _ _ _ kept taken => kept.step taken)
    exact sound.answers careful
  · intro playback run _
    have sound := run.invariant AvatarAudioOutput.Sound _
      (AvatarAudioOutput.Sound.initial clock) (fun _ _ _ kept taken => kept.step taken)
    exact sound.answers

instance (sizes : ChunkSizes) (playback : Playback LiveAvatarSocketOutput) (event : Event) :
    Decidable (LiveAvatarSocketOutput.Careful sizes playback event) :=
  match event with
  | .push _ => inferInstanceAs (Decidable (_ ∨ _ → _ → _ = _))
  | .endUtterance => inferInstanceAs (Decidable (_ → _ ≠ _ → _ = _))
  | .interrupt => inferInstanceAs (Decidable (playback.output.playing = true →
      ∀ latest ∈ playback.utterances.head?, latest.audio ≠ []))
  | .playbackFinished _ | .hangUp | .advance _ => isTrue trivial

instance (playback : Playback AvatarAudioOutput) (event : Event) :
    Decidable (AvatarAudioOutput.Careful playback event) :=
  match event with
  | .push _ => inferInstanceAs (Decidable (_ → _ = _ ∧ _ ≠ _))
  | .playbackFinished _ => inferInstanceAs (Decidable (_ → ∀ other ∈ _, _ < _ → _ ≠ _ → _ = _))
  | .endUtterance | .interrupt | .hangUp | .advance _ => isTrue trivial

def Playback.view {S : Type} (device : Output S) (playback : Playback S) :
    Option Int × List (Nat × Option ℚ × Bool) :=
  ((device.interrupt playback.clock playback.output).2,
    playback.utterances.map (fun utterance =>
      (utterance.audio.length, utterance.firstSent, utterance.past)))

theorem latest_of_view {S : Type} {device : Output S} {playback : Playback S} {length : Nat}
    {rest : List (Nat × Option ℚ × Bool)} {start : Option ℚ} {past : Bool} {answer : Option Int}
    (view : playback.view device = (answer, (length, start, past) :: rest)) :
    ∃ latest older, playback.utterances = latest :: older ∧ latest.audio.length = length := by
  obtain ⟨latest, older, whole, seen, -⟩ := List.map_eq_cons_iff.mp (congrArg Prod.snd view)
  exact ⟨latest, older, whole, congrArg Prod.fst seen⟩

def shortChunks : ChunkSizes := ⟨1, 2, by decide, by decide⟩

def twoReplies : List Event :=
  [.push (List.replicate 240 0), .endUtterance, .advance (1 / 100), .playbackFinished 0,
    .push (List.replicate 480 0), .advance (1 / 250)]

theorem twoReplies_answers :
    (∃ playback, Run (LiveAvatarSocketOutput.CarefulStep shortChunks) ⟨0, .initial, []⟩ twoReplies
        playback ∧
      Answers (LiveAvatarSocketOutput.device shortChunks) playback (some 4)) ∧
    ∃ playback, Run AvatarAudioOutput.CarefulStep ⟨0, .initial, []⟩ twoReplies playback ∧
      Answers AvatarAudioOutput.device playback (some 4) := by
  constructor
  · obtain ⟨playback, steps, view⟩ := Run.of_guardedStep
      (step (LiveAvatarSocketOutput.device shortChunks))
      (LiveAvatarSocketOutput.Careful shortChunks) ⟨0, .initial, []⟩ twoReplies
      (fun playback => playback.view (LiveAvatarSocketOutput.device shortChunks))
      (some 4, [(432, some (1 / 100), false), (240, some 0, true)]) (by decide +kernel)
    have answer : (LiveAvatarSocketOutput.interrupt playback.clock playback.output).2 = some 4 :=
      congrArg Prod.fst view
    obtain ⟨latest, older, whole, length⟩ := latest_of_view view
    have answers := (interrupt_answers 0 twoReplies).1 shortChunks playback steps (by
      intro _ other same
      rw [whole] at same
      cases same
      exact List.ne_nil_of_length_pos (by omega))
    rw [answer] at answers
    exact ⟨playback, steps, answers⟩
  · obtain ⟨playback, steps, view⟩ := Run.of_guardedStep (step AvatarAudioOutput.device)
      AvatarAudioOutput.Careful ⟨0, .initial, []⟩ twoReplies
      (fun playback => playback.view AvatarAudioOutput.device)
      (some 4, [(480, some (1 / 100), false), (240, some 0, true)]) (by decide +kernel)
    have answer : (AvatarAudioOutput.interrupt playback.clock playback.output).2 = some 4 :=
      congrArg Prod.fst view
    have answers := (interrupt_answers 0 twoReplies).2 playback steps trivial
    rw [answer] at answers
    exact ⟨playback, steps, answers⟩

/-! ### One utterance behind another -/

def secondReplyEarly : List Event :=
  [.push (List.replicate 4800 0), .endUtterance, .advance (1 / 20), .push (List.replicate 48 0)]

def firstReplyReported : List Event :=
  [.push (List.replicate 48 0), .endUtterance, .push (List.replicate 48 0), .endUtterance,
    .playbackFinished 0]

theorem not_answers_of_length {S : Type} {device : Output S} {playback : Playback S}
    {length : Nat} {rest : List (Nat × Option ℚ × Bool)} {start : Option ℚ} {past : Bool}
    {answer : Option Int} {heard : Int}
    (view : playback.view device = (answer, (length, start, past) :: rest))
    (above : ¬ (heard : ℚ) ≤ (length : ℚ) / 48) :
    ¬ Answers device playback (some heard) := by
  rintro ⟨latest, older, whole, below, -⟩
  obtain ⟨other, _, same, length⟩ := latest_of_view view
  rw [whole] at same
  cases same
  rw [duration, length] at below
  exact above below

/-- Fifty milliseconds are answered of a reply of one, and nothing is left to be heard while the
second reply is. -/
theorem interrupt_answers_wrong :
    (∃ playback, Run (Step AvatarAudioOutput.device) ⟨0, .initial, []⟩ secondReplyEarly playback ∧
      ¬ Answers AvatarAudioOutput.device playback
        (AvatarAudioOutput.interrupt playback.clock playback.output).2) ∧
    (∃ playback, Run (Step AvatarAudioOutput.device) ⟨0, .initial, []⟩ firstReplyReported playback ∧
      ¬ Answers AvatarAudioOutput.device playback
        (AvatarAudioOutput.interrupt playback.clock playback.output).2) ∧
    ∃ playback, Run (Step (LiveAvatarSocketOutput.device shortChunks)) ⟨0, .initial, []⟩
        secondReplyEarly playback ∧
      ¬ Answers (LiveAvatarSocketOutput.device shortChunks) playback
        (LiveAvatarSocketOutput.interrupt playback.clock playback.output).2 := by
  refine ⟨?_, ?_, ?_⟩
  · obtain ⟨playback, run, view⟩ := Run.of_foldlM_map (step AvatarAudioOutput.device)
      ⟨0, .initial, []⟩ secondReplyEarly (fun playback => playback.view AvatarAudioOutput.device)
      (some 50, [(48, some (1 / 20), false), (4800, some 0, false)]) (by decide +kernel)
    have answer : (AvatarAudioOutput.interrupt playback.clock playback.output).2 = some 50 :=
      congrArg Prod.fst view
    refine ⟨playback, run, ?_⟩
    rw [answer]
    exact not_answers_of_length view (by norm_num)
  · obtain ⟨playback, run, view⟩ := Run.of_foldlM_map (step AvatarAudioOutput.device)
      ⟨0, .initial, []⟩ firstReplyReported (fun playback => playback.view AvatarAudioOutput.device)
      (none, [(48, some 0, false), (48, some 0, true)]) (by decide +kernel)
    have answer : (AvatarAudioOutput.interrupt playback.clock playback.output).2 = none :=
      congrArg Prod.fst view
    have seen := congrArg Prod.snd view
    refine ⟨playback, run, ?_⟩
    rw [answer]
    rintro ⟨-, past⟩
    have listed : (48, some 0, false) ∈ playback.utterances.map (fun utterance =>
        (utterance.audio.length, utterance.firstSent, utterance.past)) := by
      change playback.utterances.map _ = _ at seen
      rw [seen]
      exact List.mem_cons_self
    obtain ⟨utterance, member, same⟩ := List.mem_map.mp listed
    simp only [Prod.mk.injEq] at same
    have sent : utterance.audio ≠ [] := by
      intro none
      rw [none] at same
      exact absurd same.1 (by decide)
    rw [past utterance member sent] at same
    exact absurd same.2.2 (by decide)
  · obtain ⟨playback, run, view⟩ := Run.of_foldlM_map
      (step (LiveAvatarSocketOutput.device shortChunks)) ⟨0, .initial, []⟩ secondReplyEarly
      (fun playback => playback.view (LiveAvatarSocketOutput.device shortChunks))
      (some 50, [(48, some (1 / 20), false), (4800, some 0, false)]) (by decide +kernel)
    have answer : (LiveAvatarSocketOutput.interrupt playback.clock playback.output).2 = some 50 :=
      congrArg Prod.fst view
    refine ⟨playback, run, ?_⟩
    rw [answer]
    exact not_answers_of_length view (by norm_num)

end Assemblix.AvatarOutput
