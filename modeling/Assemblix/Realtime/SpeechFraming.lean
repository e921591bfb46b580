import Assemblix.Realtime.HeardByAvatar

/-
The audio of an utterance on the session socket.

The socket stays alive. The avatar reports what it likes, and time passes as it likes: neither has
any part in how the audio is cut.
-/

namespace Assemblix.AvatarOutput

open Library

inductive SocketMessage
  | speak (audio : List UInt8) (eventId : Option Nat)
  | speakEnd
  | interrupt
  deriving DecidableEq

namespace LiveAvatarSocketOutput

/-! ### What the calls send -/

/-- The message of `_speak`; the id of the utterance goes with its first chunk. -/
def speakMessage (chunk : List UInt8) (output : LiveAvatarSocketOutput) : SocketMessage :=
  .speak chunk (if output.chunksSent = 0 then output.utteranceId else none)

/-- The messages of the loop of `push`. -/
def drainMessages (sizes : ChunkSizes) (clock : ℚ) :
    Nat → LiveAvatarSocketOutput → List SocketMessage
  | 0, _ => []
  | rounds + 1, output =>
      let size := output.nextChunkBytes sizes
      if size ≤ output.buffer.length then
        let chunk := output.buffer.take size
        let emptied := { output with buffer := output.buffer.drop size }
        speakMessage chunk emptied :: drainMessages sizes clock rounds (speak clock chunk emptied)
      else []

def pushMessages (sizes : ChunkSizes) (clock : ℚ) (fresh : Nat) (pcm : List UInt8)
    (output : LiveAvatarSocketOutput) : List SocketMessage :=
  let filled := { output with buffer := output.buffer ++ pcm }
  drainMessages sizes clock (filled.buffer.length + 1) (filled.openUtterance fresh)

def endMessages (clock : ℚ) (output : LiveAvatarSocketOutput) : List SocketMessage :=
  match output.utteranceId with
  | none => []
  | some _ =>
      let tail := output.buffer
      let emptied := { output with buffer := [] }
      let spoken := if tail = [] then emptied else speak clock tail emptied
      (if tail = [] then [] else [speakMessage tail emptied]) ++
        if spoken.chunksSent = 0 then [] else [.speakEnd]

def interruptMessages (output : LiveAvatarSocketOutput) : List SocketMessage :=
  if output.playing = true ∧ output.closed = false then [.interrupt] else []

end LiveAvatarSocketOutput

/-! ### The utterances of a call -/

inductive SpeechEnding
  | speaking
  | ended
  /-- The audio that was buffered is dropped. -/
  | interrupted (buffered : List UInt8)
  deriving DecidableEq

/-- An utterance: what was pushed for it, and what went over the socket from its first push to that
of the next one. -/
structure Speech where
  pushed : List UInt8
  ending : SpeechEnding
  wire : List SocketMessage

structure SpeechLine where
  clock : ℚ
  output : LiveAvatarSocketOutput
  speeches : List Speech
  socket : List SocketMessage

namespace SpeechLine

def initial (clock : ℚ) : SpeechLine := ⟨clock, .initial, [], []⟩

def updateLatest (change : Speech → Speech) : List Speech → List Speech
  | [] => []
  | latest :: older => change latest :: older

def close (line : SpeechLine) (ending : SpeechEnding) (messages : List SocketMessage) :
    List Speech :=
  updateLatest (fun latest =>
    { latest with
      ending := if line.output.utteranceId = none then latest.ending else ending
      wire := latest.wire ++ messages }) line.speeches

def step (sizes : ChunkSizes) (line : SpeechLine) : Event → Option SpeechLine
  | .push pcm =>
      let messages := line.output.pushMessages sizes line.clock line.speeches.length pcm
      (line.output.push sizes line.clock line.speeches.length pcm).map fun after =>
        { line with
          output := after.1
          speeches := match line.output.utteranceId with
            | none => ⟨pcm, .speaking, messages⟩ :: line.speeches
            | some _ => updateLatest (fun latest =>
                { latest with pushed := latest.pushed ++ pcm, wire := latest.wire ++ messages })
                line.speeches
          socket := line.socket ++ messages }
  | .endUtterance =>
      let messages := line.output.endMessages line.clock
      (line.output.endUtterance line.clock).map fun after =>
        { line with
          output := after.1
          speeches := line.close .ended messages
          socket := line.socket ++ messages }
  | .interrupt =>
      let messages := line.output.interruptMessages
      some { line with
        output := (line.output.interrupt line.clock).1
        speeches := line.close (.interrupted line.output.buffer) messages
        socket := line.socket ++ messages }
  | .playbackFinished utterance =>
      some { line with output := line.output.speakEnded utterance }
  | .advance seconds => some { line with clock := line.clock + seconds }
  | .hangUp => none

def Step (sizes : ChunkSizes) (line : SpeechLine) (event : Event) (next : SpeechLine) : Prop :=
  line.step sizes event = some next

end SpeechLine

/-! ### What an utterance looks like on the socket -/

def chunkBytes (sizes : ChunkSizes) (index : Nat) : Nat :=
  if index = 0 then sizes.firstChunkMs * bytesPerMs else sizes.chunkMs * bytesPerMs

/-- The first chunk has its length and every further one has the other; the last one may be
shorter, but not empty. -/
def Framed (sizes : ChunkSizes) (chunks : List (List UInt8)) : Prop :=
  ∀ index chunk, chunks[index]? = some chunk → chunk ≠ [] ∧
    (chunk.length = chunkBytes sizes index ∨
      index + 1 = chunks.length ∧ chunk.length < chunkBytes sizes index)

def speaks (id : Nat) : Nat → List (List UInt8) → List SocketMessage
  | _, [] => []
  | sent, chunk :: rest =>
      .speak chunk (if sent = 0 then some id else none) :: speaks id (sent + 1) rest

def SpeechEnding.seal (chunks : List (List UInt8)) : SpeechEnding → List SocketMessage
  | .ended => if chunks = [] then [] else [.speakEnd]
  | .speaking | .interrupted _ => []

/-- The audio of an utterance that does not go over the socket, or not yet. -/
def SpeechEnding.unsent (buffer : List UInt8) : SpeechEnding → List UInt8
  | .speaking => buffer
  | .ended => []
  | .interrupted buffered => buffered

def Delivered (sizes : ChunkSizes) (id : Nat) (unsent : List UInt8) (speech : Speech) : Prop :=
  ∃ (chunks : List (List UInt8)) (stops : Nat), Framed sizes chunks ∧
    chunks.flatten ++ unsent = speech.pushed ∧
    speech.wire =
      speaks id 0 chunks ++ speech.ending.seal chunks ++ List.replicate stops .interrupt

/-! ### Chunks -/

variable {sizes : ChunkSizes} {clock : ℚ}

def Whole (sizes : ChunkSizes) : Nat → List (List UInt8) → Prop
  | _, [] => True
  | sent, chunk :: rest => chunk.length = chunkBytes sizes sent ∧ Whole sizes (sent + 1) rest

theorem chunkBytes_pos (sizes : ChunkSizes) (index : Nat) : 0 < chunkBytes sizes index := by
  have first := sizes.first_pos
  have chunk := sizes.chunk_pos
  unfold chunkBytes bytesPerMs avatarSampleRate bytesPerSample
  split <;> omega

theorem Whole.append {chunks more : List (List UInt8)} {sent : Nat}
    (whole : Whole sizes sent chunks)
    (later : Whole sizes (sent + chunks.length) more) : Whole sizes sent (chunks ++ more) := by
  induction chunks generalizing sent with
  | nil => exact later
  | cons chunk rest ih =>
      refine ⟨whole.1, ih whole.2 ?_⟩
      rw [List.length_cons] at later
      rwa [Nat.add_assoc, Nat.add_comm 1]

theorem Whole.length {chunks : List (List UInt8)} {sent : Nat} (whole : Whole sizes sent chunks)
    {index : Nat} {chunk : List UInt8} (listed : chunks[index]? = some chunk) :
    chunk.length = chunkBytes sizes (sent + index) := by
  induction chunks generalizing sent index with
  | nil => cases listed
  | cons first rest ih =>
      cases index with
      | zero =>
          cases listed
          exact whole.1
      | succ index =>
          have later := ih whole.2 listed
          rwa [Nat.add_assoc, Nat.add_comm 1] at later

theorem Whole.framed {chunks : List (List UInt8)} (whole : Whole sizes 0 chunks) :
    Framed sizes chunks := by
  intro index chunk listed
  have length := whole.length listed
  rw [Nat.zero_add] at length
  refine ⟨?_, .inl length⟩
  exact List.ne_nil_of_length_pos (length ▸ chunkBytes_pos sizes index)

theorem Whole.framed_tail {chunks : List (List UInt8)} (whole : Whole sizes 0 chunks)
    {tail : List UInt8} (more : tail ≠ []) (short : tail.length < chunkBytes sizes chunks.length) :
    Framed sizes (chunks ++ [tail]) := by
  intro index chunk listed
  rcases Nat.lt_or_ge index chunks.length with inside | beyond
  · rw [List.getElem?_append_left inside] at listed
    have length := whole.length listed
    rw [Nat.zero_add] at length
    exact ⟨(whole.framed index chunk listed).1, .inl length⟩
  · rw [List.getElem?_append_right beyond] at listed
    obtain ⟨last, same⟩ := List.getElem?_eq_some_iff.mp listed
    rw [List.length_singleton] at last
    have place : index = chunks.length := by omega
    rw [List.getElem_singleton] at same
    rw [← same, place]
    exact ⟨more, .inr ⟨by rw [List.length_append, List.length_singleton], short⟩⟩

theorem speaks_append (id sent : Nat) (chunks more : List (List UInt8)) :
    speaks id sent (chunks ++ more) =
      speaks id sent chunks ++ speaks id (sent + chunks.length) more := by
  induction chunks generalizing sent with
  | nil => rfl
  | cons chunk rest ih =>
      rw [List.cons_append, speaks, speaks, ih, List.cons_append, List.length_cons]
      rw [Nat.add_assoc, Nat.add_comm 1]

/-! ### An utterance that goes on -/

structure Unfinished (sizes : ChunkSizes) (id : Nat) (output : LiveAvatarSocketOutput)
    (speech : Speech) (chunks : List (List UInt8)) : Prop where
  opened : output.utteranceId = some id
  count : output.chunksSent = chunks.length
  whole : Whole sizes 0 chunks
  wire : speech.wire = speaks id 0 chunks
  pushed : chunks.flatten ++ output.buffer = speech.pushed
  ending : speech.ending = .speaking

namespace LiveAvatarSocketOutput

theorem nextChunkBytes_eq (output : LiveAvatarSocketOutput) :
    output.nextChunkBytes sizes = chunkBytes sizes output.chunksSent := rfl

theorem speak_fields (chunk : List UInt8) (output : LiveAvatarSocketOutput) :
    (speak clock chunk output).utteranceId = output.utteranceId ∧
      (speak clock chunk output).chunksSent = output.chunksSent + 1 ∧
      (speak clock chunk output).buffer = output.buffer ∧
      (speak clock chunk output).closed = output.closed := by
  unfold speak
  dsimp only
  split <;> exact ⟨rfl, rfl, rfl, rfl⟩

/-- The loop of `push` cuts chunks of full length off the buffer. -/
theorem drain_frames (rounds : Nat) {output : LiveAvatarSocketOutput} {id : Nat}
    (opened : output.utteranceId = some id) :
    ∃ chunks, Whole sizes output.chunksSent chunks ∧
      drainMessages sizes clock rounds output = speaks id output.chunksSent chunks ∧
      (drain sizes clock rounds output).1.utteranceId = some id ∧
      (drain sizes clock rounds output).1.chunksSent = output.chunksSent + chunks.length ∧
      chunks.flatten ++ (drain sizes clock rounds output).1.buffer = output.buffer ∧
      (drain sizes clock rounds output).1.closed = output.closed := by
  induction rounds generalizing output with
  | zero => exact ⟨[], trivial, rfl, opened, rfl, rfl, rfl⟩
  | succ rounds ih =>
      rw [drainMessages, drain]
      dsimp only
      by_cases full : output.nextChunkBytes sizes ≤ output.buffer.length
      · rw [if_pos full, if_pos full]
        obtain ⟨named, count, buffer, closed⟩ := @speak_fields clock
          (output.buffer.take (output.nextChunkBytes sizes))
          { output with buffer := output.buffer.drop (output.nextChunkBytes sizes) }
        obtain ⟨chunks, whole, messages, still, sent, rest, alive⟩ := ih (named.trans opened)
        rw [count] at whole messages sent
        refine ⟨output.buffer.take (output.nextChunkBytes sizes) :: chunks, ⟨?_, whole⟩, ?_, still,
          ?_, ?_, alive.trans closed⟩
        · rw [List.length_take, Nat.min_eq_left full, nextChunkBytes_eq]
        · rw [messages, speaks, speakMessage, opened]
        · rw [sent, List.length_cons]
          exact Nat.add_right_comm _ _ _
        · rw [List.flatten_cons, List.append_assoc, rest, buffer]
          exact List.take_append_drop _ _
      · rw [if_neg full, if_neg full]
        exact ⟨[], trivial, rfl, opened, rfl, rfl, rfl⟩

end LiveAvatarSocketOutput

open LiveAvatarSocketOutput

theorem Unfinished.drain {output : LiveAvatarSocketOutput} {speech : Speech} {id : Nat}
    {chunks : List (List UInt8)} (unfinished : Unfinished sizes id output speech chunks)
    (rounds : Nat) :
    ∃ all, Unfinished sizes id (LiveAvatarSocketOutput.drain sizes clock rounds output).1
      { speech with wire := speech.wire ++ drainMessages sizes clock rounds output } all := by
  obtain ⟨more, whole, messages, opened, count, buffer, _⟩ :=
    @drain_frames sizes clock rounds output id unfinished.opened
  rw [unfinished.count] at whole messages count
  refine ⟨chunks ++ more, opened, ?_, ?_, ?_, ?_, unfinished.ending⟩
  · rw [count, List.length_append]
  · refine unfinished.whole.append ?_
    rwa [Nat.zero_add]
  · change speech.wire ++ _ = _
    rw [messages, unfinished.wire, speaks_append, Nat.zero_add]
  · rw [List.flatten_append, List.append_assoc, buffer]
    exact unfinished.pushed

/-! ### What a call keeps -/

def AllDelivered (sizes : ChunkSizes) : List Speech → Prop
  | [] => True
  | latest :: older =>
      (latest.ending ≠ .speaking ∧ Delivered sizes older.length (latest.ending.unsent []) latest) ∧
        AllDelivered sizes older

/-- No utterance is open and nothing is buffered, or the latest one is open and less than a chunk
of it is buffered. -/
inductive Phase (sizes : ChunkSizes) (output : LiveAvatarSocketOutput) : List Speech → Prop
  | idle {speeches : List Speech} (closed : output.utteranceId = none) (empty : output.buffer = [])
      (quiet : speeches = [] → output.playing = false) (all : AllDelivered sizes speeches) :
      Phase sizes output speeches
  | speaking {latest : Speech} {older : List Speech} {chunks : List (List UInt8)}
      (unfinished : Unfinished sizes older.length output latest chunks)
      (short : output.buffer.length < output.nextChunkBytes sizes)
      (all : AllDelivered sizes older) : Phase sizes output (latest :: older)

structure Framing (sizes : ChunkSizes) (line : SpeechLine) : Prop where
  alive : line.output.closed = false
  logged : line.socket = line.speeches.reverse.flatMap Speech.wire
  phase : Phase sizes line.output line.speeches

open SpeechLine

theorem wires_updateLatest {change : Speech → Speech} {messages : List SocketMessage}
    (grows : ∀ speech, (change speech).wire = speech.wire ++ messages) {speeches : List Speech}
    (none : speeches = [] → messages = []) :
    (updateLatest change speeches).reverse.flatMap Speech.wire =
      speeches.reverse.flatMap Speech.wire ++ messages := by
  cases speeches with
  | nil =>
      rw [none rfl, List.append_nil]
      rfl
  | cons latest older =>
      rw [updateLatest, List.reverse_cons, List.reverse_cons, List.flatMap_append,
        List.flatMap_append, List.flatMap_singleton, List.flatMap_singleton, grows,
        List.append_assoc]

theorem Delivered.stopped {id : Nat} {unsent : List UInt8} {speech : Speech}
    (delivered : Delivered sizes id unsent speech) (stops : Nat) :
    Delivered sizes id unsent
      { speech with wire := speech.wire ++ List.replicate stops .interrupt } := by
  obtain ⟨chunks, before, framed, pushed, wire⟩ := delivered
  refine ⟨chunks, before + stops, framed, pushed, ?_⟩
  change speech.wire ++ _ = _
  rw [wire, List.append_assoc, List.append_assoc, ← List.replicate_append_replicate,
    List.append_assoc]

theorem endMessages_eq {output : LiveAvatarSocketOutput} {id : Nat}
    (opened : output.utteranceId = some id) :
    output.endMessages clock =
      if output.buffer = [] then (if output.chunksSent = 0 then [] else [.speakEnd])
      else [.speak output.buffer (if output.chunksSent = 0 then some id else none), .speakEnd] := by
  obtain ⟨_, count, _⟩ := @speak_fields clock output.buffer { output with buffer := [] }
  unfold endMessages
  split
  case h_1 none => rw [opened] at none; cases none
  case h_2 =>
    dsimp only
    by_cases rest : output.buffer = []
    · rw [if_pos rest, if_pos rest, if_pos rest, List.nil_append]
    · rw [if_neg rest, if_neg rest, if_neg rest, count, if_neg (Nat.succ_ne_zero _), speakMessage,
        opened]
      rfl

theorem Unfinished.ended {output : LiveAvatarSocketOutput} {speech : Speech} {id : Nat}
    {chunks : List (List UInt8)} (unfinished : Unfinished sizes id output speech chunks)
    (short : output.buffer.length < output.nextChunkBytes sizes) :
    Delivered sizes id []
      { speech with ending := .ended, wire := speech.wire ++ output.endMessages clock } := by
  rw [endMessages_eq unfinished.opened, unfinished.count, unfinished.wire]
  by_cases rest : output.buffer = []
  · rw [if_pos rest]
    refine ⟨chunks, 0, unfinished.whole.framed, ?_, ?_⟩
    · rw [← unfinished.pushed, rest]
    · rw [List.replicate_zero, List.append_nil, SpeechEnding.seal]
      simp only [List.length_eq_zero_iff]
  · rw [if_neg rest]
    rw [nextChunkBytes_eq, unfinished.count] at short
    refine ⟨chunks ++ [output.buffer], 0, unfinished.whole.framed_tail rest short, ?_, ?_⟩
    · rw [List.flatten_append, List.flatten_singleton, List.append_nil]
      exact unfinished.pushed
    · rw [List.replicate_zero, List.append_nil, SpeechEnding.seal,
        if_neg (List.append_ne_nil_of_right_ne_nil _ (List.cons_ne_nil _ _)), speaks_append,
        Nat.zero_add, List.append_assoc]
      rfl

theorem Unfinished.interrupted {output : LiveAvatarSocketOutput} {speech : Speech} {id : Nat}
    {chunks : List (List UInt8)} (unfinished : Unfinished sizes id output speech chunks)
    (stops : Nat) :
    Delivered sizes id output.buffer
      { speech with
        ending := .interrupted output.buffer
        wire := speech.wire ++ List.replicate stops .interrupt } := by
  refine ⟨chunks, stops, unfinished.whole.framed, unfinished.pushed, ?_⟩
  change speech.wire ++ _ = _
  rw [unfinished.wire, SpeechEnding.seal, List.append_nil]

namespace LiveAvatarSocketOutput

theorem interruptMessages_eq (output : LiveAvatarSocketOutput) :
    output.interruptMessages =
      List.replicate (if output.playing = true ∧ output.closed = false then 1 else 0)
        .interrupt := by
  unfold interruptMessages
  split <;> rfl

theorem openUtterance_of_some {output : LiveAvatarSocketOutput} {id : Nat}
    (opened : output.utteranceId = some id) (fresh : Nat) :
    output.openUtterance fresh = output := by
  unfold openUtterance
  split
  case h_1 none => rw [opened] at none; cases none
  case h_2 => rfl

theorem interrupt_fields {output : LiveAvatarSocketOutput}
    (empty : output.utteranceId = none → output.buffer = []) :
    (output.interrupt clock).1.utteranceId = none ∧ (output.interrupt clock).1.buffer = [] ∧
      (output.interrupt clock).1.playing = false ∧
      (output.interrupt clock).1.closed = output.closed := by
  unfold interrupt
  by_cases idle : output.utteranceId = none ∧ output.playing = false
  · rw [if_pos idle]
    exact ⟨idle.1, empty idle.1, idle.2, rfl⟩
  · rw [if_neg idle]
    by_cases silent : output.playing = false
    · rw [if_pos silent]
      exact ⟨rfl, rfl, silent, rfl⟩
    · rw [if_neg silent]
      exact ⟨rfl, rfl, rfl, rfl⟩

end LiveAvatarSocketOutput

/-! ### One call keeps it -/

theorem Phase.empty {output : LiveAvatarSocketOutput} {speeches : List Speech}
    (phase : Phase sizes output speeches) (closed : output.utteranceId = none) :
    output.buffer = [] := by
  cases phase with
  | idle _ empty _ _ => exact empty
  | speaking unfinished _ _ =>
      rw [unfinished.opened] at closed
      cases closed

theorem wires_cons (latest : Speech) (older : List Speech) :
    (latest :: older).reverse.flatMap Speech.wire =
      older.reverse.flatMap Speech.wire ++ latest.wire := by
  rw [List.reverse_cons, List.flatMap_append, List.flatMap_singleton]

theorem Phase.push {output : LiveAvatarSocketOutput} {speeches : List Speech}
    (phase : Phase sizes output speeches) (pcm : List UInt8) :
    ∃ latest older chunks, AllDelivered sizes older ∧
      Unfinished sizes older.length
        ({ output with buffer := output.buffer ++ pcm }.openUtterance speeches.length) latest
        chunks ∧
      speeches.reverse.flatMap Speech.wire = older.reverse.flatMap Speech.wire ++ latest.wire ∧
      ∀ messages, (match output.utteranceId with
        | none => ⟨pcm, .speaking, messages⟩ :: speeches
        | some _ => updateLatest (fun latest =>
            { latest with pushed := latest.pushed ++ pcm, wire := latest.wire ++ messages })
            speeches) = { latest with wire := latest.wire ++ messages } :: older := by
  cases phase with
  | idle closed empty _ all =>
      refine ⟨⟨pcm, .speaking, []⟩, speeches, [], all, ?_, (List.append_nil _).symm,
        fun messages => by rw [closed]; rfl⟩
      unfold openUtterance
      rw [closed]
      exact ⟨rfl, rfl, trivial, rfl, by rw [empty]; rfl, rfl⟩
  | @speaking latest older chunks unfinished _ all =>
      refine ⟨{ latest with pushed := latest.pushed ++ pcm }, older, chunks, all, ?_,
        wires_cons latest older, fun messages => by rw [unfinished.opened]; rfl⟩
      rw [@openUtterance_of_some { output with buffer := output.buffer ++ pcm } _
        unfinished.opened]
      refine ⟨unfinished.opened, unfinished.count, unfinished.whole, unfinished.wire, ?_,
        unfinished.ending⟩
      change chunks.flatten ++ (output.buffer ++ pcm) = latest.pushed ++ pcm
      rw [← List.append_assoc, unfinished.pushed]

theorem Framing.push {line next : SpeechLine} (framing : Framing sizes line) {pcm : List UInt8}
    (taken : line.step sizes (.push pcm) = some next) : Framing sizes next := by
  obtain ⟨latest, older, chunks, all, unfinished, wires, speeches⟩ := framing.phase.push pcm
  rw [SpeechLine.step, LiveAvatarSocketOutput.push,
    if_neg (by rw [framing.alive]; exact Bool.false_ne_true)] at taken
  cases taken
  obtain ⟨more, drained⟩ := @Unfinished.drain sizes line.clock _ _ _ _ unfinished
    ((line.output.buffer ++ pcm).length + 1)
  obtain ⟨_, _, _, _, _, _, closed⟩ := @drain_frames sizes line.clock
    ((line.output.buffer ++ pcm).length + 1) _ _ unfinished.opened
  refine ⟨?_, ?_, ?_⟩
  · refine closed.trans ?_
    unfold openUtterance
    split <;> exact framing.alive
  · dsimp only
    rw [speeches, wires_cons, framing.logged, wires, List.append_assoc]
  · dsimp only
    rw [speeches]
    refine .speaking drained (drain_buffer _ ?_) all
    rw [(openUtterance_buffer _).1]
    exact Nat.lt_succ_self _

/-- A call that closes the utterance, if one is open: otherwise all it may send is a command to
stop what is playing. -/
theorem Framing.close {line : SpeechLine} (framing : Framing sizes line)
    {after : LiveAvatarSocketOutput} {ending : SpeechEnding} {messages : List SocketMessage}
    (alive : after.closed = false) (closed : after.utteranceId = none) (empty : after.buffer = [])
    (idle : line.output.utteranceId = none → ∃ stops, messages = List.replicate stops .interrupt ∧
      (line.output.playing = false → stops = 0 ∧ after.playing = false))
    (final : ending ≠ .speaking)
    (speaking : ∀ id speech chunks, Unfinished sizes id line.output speech chunks →
      line.output.buffer.length < line.output.nextChunkBytes sizes →
        Delivered sizes id (ending.unsent [])
          { speech with ending := ending, wire := speech.wire ++ messages }) :
    Framing sizes
      ⟨line.clock, after, line.close ending messages, line.socket ++ messages⟩ := by
  obtain ⟨clock, output, speeches, socket⟩ := line
  obtain ⟨_, logged, phase⟩ := framing
  have wires : (speeches = [] → messages = []) → socket ++ messages =
      (SpeechLine.close ⟨clock, output, speeches, socket⟩ ending messages).reverse.flatMap
        Speech.wire := by
    intro none
    rw [SpeechLine.close, wires_updateLatest (fun _ => rfl) none]
    exact congrArg (· ++ messages) logged
  cases phase with
  | idle before _ quiet all =>
      obtain ⟨stops, sent, silent⟩ := idle before
      refine ⟨alive, wires ?_, .idle closed empty ?_ ?_⟩
      · intro none
        rw [sent, (silent (quiet none)).1]
        rfl
      · intro none
        cases speeches with
        | nil => exact (silent (quiet rfl)).2
        | cons latest older => cases none
      · cases speeches with
        | nil => trivial
        | cons latest older =>
            obtain ⟨⟨apart, delivered⟩, others⟩ := all
            unfold SpeechLine.close updateLatest
            dsimp only
            rw [if_pos before, sent]
            exact ⟨⟨apart, delivered.stopped stops⟩, others⟩
  | @speaking latest older chunks unfinished short all =>
      refine ⟨alive, wires (fun none => by cases none), .idle closed empty (fun none => ?_) ?_⟩
      · cases none
      · unfold SpeechLine.close updateLatest
        dsimp only
        rw [unfinished.opened, if_neg (Option.some_ne_none _)]
        exact ⟨⟨final, speaking _ latest chunks unfinished short⟩, all⟩

theorem endUtterance_fields {output : LiveAvatarSocketOutput} (alive : output.closed = false)
    (empty : output.utteranceId = none → output.buffer = []) :
    ∃ after, output.endUtterance clock = some after ∧ after.1.closed = false ∧
      after.1.utteranceId = none ∧ after.1.buffer = [] ∧
      (output.utteranceId = none → after.1.playing = output.playing) := by
  unfold LiveAvatarSocketOutput.endUtterance
  rw [if_neg (by rw [alive]; exact Bool.false_ne_true)]
  split
  case h_1 none => exact ⟨_, rfl, alive, none, empty none, fun _ => rfl⟩
  case h_2 id opened =>
    dsimp only
    split
    case isTrue =>
      exact ⟨_, rfl, alive, rfl, rfl, fun none => absurd (opened.symm.trans none) nofun⟩
    case isFalse =>
      obtain ⟨_, _, buffer, closed⟩ :=
        @speak_fields clock output.buffer { output with buffer := [] }
      exact ⟨_, rfl, closed.trans alive, rfl, buffer,
        fun none => absurd (opened.symm.trans none) nofun⟩

theorem Framing.step {line next : SpeechLine} (framing : Framing sizes line) {event : Event}
    (taken : SpeechLine.Step sizes line event next) : Framing sizes next := by
  cases event with
  | push pcm => exact framing.push taken
  | endUtterance =>
      obtain ⟨after, ended, alive, closed, empty, playing⟩ := @endUtterance_fields line.clock
        line.output framing.alive framing.phase.empty
      rw [SpeechLine.Step, SpeechLine.step, ended] at taken
      cases taken
      refine framing.close alive closed empty ?_ (by simp) ?_
      · intro idle
        refine ⟨0, ?_, fun silent => ⟨rfl, (playing idle).trans silent⟩⟩
        unfold endMessages
        rw [idle]
        rfl
      · intro id speech chunks unfinished short
        exact unfinished.ended short
  | interrupt =>
      obtain ⟨closed, empty, silent, alive⟩ := @interrupt_fields line.clock line.output
        framing.phase.empty
      cases taken
      refine framing.close (alive.trans framing.alive) closed empty ?_ (by simp) ?_
      · intro _
        refine ⟨_, interruptMessages_eq _, fun quiet => ⟨if_neg ?_, silent⟩⟩
        rw [quiet]
        exact fun both => Bool.false_ne_true both.1
      · intro id speech chunks unfinished _
        rw [interruptMessages_eq]
        exact unfinished.interrupted _
  | playbackFinished utterance =>
      obtain ⟨clock, output, speeches, socket⟩ := line
      cases taken
      obtain ⟨alive, logged, phase⟩ := framing
      unfold LiveAvatarSocketOutput.speakEnded
      by_cases last : output.utteranceId = none ∧ output.lastUtteranceId = some utterance
      · rw [if_pos last]
        refine ⟨alive, logged, ?_⟩
        cases phase with
        | idle closed empty _ all => exact .idle closed empty (fun _ => rfl) all
        | speaking unfinished _ _ => exact absurd (unfinished.opened.symm.trans last.1) nofun
      · rw [if_neg last]
        exact ⟨alive, logged, phase⟩
  | advance seconds =>
      cases taken
      exact { framing with }
  | hangUp => cases taken

theorem Framing.taken {line : SpeechLine} (framing : Framing sizes line) {event : Event}
    (stays : event ≠ .hangUp) : ∃ next, SpeechLine.Step sizes line event next := by
  cases event with
  | push pcm =>
      unfold SpeechLine.Step SpeechLine.step LiveAvatarSocketOutput.push
      dsimp only
      rw [if_neg (by rw [framing.alive]; exact Bool.false_ne_true)]
      exact ⟨_, rfl⟩
  | endUtterance =>
      obtain ⟨after, ended, _⟩ := @endUtterance_fields line.clock line.output framing.alive
        framing.phase.empty
      unfold SpeechLine.Step SpeechLine.step
      dsimp only
      rw [ended]
      exact ⟨_, rfl⟩
  | interrupt => exact ⟨_, rfl⟩
  | playbackFinished utterance => exact ⟨_, rfl⟩
  | advance seconds => exact ⟨_, rfl⟩
  | hangUp => exact absurd rfl stays

theorem Framing.initial (sizes : ChunkSizes) (clock : ℚ) : Framing sizes (.initial clock) :=
  ⟨rfl, rfl, .idle rfl rfl (fun _ => rfl) trivial⟩

theorem AllDelivered.delivered {newer older : List Speech} {speech : Speech}
    (all : AllDelivered sizes (newer ++ speech :: older)) (buffer : List UInt8) :
    Delivered sizes older.length (speech.ending.unsent buffer) speech := by
  induction newer with
  | nil =>
      obtain ⟨⟨apart, delivered⟩, _⟩ := all
      cases ending : speech.ending with
      | speaking => exact absurd ending apart
      | ended => rwa [ending] at delivered
      | interrupted buffered => rwa [ending] at delivered
  | cons latest newer ih => exact ih all.2

theorem Framing.delivered {line : SpeechLine} (framing : Framing sizes line)
    {newer older : List Speech} {speech : Speech}
    (listed : line.speeches = newer ++ speech :: older) :
    Delivered sizes older.length (speech.ending.unsent line.output.buffer) speech := by
  obtain ⟨clock, output, speeches, socket⟩ := line
  obtain ⟨_, _, phase⟩ := framing
  cases phase with
  | idle _ _ _ all => exact (listed ▸ all).delivered output.buffer
  | @speaking latest others chunks unfinished _ all =>
      cases newer with
      | nil =>
          cases listed
          refine ⟨chunks, 0, unfinished.whole.framed, ?_, ?_⟩
          · rw [unfinished.ending]
            exact unfinished.pushed
          · rw [unfinished.ending, SpeechEnding.seal, List.replicate_zero, List.append_nil,
              List.append_nil]
            exact unfinished.wire
      | cons first newer =>
          cases listed
          exact all.delivered output.buffer

/-- Whatever is called while the socket is alive, the socket carries the utterances one after the
other. Each of them is cut into chunks, and sealed if it was ended and a chunk was sent. The chunks
are its whole audio, apart from what was buffered when it was interrupted or is buffered still. -/
theorem speech_framed (sizes : ChunkSizes) (clock : ℚ) (events : List Event)
    (alive : .hangUp ∉ events) :
    ∃ line, Run (SpeechLine.Step sizes) (.initial clock) events line ∧
      line.socket = line.speeches.reverse.flatMap Speech.wire ∧
      ∀ newer speech older, line.speeches = newer ++ speech :: older →
        Delivered sizes older.length (speech.ending.unsent line.output.buffer) speech := by
  obtain ⟨line, run, framing⟩ := @Run.exists_of_progress _ _ (SpeechLine.Step sizes)
    (Framing sizes) (· ≠ .hangUp) (fun _ _ _ kept taken => kept.step taken)
    (fun _ _ kept stays => kept.taken stays) _ (Framing.initial sizes clock) events
    (fun event called same => alive (same ▸ called))
  exact ⟨line, run, framing.logged, fun _ _ _ listed => framing.delivered listed⟩

/-- A reply that is ended, one that is interrupted while a part of it is buffered, and one that is
interrupted before anything of it was sent. -/
def cutReplies : List Event :=
  [.push (List.replicate 200 1), .endUtterance, .push (List.replicate 60 2), .interrupt,
    .push (List.replicate 20 3), .interrupt, .push (List.replicate 48 4)]

theorem cutReplies_framed :
    ∃ line, Run (SpeechLine.Step shortChunks) (.initial 0) cutReplies line ∧
      line.socket = line.speeches.reverse.flatMap Speech.wire ∧
      ∀ newer speech older, line.speeches = newer ++ speech :: older →
        Delivered shortChunks older.length (speech.ending.unsent line.output.buffer) speech :=
  speech_framed shortChunks 0 cutReplies (by simp [cutReplies])

end Assemblix.AvatarOutput
