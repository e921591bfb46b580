import Mathlib.Data.List.Nodup
import Mathlib.Data.List.ReduceOption
import Assemblix.Library.ListUpdate
import Assemblix.Realtime.OrderedSynthesis

/-
What a session that synthesizes ahead plays.

The audio queues of the segments are lanes, each with its synthesis as the writer, and the
forwarder is the reader that takes them in order. Segments go from the caller to the worker, to
the forwarder and to their playing in one line, so the forwarder is given them one by one.
-/

namespace Assemblix.Realtime

open Library

namespace Segment

/-- The audio of its synthesis, without what was empty. -/
def chunks (segment : Segment) : List (List UInt8) :=
  segment.received.filter (· ≠ [])

def mark (segment : Segment) : List AudioItem :=
  match segment.outcome with
  | none => []
  | some outcome => outcome.mark

def unread (segment : Segment) (taken : Nat) : List AudioItem :=
  (segment.chunks.drop taken).map AudioItem.chunk ++ segment.mark

end Segment

def Forwarder.segment : Forwarder → Option Nat
  | .playing segment => some segment
  | .handing segment => some segment
  | _ => none

def Forwarder.active (forwarder : Forwarder) : Prop :=
  forwarder = .ordering ∨ forwarder.segment ≠ none

def UtteranceWorker.held : UtteranceWorker → List Nat
  | .acquiring segment => [segment]
  | _ => []

def UtteranceWorker.inLoop : UtteranceWorker → Bool
  | .taking => true
  | .acquiring _ => true
  | _ => false

def taken (reader : LaneReader (List UInt8)) (segment : Nat) : Nat :=
  if segment = reader.lane then reader.offset else 0

namespace YandexSession

/-- The forwarder reads the segments as lanes; the first `started` of them have a synthesis. -/
structure Plays (session : YandexSession) (reader : LaneReader (List UInt8)) (started : Nat) :
    Prop where
  lanes : reader.lanes = session.segments.map Segment.chunks
  read : session.forwarded = reader.read
  begun : reader.lane ≤ started
  known : started ≤ session.segments.length
  ordering : session.forwarder = .ordering → reader.offset = 0 ∧
    session.order.reduceOption = List.range' reader.lane (started - reader.lane)
  playing : ∀ segment, session.forwarder.segment = some segment →
    segment = reader.lane ∧ segment < started ∧
      session.order.reduceOption = List.range' (segment + 1) (started - (segment + 1))
  unread : session.forwarder.active → ∀ (number : Nat) (segment : Segment),
    session.segments[number]? = some segment → reader.lane ≤ number →
      segment.audio = segment.unread (taken reader number)
  waiting : session.worker.inLoop = true →
    session.worker.held ++ session.queue.reduceOption =
      List.range' started (session.segments.length - started)
  fresh : ∀ (number : Nat) (segment : Segment), session.segments[number]? = some segment →
    started ≤ number → segment.outcome = none
  passed : ∀ (number : Nat) (segment : Segment), session.segments[number]? = some segment →
    number < reader.lane → segment.outcome = some .returned
  distinct : (session.fetches.map Fetch.segment).Nodup
  fetched : ∀ fetch ∈ session.fetches, fetch.segment < started
  running : ∀ number, { segment := number } ∈ session.fetches →
    ∃ segment : Segment, session.segments[number]? = some segment ∧ segment.outcome = none

namespace Plays

variable {session next : YandexSession} {reader : LaneReader (List UInt8)} {started : Nat}

theorem initial : Plays {} {} 0 where
  lanes := rfl
  read := rfl
  begun := Nat.le_refl _
  known := Nat.le_refl _
  ordering := fun _ => ⟨rfl, rfl⟩
  playing := by intro segment here; cases here
  unread := by intro _ number segment found; cases found
  waiting := fun _ => rfl
  fresh := by intro number segment found; cases found
  passed := by intro number segment found; cases found
  distinct := List.nodup_nil
  fetched := by intro fetch member; cases member
  running := by intro number member; cases member

theorem ahead (plays : session.Plays reader started) {number : Nat}
    (flying : { segment := number } ∈ session.fetches) : reader.lane ≤ number := by
  obtain ⟨segment, found, unended⟩ := plays.running number flying
  refine Nat.le_of_not_lt ?_
  intro left
  have ended := plays.passed number segment found left
  rw [unended] at ended
  cases ended

theorem fetching_iff (number : Nat) :
    session.fetching number = true ↔ { segment := number } ∈ session.fetches := by
  unfold YandexSession.fetching
  rw [List.any_eq_true]
  constructor
  · rintro ⟨fetch, member, same⟩
    rw [← of_decide_eq_true same]
    exact member
  · intro member
    exact ⟨_, member, decide_eq_true rfl⟩

/-! ### The caller -/

section

variable (plays : session.Plays reader started)
include plays

theorem enqueue (texts : List Text) :
    (session.enqueue texts).Plays (reader.openLanes texts.length) started := by
  have found {number : Nat} {segment : Segment}
      (known : (session.enqueue texts).segments[number]? = some segment) :
      session.segments[number]? = some segment ∨
        session.segments.length ≤ number ∧ ∃ text, segment = { text } := by
    change (session.segments ++ _)[number]? = some segment at known
    rw [List.getElem?_append] at known
    split at known
    · exact Or.inl known
    · obtain ⟨text, _, same⟩ := List.mem_map.mp (List.mem_of_getElem? known)
      exact Or.inr ⟨Nat.le_of_not_lt ‹_›, text, same.symm⟩
  have before {number : Nat} {segment : Segment}
      (known : session.segments[number]? = some segment) :
      (session.enqueue texts).segments[number]? = some segment := by
    change (session.segments ++ _)[number]? = some segment
    rw [List.getElem?_append_left (List.getElem?_eq_some_iff.mp known).1, known]
  have length : (session.enqueue texts).segments.length =
      session.segments.length + texts.length := by
    change (session.segments ++ _).length = _
    rw [List.length_append, List.length_map]
  refine
    { lanes := ?_, read := ?_, begun := plays.begun, known := ?_, ordering := plays.ordering
      playing := plays.playing, unread := ?_, waiting := ?_, fresh := ?_, passed := ?_
      distinct := plays.distinct, fetched := plays.fetched, running := ?_ }
  · change reader.lanes ++ _ = (session.segments ++ _).map Segment.chunks
    rw [List.map_append, plays.lanes, List.map_map]
    refine congrArg (_ ++ ·) ?_
    exact List.map_const'.symm
  · rw [LaneReader.read_openLanes]
    exact plays.read
  · rw [length]
    exact Nat.le_trans plays.known (Nat.le_add_right _ _)
  · intro active number segment known notLeft
    rcases found known with earlier | ⟨_, text, rfl⟩
    · exact plays.unread active number segment earlier notLeft
    · simp [Segment.unread, Segment.chunks, Segment.mark]
  · intro inLoop
    change session.worker.held ++ (session.queue ++ (List.range' _ _).map some).reduceOption = _
    rw [List.reduceOption_append, ← List.append_assoc, plays.waiting inLoop, length]
    have bound := plays.known
    have all : ((List.range' session.segments.length texts.length).map some).reduceOption =
        List.range' session.segments.length texts.length := by
      unfold List.reduceOption
      rw [List.filterMap_map]
      exact List.filterMap_some
    have start : session.segments.length =
        started + 1 * (session.segments.length - started) := by omega
    rw [all]
    nth_rewrite 2 [start]
    rw [List.range'_append]
    congr 1
    omega
  · intro number segment known beyond
    rcases found known with earlier | ⟨_, text, rfl⟩
    · exact plays.fresh number segment earlier beyond
    · rfl
  · intro number segment known left
    rcases found known with earlier | ⟨beyond, _⟩
    · exact plays.passed number segment earlier left
    · have begun := plays.begun
      have bound := plays.known
      change number < reader.lane at left
      omega
  · intro number member
    obtain ⟨segment, known, unended⟩ := plays.running number member
    exact ⟨segment, before known, unended⟩

theorem flush (texts : List Text) : ∃ after, (session.flush texts).Plays after started := by
  have ends {before : YandexSession} {after : LaneReader (List UInt8)}
      (plays : before.Plays after started) :
      Plays { before with queue := before.queue ++ [none] } after started := by
    refine { plays with waiting := ?_ }
    intro inLoop
    change before.worker.held ++ (before.queue ++ [none]).reduceOption = _
    rw [List.reduceOption_append]
    exact (congrArg (_ ++ ·) (List.append_nil _)).trans (plays.waiting inLoop)
  unfold YandexSession.flush
  dsimp only
  split
  · exact ⟨reader, ends plays⟩
  · exact ⟨_, ends (plays.enqueue texts)⟩

/-! ### The worker -/

theorem leaveLoop : session.leaveLoop.Plays reader started := by
  have same : (session.order ++ [none]).reduceOption = session.order.reduceOption := by
    rw [List.reduceOption_append]
    exact List.append_nil _
  refine { plays with ordering := ?_, playing := ?_, waiting := ?_ }
  · intro ordering
    obtain ⟨start, line⟩ := plays.ordering ordering
    exact ⟨start, same.trans line⟩
  · intro segment playing
    obtain ⟨here, begun, line⟩ := plays.playing segment playing
    exact ⟨here, begun, same.trans line⟩
  · intro inLoop
    cases inLoop

theorem acquire {segment : Nat} (acquiring : session.worker = .acquiring segment) (slots : Nat) :
    Plays { session with
      slots := slots
      fetches := session.fetches ++ [{ segment }]
      order := session.order ++ [some segment]
      worker := .taking } reader (started + 1) := by
  have inLoop : session.worker.inLoop = true := by rw [acquiring]; rfl
  have line := plays.waiting inLoop
  rw [acquiring] at line
  have more : started < session.segments.length := by
    refine Nat.lt_of_not_le ?_
    intro none
    rw [Nat.sub_eq_zero_of_le none] at line
    cases line
  obtain ⟨count, size⟩ : ∃ count, session.segments.length - started = count + 1 :=
    ⟨session.segments.length - started - 1, by omega⟩
  rw [size, List.range'_succ] at line
  obtain ⟨rfl, rest⟩ := List.cons_eq_cons.mp line
  have begun := plays.begun
  have appended {first : Nat} (bound : first ≤ segment)
      (known : session.order.reduceOption = List.range' first (segment - first)) :
      (session.order ++ [some segment]).reduceOption =
        List.range' first (segment + 1 - first) := by
    rw [List.reduceOption_append, known, show segment + 1 - first = segment - first + 1 by omega,
      List.range'_concat]
    refine congrArg (_ ++ ·) ?_
    change [segment] = _
    rw [show first + 1 * (segment - first) = segment by omega]
  refine
    { lanes := plays.lanes, read := plays.read, begun := Nat.le_succ_of_le begun, known := more
      ordering := ?_, playing := ?_, unread := plays.unread, waiting := ?_, fresh := ?_
      passed := plays.passed, distinct := ?_, fetched := ?_, running := ?_ }
  · intro ordering
    obtain ⟨start, known⟩ := plays.ordering ordering
    exact ⟨start, appended begun known⟩
  · intro other playing
    obtain ⟨here, earlier, known⟩ := plays.playing other playing
    exact ⟨here, Nat.lt_succ_of_lt earlier, appended earlier known⟩
  · intro _
    change [] ++ session.queue.reduceOption = List.range' (segment + 1) _
    rw [List.nil_append, show session.segments.length - (segment + 1) = count by omega]
    exact rest
  · intro number found known beyond
    exact plays.fresh number found known (Nat.le_of_succ_le beyond)
  · change ((session.fetches ++ [({ segment } : Fetch)]).map Fetch.segment).Nodup
    rw [List.map_append]
    refine plays.distinct.append (List.nodup_singleton segment) ?_
    refine List.disjoint_singleton.mpr ?_
    intro member
    obtain ⟨fetch, earlier, same⟩ := List.mem_map.mp member
    have bound := plays.fetched fetch earlier
    rw [same] at bound
    exact Nat.lt_irrefl segment bound
  · intro fetch member
    rcases List.mem_append.mp member with earlier | last
    · exact Nat.lt_succ_of_lt (plays.fetched fetch earlier)
    · rw [List.mem_singleton.mp last]
      exact Nat.lt_succ_self segment
  · intro number member
    rcases List.mem_append.mp member with earlier | last
    · exact plays.running number earlier
    · cases List.mem_singleton.mp last
      have found := List.getElem?_eq_getElem more
      exact ⟨_, found, plays.fresh segment _ found (Nat.le_refl _)⟩

theorem setWorker {worker : UtteranceWorker} (out : worker.inLoop = false) :
    Plays { session with worker := worker } reader started := by
  refine { plays with waiting := ?_ }
  intro inLoop
  rw [out] at inLoop
  cases inLoop

theorem work (worked : session.work = some next) : ∃ begun, next.Plays reader begun := by
  unfold YandexSession.work at worked
  cases worker : session.worker with
  | taking =>
      have line := plays.waiting (by rw [worker]; rfl)
      rw [worker] at line
      cases queue : session.queue with
      | nil => simp only [worker, queue, reduceCtorEq] at worked
      | cons item rest =>
          rw [queue] at line
          have dropped (leaves : UtteranceWorker.waiting.inLoop = false) :
              Plays { session with queue := rest }.leaveLoop reader started := by
            have left := (plays.setWorker leaves).leaveLoop
            exact { left with waiting := by intro inLoop; cases inLoop }
          cases item with
          | none =>
              simp only [worker, queue, Option.some.injEq] at worked
              cases worked
              exact ⟨started, dropped rfl⟩
          | some segment =>
              simp only [worker, queue] at worked
              split at worked
              · cases worked
                exact ⟨started, dropped rfl⟩
              · cases worked
                exact ⟨started, { plays with waiting := fun _ => line }⟩
  | acquiring segment =>
      simp only [worker] at worked
      split at worked
      · cases worked
      · cases worked
        exact ⟨started + 1, plays.acquire worker _⟩
  | waiting =>
      simp only [worker, Option.ite_none_right_eq_some] at worked
      obtain ⟨_, same⟩ := worked
      cases same
      exact ⟨started, plays.setWorker rfl⟩
  | cleaning =>
      simp only [worker, Option.ite_none_right_eq_some] at worked
      obtain ⟨_, same⟩ := worked
      cases same
      exact ⟨started, plays.setWorker rfl⟩
  | ended =>
      simp only [worker] at worked
      cases worked

theorem workerCancelled (cancelled : session.workerCancelled = some next) :
    next.Plays reader started := by
  unfold YandexSession.workerCancelled at cancelled
  split at cancelled
  · cases cancelled
  · cases worker : session.worker with
    | ended =>
        simp only [worker] at cancelled
        cases cancelled
    | taking =>
        simp only [worker] at cancelled
        cases cancelled
        exact plays.setWorker rfl
    | acquiring segment =>
        simp only [worker] at cancelled
        cases cancelled
        exact plays.setWorker rfl
    | waiting =>
        simp only [worker] at cancelled
        cases cancelled
        exact plays.setWorker rfl
    | cleaning =>
        simp only [worker] at cancelled
        cases cancelled
        exact plays.setWorker rfl

/-! ### The forwarder -/

theorem stop {forwarder : Forwarder} (inactive : ¬ forwarder.active) :
    Plays { session with forwarder := forwarder } reader started := by
  refine { plays with ordering := ?_, playing := ?_, unread := ?_ }
  · intro ordering
    exact absurd (Or.inl ordering) inactive
  · intro segment playing
    refine absurd (Or.inr ?_) inactive
    change forwarder.segment = some segment at playing
    rw [playing]
    exact Option.some_ne_none segment
  · intro active
    exact absurd active inactive

end

theorem ended_inactive : ¬ Forwarder.ended.active := by
  rintro (ordering | playing)
  · cases ordering
  · exact playing rfl

theorem failing_inactive : ¬ Forwarder.failing.active := by
  rintro (ordering | playing)
  · cases ordering
  · exact playing rfl

theorem fail (plays : session.Plays reader started) (message : Text) :
    (session.fail message).Plays reader started := by
  have stopped := plays.stop failing_inactive
  exact { stopped with }

theorem map_popAudio (number : Nat) {B : Type} (view : Segment → B)
    (keeps : ∀ segment : Segment, ∀ audio, view { segment with audio := audio } = view segment) :
    (session.popAudio number).segments.map view = session.segments.map view :=
  map_modify_of_same view session.segments number (fun segment => keeps segment _)

section

variable (plays : session.Plays reader started)
include plays

theorem popAudio (number : Nat) {forwarder : Forwarder} (inactive : ¬ forwarder.active) :
    Plays { session.popAudio number with forwarder := forwarder } reader started := by
  have before {other : Nat} {segment : Segment}
      (found : (session.popAudio number).segments[other]? = some segment) :
      ∃ earlier : Segment, session.segments[other]? = some earlier ∧
        segment.outcome = earlier.outcome := by
    obtain ⟨earlier, known, ⟨_, rfl⟩ | ⟨_, rfl⟩⟩ := get_modify found
    · exact ⟨earlier, known, rfl⟩
    · exact ⟨_, known, rfl⟩
  have length : (session.popAudio number).segments.length = session.segments.length :=
    List.length_modify _ _ _
  refine
    { lanes := ?_, read := plays.read, begun := plays.begun, known := ?_, ordering := ?_
      playing := ?_, unread := ?_, waiting := ?_, fresh := ?_, passed := ?_
      distinct := plays.distinct, fetched := plays.fetched, running := ?_ }
  · exact plays.lanes.trans (map_popAudio number Segment.chunks (fun _ _ => rfl)).symm
  · exact length ▸ plays.known
  · intro ordering
    exact absurd (Or.inl ordering) inactive
  · intro segment playing
    refine absurd (Or.inr ?_) inactive
    change forwarder.segment = some segment at playing
    rw [playing]
    exact Option.some_ne_none segment
  · intro active
    exact absurd active inactive
  · intro inLoop
    change _ = List.range' started ((session.popAudio number).segments.length - started)
    rw [length]
    exact plays.waiting inLoop
  · intro other segment found beyond
    obtain ⟨earlier, known, same⟩ := before found
    exact same.trans (plays.fresh other earlier known beyond)
  · intro other segment found left
    obtain ⟨earlier, known, same⟩ := before found
    exact same.trans (plays.passed other earlier known left)
  · intro other member
    obtain ⟨earlier, known, unended⟩ := plays.running other member
    by_cases same : number = other
    · subst same
      exact ⟨_, get_modify_self _ known, unended⟩
    · exact ⟨earlier, get_modify_of_ne _ same known, unended⟩

theorem current_lane {segment : Segment} (found : session.segments[reader.lane]? = some segment) :
    reader.current = segment.chunks := by
  unfold LaneReader.current
  rw [plays.lanes, List.getD_eq_getElem?_getD, List.getElem?_map, found]
  rfl

theorem finishSegment {segment : Segment} {rest : List AudioItem}
    (playing : session.forwarder.segment = some reader.lane)
    (found : session.segments[reader.lane]? = some segment)
    (queued : segment.audio = .done :: rest) :
    Plays { session.popAudio reader.lane with forwarder := .ordering } reader.advance started := by
  obtain ⟨_, begun, line⟩ := plays.playing reader.lane playing
  have base := plays.popAudio reader.lane ended_inactive
  have active : session.forwarder.active := Or.inr (by rw [playing]; exact Option.some_ne_none _)
  have unread := plays.unread active reader.lane segment found (Nat.le_refl _)
  rw [queued, taken, if_pos rfl, Segment.unread] at unread
  have finished : segment.chunks.drop reader.offset = [] := by
    cases left : segment.chunks.drop reader.offset with
    | nil => rfl
    | cons data more =>
        rw [left] at unread
        cases unread
  have ended : segment.outcome = some .returned := by
    rw [finished, List.map_nil, List.nil_append, Segment.mark] at unread
    cases outcome : segment.outcome with
    | none =>
        rw [outcome] at unread
        cases unread
    | some outcome' =>
        rw [outcome] at unread
        cases outcome' with
        | returned => rfl
        | raised message => cases unread
        | silent => cases unread
  have last : reader.offset = reader.current.length := by
    refine Nat.le_antisymm reader.bounded ?_
    rw [plays.current_lane found]
    exact List.drop_eq_nil_iff.mp finished
  refine
    { lanes := base.lanes, read := base.read.trans (reader.read_advance last).symm
      begun := begun, known := base.known, ordering := fun _ => ⟨rfl, line⟩, playing := ?_
      unread := ?_, waiting := base.waiting, fresh := base.fresh, passed := ?_
      distinct := base.distinct, fetched := base.fetched, running := base.running }
  · intro other here
    cases here
  · intro _ other after known notLeft
    obtain ⟨before, earlier, ⟨here, _⟩ | ⟨_, rfl⟩⟩ := get_modify known
    · subst here
      exact absurd notLeft (Nat.not_succ_le_self _)
    · have all := plays.unread active other _ earlier (Nat.le_of_succ_le notLeft)
      rw [taken, if_neg (Nat.ne_of_gt notLeft)] at all
      rw [taken]
      change other ≥ reader.lane + 1 at notLeft
      have offset : (if other = reader.advance.lane then reader.advance.offset else 0) = 0 := by
        split
        · rfl
        · rfl
      rw [offset]
      exact all
  · intro other after known left
    rcases Nat.lt_succ_iff_lt_or_eq.mp left with earlier | rfl
    · exact base.passed other after known earlier
    · obtain ⟨before, same, ⟨_, rfl⟩ | ⟨different, _⟩⟩ := get_modify known
      · cases found.symm.trans same
        exact ended
      · exact absurd rfl different

theorem playChunk {segment : Segment} {data : List UInt8} {rest : List AudioItem}
    (playing : session.forwarder.segment = some reader.lane)
    (found : session.segments[reader.lane]? = some segment)
    (queued : segment.audio = .chunk data :: rest) :
    ∃ after, Plays { session.popAudio reader.lane with
      forwarder := .handing reader.lane
      forwarded := session.forwarded ++ [data] } after started := by
  obtain ⟨_, begun, line⟩ := plays.playing reader.lane playing
  have base := plays.popAudio reader.lane ended_inactive
  have active : session.forwarder.active := Or.inr (by rw [playing]; exact Option.some_ne_none _)
  have unread := plays.unread active reader.lane segment found (Nat.le_refl _)
  rw [queued, taken, if_pos rfl, Segment.unread] at unread
  have current := plays.current_lane found
  have more : reader.offset < reader.current.length := by
    rw [current]
    refine Nat.lt_of_not_le ?_
    intro none
    rw [List.drop_eq_nil_iff.mpr none, List.map_nil, List.nil_append, Segment.mark] at unread
    split at unread
    · cases unread
    · rename_i outcome _
      cases outcome <;> cases unread
  have split : segment.chunks.drop reader.offset =
      reader.current[reader.offset] :: segment.chunks.drop (reader.offset + 1) := by
    rw [← current]
    exact List.drop_eq_getElem_cons more
  rw [split, List.map_cons, List.cons_append] at unread
  obtain ⟨same, left⟩ := List.cons_eq_cons.mp unread
  cases AudioItem.chunk.inj same
  refine ⟨reader.next more, ?_⟩
  refine
    { lanes := base.lanes, read := ?_, begun := base.begun, known := base.known, ordering := ?_
      playing := ?_, unread := ?_, waiting := base.waiting, fresh := base.fresh
      passed := base.passed, distinct := base.distinct, fetched := base.fetched
      running := base.running }
  · rw [LaneReader.read_next]
    exact congrArg (· ++ _) plays.read
  · intro ordering
    cases ordering
  · intro other here
    cases here
    exact ⟨rfl, begun, line⟩
  · intro _ other after known notLeft
    obtain ⟨before, earlier, ⟨here, rfl⟩ | ⟨different, rfl⟩⟩ := get_modify known
    · subst here
      cases found.symm.trans earlier
      have offset : taken (reader.next more) reader.lane = reader.offset + 1 := if_pos rfl
      rw [offset]
      change segment.audio.tail = _
      rw [queued]
      exact left
    · have all := plays.unread active other _ earlier notLeft
      rw [taken, if_neg (Ne.symm different)] at all
      have offset : taken (reader.next more) other = 0 := if_neg (Ne.symm different)
      rw [offset]
      exact all

theorem forward (moved : session.forward = some next) : ∃ after, next.Plays after started := by
  have moving := forward_forwarder moved
  unfold YandexSession.forward at moved
  rcases moving with forwarder | ⟨segment, forwarder⟩
  · obtain ⟨start, line⟩ := plays.ordering forwarder
    cases order : session.order with
    | nil => simp only [forwarder, order, reduceCtorEq] at moved
    | cons item rest =>
        rw [order] at line
        cases item with
        | none =>
            simp only [forwarder, order, Option.some.injEq] at moved
            cases moved
            have stopped := plays.stop ended_inactive
            refine ⟨reader, { stopped with ordering := ?_, playing := ?_ }⟩
            · intro ordering
              cases ordering
            · intro segment playing
              cases playing
        | some segment =>
            simp only [forwarder, order, Option.some.injEq] at moved
            cases moved
            have more : reader.lane < started := by
              refine Nat.lt_of_not_le ?_
              intro none
              rw [Nat.sub_eq_zero_of_le none] at line
              cases line
            obtain ⟨count, size⟩ : ∃ count, started - reader.lane = count + 1 :=
              ⟨started - reader.lane - 1, by omega⟩
            rw [size, List.range'_succ] at line
            obtain ⟨rfl, left⟩ := List.cons_eq_cons.mp line
            refine ⟨reader, { plays with ordering := ?_, playing := ?_, unread := ?_ }⟩
            · intro ordering
              cases ordering
            · intro other playing
              cases playing
              refine ⟨rfl, more, ?_⟩
              rw [show started - (reader.lane + 1) = count by omega]
              exact left
            · intro _
              exact plays.unread (Or.inl forwarder)
  · have here : session.forwarder.segment = some segment := by rw [forwarder]; rfl
    obtain ⟨rfl, begun, line⟩ := plays.playing segment here
    simp only [forwarder] at moved
    split at moved
    · cases moved
    · rename_i found known
      split at moved
      · cases moved
      · cases moved
        exact ⟨reader.advance, plays.finishSegment here known ‹_›⟩
      · cases moved
        have stopped := plays.popAudio reader.lane failing_inactive
        exact ⟨reader, { stopped with }⟩
      · split at moved
        · cases moved
          exact ⟨reader, plays.popAudio reader.lane ended_inactive⟩
        · cases moved
          exact plays.playChunk here known ‹_›

theorem handed {raised : Option Text} (through : session.handed raised = some next) :
    next.Plays reader started := by
  obtain ⟨segment, forwarder⟩ := handed_forwarder through
  unfold YandexSession.handed at through
  have here : session.forwarder.segment = some segment := by rw [forwarder]; rfl
  simp only [forwarder] at through
  cases raised with
  | some message =>
      cases through
      exact plays.fail message
  | none =>
      cases through
      refine { plays with ordering := ?_, playing := ?_, unread := ?_ }
      · intro ordering
        cases ordering
      · intro other playing
        cases playing
        exact plays.playing segment here
      · intro _
        exact plays.unread (Or.inr (by rw [here]; exact Option.some_ne_none _))

end

/-! ### The syntheses -/

theorem receive_chunks (segment : Segment) (data : List UInt8) :
    (receive segment data).chunks = if data = [] then segment.chunks else segment.chunks ++ [data] := by
  unfold receive Segment.chunks
  rw [List.filter_append]
  split
  · simp [*]
  · simp [*]

def heard (reader : LaneReader (List UInt8)) (number : Nat) (data : List UInt8) :
    LaneReader (List UInt8) :=
  if data = [] then reader else reader.write number data

theorem heard_lane (number : Nat) (data : List UInt8) : (heard reader number data).lane =
    reader.lane := by
  unfold heard
  split <;> rfl

theorem heard_offset (number : Nat) (data : List UInt8) : (heard reader number data).offset =
    reader.offset := by
  unfold heard
  split <;> rfl

theorem taken_heard (number other : Nat) (data : List UInt8) :
    taken (heard reader number data) other = taken reader other := by
  unfold taken
  rw [heard_lane, heard_offset]

theorem heard_lanes {segments : List Segment} (number : Nat) (data : List UInt8)
    (lanes : reader.lanes = segments.map Segment.chunks) :
    (heard reader number data).lanes =
      (segments.modify number (receive · data)).map Segment.chunks := by
  unfold heard
  split
  · rename_i empty
    rw [map_modify_of_same Segment.chunks segments number
      (fun segment => by rw [receive_chunks, if_pos empty])]
    exact lanes
  · rename_i some
    rw [map_modify Segment.chunks (· ++ [data]) segments number
      (fun segment _ => by rw [receive_chunks, if_neg some]), ← lanes]
    rfl

theorem taken_le (plays : session.Plays reader started) {number : Nat} {segment : Segment}
    (found : session.segments[number]? = some segment) :
    taken reader number ≤ segment.chunks.length := by
  unfold taken
  split
  · rename_i here
    subst here
    rw [← plays.current_lane found]
    exact reader.bounded
  · exact Nat.zero_le _

theorem chunk (plays : session.Plays reader started) {number : Nat} (data : List UInt8)
    (flying : { segment := number } ∈ session.fetches) :
    (session.setSegment number (receive · data)).Plays (heard reader number data) started := by
  have notLeft := plays.ahead flying
  obtain ⟨mine, mineFound, unended⟩ := plays.running number flying
  have length : (session.setSegment number (receive · data)).segments.length =
      session.segments.length := List.length_modify _ _ _
  refine
    { lanes := heard_lanes number data plays.lanes, read := ?_, begun := ?_, known := ?_
      ordering := ?_, playing := ?_, unread := ?_, waiting := ?_, fresh := ?_, passed := ?_
      distinct := plays.distinct, fetched := plays.fetched, running := ?_ }
  · refine plays.read.trans ?_
    unfold heard
    split
    · rfl
    · exact (reader.read_write notLeft).symm
  · rw [heard_lane]
    exact plays.begun
  · exact length ▸ plays.known
  · rw [heard_lane, heard_offset]
    exact plays.ordering
  · rw [heard_lane]
    exact plays.playing
  · intro active other segment found beyond
    rw [heard_lane] at beyond
    rw [taken_heard]
    obtain ⟨before, known, ⟨rfl, rfl⟩ | ⟨_, rfl⟩⟩ := get_modify found
    · cases known.symm.trans mineFound
      have queued := plays.unread active number mine mineFound beyond
      have inside := plays.taken_le mineFound
      have noMark : mine.mark = [] := by rw [Segment.mark, unended]
      have noMark' : (receive mine data).mark = [] := noMark
      unfold Segment.unread at queued ⊢
      rw [noMark, List.append_nil] at queued
      rw [noMark', List.append_nil, receive_chunks]
      unfold receive
      dsimp only
      split
      · exact queued
      · rw [queued, List.drop_append_of_le_length inside, List.map_append]
        rfl
    · exact plays.unread active other _ known beyond
  · intro inLoop
    rw [length]
    exact plays.waiting inLoop
  · intro other segment found beyond
    obtain ⟨before, known, ⟨rfl, rfl⟩ | ⟨_, rfl⟩⟩ := get_modify found
    · exact plays.fresh number before known beyond
    · exact plays.fresh other _ known beyond
  · intro other segment found left
    rw [heard_lane] at left
    obtain ⟨before, known, ⟨rfl, rfl⟩ | ⟨_, rfl⟩⟩ := get_modify found
    · exact plays.passed number before known left
    · exact plays.passed other _ known left
  · intro other member
    obtain ⟨segment, known, fresh⟩ := plays.running other member
    by_cases same : number = other
    · subst same
      exact ⟨_, get_modify_self _ known, fresh⟩
    · exact ⟨segment, get_modify_of_ne _ same known, fresh⟩

theorem map_markEnded (fetches : List Fetch) (number : Nat) :
    (markEnded fetches number).map Fetch.segment = fetches.map Fetch.segment := by
  unfold markEnded
  rw [List.map_map]
  refine List.map_congr_left ?_
  intro fetch _
  dsimp only [Function.comp]
  split <;> rfl

theorem mem_markEnded {fetches : List Fetch} {number other : Nat}
    (member : { segment := other } ∈ markEnded fetches number) :
    number ≠ other ∧ { segment := other } ∈ fetches := by
  obtain ⟨fetch, known, same⟩ := List.mem_map.mp member
  split at same
  · have ended := congrArg Fetch.ended same
    cases ended
  · subst same
    exact ⟨fun equal => ‹¬ _› equal.symm, known⟩

theorem fetchEnds (plays : session.Plays reader started) {number : Nat}
    (outcome : SynthesisOutcome) (flying : { segment := number } ∈ session.fetches) :
    Plays { session.setSegment number (conclude · outcome) with
      fetches := markEnded session.fetches number } reader started := by
  have notLeft := plays.ahead flying
  obtain ⟨mine, mineFound, unended⟩ := plays.running number flying
  have begun : number < started := plays.fetched _ flying
  have length : (session.setSegment number (conclude · outcome)).segments.length =
      session.segments.length := List.length_modify _ _ _
  refine
    { lanes := ?_, read := plays.read, begun := plays.begun, known := ?_
      ordering := plays.ordering, playing := plays.playing, unread := ?_, waiting := ?_
      fresh := ?_, passed := ?_, distinct := ?_, fetched := ?_, running := ?_ }
  · have same : (session.segments.modify number (conclude · outcome)).map Segment.chunks =
        session.segments.map Segment.chunks :=
      map_modify_of_same Segment.chunks session.segments number (fun _ => rfl)
    exact plays.lanes.trans same.symm
  · exact length ▸ plays.known
  · intro active other segment found beyond
    obtain ⟨before, known, ⟨rfl, rfl⟩ | ⟨_, rfl⟩⟩ := get_modify found
    · cases known.symm.trans mineFound
      have queued := plays.unread active number mine mineFound beyond
      have noMark : mine.mark = [] := by rw [Segment.mark, unended]
      unfold Segment.unread at queued ⊢
      rw [noMark, List.append_nil] at queued
      exact congrArg (· ++ outcome.mark) queued
    · exact plays.unread active other _ known beyond
  · intro inLoop
    change _ = List.range' started
      ((session.setSegment number (conclude · outcome)).segments.length - started)
    rw [length]
    exact plays.waiting inLoop
  · intro other segment found beyond
    obtain ⟨before, known, ⟨rfl, rfl⟩ | ⟨_, rfl⟩⟩ := get_modify found
    · omega
    · exact plays.fresh other _ known beyond
  · intro other segment found left
    obtain ⟨before, known, ⟨rfl, rfl⟩ | ⟨_, rfl⟩⟩ := get_modify found
    · omega
    · exact plays.passed other _ known left
  · rw [map_markEnded]
    exact plays.distinct
  · intro fetch member
    have segment : fetch.segment ∈ session.fetches.map Fetch.segment := by
      rw [← map_markEnded session.fetches number]
      exact List.mem_map_of_mem member
    obtain ⟨earlier, known, same⟩ := List.mem_map.mp segment
    rw [← same]
    exact plays.fetched earlier known
  · intro other member
    obtain ⟨different, still⟩ := mem_markEnded member
    obtain ⟨segment, known, fresh⟩ := plays.running other still
    exact ⟨segment, get_modify_of_ne _ different known, fresh⟩

theorem fetchDone (plays : session.Plays reader started) (fetch : Fetch) (slots : Nat) :
    Plays { session with fetches := session.fetches.erase fetch, slots := slots } reader
      started := by
  refine { plays with distinct := ?_, fetched := ?_, running := ?_ }
  · exact plays.distinct.sublist (List.erase_sublist.map Fetch.segment)
  · intro other member
    exact plays.fetched other (List.mem_of_mem_erase member)
  · intro number member
    exact plays.running number (List.mem_of_mem_erase member)

/-! ### Every step -/

theorem step {action : SynthesisAction} (plays : session.Plays reader started)
    (done : session.step action = some next) : ∃ after begun, next.Plays after begun := by
  cases action with
  | sendText text segments =>
      cases done
      unfold YandexSession.sendText
      split
      · exact ⟨reader, started, plays⟩
      · have counted : Plays { session with charsSent := session.charsSent + text.length } reader
            started := { plays with }
        exact ⟨_, started, counted.enqueue segments⟩
  | flush segments =>
      cases done
      obtain ⟨after, flushed⟩ := plays.flush segments
      exact ⟨after, started, flushed⟩
  | abandon =>
      cases done
      exact ⟨reader, started, { plays with }⟩
  | close =>
      cases done
      exact ⟨reader, started, { plays with }⟩
  | work =>
      obtain ⟨begun, worked⟩ := plays.work done
      exact ⟨reader, begun, worked⟩
  | workerCancelled => exact ⟨reader, started, plays.workerCancelled done⟩
  | forward =>
      obtain ⟨after, moved⟩ := plays.forward done
      exact ⟨after, started, moved⟩
  | handed raised => exact ⟨reader, started, plays.handed done⟩
  | errorReported =>
      obtain ⟨_, same⟩ := Option.ite_none_right_eq_some.mp done
      cases same
      exact ⟨reader, started, plays.stop ended_inactive⟩
  | forwarderCancelled =>
      obtain ⟨_, same⟩ := Option.ite_none_right_eq_some.mp done
      cases same
      exact ⟨reader, started, plays.stop ended_inactive⟩
  | chunk number data =>
      obtain ⟨flying, same⟩ := Option.ite_none_right_eq_some.mp done
      cases same
      exact ⟨_, started, plays.chunk data ((fetching_iff number).mp flying)⟩
  | fetchEnds number outcome =>
      obtain ⟨flying, same⟩ := Option.ite_none_right_eq_some.mp done
      cases same
      exact ⟨reader, started, plays.fetchEnds outcome ((fetching_iff number).mp flying)⟩
  | fetchDone number =>
      obtain ⟨_, same⟩ := Option.ite_none_right_eq_some.mp done
      cases same
      exact ⟨reader, started, plays.fetchDone _ _⟩

end Plays

end YandexSession

end Assemblix.Realtime
