import Assemblix.Realtime.BrainCalls

/-
The history of a call.

A reply stands after the user turn it answers, and its entry holds a beginning of what its brain
call has given. The reply that can still be cut to what was heard is the last entry: a turn
forgets it at its confirmation, before it adds an entry of its own.
-/

namespace Assemblix.Realtime

open Library

def Entry.Given (calls : List StartedCall) (entry : Entry) : Prop :=
  ∃ started ∈ calls, started.run = entry.run ∧ entry.turn.text <+: started.response

def Entry.Replies (calls : List StartedCall) (past : List Entry) (entry : Entry) : Prop :=
  entry.turn.role = .assistant →
    (∃ user ∈ past.getLast?, user.turn.role = .user ∧ user.run = entry.run) ∧
      entry.Given calls

theorem heardPrefix_begins (text : Text) (audioEndMs : Nat) :
    heardPrefix text audioEndMs <+: text := by
  unfold heardPrefix
  dsimp only
  split
  · exact List.prefix_rfl
  · have cut := (List.dropLast_prefix _).trans
      (List.rdropWhile_prefix (fun letter => letter ≠ ' ') (text.take (audioEndMs * 14 / 1000 + 1)))
    exact cut.trans (List.take_prefix _ _)

def Grown (calls later : List StartedCall) : Prop :=
  ∀ started ∈ calls, ∃ after ∈ later, after.run = started.run ∧
    started.response <+: after.response

section Grown

variable {calls later : List StartedCall}

theorem Grown.refl (calls : List StartedCall) : Grown calls calls :=
  fun started member => ⟨started, member, rfl, List.prefix_rfl⟩

theorem Grown.trans {middle : List StartedCall} (first : Grown calls middle)
    (second : Grown middle later) : Grown calls later := by
  intro started member
  obtain ⟨after, kept, run, grown⟩ := first started member
  obtain ⟨last, still, same, more⟩ := second after kept
  exact ⟨last, still, same.trans run, grown.trans more⟩

theorem Grown.modifyHead (calls : List StartedCall) {change : StartedCall → StartedCall}
    (run : ∀ started, (change started).run = started.run)
    (grows : ∀ started, started.response <+: (change started).response) :
    Grown calls (calls.modifyHead change) := by
  cases calls with
  | nil => exact .refl []
  | cons first rest =>
      rw [List.modifyHead_cons]
      intro started member
      rcases List.mem_cons.mp member with same | old
      · rw [same]
        exact ⟨change first, List.mem_cons_self, run first, grows first⟩
      · exact ⟨started, List.mem_cons_of_mem _ old, rfl, List.prefix_rfl⟩

theorem Entry.Given.grown {entry : Entry} (given : entry.Given calls) (grown : Grown calls later) :
    entry.Given later := by
  obtain ⟨started, member, run, prefixed⟩ := given
  obtain ⟨after, kept, same, more⟩ := grown started member
  exact ⟨after, kept, same.trans run, prefixed.trans more⟩

end Grown

namespace CascadeBridge

structure Spoken (state : CascadeBridge × List StartedCall) : Prop where
  replies : EachPrefix (Entry.Replies state.2) state.1.history
  answering : state.1.run.released = true → state.1.run.fate.unsettled = true →
    ∃ user ∈ state.1.history.getLast?, user.turn.role = .user ∧ user.run = state.1.run.number
  calling : state.1.run.fate.unsettled = true → state.1.run.firstToken = true →
    state.1.call ≠ none
  unmarked : state.1.run.confirmed = true → state.1.run.fate.unsettled = true →
    state.1.interruptedIndex = none
  marked : ∀ index, state.1.interruptedIndex = some index → ∃ earlier entry,
    state.1.history = earlier ++ [entry] ∧ index = earlier.length ∧
      entry.turn.role = .assistant ∧
      ∃ started ∈ state.2, started.run = entry.run ∧
        state.1.interruptedText <+: started.response

structure Numbered (state : CascadeBridge × List StartedCall) : Prop where
  distinct : (state.2.map StartedCall.run).Pairwise (fun newer older => older < newer)
  started : ∀ number ∈ state.2.map StartedCall.run, number ≤ state.1.run.number
  fresh : state.1.point.early = true →
    ∀ number ∈ state.2.map StartedCall.run, number < state.1.run.number

section Spoken

variable {bridge next : CascadeBridge} {config : BridgeConfig} {calls later : List StartedCall}
  {action : BridgeAction}

theorem recordCalls_grown : Grown calls (recordCalls bridge action next calls) := by
  have paid : Grown calls (calls.modifyHead fun started =>
      { started with
        charged := started.charged + (next.brainCostUsd - bridge.brainCostUsd) }) :=
    .modifyHead calls (fun _ => rfl) (fun _ => List.prefix_rfl)
  have added (paidCalls : List StartedCall) (first : StartedCall) :
      Grown paidCalls (first :: paidCalls) :=
    fun started member => ⟨started, List.mem_cons_of_mem _ member, rfl, List.prefix_rfl⟩
  unfold recordCalls
  dsimp only
  split
  · exact paid.trans (.modifyHead _ (fun _ => rfl) (fun started => List.prefix_append _ _))
  · exact paid.trans (.modifyHead _ (fun _ => rfl) (fun _ => List.prefix_rfl))
  · split
    · exact paid
    · exact paid.trans (added _ _)
  · split
    · exact paid
    · exact paid.trans (added _ _)
  · exact paid

theorem Spoken.recorded (kept : Spoken (next, calls)) :
    Spoken (next, recordCalls bridge action next calls) where
  replies := by
    refine kept.replies.imp ?_
    intro past entry replies assistant
    obtain ⟨user, given⟩ := replies assistant
    exact ⟨user, given.grown recordCalls_grown⟩
  answering := kept.answering
  calling := kept.calling
  unmarked := kept.unmarked
  marked := by
    intro index marked
    obtain ⟨earlier, entry, listed, at_end, assistant, started, member, run, given⟩ :=
      kept.marked index marked
    obtain ⟨after, still, same, more⟩ := recordCalls_grown started member
    exact ⟨earlier, entry, listed, at_end, assistant, after, still, same.trans run,
      given.trans more⟩

/-! ### The history -/

theorem Spoken.release (kept : Spoken (bridge, calls))
    (unmarked : bridge.interruptedIndex = none) : Spoken (bridge.release, calls) := by
  cases out : bridge.run.released with
  | true =>
      rw [release_of_released out]
      exact kept
  | false =>
      rw [release_eq out]
      exact
        { kept with
          replies := EachPrefix.snoc.mpr ⟨kept.replies, fun assistant => by cases assistant⟩
          answering := fun _ _ => ⟨_, List.getLast?_concat, rfl, rfl⟩
          marked := by
            intro index marked
            have here : bridge.interruptedIndex = some index := marked
            rw [unmarked] at here
            cases here }

theorem Spoken.settle (kept : Spoken (bridge, calls)) (history : next.history = bridge.history)
    (settled : next.run.fate.unsettled = false)
    (index : next.interruptedIndex = bridge.interruptedIndex)
    (text : next.interruptedIndex ≠ none → next.interruptedText = bridge.interruptedText) :
    Spoken (next, calls) where
  replies := by
    dsimp only
    rw [history]
    exact kept.replies
  answering := by
    intro _ unsettled
    dsimp only at unsettled
    rw [settled] at unsettled
    cases unsettled
  calling := by
    intro unsettled
    dsimp only at unsettled
    rw [settled] at unsettled
    cases unsettled
  unmarked := by
    intro _ unsettled
    dsimp only at unsettled
    rw [settled] at unsettled
    cases unsettled
  marked := by
    intro place marked
    dsimp only at marked ⊢
    rw [text (by rw [marked]; exact Option.some_ne_none place), history]
    exact kept.marked place (index.symm.trans marked)

/-- A reply goes after its user turn, and can still be cut unless it was cut already. -/
theorem Spoken.addReply (kept : Spoken (bridge, calls)) (ledger : Ledgered (bridge, calls))
    (released : bridge.run.released = true) (unsettled : bridge.run.fate.unsettled = true)
    (inFlight : bridge.call ≠ none) (entry : Entry) (assistant : entry.turn.role = .assistant)
    (run : entry.run = bridge.run.number) (text : entry.turn.text <+: bridge.replyText)
    (history : next.history = bridge.history ++ [entry])
    (settled : next.run.fate.unsettled = false)
    (index : next.interruptedIndex = none ∨ next.interruptedIndex = some bridge.history.length)
    (whole : next.interruptedText = bridge.replyText) : Spoken (next, calls) := by
  obtain ⟨call, called⟩ := Option.ne_none_iff_exists'.mp inFlight
  obtain ⟨started, rest, listed, tracks⟩ := ledger.tracked call called
  have member : started ∈ calls := by
    have listed : calls = started :: rest := listed
    rw [listed]
    exact List.mem_cons_self
  have response : started.response = bridge.replyText := tracks.response
  have same : started.run = entry.run := tracks.run.trans run.symm
  have replies : entry.Replies calls bridge.history := by
    intro _
    obtain ⟨user, last, role, number⟩ := kept.answering released unsettled
    refine ⟨⟨user, last, role, number.trans run.symm⟩, started, member, same, ?_⟩
    rw [response]
    exact text
  exact
    { replies := by
        dsimp only
        rw [history]
        exact EachPrefix.snoc.mpr ⟨kept.replies, replies⟩
      answering := by
        intro _ after
        dsimp only at after
        rw [settled] at after
        cases after
      calling := by
        intro after
        dsimp only at after
        rw [settled] at after
        cases after
      unmarked := by
        intro _ after
        dsimp only at after
        rw [settled] at after
        cases after
      marked := by
        intro place marked
        dsimp only at marked ⊢
        rcases index with none | last
        · rw [none] at marked
          cases marked
        · rw [last] at marked
          refine ⟨bridge.history, entry, history, (Option.some.inj marked).symm, assistant,
            started, member, same, ?_⟩
          rw [whole, response] }

theorem Spoken.concluded (kept : Spoken (bridge, calls)) (ledger : Ledgered (bridge, calls))
    (released : bridge.run.released = true) (unsettled : bridge.run.fate.unsettled = true)
    (inFlight : bridge.call ≠ none) (outcome : ReplyOutcome) :
    Spoken (bridge.concluded config outcome, calls) := by
  by_cases silent : bridge.replyText = []
  · apply kept.settle
    · change bridge.history ++ bridge.answer = bridge.history
      unfold answer
      rw [if_pos silent, List.append_nil]
    · rfl
    · exact if_pos silent
    · intro _
      exact if_pos silent
  · have answered : bridge.answer =
        [{ turn := { role := .assistant, text := bridge.replyText }
           run := bridge.run.number
           heard := [] }] := if_neg silent
    refine kept.addReply ledger released unsettled inFlight
      { turn := { role := .assistant, text := bridge.replyText }
        run := bridge.run.number
        heard := [] } rfl rfl List.prefix_rfl ?_ rfl (Or.inr (if_neg silent)) (if_neg silent)
    rw [← answered]
    rfl

theorem release_released : bridge.release.run.released = true := by rw [release_run]

theorem release_fate : bridge.release.run.fate = bridge.run.fate := by rw [release_run]

theorem Spoken.conclude (kept : Spoken (bridge, calls)) (ledger : Ledgered (bridge, calls))
    (told : bridge.Told) (late : bridge.point.late = true) (confirmed : bridge.run.confirmed = true)
    (outcome : ReplyOutcome) : Spoken (bridge.conclude config outcome, calls) := by
  have unsettled := told.unsettled (TaskPoint.ne_done_of_late late)
  rw [conclude_eq]
  apply (kept.release (kept.unmarked confirmed unsettled)).concluded ledger.release
    release_released
  · rw [release_fate]
    exact unsettled
  · rw [release_call]
    exact ledger.asked late

theorem Spoken.keepUsage (kept : Spoken (bridge, calls)) (outcome : ReplyOutcome) :
    Spoken (bridge.keepUsage outcome, calls) := by
  cases outcome with
  | ok usage => exact { kept with }
  | failed message => exact kept
  | timeout => exact kept

section

variable (kept : Spoken (bridge, calls)) (ledger : Ledgered (bridge, calls))
include kept ledger

theorem Spoken.replyOver (told : bridge.Told) (replying : bridge.point = .replying)
    (outcome : ReplyOutcome)
    (ended : ∀ usage, outcome = .ok usage → bridge.brainTask = .ended outcome) :
    Spoken (bridge.replyOver config outcome, calls) := by
  have late := TaskPoint.late_of_replying replying
  have answered := kept.keepUsage outcome
  unfold CascadeBridge.replyOver
  split
  case isTrue confirmed =>
    apply answered.conclude (ledger.keepUsage replying outcome ended) (told.keepUsage outcome)
    · rw [keepUsage_point]
      exact late
    · rw [keepUsage_confirmed]
      exact confirmed
  case isFalse => exact { answered with }

theorem Spoken.finishBargeIn (coherent : bridge.Coherent) (running : bridge.run.fate = .running)
    (confirmed : bridge.run.confirmed = true) : Spoken (bridge.finishBargeIn, calls) := by
  have unsettled : bridge.run.fate.unsettled = true := by
    rw [running]
    rfl
  by_cases silent : bridge.replyText = []
  · rw [finishBargeIn_of_silent silent]
    exact kept.settle rfl rfl rfl (fun _ => rfl)
  · rw [finishBargeIn_of_spoken silent]
    have spoken := (coherent.toldKept.spoken unsettled).mpr silent
    have released := (coherent.shown unsettled).mpr ⟨confirmed, spoken⟩
    refine kept.addReply ledger released unsettled (kept.calling unsettled spoken)
      bridge.cutAnswer rfl rfl ?_ rfl rfl ?_ rfl
    · unfold cutAnswer
      cases bridge.earlyHeardMs with
      | none => exact List.nil_prefix
      | some audioEndMs => exact heardPrefix_begins bridge.replyText audioEndMs
    · dsimp only
      split
      · exact Or.inr rfl
      · exact Or.inl rfl

theorem Spoken.onDelta (told : bridge.Told) (late : bridge.point.late = true) (text : Text) :
    Spoken (bridge.onDelta text, calls) := by
  have unsettled := told.unsettled (TaskPoint.ne_done_of_late late)
  have spoken : Spoken (bridge.speak text, calls) :=
    { kept with calling := fun _ _ => ledger.asked late }
  unfold CascadeBridge.onDelta
  split
  case isTrue => exact kept
  case isFalse =>
    split
    case isTrue => exact { spoken with }
    case isFalse =>
      split
      case isTrue confirmed => exact spoken.release (kept.unmarked confirmed unsettled)
      case isFalse => exact spoken

end

theorem Spoken.collect (config : BridgeConfig) (kept : Spoken (bridge, calls)) (told : bridge.Told)
    (early : bridge.point.early = true) : Spoken (bridge.collect config, calls) := by
  have silent : bridge.run.firstToken = false := (told.early early).1
  have gathered : Spoken (bridge.gathered, calls) := { kept with }
  rw [collect_eq]
  split
  · exact gathered.settle rfl rfl rfl (fun _ => rfl)
  · exact
      { gathered with
        calling := fun _ _ none => by cases none }

theorem Spoken.stopWaiting (kept : Spoken (bridge, calls)) (told : bridge.Told)
    (early : bridge.point.early = true) (timedOut : Bool) :
    Spoken (bridge.stopWaiting config timedOut, calls) := by
  unfold CascadeBridge.stopWaiting
  split
  · have counted : Spoken ({ bridge with staleFinals := bridge.staleFinals + 1 }, calls) :=
      { kept with }
    have still : { bridge with staleFinals := bridge.staleFinals + 1 }.Told := { told with }
    exact counted.collect config still early
  · exact kept.collect config told early

theorem Spoken.startSpeech (kept : Spoken (bridge, calls)) :
    Spoken (bridge.startSpeech, calls) := by
  unfold CascadeBridge.startSpeech
  split
  · exact { kept with }
  · exact { kept with }

theorem Spoken.finishDiscard (config : BridgeConfig) (kept : Spoken (bridge, calls)) :
    Spoken (bridge.finishDiscard config, calls) := by
  exact kept.settle rfl rfl rfl (fun _ => rfl)

theorem Spoken.discardSpeculation (config : BridgeConfig) (kept : Spoken (bridge, calls))
    (thenStart : Bool) : Spoken (bridge.discardSpeculation config thenStart, calls) := by
  have dropped : Spoken ({ bridge with held := false }, calls) := { kept with }
  unfold CascadeBridge.discardSpeculation
  split
  · split
    · exact kept.startSpeech
    · exact kept
  · split
    · split
      · exact (dropped.finishDiscard config).startSpeech
      · exact dropped.finishDiscard config
    · exact { kept with }

section

variable (kept : Spoken (bridge, calls))
include kept

theorem Spoken.startRun (speculative confirmed : Bool) (signal : EndOfTurn)
    (unmarked : confirmed = true → bridge.interruptedIndex = none) :
    Spoken (bridge.startRun speculative confirmed signal, calls) :=
  { kept with
    answering := fun released => by cases released
    calling := fun _ spoken => by cases spoken
    unmarked := fun said _ => unmarked said }

theorem Spoken.onEndOfTurn (signal : EndOfTurn) : Spoken (bridge.onEndOfTurn signal, calls) := by
  have forgotten : Spoken ({ bridge with interruptedIndex := none }, calls) :=
    { kept with
      unmarked := fun _ _ => rfl
      marked := fun index none => by cases none }
  unfold CascadeBridge.onEndOfTurn
  dsimp only
  split
  case isTrue =>
    have confirmed : Spoken
        ({ bridge with
          interruptedIndex := none
          run := { bridge.run with confirmed := true, signal := signal } }, calls) :=
      { forgotten with unmarked := fun _ _ => rfl }
    split
    · exact confirmed.release rfl
    · exact confirmed
  case isFalse => exact forgotten.startRun false true signal (fun _ => rfl)

theorem Spoken.applyHeard (shown : bridge.Shown) (audioEndMs : Nat) :
    Spoken (bridge.applyHeard audioEndMs, calls) := by
  unfold CascadeBridge.applyHeard
  split
  case h_1 => exact kept
  case h_2 index marked =>
    obtain ⟨earlier, entry, history, rfl, assistant, started, member, run, whole⟩ :=
      kept.marked index marked
    have history : bridge.history = earlier ++ [entry] := history
    have replies := kept.replies
    dsimp only at replies
    rw [history, EachPrefix.snoc] at replies
    have unmarked (released : bridge.run.released = true)
        (unsettled : bridge.run.fate.unsettled = true) : False := by
      have none := kept.unmarked ((shown unsettled).mp released).1 unsettled
      dsimp only at none
      rw [marked] at none
      cases none
    exact
      { kept with
        replies := by
          dsimp only
          rw [history, modify_snoc, EachPrefix.snoc]
          refine ⟨replies.1, ?_⟩
          intro _
          obtain ⟨⟨user, last, role, number⟩, _⟩ := replies.2 assistant
          exact ⟨⟨user, last, role, number⟩, started, member, run,
            (heardPrefix_begins _ _).trans whole⟩
        answering := fun released unsettled => (unmarked released unsettled).elim
        unmarked := fun _ _ => rfl
        marked := fun index none => by cases none }

theorem Spoken.interrupt (shown : bridge.Shown) (audioEndMs : Nat) :
    Spoken (bridge.interrupt audioEndMs, calls) := by
  unfold CascadeBridge.interrupt
  split
  · split
    · exact { kept with }
    · exact kept
  · exact kept.applyHeard shown audioEndMs

theorem Spoken.step (ledger : Ledgered (bridge, calls)) (coherent : bridge.Coherent)
    (taken : bridge.Step config action next) : Spoken (next, calls) := by
  have told := coherent.toldKept
  cases taken.moves with
  | speechStart =>
      have heard : Spoken ({ bridge with detector := .speaking }, calls) := { kept with }
      exact heard.discardSpeculation config true
  | pauseStart =>
      have paused : Spoken ({ bridge with detector := .paused }, calls) := { kept with }
      unfold CascadeBridge.onPauseStart
      split
      · exact paused
      · have counted : Spoken
            ({ bridge with
              detector := .paused
              speculations := bridge.speculations + 1 }, calls) := { kept with }
        exact counted.startRun true false {} (fun impossible => by cases impossible)
  | pauseCancelled =>
      have heard : Spoken ({ bridge with detector := .speaking }, calls) := { kept with }
      exact heard.discardSpeculation config false
  | endOfTurn signal =>
      have heard : Spoken ({ bridge with detector := .idle }, calls) := { kept with }
      exact heard.onEndOfTurn signal
  | bargedIn live waiting =>
      obtain ⟨running, _, _, confirmed, _⟩ := coherent.attended.busy live (by simp [waiting])
      exact kept.finishBargeIn ledger coherent running (confirmed waiting)
  | discarded live thenStart =>
      split
      · exact (kept.finishDiscard config).startSpeech
      · exact kept.finishDiscard config
  | startTurn => exact { kept with }
  | requestSent => exact { kept with }
  | finalizeReturns => exact { kept with }
  | finalizeRaises timedOut calm early => exact kept.stopWaiting told early timedOut
  | stopWaiting timedOut calm early => exact kept.stopWaiting told early timedOut
  | brainTimeout calm replying =>
      exact kept.replyOver ledger told replying .timeout (fun _ same => by cases same)
  | replied outcome calm replying ended =>
      exact kept.replyOver ledger told replying outcome (fun _ _ => ended)
  | confirmed outcome calm waiting confirmed =>
      exact kept.conclude ledger told (TaskPoint.late_of_waiting waiting) confirmed outcome
  | cancelled => exact { kept with }
  | delta text running =>
      exact kept.onDelta ledger told (told.calling (by simp [running])) text
  | brainEnds => exact { kept with }
  | sttPartial phrase text =>
      unfold pumpPartial
      dsimp only
      split
      · exact { kept with }
      · exact { kept with }
  | sttFinal phrase text =>
      unfold pumpFinal
      dsimp only
      split
      · exact { kept with }
      · split <;> split <;> exact { kept with }
  | sttEnds error =>
      unfold pumpEnds
      dsimp only
      split
      · exact { kept with }
      · exact { kept with }
  | interrupt audioEndMs => exact kept.interrupt coherent.shown audioEndMs
  | close =>
      have same := bridge.run.fate.closed_unsettled
      exact
        { kept with
          answering := fun released unsettled => kept.answering released (same.symm.trans unsettled)
          calling := fun unsettled => kept.calling (same.symm.trans unsettled)
          unmarked := fun confirmed unsettled =>
            kept.unmarked confirmed (same.symm.trans unsettled) }
  | closed => exact { kept with }

end

/-! ### One call for a turn -/

theorem modifyHead_runs (calls : List StartedCall) {change : StartedCall → StartedCall}
    (run : ∀ started, (change started).run = started.run) :
    (calls.modifyHead change).map StartedCall.run = calls.map StartedCall.run := by
  cases calls with
  | nil => rfl
  | cons first rest => rw [List.modifyHead_cons, List.map_cons, List.map_cons, run]

theorem recordCalls_runs (bridge : CascadeBridge) (action : BridgeAction) (next : CascadeBridge)
    (calls : List StartedCall) :
    (recordCalls bridge action next calls).map StartedCall.run = calls.map StartedCall.run ∨
      next.call ≠ none ∧
        ((∃ timedOut, action = .finalizeRaises timedOut) ∨
          ∃ timedOut, action = .stopWaiting timedOut) ∧
        (recordCalls bridge action next calls).map StartedCall.run =
          next.run.number :: calls.map StartedCall.run := by
  have paid : (calls.modifyHead fun started =>
      { started with
        charged := started.charged + (next.brainCostUsd - bridge.brainCostUsd) }).map
          StartedCall.run = calls.map StartedCall.run := modifyHead_runs calls (fun _ => rfl)
  cases action with
  | delta text =>
      left
      unfold recordCalls
      dsimp only
      rw [modifyHead_runs, paid]
      intro started
      rfl
  | brainEnds outcome =>
      cases outcome with
      | ok usage =>
          left
          unfold recordCalls
          dsimp only
          rw [modifyHead_runs, paid]
          intro started
          rfl
      | failed message => exact Or.inl paid
      | timeout => exact Or.inl paid
  | finalizeRaises timedOut =>
      unfold recordCalls
      dsimp only
      split
      case h_1 => exact Or.inl paid
      case h_2 call called =>
        refine Or.inr ⟨by simp [called], Or.inl ⟨timedOut, rfl⟩, ?_⟩
        rw [List.map_cons, paid]
  | stopWaiting timedOut =>
      unfold recordCalls
      dsimp only
      split
      case h_1 => exact Or.inl paid
      case h_2 call called =>
        refine Or.inr ⟨by simp [called], Or.inr ⟨timedOut, rfl⟩, ?_⟩
        rw [List.map_cons, paid]
  | _ => exact Or.inl paid

/-- A step that begins no run begins no wait either. -/
def Steady (bridge next : CascadeBridge) : Prop :=
  next.run.number = bridge.run.number ∧ (next.point.early = true → bridge.point.early = true)

theorem Steady.trans {middle : CascadeBridge} (first : Steady bridge middle)
    (second : Steady middle next) : Steady bridge next :=
  ⟨second.1.trans first.1, fun early => first.2 (second.2 early)⟩

theorem Steady.of_done (number : next.run.number = bridge.run.number) (done : next.point = .done) :
    Steady bridge next := by
  refine ⟨number, ?_⟩
  intro early
  exact absurd done (TaskPoint.ne_done_of_early early)

theorem startSpeech_steady : Steady bridge bridge.startSpeech := by
  unfold startSpeech
  split <;> exact ⟨rfl, id⟩

theorem discardSpeculation_steady (thenStart : Bool) :
    Steady bridge (bridge.discardSpeculation config thenStart) := by
  have discarded : Steady bridge ({ bridge with held := false }.finishDiscard config) :=
    .of_done rfl rfl
  unfold discardSpeculation
  split
  · split
    · exact startSpeech_steady
    · exact ⟨rfl, id⟩
  · split
    · split
      · exact discarded.trans startSpeech_steady
      · exact discarded
    · exact ⟨rfl, id⟩

theorem release_steady : Steady bridge bridge.release := by
  refine ⟨by rw [release_run], ?_⟩
  rw [release_point]
  exact id

theorem conclude_steady (outcome : ReplyOutcome) :
    Steady bridge (bridge.conclude config outcome) := by
  apply Steady.of_done
  · rw [conclude_eq]
    change bridge.release.run.number = _
    rw [release_run]
  · exact conclude_done outcome

theorem replyOver_steady (outcome : ReplyOutcome) :
    Steady bridge (bridge.replyOver config outcome) := by
  have used : Steady bridge (bridge.keepUsage outcome) := by
    cases outcome <;> exact ⟨rfl, id⟩
  unfold replyOver
  split
  · exact used.trans (conclude_steady outcome)
  · exact ⟨used.1, fun early => by cases early⟩

theorem onDelta_steady (text : Text) : Steady bridge (bridge.onDelta text) := by
  unfold onDelta
  split
  · exact ⟨rfl, id⟩
  · split
    · exact ⟨rfl, id⟩
    · split
      · exact release_steady
      · exact ⟨rfl, id⟩

theorem finishBargeIn_steady : Steady bridge bridge.finishBargeIn := by
  by_cases silent : bridge.replyText = []
  · rw [finishBargeIn_of_silent silent]
    exact .of_done rfl rfl
  · rw [finishBargeIn_of_spoken silent]
    exact .of_done rfl rfl

theorem stopWaiting_steady (config : BridgeConfig) (early : bridge.point.early = true)
    (timedOut : Bool) :
    Steady bridge (bridge.stopWaiting config timedOut) ∧
      (bridge.stopWaiting config timedOut).point.early = false := by
  have collected (before : CascadeBridge) :
      (before.collect config).run.number = before.run.number ∧
        (before.collect config).point.early = false := by
    rw [collect_eq]
    split <;> exact ⟨rfl, rfl⟩
  unfold stopWaiting
  split
  · obtain ⟨number, begun⟩ := collected { bridge with staleFinals := bridge.staleFinals + 1 }
    exact ⟨⟨number, fun _ => early⟩, begun⟩
  · obtain ⟨number, begun⟩ := collected bridge
    exact ⟨⟨number, fun _ => early⟩, begun⟩

theorem steady_or_started (taken : bridge.Step config action next) :
    Steady bridge next ∨ next.run.number = bridge.run.number + 1 := by
  cases taken.moves with
  | speechStart =>
      have heard : Steady bridge { bridge with detector := .speaking } := ⟨rfl, id⟩
      exact Or.inl (heard.trans (discardSpeculation_steady true))
  | pauseStart =>
      unfold CascadeBridge.onPauseStart
      split
      · exact Or.inl ⟨rfl, id⟩
      · exact Or.inr rfl
  | pauseCancelled =>
      have heard : Steady bridge { bridge with detector := .speaking } := ⟨rfl, id⟩
      exact Or.inl (heard.trans (discardSpeculation_steady false))
  | endOfTurn signal =>
      unfold CascadeBridge.onEndOfTurn
      dsimp only
      split
      · split
        · exact Or.inl release_steady
        · exact Or.inl ⟨rfl, id⟩
      · exact Or.inr rfl
  | bargedIn => exact Or.inl finishBargeIn_steady
  | discarded live thenStart =>
      have discarded : Steady bridge (bridge.finishDiscard config) := .of_done rfl rfl
      split
      · exact Or.inl (discarded.trans startSpeech_steady)
      · exact Or.inl discarded
  | startTurn ready => exact Or.inl ⟨rfl, fun _ => by rw [ready.2]; rfl⟩
  | requestSent ready => exact Or.inl ⟨rfl, fun _ => by rw [ready]; rfl⟩
  | finalizeReturns ready => exact Or.inl ⟨rfl, fun _ => by rw [ready.2]; rfl⟩
  | finalizeRaises timedOut calm early => exact Or.inl (stopWaiting_steady config early timedOut).1
  | stopWaiting timedOut calm early => exact Or.inl (stopWaiting_steady config early timedOut).1
  | brainTimeout => exact Or.inl (replyOver_steady .timeout)
  | replied outcome => exact Or.inl (replyOver_steady outcome)
  | confirmed outcome => exact Or.inl (conclude_steady outcome)
  | cancelled => exact Or.inl (.of_done rfl rfl)
  | delta text => exact Or.inl (onDelta_steady text)
  | brainEnds => exact Or.inl ⟨rfl, id⟩
  | sttPartial phrase text =>
      unfold pumpPartial
      dsimp only
      split <;> exact Or.inl ⟨rfl, id⟩
  | sttFinal phrase text =>
      unfold pumpFinal
      dsimp only
      split
      · exact Or.inl ⟨rfl, id⟩
      · split <;> split <;> exact Or.inl ⟨rfl, id⟩
  | sttEnds error =>
      unfold pumpEnds
      dsimp only
      split <;> exact Or.inl ⟨rfl, id⟩
  | interrupt audioEndMs =>
      unfold CascadeBridge.interrupt CascadeBridge.applyHeard
      split
      · split <;> exact Or.inl ⟨rfl, id⟩
      · split <;> exact Or.inl ⟨rfl, id⟩
  | close => exact Or.inl ⟨rfl, id⟩
  | closed => exact Or.inl ⟨rfl, id⟩

theorem waited (taken : bridge.Step config action next)
    (waits : (∃ timedOut, action = .finalizeRaises timedOut) ∨
      ∃ timedOut, action = .stopWaiting timedOut) :
    bridge.point.early = true ∧ next.run.number = bridge.run.number ∧
      next.point.early = false := by
  rcases waits with ⟨timedOut, rfl⟩ | ⟨timedOut, rfl⟩
  · cases taken.moves with
    | finalizeRaises _ calm early =>
        obtain ⟨steady, begun⟩ := stopWaiting_steady config early timedOut
        exact ⟨early, steady.1, begun⟩
  · cases taken.moves with
    | stopWaiting _ calm early =>
        obtain ⟨steady, begun⟩ := stopWaiting_steady config early timedOut
        exact ⟨early, steady.1, begun⟩

theorem Numbered.step (kept : Numbered (bridge, calls)) (taken : bridge.Step config action next) :
    Numbered (next, recordCalls bridge action next calls) := by
  obtain ⟨distinct, started, fresh⟩ := kept
  dsimp only at distinct started fresh
  rcases recordCalls_runs bridge action next calls with same | ⟨_, waits, added⟩
  · rcases steady_or_started taken with ⟨number, early⟩ | number
    · refine ⟨?_, ?_, ?_⟩
      · rw [same]
        exact distinct
      · dsimp only
        rw [same, number]
        exact started
      · dsimp only
        rw [same, number]
        exact fun waiting => fresh (early waiting)
    · have below : ∀ other ∈ calls.map StartedCall.run, other < next.run.number := by
        intro other member
        have le := started other member
        omega
      refine ⟨?_, ?_, ?_⟩
      · rw [same]
        exact distinct
      · dsimp only
        rw [same]
        exact fun other member => Nat.le_of_lt (below other member)
      · dsimp only
        rw [same]
        exact fun _ => below
  · obtain ⟨early, number, begun⟩ := waited taken waits
    refine ⟨?_, ?_, ?_⟩
    · rw [added, List.pairwise_cons, number]
      exact ⟨fresh early, distinct⟩
    · dsimp only
      rw [added, number]
      intro other member
      rcases List.mem_cons.mp member with last | old
      · exact Nat.le_of_eq last
      · exact started other old
    · intro waiting
      dsimp only at waiting
      rw [begun] at waiting
      cases waiting

/-! ### What a step does to the history -/

/-- Only a heard position changes an entry: the last one, the reply that can still be cut. -/
def Corrects (bridge : CascadeBridge) (action : BridgeAction) (next : CascadeBridge) : Prop :=
  ∃ audioEndMs earlier entry, action = .interrupt audioEndMs ∧
    bridge.history = earlier ++ [entry] ∧ bridge.interruptedIndex = some earlier.length ∧
    entry.turn.role = .assistant ∧
    next.history = earlier ++
      [{ entry with
        turn := { role := .assistant
                  text := heardPrefix bridge.interruptedText audioEndMs } }]

theorem startSpeech_history : bridge.startSpeech.history = bridge.history := by
  unfold startSpeech
  split <;> rfl

theorem discardSpeculation_history (thenStart : Bool) :
    (bridge.discardSpeculation config thenStart).history = bridge.history := by
  unfold discardSpeculation
  split
  · split
    · exact startSpeech_history
    · rfl
  · split
    · split
      · exact startSpeech_history
      · rfl
    · rfl

theorem release_appends : bridge.history <+: bridge.release.history := by
  cases out : bridge.run.released with
  | true =>
      rw [release_of_released out]
  | false =>
      rw [release_eq out]
      exact List.prefix_append _ _

theorem conclude_appends (outcome : ReplyOutcome) :
    bridge.history <+: (bridge.conclude config outcome).history := by
  rw [conclude_eq]
  exact release_appends.trans (List.prefix_append _ _)

theorem replyOver_appends (outcome : ReplyOutcome) :
    bridge.history <+: (bridge.replyOver config outcome).history := by
  have used : (bridge.keepUsage outcome).history = bridge.history := by
    cases outcome <;> rfl
  unfold replyOver
  split
  · rw [← used]
    exact conclude_appends outcome
  · rw [← used]

theorem onDelta_appends (text : Text) : bridge.history <+: (bridge.onDelta text).history := by
  unfold onDelta
  split
  · exact List.prefix_rfl
  · split
    · exact List.prefix_rfl
    · split
      · refine List.IsPrefix.trans ?_ release_appends
        exact List.prefix_rfl
      · exact List.prefix_rfl

theorem finishBargeIn_appends : bridge.history <+: bridge.finishBargeIn.history := by
  by_cases silent : bridge.replyText = []
  · rw [finishBargeIn_of_silent silent]
  · rw [finishBargeIn_of_spoken silent]
    exact List.prefix_append _ _

theorem stopWaiting_history (timedOut : Bool) :
    (bridge.stopWaiting config timedOut).history = bridge.history := by
  have collected (before : CascadeBridge) :
      (before.collect config).history = before.history := by
    rw [collect_eq]
    split <;> rfl
  unfold stopWaiting
  split
  · exact collected _
  · exact collected _

theorem Spoken.corrects (kept : Spoken (bridge, calls)) (audioEndMs : Nat) :
    bridge.history <+: (bridge.interrupt audioEndMs).history ∨
      Corrects bridge (.interrupt audioEndMs) (bridge.interrupt audioEndMs) := by
  unfold CascadeBridge.interrupt
  split
  case isTrue =>
    left
    split <;> exact List.prefix_rfl
  case isFalse marked =>
    right
    obtain ⟨index, marked⟩ := Option.ne_none_iff_exists'.mp marked
    obtain ⟨earlier, entry, history, rfl, assistant, _⟩ := kept.marked index marked
    have history : bridge.history = earlier ++ [entry] := history
    refine ⟨audioEndMs, earlier, entry, rfl, history, marked, assistant, ?_⟩
    unfold CascadeBridge.applyHeard
    rw [marked]
    dsimp only
    rw [history, modify_snoc]

theorem Spoken.history_step (kept : Spoken (bridge, calls))
    (taken : bridge.Step config action next) :
    bridge.history <+: next.history ∨ Corrects bridge action next := by
  cases taken.moves with
  | interrupt audioEndMs => exact kept.corrects audioEndMs
  | speechStart =>
      left
      rw [discardSpeculation_history]
  | pauseCancelled =>
      left
      rw [discardSpeculation_history]
  | pauseStart =>
      left
      unfold CascadeBridge.onPauseStart
      split <;> exact List.prefix_rfl
  | endOfTurn signal =>
      left
      unfold CascadeBridge.onEndOfTurn
      dsimp only
      split
      · split
        · refine List.IsPrefix.trans ?_ release_appends
          exact List.prefix_rfl
        · exact List.prefix_rfl
      · exact List.prefix_rfl
  | bargedIn => exact Or.inl finishBargeIn_appends
  | discarded live thenStart =>
      left
      split
      · rw [startSpeech_history]
        exact List.prefix_rfl
      · exact List.prefix_rfl
  | finalizeRaises timedOut =>
      left
      rw [stopWaiting_history]
  | stopWaiting timedOut =>
      left
      rw [stopWaiting_history]
  | brainTimeout => exact Or.inl (replyOver_appends .timeout)
  | replied outcome => exact Or.inl (replyOver_appends outcome)
  | confirmed outcome => exact Or.inl (conclude_appends outcome)
  | delta text => exact Or.inl (onDelta_appends text)
  | sttPartial phrase text =>
      left
      unfold pumpPartial
      dsimp only
      split <;> exact List.prefix_rfl
  | sttFinal phrase text =>
      left
      unfold pumpFinal
      dsimp only
      split
      · exact List.prefix_rfl
      · split <;> split <;> exact List.prefix_rfl
  | sttEnds error =>
      left
      unfold pumpEnds
      dsimp only
      split <;> exact List.prefix_rfl
  | _ => exact Or.inl List.prefix_rfl

theorem connected_spoken : Spoken (connected, []) where
  replies := .nil
  answering := fun released => by cases released
  calling := fun _ spoken => by cases spoken
  unmarked := fun confirmed => by cases confirmed
  marked := fun index none => by cases none

theorem connected_numbered : Numbered (connected, []) where
  distinct := List.Pairwise.nil
  started := fun _ member => by cases member
  fresh := fun _ _ member => by cases member

/-- In every run each reply of the history stands after its user turn with a beginning of what
its one brain call has given, the marked entry is a reply, and a step adds entries or cuts the
reply at the end. -/
theorem history_spoken (config : BridgeConfig) (actions : List BridgeAction)
    (last : CascadeBridge) (calls : List StartedCall)
    (run : Run (Run.observed (Step config) recordCalls) (connected, []) actions (last, calls)) :
    EachPrefix (Entry.Replies calls) last.history ∧
      (calls.map StartedCall.run).Nodup ∧
      (∀ index ∈ last.interruptedIndex, ∃ entry, last.history[index]? = some entry ∧
        entry.turn.role = .assistant) ∧
      ∀ action next, last.Step config action next →
        last.history <+: next.history ∨ Corrects last action next := by
  have kept := run.invariant
    (fun state => state.1.Coherent ∧ Ledgered state ∧ Spoken state ∧ Numbered state)
    (connected, [])
    ⟨connected_coherent, connected_ledgered, connected_spoken, connected_numbered⟩ (by
      rintro ⟨bridge, calls⟩ action ⟨next, after⟩ ⟨coherent, ledger, spoken, numbered⟩
        ⟨taken, recorded⟩
      have same : after = recordCalls bridge action next calls := recorded
      subst same
      exact ⟨coherent.step taken, ledger.step coherent taken,
        (spoken.step ledger coherent taken).recorded, numbered.step taken⟩)
  obtain ⟨_, _, spoken, numbered⟩ := kept
  refine ⟨spoken.replies, ?_, ?_, fun _ _ taken => spoken.history_step taken⟩
  · exact numbered.distinct.imp (fun less => (Nat.ne_of_lt less).symm)
  · intro index marked
    obtain ⟨earlier, entry, history, rfl, assistant, _⟩ := spoken.marked index marked
    have history : last.history = earlier ++ [entry] := history
    refine ⟨entry, ?_, assistant⟩
    rw [history, List.getElem?_concat_length]

end Spoken

def heardRun : List BridgeAction :=
  startedReply ++ [.speechStart, .cancelled, .resumeHandler, .interrupt 1000]

theorem history_spoken_cut :
    ∃ last calls,
      Run (Run.observed (Step letterBrain) recordCalls) (connected, []) heardRun (last, calls) ∧
        EachPrefix (Entry.Replies calls) last.history ∧
        (calls.map StartedCall.run).Nodup ∧
        (∀ index ∈ last.interruptedIndex, ∃ entry, last.history[index]? = some entry ∧
          entry.turn.role = .assistant) ∧
        ∀ action next, last.Step letterBrain action next →
          last.history <+: next.history ∨ Corrects last action next := by
  have possible : (heardRun.foldlM (observedStep letterBrain) (connected, [])).isSome = true := by
    decide +kernel
  obtain ⟨⟨last, calls⟩, reached⟩ := Option.isSome_iff_exists.mp possible
  have run := observed_of_foldlM reached
  exact ⟨last, calls, run, history_spoken letterBrain heardRun last calls run⟩

end CascadeBridge
end Assemblix.Realtime
