import Mathlib.Data.List.Nodup
import Mathlib.Data.List.TakeWhile
import Assemblix.Realtime.ReplyTask

/-
Speculation is invisible.

A run shows nothing until the end of its turn is confirmed, and a discarded run never does.
What a turn shows is its user transcript, its reply and one end of the turn, in this order.
The text of a run that was not shown begins the text of the next turn that is.
-/

namespace Assemblix.Realtime

open Library

/-! ### What a turn shows -/

namespace BridgeEvent

def isReply : BridgeEvent → Bool
  | .turnTimings _ _ => true
  | .agentTranscript _ _ => true
  | _ => false

def isTurnEnded : BridgeEvent → Bool
  | .turnEnded _ _ _ => true
  | _ => false

def isError : BridgeEvent → Bool
  | .bridgeError _ _ _ => true
  | _ => false

/-- Events that belong to no turn: the signal of a barge-in, previews, recognizer errors and
the end of the session. -/
def isGeneral : BridgeEvent → Bool
  | .speechStarted => true
  | .userTranscript _ isFinal => !isFinal
  | .bridgeError _ _ _ => true
  | .sessionClosed => true
  | _ => false

end BridgeEvent

def eventsFor (number : Nat) (emitted : List (Option Nat × BridgeEvent)) : List BridgeEvent :=
  emitted.filterMap (fun entry => if entry.1 = some number then some entry.2 else none)

namespace CascadeBridge

def runs (bridge : CascadeBridge) : List TurnRun := bridge.run :: bridge.past

def eventsOf (bridge : CascadeBridge) (run : TurnRun) : List BridgeEvent :=
  eventsFor run.number bridge.emitted

end CascadeBridge

def Opened (run : TurnRun) (events : List BridgeEvent) : Prop :=
  ∃ replies, events = .userTranscript run.userText true :: replies ∧
    ∀ event ∈ replies, event.isReply = true

def Completed (run : TurnRun) (events : List BridgeEvent) : Prop :=
  ∃ replies ended errors,
    events = .userTranscript run.userText true :: (replies ++ ended :: errors) ∧
      (∀ event ∈ replies, event.isReply = true) ∧ ended.isTurnEnded = true ∧
      ∀ event ∈ errors, event.isError = true

def Story (run : TurnRun) (events : List BridgeEvent) : Prop :=
  match run.fate with
  | .running | .closed => if run.released then Opened run events else events = []
  | .finished | .interrupted => run.released = true ∧ Completed run events
  | .empty | .cutOff | .discarded => run.released = false ∧ events = []

structure TurnRun.Sound (run : TurnRun) : Prop where
  confirmed : run.released = true → run.confirmed = true
  begun : run.released = true → run.userText ≠ []
  cut : run.fate = .cutOff → run.firstToken = false
  silent : run.fate = .empty → run.userText = []
  dropped : run.fate = .discarded → run.confirmed = false

/-! ### Events by turn -/

section Events

variable {number other : Nat} {emitted added : List (Option Nat × BridgeEvent)}
  {events : List BridgeEvent}

theorem eventsFor_append : eventsFor number (emitted ++ added) =
    eventsFor number emitted ++ eventsFor number added :=
  List.filterMap_append

theorem eventsFor_own : eventsFor number (events.map (fun event => (some number, event))) =
    events := by
  unfold eventsFor
  rw [List.filterMap_map]
  induction events with
  | nil => rfl
  | cons event rest ih => simp

theorem eventsFor_none (foreign : ∀ entry ∈ added, entry.1 ≠ some number) :
    eventsFor number added = [] := by
  unfold eventsFor
  rw [List.filterMap_eq_nil_iff]
  intro entry member
  rw [if_neg (foreign entry member)]

end Events

/-! ### Stories -/

theorem story_iff {run : TurnRun} {events : List BridgeEvent}
    (unsettled : run.fate.unsettled = true) :
    Story run events ↔ if run.released then Opened run events else events = [] := by
  unfold Story
  cases fate : run.fate with
  | running => exact Iff.rfl
  | closed => exact Iff.rfl
  | empty => rw [fate] at unsettled; cases unsettled
  | finished => rw [fate] at unsettled; cases unsettled
  | interrupted => rw [fate] at unsettled; cases unsettled
  | cutOff => rw [fate] at unsettled; cases unsettled
  | discarded => rw [fate] at unsettled; cases unsettled

theorem story_of_opened {run : TurnRun} {events : List BridgeEvent}
    (unsettled : run.fate.unsettled = true) (released : run.released = true)
    (opened : Opened run events) : Story run events := by
  rw [story_iff unsettled, if_pos released]
  exact opened

theorem opened_of_story {run : TurnRun} {events : List BridgeEvent}
    (unsettled : run.fate.unsettled = true) (released : run.released = true)
    (story : Story run events) : Opened run events := by
  rw [story_iff unsettled, if_pos released] at story
  exact story

theorem nothing_of_story {run : TurnRun} {events : List BridgeEvent} (story : Story run events)
    (unreleased : run.released = false) : events = [] := by
  unfold Story at story
  split at story
  · rw [unreleased] at story
    exact story
  · rw [unreleased] at story
    exact story
  · rw [unreleased] at story
    cases story.1
  · rw [unreleased] at story
    cases story.1
  · exact story.2
  · exact story.2
  · exact story.2

theorem Opened.reply {run : TurnRun} {events : List BridgeEvent} (opened : Opened run events)
    {event : BridgeEvent} (reply : event.isReply = true) : Opened run (events ++ [event]) := by
  obtain ⟨replies, shown, each⟩ := opened
  refine ⟨replies ++ [event], by rw [shown, List.cons_append], ?_⟩
  intro other member
  rcases List.mem_append.mp member with old | new
  · exact each other old
  · rw [List.mem_singleton.mp new]
    exact reply

theorem Opened.complete {run : TurnRun} {events replies errors : List BridgeEvent}
    {ended : BridgeEvent} (opened : Opened run events)
    (each : ∀ event ∈ replies, event.isReply = true) (last : ended.isTurnEnded = true)
    (failed : ∀ event ∈ errors, event.isError = true) :
    Completed run (events ++ (replies ++ ended :: errors)) := by
  obtain ⟨before, shown, earlier⟩ := opened
  refine ⟨before ++ replies, ended, errors, ?_, ?_, last, failed⟩
  · rw [shown, List.cons_append, List.append_assoc]
  · intro event member
    rcases List.mem_append.mp member with old | new
    · exact earlier event old
    · exact each event new

theorem TurnRun.Sound.of_unsettled {run : TurnRun} (unsettled : run.fate.unsettled = true)
    (confirmed : run.released = true → run.confirmed = true)
    (begun : run.released = true → run.userText ≠ []) : run.Sound where
  confirmed := confirmed
  begun := begun
  cut := by
    intro cut
    rw [cut] at unsettled
    cases unsettled
  silent := by
    intro empty
    rw [empty] at unsettled
    cases unsettled
  dropped := by
    intro dropped
    rw [dropped] at unsettled
    cases unsettled

namespace CascadeBridge

structure Announced (bridge : CascadeBridge) : Prop where
  story : ∀ run ∈ bridge.runs, Story run (bridge.eventsOf run)
  sound : ∀ run ∈ bridge.runs, run.Sound
  ended : ∀ run ∈ bridge.past, run.fate.unsettled = false
  numbered : bridge.runs.Pairwise (fun newer older => older.number < newer.number)
  tagged : ∀ entry ∈ bridge.emitted, ∀ number ∈ entry.1,
    ∃ run ∈ bridge.runs, run.number = number
  general : ∀ entry ∈ bridge.emitted, entry.1 = none → entry.2.isGeneral = true
  entries : ∀ entry ∈ bridge.history,
    ∃ run ∈ bridge.runs, run.number = entry.run ∧ run.released = true

section Announced

variable {bridge next : CascadeBridge} {config : BridgeConfig}

theorem Announced.older (kept : bridge.Announced) {run : TurnRun} (past : run ∈ bridge.past) :
    run.number < bridge.run.number :=
  (List.pairwise_cons.mp kept.numbered).1 run past

theorem Announced.update (kept : bridge.Announced) (past : next.past = bridge.past)
    (number : next.run.number = bridge.run.number)
    (added : List (Option Nat × BridgeEvent)) (emitted : next.emitted = bridge.emitted ++ added)
    (own : ∀ entry ∈ added, entry.1 = some bridge.run.number ∨
      entry.1 = none ∧ entry.2.isGeneral = true)
    (released : bridge.run.released = true → next.run.released = true)
    (entries : ∀ entry ∈ next.history,
      entry.run = bridge.run.number ∧ next.run.released = true ∨
        ∃ old ∈ bridge.history, old.run = entry.run)
    (story : Story next.run (bridge.eventsOf bridge.run ++ eventsFor bridge.run.number added))
    (sound : next.run.Sound) : next.Announced where
  story := by
    intro run member
    unfold eventsOf
    rw [emitted, eventsFor_append]
    rcases List.mem_cons.mp member with current | earlier
    · rw [current, number]
      exact story
    · rw [past] at earlier
      have foreign : eventsFor run.number added = [] := by
        apply eventsFor_none
        intro entry member
        rcases own entry member with here | ⟨none, _⟩
        · rw [here]
          intro same
          have older := kept.older earlier
          rw [Option.some.inj same] at older
          exact Nat.lt_irrefl _ older
        · rw [none]
          simp
      rw [foreign, List.append_nil]
      exact kept.story run (List.mem_cons_of_mem _ earlier)
  sound := by
    intro run member
    rcases List.mem_cons.mp member with current | earlier
    · rw [current]
      exact sound
    · rw [past] at earlier
      exact kept.sound run (List.mem_cons_of_mem _ earlier)
  ended := by
    rw [past]
    exact kept.ended
  numbered := by
    have order := List.pairwise_cons.mp kept.numbered
    unfold runs
    rw [past, List.pairwise_cons, number]
    exact order
  tagged := by
    intro entry member tag tagged
    rw [emitted] at member
    rcases List.mem_append.mp member with old | new
    · obtain ⟨run, listed, same⟩ := kept.tagged entry old tag tagged
      rcases List.mem_cons.mp listed with current | earlier
      · exact ⟨next.run, List.mem_cons_self, by rw [number, ← current, same]⟩
      · exact ⟨run, List.mem_cons_of_mem _ (by rw [past]; exact earlier), same⟩
    · rcases own entry new with here | ⟨none, _⟩
      · rw [here] at tagged
        exact ⟨next.run, List.mem_cons_self, by rw [number]; exact Option.some.inj tagged⟩
      · rw [none] at tagged
        cases tagged
  general := by
    intro entry member none
    rw [emitted] at member
    rcases List.mem_append.mp member with old | new
    · exact kept.general entry old none
    · rcases own entry new with here | ⟨_, general⟩
      · rw [here] at none
        cases none
      · exact general
  entries := by
    intro entry member
    rcases entries entry member with ⟨here, out⟩ | ⟨old, listed, same⟩
    · exact ⟨next.run, List.mem_cons_self, number.trans here.symm, out⟩
    · obtain ⟨run, member', same', out⟩ := kept.entries old listed
      rcases List.mem_cons.mp member' with current | earlier
      · rw [current] at same' out
        exact ⟨next.run, List.mem_cons_self, number.trans (same'.trans same), released out⟩
      · exact ⟨run, List.mem_cons_of_mem _ (by rw [past]; exact earlier), same'.trans same, out⟩

/-- A step that shows nothing of the current turn and does not move its run on. -/
theorem Announced.quiet (kept : bridge.Announced) (past : next.past = bridge.past)
    (number : next.run.number = bridge.run.number) (fate : next.run.fate = bridge.run.fate)
    (released : next.run.released = bridge.run.released)
    (confirmed : next.run.confirmed = bridge.run.confirmed)
    (userText : next.run.userText = bridge.run.userText)
    (firstToken : next.run.firstToken = bridge.run.firstToken)
    (history : ∀ entry ∈ next.history, ∃ old ∈ bridge.history, old.run = entry.run)
    (added : List (Option Nat × BridgeEvent)) (emitted : next.emitted = bridge.emitted ++ added)
    (general : ∀ entry ∈ added, entry.1 = none ∧ entry.2.isGeneral = true) :
    next.Announced := by
  have story := kept.story bridge.run List.mem_cons_self
  have sound := kept.sound bridge.run List.mem_cons_self
  apply kept.update past number added emitted (fun entry member => Or.inr (general entry member))
  · intro out
    rw [released, out]
  · exact fun entry member => Or.inr (history entry member)
  · have foreign : eventsFor bridge.run.number added = [] := by
      apply eventsFor_none
      intro entry member
      rw [(general entry member).1]
      simp
    rw [foreign, List.append_nil]
    unfold Story Opened Completed at story ⊢
    rw [fate, released, userText]
    exact story
  · exact
      { confirmed := by rw [released, confirmed]; exact sound.confirmed
        begun := by rw [released, userText]; exact sound.begun
        cut := by rw [fate, firstToken]; exact sound.cut
        silent := by rw [fate, userText]; exact sound.silent
        dropped := by rw [fate, confirmed]; exact sound.dropped }

theorem Announced.startRun (kept : bridge.Announced)
    (ended : bridge.run.fate.unsettled = false) (speculative confirmed : Bool)
    (signal : EndOfTurn) : (bridge.startRun speculative confirmed signal).Announced where
  story := by
    intro run member
    rcases List.mem_cons.mp member with current | earlier
    · rw [current]
      apply eventsFor_none
      intro entry listed tag
      obtain ⟨run, member, same⟩ := kept.tagged entry listed _ tag
      rcases List.mem_cons.mp member with current | earlier
      · rw [current] at same
        exact Nat.ne_of_lt (Nat.lt_succ_self _) same
      · have older := kept.older earlier
        rw [same] at older
        exact Nat.lt_asymm older (Nat.lt_succ_self _)
    · exact kept.story run earlier
  sound := by
    intro run member
    rcases List.mem_cons.mp member with current | earlier
    · rw [current]
      exact
        { confirmed := fun released => by cases released
          begun := fun released => by cases released
          cut := fun cut => by cases cut
          silent := fun empty => by cases empty
          dropped := fun dropped => by cases dropped }
    · exact kept.sound run earlier
  ended := by
    intro run member
    rcases List.mem_cons.mp member with last | earlier
    · rw [last]
      exact ended
    · exact kept.ended run earlier
  numbered := by
    apply List.pairwise_cons.mpr ⟨?_, kept.numbered⟩
    intro run member
    rcases List.mem_cons.mp member with last | earlier
    · rw [last]
      exact Nat.lt_succ_self _
    · exact Nat.lt_succ_of_lt (kept.older earlier)
  tagged := by
    intro entry member number tag
    obtain ⟨run, listed, same⟩ := kept.tagged entry member number tag
    exact ⟨run, List.mem_cons_of_mem _ listed, same⟩
  general := kept.general
  entries := by
    intro entry member
    obtain ⟨run, listed, same⟩ := kept.entries entry member
    exact ⟨run, List.mem_cons_of_mem _ listed, same⟩

theorem Announced.current (kept : bridge.Announced) :
    Story bridge.run (bridge.eventsOf bridge.run) :=
  kept.story bridge.run List.mem_cons_self

theorem opening_opened : Opened bridge.run bridge.opening := by
  unfold opening
  refine ⟨_, rfl, ?_⟩
  split
  · split
    · simp [BridgeEvent.isReply]
    · simp [BridgeEvent.isReply]
  · simp

theorem Announced.release (kept : bridge.Announced)
    (confirmed : bridge.run.confirmed = true) (words : bridge.run.userText ≠ [])
    (unsettled : bridge.run.fate.unsettled = true) : bridge.release.Announced := by
  cases out : bridge.run.released with
  | true =>
      rw [release_of_released out]
      exact kept
  | false =>
      rw [release_eq out]
      refine kept.update rfl rfl
        (bridge.opening.map (fun event => (some bridge.run.number, event))) rfl ?_ ?_ ?_ ?_ ?_
      · intro entry member
        obtain ⟨event, _, same⟩ := List.mem_map.mp member
        exact Or.inl (by rw [← same])
      · exact fun _ => rfl
      · intro entry member
        rcases List.mem_append.mp member with old | new
        · exact Or.inr ⟨entry, old, rfl⟩
        · rw [List.mem_singleton.mp new]
          exact Or.inl ⟨rfl, rfl⟩
      · rw [eventsFor_own, nothing_of_story kept.current out, List.nil_append]
        exact story_of_opened unsettled rfl opening_opened
      · exact TurnRun.Sound.of_unsettled unsettled (fun _ => confirmed) (fun _ => words)

theorem Announced.putReply (kept : bridge.Announced)
    (released : bridge.run.released = true) (unsettled : bridge.run.fate.unsettled = true)
    {event : BridgeEvent} (reply : event.isReply = true) : (bridge.putTurn event).Announced := by
  refine kept.update rfl rfl ([event].map (fun event => (some bridge.run.number, event))) rfl
    ?_ id (fun entry member => Or.inr ⟨entry, member, rfl⟩) ?_
    (kept.sound bridge.run List.mem_cons_self)
  · intro entry member
    rw [List.mem_singleton.mp member]
    exact Or.inl rfl
  · rw [eventsFor_own]
    have opened := opened_of_story unsettled released kept.current
    exact story_of_opened unsettled released (opened.reply reply)

theorem Announced.speak (kept : bridge.Announced) (unsettled : bridge.run.fate.unsettled = true)
    (text : Text) : (bridge.speak text).Announced := by
  have sound := kept.sound bridge.run List.mem_cons_self
  refine kept.update rfl rfl [] (List.append_nil _).symm (fun entry member => by cases member) id
    (fun entry member => Or.inr ⟨entry, member, rfl⟩) ?_
    (TurnRun.Sound.of_unsettled unsettled sound.confirmed sound.begun)
  rw [eventsFor, List.filterMap_nil, List.append_nil]
  exact (story_iff unsettled).mpr ((story_iff unsettled).mp kept.current)

theorem closing_shape (usage : BrainUsage) (outcome : CallOutcome) (error : Option String) :
    ∃ replies ended, bridge.closing usage outcome error = replies ++ [ended] ∧
      (∀ event ∈ replies, event.isReply = true) ∧ ended.isTurnEnded = true := by
  unfold closing
  refine ⟨_, _, rfl, ?_, rfl⟩
  split
  · simp
  · simp [BridgeEvent.isReply]

theorem failure_errors (outcome : ReplyOutcome) :
    ∀ event ∈ outcome.failure config, event.isError = true := by
  cases outcome <;> simp [ReplyOutcome.failure, BridgeEvent.isError]

theorem mem_answer {entry : Entry} (member : entry ∈ bridge.answer) :
    entry.run = bridge.run.number := by
  unfold answer at member
  split at member
  · cases member
  · rw [List.mem_singleton.mp member]

section

variable (kept : bridge.Announced)
include kept

theorem Announced.concluded (released : bridge.run.released = true)
    (unsettled : bridge.run.fate.unsettled = true) (outcome : ReplyOutcome) :
    (bridge.concluded config outcome).Announced := by
  have sound := kept.sound bridge.run List.mem_cons_self
  refine kept.update rfl rfl
    ((bridge.closing outcome.usage outcome.callOutcome (outcome.error config) ++
      outcome.failure config).map (fun event => (some bridge.run.number, event))) rfl
    ?_ id ?_ ?_ ?_
  · intro entry member
    obtain ⟨event, _, same⟩ := List.mem_map.mp member
    exact Or.inl (by rw [← same])
  · intro entry member
    rcases List.mem_append.mp member with old | new
    · exact Or.inr ⟨entry, old, rfl⟩
    · exact Or.inl ⟨mem_answer new, released⟩
  · have opened := opened_of_story unsettled released kept.current
    obtain ⟨replies, ended, shape, each, last⟩ :=
      bridge.closing_shape outcome.usage outcome.callOutcome (outcome.error config)
    rw [eventsFor_own, shape, List.append_assoc, List.singleton_append]
    exact ⟨released, opened.complete each last (failure_errors outcome)⟩
  · exact
      { sound with
        cut := fun cut => by cases cut
        silent := fun empty => by cases empty
        dropped := fun dropped => by cases dropped }

/-- A run that ends without having shown anything. -/
theorem Announced.vanish (past : next.past = bridge.past)
    (unreleased : bridge.run.released = false) (run : next.run.number = bridge.run.number)
    (still : next.run.released = false)
    (fate : next.run.fate = .empty ∨ next.run.fate = .cutOff ∨ next.run.fate = .discarded)
    (emitted : next.emitted = bridge.emitted) (history : next.history = bridge.history)
    (sound : next.run.Sound) : next.Announced := by
  refine kept.update past run [] (by rw [emitted, List.append_nil])
    (fun entry member => by cases member) ?_ ?_ ?_ sound
  · intro released
    rw [unreleased] at released
    cases released
  · intro entry member
    rw [history] at member
    exact Or.inr ⟨entry, member, rfl⟩
  · have nothing : bridge.eventsOf bridge.run ++ eventsFor bridge.run.number [] = [] := by
      rw [nothing_of_story kept.current unreleased]
      rfl
    rw [nothing]
    unfold Story
    rcases fate with empty | cut | dropped
    · rw [empty]
      exact ⟨still, rfl⟩
    · rw [cut]
      exact ⟨still, rfl⟩
    · rw [dropped]
      exact ⟨still, rfl⟩

theorem Announced.of_same (past : next.past = bridge.past) (run : next.run = bridge.run)
    (emitted : next.emitted = bridge.emitted) (history : next.history = bridge.history) :
    next.Announced := by
  refine kept.quiet past (by rw [run]) (by rw [run]) (by rw [run]) (by rw [run]) (by rw [run])
    (by rw [run]) ?_ [] (by rw [emitted, List.append_nil]) (fun entry member => by cases member)
  intro entry member
  rw [history] at member
  exact ⟨entry, member, rfl⟩

theorem Announced.put {event : BridgeEvent} (general : event.isGeneral = true) :
    (bridge.put event).Announced := by
  refine kept.quiet rfl rfl rfl rfl rfl rfl rfl (fun entry member => ⟨entry, member, rfl⟩)
    [(none, event)] rfl ?_
  intro entry member
  rw [List.mem_singleton.mp member]
  exact ⟨rfl, general⟩

theorem Announced.startSpeech : bridge.startSpeech.Announced := by
  unfold CascadeBridge.startSpeech
  have reset : Announced
      { bridge with speculations := 0, staleFinals := 0, orphanFinals := 0, handler := .idle } :=
    kept.of_same rfl rfl rfl rfl
  have started := reset.put (rfl : BridgeEvent.speechStarted.isGeneral = true)
  split
  · exact started
  · exact started.of_same rfl rfl rfl rfl

theorem Announced.finishDiscard (unconfirmed : bridge.run.confirmed = false) :
    (bridge.finishDiscard config).Announced := by
  have unreleased : bridge.run.released = false := by
    by_contra released
    have said := (kept.sound bridge.run List.mem_cons_self).confirmed (eq_true_of_ne_false released)
    rw [unconfirmed] at said
    cases said
  refine kept.vanish rfl unreleased rfl unreleased (Or.inr (Or.inr rfl)) rfl rfl ?_
  exact
    { confirmed := (kept.sound bridge.run List.mem_cons_self).confirmed
      begun := (kept.sound bridge.run List.mem_cons_self).begun
      cut := fun cut => by cases cut
      silent := fun empty => by cases empty
      dropped := fun _ => unconfirmed }

theorem Announced.discardSpeculation (thenStart : Bool) :
    (bridge.discardSpeculation config thenStart).Announced := by
  unfold CascadeBridge.discardSpeculation
  split
  case isTrue =>
    split
    · exact kept.startSpeech
    · exact kept
  case isFalse dropping =>
    have unconfirmed : bridge.run.confirmed = false := by
      by_contra said
      exact dropping (by simp [eq_true_of_ne_false said])
    split
    case isTrue =>
      have unheld : { bridge with held := false }.Announced := kept.of_same rfl rfl rfl rfl
      have discarded : ({ bridge with held := false }.finishDiscard config).Announced :=
        unheld.finishDiscard unconfirmed
      split
      · exact discarded.startSpeech
      · exact discarded
    case isFalse => exact kept.of_same rfl rfl rfl rfl

theorem Announced.finishBargeIn (shown : bridge.Shown) (told : bridge.Told)
    (confirmed : bridge.run.confirmed = true) (unsettled : bridge.run.fate.unsettled = true) :
    bridge.finishBargeIn.Announced := by
  have sound := kept.sound bridge.run List.mem_cons_self
  by_cases silent : bridge.replyText = []
  · have quiet : bridge.run.firstToken = false := by
      by_contra spoken
      exact (told.spoken unsettled).mp (eq_true_of_ne_false spoken) silent
    have unreleased : bridge.run.released = false := by
      by_contra released
      have both := (shown unsettled).mp (eq_true_of_ne_false released)
      rw [quiet] at both
      cases both.2
    rw [finishBargeIn_of_silent silent]
    refine kept.vanish rfl unreleased rfl unreleased (Or.inr (Or.inl rfl)) rfl rfl ?_
    exact
      { sound with
        cut := fun _ => quiet
        silent := fun empty => by cases empty
        dropped := fun dropped => by cases dropped }
  · have released : bridge.run.released = true :=
      (shown unsettled).mpr ⟨confirmed, (told.spoken unsettled).mpr silent⟩
    rw [finishBargeIn_of_spoken silent]
    refine kept.update rfl rfl
      (bridge.cutting.map (fun event => (some bridge.run.number, event))) rfl ?_ id ?_ ?_ ?_
    · intro entry member
      obtain ⟨event, _, same⟩ := List.mem_map.mp member
      exact Or.inl (by rw [← same])
    · intro entry member
      rcases List.mem_append.mp member with old | new
      · exact Or.inr ⟨entry, old, rfl⟩
      · rw [List.mem_singleton.mp new]
        exact Or.inl ⟨rfl, released⟩
    · have opened := opened_of_story unsettled released kept.current
      have each : ∀ event ∈ [BridgeEvent.agentTranscript bridge.replyText true],
          event.isReply = true := by simp [BridgeEvent.isReply]
      rw [eventsFor_own]
      exact ⟨released, opened.complete each rfl (fun event member => by cases member)⟩
    · exact
        { sound with
          cut := fun cut => by cases cut
          silent := fun empty => by cases empty
          dropped := fun dropped => by cases dropped }

theorem Announced.collect (told : bridge.Told) (early : bridge.point.early = true) :
    (bridge.collect config).Announced := by
  obtain ⟨_, unreleased, _, _⟩ := told.early early
  have unsettled := told.unsettled (TaskPoint.ne_done_of_early early)
  have hidden : bridge.run.released = true → False := by
    intro released
    rw [unreleased] at released
    cases released
  rw [collect_eq]
  split
  case isTrue silent =>
    refine kept.vanish rfl unreleased rfl unreleased (Or.inl rfl) rfl rfl ?_
    exact
      { confirmed := fun released => absurd released hidden
        begun := fun released => absurd released hidden
        cut := fun cut => by cases cut
        silent := fun _ => silent
        dropped := fun dropped => by cases dropped }
  case isFalse =>
    refine kept.update rfl rfl [] (List.append_nil _).symm (fun entry member => by cases member) id
      (fun entry member => Or.inr ⟨entry, member, rfl⟩) ?_
      (TurnRun.Sound.of_unsettled unsettled (fun released => absurd released hidden)
        (fun released => absurd released hidden))
    rw [eventsFor, List.filterMap_nil, List.append_nil, nothing_of_story kept.current unreleased]
    refine (story_iff ?_).mpr ?_
    · exact unsettled
    · exact Eq.mpr (if_neg hidden) rfl

theorem Announced.stopWaiting (told : bridge.Told) (early : bridge.point.early = true)
    (timedOut : Bool) : (bridge.stopWaiting config timedOut).Announced := by
  unfold CascadeBridge.stopWaiting
  split
  case isTrue =>
    have counted : { bridge with staleFinals := bridge.staleFinals + 1 }.Announced :=
      kept.of_same rfl rfl rfl rfl
    have still : { bridge with staleFinals := bridge.staleFinals + 1 }.Told := { told with }
    exact counted.collect still early
  case isFalse => exact kept.collect told early

theorem Announced.conclude (told : bridge.Told) (late : bridge.point.late = true)
    (confirmed : bridge.run.confirmed = true) (outcome : ReplyOutcome) :
    (bridge.conclude config outcome).Announced := by
  have unsettled := told.unsettled (TaskPoint.ne_done_of_late late)
  rw [conclude_eq]
  apply (kept.release confirmed (told.late late).2 unsettled).concluded
  · rw [release_run]
  · rw [release_run]
    exact unsettled

theorem Announced.keepUsage (outcome : ReplyOutcome) : (bridge.keepUsage outcome).Announced := by
  cases outcome with
  | ok usage =>
      exact kept.quiet rfl rfl rfl rfl rfl rfl rfl (fun entry member => ⟨entry, member, rfl⟩) []
        (List.append_nil _).symm (fun entry member => by cases member)
  | failed message => exact kept
  | timeout => exact kept

theorem Announced.replyOver (told : bridge.Told) (late : bridge.point.late = true)
    (outcome : ReplyOutcome) : (bridge.replyOver config outcome).Announced := by
  have answered := kept.keepUsage outcome
  have still : (bridge.keepUsage outcome).point.late = true := by
    rw [keepUsage_point]
    exact late
  unfold CascadeBridge.replyOver
  split
  case isTrue confirmed =>
    apply answered.conclude (told.keepUsage outcome) still
    rw [keepUsage_confirmed]
    exact confirmed
  case isFalse => exact answered.of_same rfl rfl rfl rfl

theorem Announced.onDelta (coherent : bridge.Coherent) (running : bridge.brainTask = .running)
    (text : Text) : (bridge.onDelta text).Announced := by
  have late : bridge.point.late = true := coherent.toldKept.calling (by simp [running])
  have unsettled := coherent.toldKept.unsettled (TaskPoint.ne_done_of_late late)
  have spoken := kept.speak unsettled text
  unfold CascadeBridge.onDelta
  split
  case isTrue => exact kept
  case isFalse =>
    split
    case isTrue released => exact spoken.putReply released unsettled rfl
    case isFalse =>
      split
      case isTrue confirmed =>
        exact spoken.release confirmed (coherent.toldKept.late late).2 unsettled
      case isFalse => exact spoken

theorem Announced.onPauseStart (ended : bridge.run.fate.unsettled = false) :
    bridge.onPauseStart.Announced := by
  unfold CascadeBridge.onPauseStart
  split
  case isTrue => exact kept
  case isFalse =>
    have counted : { bridge with speculations := bridge.speculations + 1 }.Announced :=
      kept.of_same rfl rfl rfl rfl
    exact counted.startRun ended true false {}

theorem Announced.confirm (notDropped : bridge.run.fate ≠ .discarded) (signal : EndOfTurn) :
    Announced
      { bridge with
        interruptedIndex := none
        run := { bridge.run with confirmed := true, signal := signal } } := by
  have sound := kept.sound bridge.run List.mem_cons_self
  refine kept.update rfl rfl [] (List.append_nil _).symm (fun entry member => by cases member) id
    (fun entry member => Or.inr ⟨entry, member, rfl⟩) ?_ ?_
  · rw [eventsFor, List.filterMap_nil, List.append_nil]
    have story := kept.current
    unfold Story at story ⊢
    exact story
  · exact
      { confirmed := fun _ => rfl
        begun := sound.begun
        cut := sound.cut
        silent := sound.silent
        dropped := fun dropped => absurd dropped notDropped }

theorem Announced.onEndOfTurn (told : bridge.Told)
    (attended : bridge.run.fate = .discarded → bridge.held = false)
    (ended : bridge.held = false ∨ bridge.run.confirmed = true →
      bridge.run.fate.unsettled = false) (signal : EndOfTurn) :
    (bridge.onEndOfTurn signal).Announced := by
  unfold CascadeBridge.onEndOfTurn
  dsimp only
  split
  case isTrue holding =>
    obtain ⟨held, _⟩ := Bool.and_eq_true_iff.mp holding
    have notDropped : bridge.run.fate ≠ .discarded := by
      intro dropped
      rw [attended dropped] at held
      cases held
    have confirmed := kept.confirm notDropped signal
    split
    case isTrue spoken =>
      exact confirmed.release rfl (told.heard spoken).2
        (told.unsettled_of_held holding attended spoken)
    case isFalse => exact confirmed
  case isFalse free =>
    have heard : { bridge with interruptedIndex := none }.Announced := kept.of_same rfl rfl rfl rfl
    apply heard.startRun
    apply ended
    cases held : bridge.held with
    | false => exact Or.inl rfl
    | true =>
        rw [held] at free
        exact Or.inr (by simpa using free)

theorem Announced.close :
    Announced
      { bridge with
        session := .closing
        cancelling := bridge.point ≠ .done
        run := { bridge.run with
          fate := if bridge.run.fate = .running then .closed else bridge.run.fate } } := by
  by_cases running : bridge.run.fate = .running
  · rw [if_pos running]
    have unsettled : bridge.run.fate.unsettled = true := by
      rw [running]
      rfl
    have sound := kept.sound bridge.run List.mem_cons_self
    refine kept.update rfl rfl [] (List.append_nil _).symm (fun entry member => by cases member) id
      (fun entry member => Or.inr ⟨entry, member, rfl⟩) ?_
      (TurnRun.Sound.of_unsettled rfl sound.confirmed sound.begun)
    rw [eventsFor, List.filterMap_nil, List.append_nil]
    exact (story_iff unsettled).mp kept.current
  · rw [if_neg running]
    exact kept.of_same rfl rfl rfl rfl

end

theorem pumpFinal_same (phrase : Nat) (text : Text) :
    (bridge.pumpFinal phrase text).past = bridge.past ∧
      (bridge.pumpFinal phrase text).run = bridge.run ∧
      (bridge.pumpFinal phrase text).emitted = bridge.emitted ∧
      (bridge.pumpFinal phrase text).history = bridge.history := by
  unfold pumpFinal
  dsimp only
  split
  · exact ⟨rfl, rfl, rfl, rfl⟩
  · split <;> split <;> exact ⟨rfl, rfl, rfl, rfl⟩

theorem Announced.interrupt (kept : bridge.Announced) (audioEndMs : Nat) :
    (bridge.interrupt audioEndMs).Announced := by
  unfold CascadeBridge.interrupt applyHeard
  split
  · split
    · exact kept.of_same rfl rfl rfl rfl
    · exact kept
  · split
    · exact kept
    · refine kept.quiet rfl rfl rfl rfl rfl rfl rfl ?_ [] (List.append_nil _).symm
        (fun entry member => by cases member)
      intro entry member
      obtain ⟨index, bound, same⟩ := List.mem_iff_getElem.mp member
      rw [List.getElem_modify] at same
      rw [List.length_modify] at bound
      refine ⟨bridge.history[index], List.getElem_mem bound, ?_⟩
      rw [← same]
      split <;> rfl

theorem Announced.step (kept : bridge.Announced) (coherent : bridge.Coherent)
    {action : BridgeAction} (taken : bridge.Step config action next) : next.Announced := by
  have told := coherent.toldKept
  have attended := coherent.attended
  cases taken.moves with
  | speechStart =>
      have heard : { bridge with detector := .speaking }.Announced := kept.of_same rfl rfl rfl rfl
      exact heard.discardSpeculation true
  | pauseStart hears =>
      have heard : { bridge with detector := .paused }.Announced := kept.of_same rfl rfl rfl rfl
      exact heard.onPauseStart (coherent.ended_of_speaking hears)
  | pauseCancelled =>
      have heard : { bridge with detector := .speaking }.Announced := kept.of_same rfl rfl rfl rfl
      exact heard.discardSpeculation false
  | endOfTurn signal hears =>
      obtain ⟨live, idle, inTurn⟩ := hears_in_turn hears
      have heard : { bridge with detector := .idle }.Announced := kept.of_same rfl rfl rfl rfl
      have still : { bridge with detector := .idle }.Told := { told with }
      exact heard.onEndOfTurn still attended.dropped (coherent.ended_of_free live idle inTurn)
        signal
  | bargedIn live waiting =>
      obtain ⟨running, _, _, confirmed, _⟩ := attended.busy live (by simp [waiting])
      have unsettled : bridge.run.fate.unsettled = true := by
        rw [running]
        rfl
      exact kept.finishBargeIn coherent.shown told (confirmed waiting) unsettled
  | discarded live thenStart waiting =>
      obtain ⟨_, _, _, _, dropping⟩ := attended.busy live (by simp [waiting])
      have discarded : (bridge.finishDiscard config).Announced :=
        kept.finishDiscard (dropping (by simp [waiting])).2
      split
      · exact discarded.startSpeech
      · exact discarded
  | startTurn =>
      exact kept.quiet rfl rfl rfl rfl rfl rfl rfl (fun entry member => ⟨entry, member, rfl⟩) []
        (List.append_nil _).symm (fun entry member => by cases member)
  | requestSent => exact kept.of_same rfl rfl rfl rfl
  | finalizeReturns => exact kept.of_same rfl rfl rfl rfl
  | finalizeRaises timedOut _ early => exact kept.stopWaiting told early timedOut
  | stopWaiting timedOut _ early => exact kept.stopWaiting told early timedOut
  | brainTimeout _ replying =>
      exact kept.replyOver told (TaskPoint.late_of_replying replying) .timeout
  | replied outcome _ replying =>
      exact kept.replyOver told (TaskPoint.late_of_replying replying) outcome
  | confirmed outcome _ waiting confirmed =>
      exact kept.conclude told (TaskPoint.late_of_waiting waiting) confirmed outcome
  | cancelled => exact kept.of_same rfl rfl rfl rfl
  | delta text running => exact kept.onDelta coherent running text
  | brainEnds => exact kept.of_same rfl rfl rfl rfl
  | sttPartial phrase text =>
      unfold pumpPartial
      dsimp only
      split
      · exact kept.of_same rfl rfl rfl rfl
      · exact (kept.put rfl).of_same rfl rfl rfl rfl
  | sttFinal phrase text =>
      obtain ⟨past, run, emitted, history⟩ := bridge.pumpFinal_same phrase text
      exact kept.of_same past run emitted history
  | sttEnds error =>
      have ended : { bridge with sttEnded := true }.Announced := kept.of_same rfl rfl rfl rfl
      unfold pumpEnds
      dsimp only
      split
      · exact ended
      · exact ended.put rfl
  | interrupt audioEndMs => exact kept.interrupt audioEndMs
  | close => exact kept.close
  | closed =>
      have shut : { bridge with session := .closed }.Announced := kept.of_same rfl rfl rfl rfl
      exact shut.put rfl

end Announced

/-! ### What a run that was not shown leaves -/

end CascadeBridge

def unshown (runs : List TurnRun) : List TurnRun := runs.takeWhile (fun run => !run.released)

def Merged : List TurnRun → Prop
  | [] => True
  | run :: older =>
      (run.released = true → ∀ hidden ∈ unshown older, hidden.userText <+: run.userText) ∧
        Merged older

theorem unshown_cons_released {run : TurnRun} {older : List TurnRun}
    (released : run.released = true) : unshown (run :: older) = [] := by
  unfold unshown
  rw [List.takeWhile_cons_of_neg]
  simp [released]

theorem unshown_cons_unreleased {run : TurnRun} {older : List TurnRun}
    (unreleased : run.released = false) : unshown (run :: older) = run :: unshown older := by
  unfold unshown
  rw [List.takeWhile_cons_of_pos]
  simp [unreleased]

theorem Merged.shown {newer older : List TurnRun} {run : TurnRun}
    (merged : Merged (newer ++ run :: older)) (released : run.released = true) :
    ∀ hidden ∈ unshown older, hidden.userText <+: run.userText := by
  induction newer with
  | nil => exact merged.1 released
  | cons newest rest ih => exact ih merged.2

namespace CascadeBridge

structure Carried (bridge : CascadeBridge) : Prop where
  merged : Merged bridge.runs
  pending : ∀ run ∈ unshown bridge.runs, run.userText <+: bridge.pendingText

section Carried

variable {bridge next : CascadeBridge} {config : BridgeConfig}

theorem Carried.quiet (kept : bridge.Carried) (past : next.past = bridge.past)
    (userText : next.run.userText = bridge.run.userText)
    (released : next.run.released = bridge.run.released)
    (pendingUser : next.pendingUser = bridge.pendingUser) : next.Carried := by
  obtain ⟨merged, pending⟩ := kept
  have text : next.pendingText = bridge.pendingText := by
    unfold pendingText
    rw [pendingUser]
  constructor
  · unfold runs at merged ⊢
    rw [past]
    refine ⟨?_, merged.2⟩
    rw [released, userText]
    exact merged.1
  · unfold runs at pending ⊢
    rw [past, text]
    cases out : bridge.run.released with
    | true =>
        rw [unshown_cons_released (released.trans out)]
        intro run member
        cases member
    | false =>
        rw [unshown_cons_unreleased out] at pending
        rw [unshown_cons_unreleased (released.trans out)]
        intro run member
        rcases List.mem_cons.mp member with current | earlier
        · rw [current, userText]
          exact pending bridge.run List.mem_cons_self
        · exact pending run (List.mem_cons_of_mem _ earlier)

theorem Carried.startRun (kept : bridge.Carried) (speculative confirmed : Bool)
    (signal : EndOfTurn) : (bridge.startRun speculative confirmed signal).Carried where
  merged := by
    refine ⟨?_, kept.merged⟩
    intro released
    cases released
  pending := by
    intro run member
    change run ∈ unshown ((bridge.startRun speculative confirmed signal).run :: bridge.runs) at member
    rw [unshown_cons_unreleased rfl] at member
    rcases List.mem_cons.mp member with current | earlier
    · rw [current]
      exact List.nil_prefix
    · exact kept.pending run earlier

theorem Carried.release (kept : bridge.Carried) (told : bridge.Told)
    (words : bridge.run.userText ≠ []) (unsettled : bridge.run.fate.unsettled = true) :
    bridge.release.Carried := by
  cases out : bridge.run.released with
  | true =>
      rw [release_of_released out]
      exact kept
  | false =>
      rw [release_eq out]
      have text : bridge.run.userText = bridge.pendingText :=
        (told.told unsettled out).resolve_left words
      obtain ⟨merged, pending⟩ := kept
      unfold runs at merged pending
      rw [unshown_cons_unreleased out] at pending
      constructor
      · refine ⟨?_, merged.2⟩
        intro _ hidden member
        change hidden.userText <+: bridge.run.userText
        rw [text]
        exact pending hidden (List.mem_cons_of_mem _ member)
      · unfold runs
        rw [unshown_cons_released rfl]
        intro run member
        cases member

theorem userTextOf_prefix {pendingUser : List Heard} {more : List Heard}
    (trimmed : ∀ heard ∈ pendingUser ++ more, Trimmed isSpace heard.text) :
    userTextOf pendingUser <+: userTextOf (pendingUser ++ more) := by
  have texts (pending : List Heard) (each : ∀ heard ∈ pending, Trimmed isSpace heard.text) :
      userTextOf pending = joinTexts (pending.map Heard.text) := by
    unfold userTextOf
    apply strip_join
    intro text member
    obtain ⟨heard, listed, rfl⟩ := List.mem_map.mp member
    exact each heard listed
  rw [texts _ trimmed, texts _ (fun heard member => trimmed heard (List.mem_append_left _ member)),
    List.map_append]
  exact join_prefix _ _

theorem pendingText_begins (told : bridge.Told) :
    bridge.pendingText <+: userTextOf bridge.heardPending := by
  have trimmed := told.heardPending
  unfold pendingText
  rcases bridge.heardPending_cases with ⟨same, _⟩ | ⟨heard, added, _⟩
  · rw [same]
  · rw [added] at trimmed ⊢
    exact userTextOf_prefix trimmed

section

variable (kept : bridge.Carried) (told : bridge.Told)
include kept told

theorem Carried.gathered (unreleased : bridge.run.released = false) : bridge.gathered.Carried := by
  obtain ⟨merged, pending⟩ := kept
  unfold runs at merged pending
  rw [unshown_cons_unreleased unreleased] at pending
  constructor
  · refine ⟨?_, merged.2⟩
    intro released
    have same : bridge.run.released = true := released
    rw [unreleased] at same
    cases same
  · unfold runs
    have still : bridge.gathered.run.released = false := unreleased
    rw [unshown_cons_unreleased still]
    intro run member
    rcases List.mem_cons.mp member with current | earlier
    · rw [current]
      exact List.prefix_refl _
    · exact (pending run (List.mem_cons_of_mem _ earlier)).trans (pendingText_begins told)

theorem Carried.collect (early : bridge.point.early = true) : (bridge.collect config).Carried := by
  have gathered := kept.gathered told (told.early early).2.1
  rw [collect_eq]
  split
  · exact gathered.quiet rfl rfl rfl rfl
  · exact gathered.quiet rfl rfl rfl rfl

theorem Carried.stopWaiting (early : bridge.point.early = true) (timedOut : Bool) :
    (bridge.stopWaiting config timedOut).Carried := by
  unfold CascadeBridge.stopWaiting
  split
  case isTrue =>
    have counted : { bridge with staleFinals := bridge.staleFinals + 1 }.Carried :=
      kept.quiet rfl rfl rfl rfl
    have still : { bridge with staleFinals := bridge.staleFinals + 1 }.Told := { told with }
    exact counted.collect still early
  case isFalse => exact kept.collect told early

theorem Carried.conclude (late : bridge.point.late = true) (outcome : ReplyOutcome) :
    (bridge.conclude config outcome).Carried := by
  have unsettled := told.unsettled (TaskPoint.ne_done_of_late late)
  rw [conclude_eq]
  exact (kept.release told (told.late late).2 unsettled).quiet rfl rfl rfl rfl

theorem Carried.replyOver (late : bridge.point.late = true) (outcome : ReplyOutcome) :
    (bridge.replyOver config outcome).Carried := by
  have answered : (bridge.keepUsage outcome).Carried := by
    cases outcome <;> exact kept.quiet rfl rfl rfl rfl
  unfold CascadeBridge.replyOver
  split
  · apply answered.conclude (told.keepUsage outcome)
    rw [keepUsage_point]
    exact late
  · exact answered.quiet rfl rfl rfl rfl

theorem Carried.onDelta (running : bridge.brainTask = .running) (text : Text) :
    (bridge.onDelta text).Carried := by
  have late : bridge.point.late = true := told.calling (by simp [running])
  have spoken : (bridge.speak text).Carried := kept.quiet rfl rfl rfl rfl
  unfold CascadeBridge.onDelta
  split
  case isTrue => exact kept
  case isFalse nonempty =>
    split
    case isTrue => exact spoken.quiet rfl rfl rfl rfl
    case isFalse =>
      split
      case isTrue =>
        exact spoken.release (told.speak late nonempty) (told.late late).2
          (told.unsettled (TaskPoint.ne_done_of_late late))
      case isFalse => exact spoken

end

theorem Carried.startSpeech (kept : bridge.Carried) : bridge.startSpeech.Carried := by
  unfold CascadeBridge.startSpeech
  split <;> exact kept.quiet rfl rfl rfl rfl

theorem Carried.discardSpeculation (kept : bridge.Carried) (thenStart : Bool) :
    (bridge.discardSpeculation config thenStart).Carried := by
  have discarded : ({ bridge with held := false }.finishDiscard config).Carried :=
    kept.quiet rfl rfl rfl rfl
  unfold CascadeBridge.discardSpeculation
  split
  · split
    · exact kept.startSpeech
    · exact kept
  · split
    · split
      · exact discarded.startSpeech
      · exact discarded
    · exact kept.quiet rfl rfl rfl rfl

theorem Carried.onEndOfTurn (kept : bridge.Carried) (told : bridge.Told)
    (dropped : bridge.run.fate = .discarded → bridge.held = false) (signal : EndOfTurn) :
    (bridge.onEndOfTurn signal).Carried := by
  unfold CascadeBridge.onEndOfTurn
  dsimp only
  split
  case isTrue holding =>
    have confirmed : Carried
        { bridge with
          interruptedIndex := none
          run := { bridge.run with confirmed := true, signal := signal } } :=
      kept.quiet rfl rfl rfl rfl
    split
    case isTrue spoken =>
      have still : Told
          { bridge with
            interruptedIndex := none
            run := { bridge.run with confirmed := true, signal := signal } } :=
        { told with unconfirmed := fun unconfirmed => by cases unconfirmed }
      exact confirmed.release still (told.heard spoken).2
        (told.unsettled_of_held holding dropped spoken)
    case isFalse => exact confirmed
  case isFalse =>
    have heard : { bridge with interruptedIndex := none }.Carried := kept.quiet rfl rfl rfl rfl
    exact heard.startRun false true signal

theorem Carried.step (kept : bridge.Carried) (coherent : bridge.Coherent)
    {action : BridgeAction} (taken : bridge.Step config action next) : next.Carried := by
  have told := coherent.toldKept
  cases taken.moves with
  | speechStart =>
      have heard : { bridge with detector := .speaking }.Carried := kept.quiet rfl rfl rfl rfl
      exact heard.discardSpeculation true
  | pauseStart =>
      have heard : { bridge with detector := .paused }.Carried := kept.quiet rfl rfl rfl rfl
      unfold CascadeBridge.onPauseStart
      split
      · exact heard
      · have counted : Carried
            { bridge with detector := .paused, speculations := bridge.speculations + 1 } :=
          kept.quiet rfl rfl rfl rfl
        exact counted.startRun true false {}
  | pauseCancelled =>
      have heard : { bridge with detector := .speaking }.Carried := kept.quiet rfl rfl rfl rfl
      exact heard.discardSpeculation false
  | endOfTurn signal =>
      have heard : { bridge with detector := .idle }.Carried := kept.quiet rfl rfl rfl rfl
      have still : { bridge with detector := .idle }.Told := { told with }
      exact heard.onEndOfTurn still coherent.attended.dropped signal
  | bargedIn =>
      by_cases silent : bridge.replyText = []
      · rw [finishBargeIn_of_silent silent]
        exact kept.quiet rfl rfl rfl rfl
      · rw [finishBargeIn_of_spoken silent]
        exact kept.quiet rfl rfl rfl rfl
  | discarded live thenStart =>
      have discarded : (bridge.finishDiscard config).Carried := kept.quiet rfl rfl rfl rfl
      split
      · exact discarded.startSpeech
      · exact discarded
  | startTurn => exact kept.quiet rfl rfl rfl rfl
  | requestSent => exact kept.quiet rfl rfl rfl rfl
  | finalizeReturns => exact kept.quiet rfl rfl rfl rfl
  | finalizeRaises timedOut _ early => exact kept.stopWaiting told early timedOut
  | stopWaiting timedOut _ early => exact kept.stopWaiting told early timedOut
  | brainTimeout _ replying =>
      exact kept.replyOver told (TaskPoint.late_of_replying replying) .timeout
  | replied outcome _ replying =>
      exact kept.replyOver told (TaskPoint.late_of_replying replying) outcome
  | confirmed outcome _ waiting =>
      exact kept.conclude told (TaskPoint.late_of_waiting waiting) outcome
  | cancelled => exact kept.quiet rfl rfl rfl rfl
  | delta text running => exact kept.onDelta told running text
  | brainEnds => exact kept.quiet rfl rfl rfl rfl
  | sttPartial phrase text =>
      unfold pumpPartial
      dsimp only
      split <;> exact kept.quiet rfl rfl rfl rfl
  | sttFinal phrase text =>
      unfold pumpFinal
      dsimp only
      split
      · exact kept.quiet rfl rfl rfl rfl
      · split <;> split <;> exact kept.quiet rfl rfl rfl rfl
  | sttEnds error =>
      unfold pumpEnds
      dsimp only
      split <;> exact kept.quiet rfl rfl rfl rfl
  | interrupt audioEndMs =>
      unfold CascadeBridge.interrupt applyHeard
      split
      · split <;> exact kept.quiet rfl rfl rfl rfl
      · split <;> exact kept.quiet rfl rfl rfl rfl
  | close => exact kept.quiet rfl rfl rfl rfl
  | closed => exact kept.quiet rfl rfl rfl rfl

end Carried

/-! ### Every confirmed turn ends -/

end CascadeBridge

/-- The steps of the bridge itself: no signal, no result of the recognizer, no call of its
owner, and no further text of the brain. -/
def BridgeAction.own : BridgeAction → Bool
  | .resumeHandler | .startTurn | .requestSent | .finalizeReturns | .finalizeRaises _
  | .stopWaiting _ | .brainTimeout | .proceed | .cancelled | .brainEnds _ => true
  | _ => false

def TaskPoint.distance : TaskPoint → Nat
  | .created => 9
  | .finalizing false => 8
  | .finalizing true => 7
  | .waitingFinal => 6
  | .replying => 4
  | .waitingConfirm _ => 2
  | .done => 1

theorem TaskPoint.distance_of_early {point : TaskPoint} (early : point.early = true) :
    6 ≤ point.distance := by
  cases point with
  | finalizing sent => cases sent <;> simp [distance]
  | created => simp [distance]
  | waitingFinal => simp [distance]
  | replying => cases early
  | waitingConfirm outcome => cases early
  | done => cases early

theorem TaskPoint.distance_pos (point : TaskPoint) :
    1 ≤ point.distance ∧ (point ≠ .done → 2 ≤ point.distance) := by
  cases point with
  | finalizing sent => cases sent <;> simp [distance]
  | done => simp [distance]
  | _ => simp [distance]

namespace CascadeBridge

def callWeight (bridge : CascadeBridge) : Nat := if bridge.brainTask = .running then 1 else 0

def remaining (bridge : CascadeBridge) : Nat :=
  if bridge.run.fate = .running then bridge.point.distance + bridge.callWeight else 0

section Progress

variable {bridge next : CascadeBridge} {config : BridgeConfig} {action : BridgeAction}

theorem remaining_of_running (running : bridge.run.fate = .running) :
    bridge.remaining = bridge.point.distance + bridge.callWeight :=
  if_pos running

theorem remaining_le : bridge.remaining ≤ bridge.point.distance + bridge.callWeight := by
  unfold remaining
  split
  · exact Nat.le_refl _
  · exact Nat.zero_le _

theorem remaining_of_ended (ended : bridge.run.fate ≠ .running) : bridge.remaining = 0 :=
  if_neg ended

theorem startSpeech_fate : bridge.startSpeech.run.fate = bridge.run.fate := by
  unfold startSpeech
  split <;> rfl

theorem conclude_fate (outcome : ReplyOutcome) :
    (bridge.conclude config outcome).run.fate = .finished := by
  rw [conclude_eq]
  rfl

theorem finishBargeIn_fate : bridge.finishBargeIn.run.fate ≠ .running := by
  by_cases silent : bridge.replyText = []
  · rw [finishBargeIn_of_silent silent]
    intro same
    cases same
  · rw [finishBargeIn_of_spoken silent]
    intro same
    cases same

theorem finishDiscard_fate : (bridge.finishDiscard config).run.fate = .discarded := rfl

theorem remaining_lt_of_nearer (running : bridge.run.fate = .running)
    (weight : next.callWeight = bridge.callWeight)
    (nearer : next.point.distance < bridge.point.distance) :
    next.remaining < bridge.remaining := by
  have near : next.remaining ≤ next.point.distance + next.callWeight := remaining_le
  rw [remaining_of_running running]
  omega

theorem remaining_stopWaiting (timedOut : Bool) (early : bridge.point.early = true)
    (running : bridge.run.fate = .running) :
    (bridge.stopWaiting config timedOut).remaining < bridge.remaining := by
  have far := TaskPoint.distance_of_early early
  rw [remaining_of_running running]
  have collected (before : CascadeBridge) : (before.collect config).remaining ≤ 5 := by
    rw [collect_eq]
    split
    · rw [remaining_of_ended (by simp [settle])]
      exact Nat.zero_le _
    · exact remaining_le
  unfold stopWaiting
  split
  · have near := collected { bridge with staleFinals := bridge.staleFinals + 1 }
    omega
  · have near := collected bridge
    omega

theorem remaining_replyOver (outcome : ReplyOutcome) (replying : bridge.point = .replying)
    (running : bridge.run.fate = .running) :
    (bridge.replyOver config outcome).remaining < bridge.remaining := by
  have far : bridge.remaining = 4 + bridge.callWeight := by
    rw [remaining_of_running running, replying]
    rfl
  rw [far]
  unfold replyOver
  split
  · rw [remaining_of_ended (by rw [conclude_fate]; decide)]
    omega
  · have same : (bridge.keepUsage outcome).callWeight = bridge.callWeight := by
      cases outcome <;> rfl
    have near : { bridge.keepUsage outcome with point := .waitingConfirm outcome }.remaining ≤
        2 + (bridge.keepUsage outcome).callWeight := remaining_le
    omega

theorem Coherent.remaining_lt (kept : bridge.Coherent) (own : action.own = true)
    (running : bridge.run.fate = .running) (taken : bridge.Step config action next) :
    next.remaining < bridge.remaining := by
  have pos : 0 < bridge.remaining := by
    rw [remaining_of_running running]
    have near := (TaskPoint.distance_pos bridge.point).1
    omega
  cases taken.moves with
  | bargedIn =>
      rw [remaining_of_ended finishBargeIn_fate]
      exact pos
  | discarded live thenStart =>
      split
      · rw [remaining_of_ended (by rw [startSpeech_fate, finishDiscard_fate]; decide)]
        exact pos
      · rw [remaining_of_ended (by rw [finishDiscard_fate]; decide)]
        exact pos
  | startTurn ready =>
      refine remaining_lt_of_nearer running rfl ?_
      rw [ready.2]
      exact Nat.lt_succ_self 8
  | requestSent ready =>
      refine remaining_lt_of_nearer running rfl ?_
      rw [ready]
      exact Nat.lt_succ_self 7
  | finalizeReturns ready =>
      refine remaining_lt_of_nearer running rfl ?_
      rw [ready.2]
      exact Nat.lt_succ_self 6
  | finalizeRaises timedOut _ early => exact remaining_stopWaiting timedOut early running
  | stopWaiting timedOut _ early => exact remaining_stopWaiting timedOut early running
  | brainTimeout _ replying => exact remaining_replyOver .timeout replying running
  | replied outcome _ replying => exact remaining_replyOver outcome replying running
  | confirmed outcome =>
      rw [remaining_of_ended (by rw [conclude_fate]; decide)]
      exact pos
  | cancelled cancelling =>
      have busy := kept.attended.cancels cancelling
      have far := (TaskPoint.distance_pos bridge.point).2 busy
      have near : { bridge with cancelling := false, point := .done, brainTask := .none }.remaining
          ≤ 1 + 0 := remaining_le
      rw [remaining_of_running running]
      omega
  | brainEnds outcome calling =>
      have weight : bridge.callWeight = 1 := if_pos calling
      have near : { bridge with brainTask := .ended outcome }.remaining ≤
          bridge.point.distance + 0 := remaining_le
      rw [remaining_of_running running]
      omega
  | speechStart => cases own
  | pauseStart => cases own
  | pauseCancelled => cases own
  | endOfTurn => cases own
  | delta => cases own
  | sttPartial => cases own
  | sttFinal => cases own
  | sttEnds => cases own
  | interrupt => cases own
  | close => cases own
  | closed => cases own

theorem Coherent.own_step (config : BridgeConfig) (kept : bridge.Coherent) (live : bridge.session = .live)
    (running : bridge.run.fate = .running) (confirmed : bridge.run.confirmed = true) :
    ∃ action next, action.own = true ∧ bridge.Step config action next := by
  unfold Step
  cases cancelling : bridge.cancelling with
  | true => exact ⟨.cancelled, _, rfl, if_pos cancelling⟩
  | false =>
      cases point : bridge.point with
      | created => exact ⟨.startTurn, _, rfl, if_pos ⟨cancelling, point⟩⟩
      | finalizing sent =>
          cases sent with
          | false => exact ⟨.requestSent, _, rfl, if_pos point⟩
          | true => exact ⟨.finalizeReturns, _, rfl, if_pos ⟨cancelling, point⟩⟩
      | waitingFinal =>
          exact ⟨.stopWaiting true, _, rfl, if_pos ⟨⟨cancelling, point⟩, Or.inl rfl⟩⟩
      | replying =>
          cases calling : bridge.brainTask with
          | none => exact absurd calling (kept.toldKept.asked point)
          | running =>
              exact ⟨.brainEnds (.failed ""), _, rfl, if_pos ⟨calling, by decide⟩⟩
          | ended outcome =>
              refine ⟨.proceed, bridge.replyOver config outcome, rfl, ?_⟩
              simp [CascadeBridge.step, cancelling, CascadeBridge.proceed, point, calling]
      | waitingConfirm outcome =>
          refine ⟨.proceed, bridge.conclude config outcome, rfl, ?_⟩
          simp [CascadeBridge.step, cancelling, CascadeBridge.proceed, point, confirmed]
      | done =>
          cases waiting : bridge.handler with
          | idle =>
              have ended := (kept.attended.free live waiting).2.1 point
              rw [running] at ended
              cases ended
          | bargingIn =>
              refine ⟨.resumeHandler, bridge.finishBargeIn, rfl, ?_⟩
              simp [CascadeBridge.step, live, point, CascadeBridge.resumeHandler, waiting]
          | discarding thenStart =>
              obtain ⟨_, _, _, _, dropping⟩ := kept.attended.busy live (by simp [waiting])
              have unconfirmed := (dropping (by simp [waiting])).2
              rw [confirmed] at unconfirmed
              cases unconfirmed

theorem conclude_same (config : BridgeConfig) (outcome : ReplyOutcome) :
    (bridge.conclude config outcome).run.number = bridge.run.number ∧
      (bridge.conclude config outcome).run.confirmed = bridge.run.confirmed ∧
      (bridge.conclude config outcome).session = bridge.session := by
  rw [conclude_eq]
  cases out : bridge.run.released with
  | true =>
      rw [release_of_released out]
      exact ⟨rfl, rfl, rfl⟩
  | false =>
      rw [release_eq out]
      exact ⟨rfl, rfl, rfl⟩

theorem replyOver_same (config : BridgeConfig) (outcome : ReplyOutcome) :
    (bridge.replyOver config outcome).run.number = bridge.run.number ∧
      (bridge.replyOver config outcome).run.confirmed = bridge.run.confirmed ∧
      (bridge.replyOver config outcome).session = bridge.session := by
  have answered : (bridge.keepUsage outcome).run.number = bridge.run.number ∧
      (bridge.keepUsage outcome).run.confirmed = bridge.run.confirmed ∧
      (bridge.keepUsage outcome).session = bridge.session := by
    cases outcome <;> exact ⟨rfl, rfl, rfl⟩
  unfold replyOver
  split
  · obtain ⟨number, confirmed, session⟩ :=
      (bridge.keepUsage outcome).conclude_same config outcome
    exact ⟨number.trans answered.1, confirmed.trans answered.2.1, session.trans answered.2.2⟩
  · exact answered

theorem stopWaiting_same (config : BridgeConfig) (timedOut : Bool) :
    (bridge.stopWaiting config timedOut).run.number = bridge.run.number ∧
      (bridge.stopWaiting config timedOut).run.confirmed = bridge.run.confirmed ∧
      (bridge.stopWaiting config timedOut).session = bridge.session := by
  unfold stopWaiting
  split
  · rw [collect_eq]
    split <;> exact ⟨rfl, rfl, rfl⟩
  · rw [collect_eq]
    split <;> exact ⟨rfl, rfl, rfl⟩

theorem Coherent.own_same (kept : bridge.Coherent) (own : action.own = true)
    (confirmed : bridge.run.confirmed = true) (taken : bridge.Step config action next) :
    next.run.number = bridge.run.number ∧ next.run.confirmed = true ∧
      next.session = bridge.session := by
  cases taken.moves with
  | bargedIn =>
      by_cases silent : bridge.replyText = []
      · rw [finishBargeIn_of_silent silent]
        exact ⟨rfl, confirmed, rfl⟩
      · rw [finishBargeIn_of_spoken silent]
        exact ⟨rfl, confirmed, rfl⟩
  | discarded live thenStart waiting =>
      obtain ⟨_, _, _, _, dropping⟩ := kept.attended.busy live (by simp [waiting])
      have unconfirmed := (dropping (by simp [waiting])).2
      rw [confirmed] at unconfirmed
      cases unconfirmed
  | startTurn => exact ⟨rfl, confirmed, rfl⟩
  | requestSent => exact ⟨rfl, confirmed, rfl⟩
  | finalizeReturns => exact ⟨rfl, confirmed, rfl⟩
  | finalizeRaises timedOut =>
      obtain ⟨number, same, session⟩ := bridge.stopWaiting_same config timedOut
      exact ⟨number, same.trans confirmed, session⟩
  | stopWaiting timedOut =>
      obtain ⟨number, same, session⟩ := bridge.stopWaiting_same config timedOut
      exact ⟨number, same.trans confirmed, session⟩
  | brainTimeout =>
      obtain ⟨number, same, session⟩ := bridge.replyOver_same config .timeout
      exact ⟨number, same.trans confirmed, session⟩
  | replied outcome =>
      obtain ⟨number, same, session⟩ := bridge.replyOver_same config outcome
      exact ⟨number, same.trans confirmed, session⟩
  | confirmed outcome =>
      obtain ⟨number, same, session⟩ := bridge.conclude_same config outcome
      exact ⟨number, same.trans confirmed, session⟩
  | cancelled => exact ⟨rfl, confirmed, rfl⟩
  | brainEnds => exact ⟨rfl, confirmed, rfl⟩
  | speechStart => cases own
  | pauseStart => cases own
  | pauseCancelled => cases own
  | endOfTurn => cases own
  | delta => cases own
  | sttPartial => cases own
  | sttFinal => cases own
  | sttEnds => cases own
  | interrupt => cases own
  | close => cases own
  | closed => cases own

/-- From any state on, the bridge can end a confirmed turn by itself, and does so whenever it
takes `remaining` steps of its own. -/
theorem Coherent.settles (kept : bridge.Coherent) (live : bridge.session = .live)
    (confirmed : bridge.run.confirmed = true) :
    ∃ actions last, Run (Step config) bridge actions last ∧
      (∀ action ∈ actions, action.own = true) ∧
      last.run.number = bridge.run.number ∧ last.session = .live ∧ last.run.fate ≠ .running := by
  -- By induction on the number of steps that are left.
  have settled (left : Nat) : ∀ before : CascadeBridge, before.remaining = left →
      before.Coherent → before.session = .live → before.run.confirmed = true →
      ∃ actions last, Run (Step config) before actions last ∧
        (∀ action ∈ actions, action.own = true) ∧
        last.run.number = before.run.number ∧ last.session = .live ∧
        last.run.fate ≠ .running := by
    induction left using Nat.strong_induction_on with
    | _ left ih =>
        intro before size kept live confirmed
        by_cases running : before.run.fate = .running
        · obtain ⟨action, next, own, taken⟩ := kept.own_step config live running confirmed
          have less := kept.remaining_lt own running taken
          rw [size] at less
          obtain ⟨number, same, session⟩ := kept.own_same own confirmed taken
          obtain ⟨actions, last, run, each, still, rest⟩ :=
            ih next.remaining less next rfl (kept.step taken) (session.trans live) same
          refine ⟨action :: actions, last, .cons taken run, ?_, still.trans number, rest⟩
          intro other member
          rcases List.mem_cons.mp member with first | later
          · rw [first]
            exact own
          · exact each other later
        · refine ⟨[], before, .nil, ?_, rfl, live, running⟩
          intro action member
          cases member
  exact settled bridge.remaining bridge rfl kept live confirmed

end Progress

/-! ### Speculation is invisible -/

section Invisible

variable {bridge next : CascadeBridge} {config : BridgeConfig}

theorem Announced.hidden (kept : bridge.Announced) {run : TurnRun} (member : run ∈ bridge.runs)
    (hidden : run.confirmed = false ∨ run.fate = .discarded) :
    bridge.eventsOf run = [] ∧ ∀ entry ∈ bridge.history, entry.run ≠ run.number := by
  have unreleased : run.released = false := by
    by_contra released
    have said := (kept.sound run member).confirmed (eq_true_of_ne_false released)
    rcases hidden with unconfirmed | dropped
    · rw [unconfirmed] at said
      cases said
    · rw [(kept.sound run member).dropped dropped] at said
      cases said
  refine ⟨nothing_of_story (kept.story run member) unreleased, ?_⟩
  intro entry listed same
  obtain ⟨shown, member', number, released⟩ := kept.entries entry listed
  have distinct : (bridge.runs.map TurnRun.number).Nodup :=
    List.pairwise_map.mpr (kept.numbered.imp (fun less => (Nat.ne_of_lt less).symm))
  have one : shown = run := List.inj_on_of_nodup_map distinct member' member (number.trans same)
  rw [one, unreleased] at released
  cases released

end Invisible

section Witness

end Witness
end CascadeBridge
end Assemblix.Realtime
