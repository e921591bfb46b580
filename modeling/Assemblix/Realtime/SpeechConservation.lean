import Mathlib.Data.List.Nodup
import Assemblix.Realtime.ReplyTask

/-
Conservation of speech.

A recognized phrase is placed once: in a user turn of the history, in a text that is pending
for the next one, or in what the recognizer has said since. Only the recognizer changes what is
placed. Its results are reconciled by counting stale finals, and the count is right in the runs
in which a final is stale exactly when its phrase was collected before, every phrase that the
recognizer leaves behind was collected, and no collected phrase has a further partial.
-/

namespace Assemblix.Realtime

open Library

def Entry.fragments (entry : Entry) : List Fragment := entry.heard.flatMap Heard.fragments

def Entry.holds (phrase : Nat) (entry : Entry) : Bool :=
  entry.fragments.any (fun fragment => fragment.phrase = phrase)

def BridgeAction.recognizes : BridgeAction → Bool
  | .sttPartial _ _ | .sttFinal _ _ | .sttEnds _ => true
  | _ => false

def fragmentTexts (fragments : List Fragment) : List Text := fragments.map Fragment.text

namespace CascadeBridge

def placed (bridge : CascadeBridge) : List Fragment := bridge.collected ++ bridge.hearing

/-- The form of the phrase is final: its final came, a later one did, or none will. -/
def decided (bridge : CascadeBridge) (phrase : Nat) : Prop :=
  phrase < bridge.answered ∨ bridge.sttEnded = true

structure Conserved (bridge : CascadeBridge) : Prop where
  once : (bridge.placed.map Fragment.phrase).Nodup
  agrees : ∀ fragment ∈ bridge.placed, fragment.text = bridge.recognized fragment.phrase
  kept : ∀ phrase, bridge.decided phrase → bridge.recognized phrase ≠ [] →
    ∃ fragment ∈ bridge.placed, fragment.phrase = phrase

/-- No partial of a phrase that was collected; a final with words is stale exactly when its
phrase was; and what a result leaves behind was collected, or is the partial of a stream that
ends. -/
def Keeps (bridge : CascadeBridge) : BridgeAction → Prop
  | .sttPartial phrase _ => bridge.taken phrase = false
  | .sttFinal phrase text =>
      (stripText text ≠ [] → (bridge.taken phrase = true ↔ bridge.staleFinals ≠ 0)) ∧
        ∀ earlier < phrase, bridge.answered ≤ earlier → bridge.recognized earlier ≠ [] →
          bridge.taken earlier = true
  | .sttEnds _ =>
      ∀ phrase < bridge.requests + 1, bridge.answered ≤ phrase → bridge.recognized phrase ≠ [] →
        bridge.taken phrase = true ∨
          stripText bridge.partialText.text ≠ [] ∧ bridge.partialText.phrase = phrase
  | _ => True

structure Woven (bridge : CascadeBridge) : Prop where
  finals : ∀ fragment ∈ bridge.finals,
    Trimmed isSpace fragment.text ∧ fragment.phrase < bridge.answered
  heldPartial : stripText bridge.partialText.text ≠ [] →
    bridge.answered ≤ bridge.partialText.phrase
  asked : ∀ phrase, bridge.recognized phrase ≠ [] → phrase ≤ bridge.requests
  pending : ∀ heard ∈ bridge.pendingUser, heard.fragments ≠ [] ∧
    heard.text = joinTexts (fragmentTexts heard.fragments) ∧
    ∀ fragment ∈ heard.fragments, Trimmed isSpace fragment.text
  turns : ∀ entry ∈ bridge.history, entry.turn.role = .user →
    entry.turn.text = joinTexts (fragmentTexts entry.fragments)
  answers : ∀ entry ∈ bridge.history, entry.turn.role = .assistant → entry.heard = []
  words : ∀ entry ∈ bridge.history, ∀ fragment ∈ entry.fragments, fragment.text ≠ []
  cut : ∀ index ∈ bridge.interruptedIndex, ∃ entry, bridge.history[index]? = some entry ∧
    entry.turn.role = .assistant
  emptied : bridge.run.released = true → bridge.pendingUser = []

def turnsWith (bridge : CascadeBridge) (phrase : Nat) : Nat :=
  bridge.history.countP (Entry.holds phrase)

def waitingWith (bridge : CascadeBridge) (phrase : Nat) : Nat :=
  (bridge.pendingUser.flatMap Heard.fragments ++ bridge.hearing).countP
    (fun fragment => fragment.phrase = phrase)

def Keeping (config : BridgeConfig) (bridge : CascadeBridge) (action : BridgeAction)
    (next : CascadeBridge) : Prop :=
  bridge.Step config action next ∧ bridge.Keeps action

instance (bridge : CascadeBridge) (action : BridgeAction) : Decidable (bridge.Keeps action) :=
  match action with
  | .sttPartial _ _ => inferInstanceAs (Decidable (_ = _))
  | .sttFinal _ _ => inferInstanceAs (Decidable (_ ∧ ∀ _, _))
  | .sttEnds _ => inferInstanceAs (Decidable (∀ _, _))
  | .speechStart | .pauseStart | .pauseCancelled | .endOfTurn _ | .resumeHandler | .startTurn
  | .requestSent | .finalizeReturns | .finalizeRaises _ | .stopWaiting _ | .brainTimeout
  | .proceed | .cancelled | .delta _ | .brainEnds _ | .interrupt _ | .close | .closed =>
      inferInstanceAs (Decidable True)

/-- Where the words of the user are: in the texts of the user turns and nowhere else in the
history, each decided phrase once, and all that was collected in a turn when its run is released. -/
structure SpeechConserved (bridge : CascadeBridge) : Prop where
  conserved : bridge.Conserved
  turns : ∀ entry ∈ bridge.history, entry.turn.role = .user →
    entry.turn.text = joinTexts (fragmentTexts entry.fragments)
  answers : ∀ entry ∈ bridge.history, entry.turn.role = .assistant → entry.fragments = []
  once : ∀ phrase, bridge.turnsWith phrase + bridge.waitingWith phrase ≤ 1
  kept : ∀ phrase, bridge.decided phrase → bridge.recognized phrase ≠ [] →
    bridge.turnsWith phrase + bridge.waitingWith phrase = 1
  committed : bridge.run.released = true → ∀ phrase, bridge.taken phrase = true →
    bridge.turnsWith phrase = 1

/-! ### Fragments of a state -/

section Placed

variable {bridge next : CascadeBridge} {config : BridgeConfig}

theorem Woven.finals_nonblank (woven : bridge.Woven) :
    bridge.finals.filter (fun fragment => fragment.text ≠ []) = bridge.finals := by
  apply List.filter_eq_self.mpr
  intro fragment member
  exact decide_eq_true (woven.finals fragment member).1.nonempty

theorem Woven.hearing_eq (woven : bridge.Woven) :
    bridge.hearing = bridge.finals ++
      (if stripText bridge.partialText.text = [] then []
      else [{ bridge.partialText with text := stripText bridge.partialText.text }]) := by
  unfold hearing
  rw [List.filter_append, woven.finals_nonblank, List.filter_singleton]
  by_cases silent : stripText bridge.partialText.text = []
  · simp [silent]
  · simp [silent]

theorem hearing_of_silent (finals : bridge.finals = []) (silent : bridge.partialText.text = []) :
    bridge.hearing = [] := by
  unfold hearing
  rw [finals, silent]
  rfl

theorem Woven.hearing_trimmed (woven : bridge.Woven) :
    ∀ fragment ∈ bridge.hearing, Trimmed isSpace fragment.text :=
  fun _ member => CascadeBridge.hearing_trimmed member
    (fun fragment member => (woven.finals fragment member).1)

theorem fragmentTexts_trimmed {fragments : List Fragment}
    (trimmed : ∀ fragment ∈ fragments, Trimmed isSpace fragment.text) :
    ∀ text ∈ fragmentTexts fragments, Trimmed isSpace text := by
  intro text member
  obtain ⟨fragment, listed, rfl⟩ := List.mem_map.mp member
  exact trimmed fragment listed

theorem Woven.heardPending (woven : bridge.Woven) :
    bridge.heardPending.flatMap Heard.fragments =
      bridge.pendingUser.flatMap Heard.fragments ++ bridge.hearing := by
  have trimmed := fragmentTexts_trimmed woven.hearing_trimmed
  rcases bridge.heardPending_cases with ⟨same, silent⟩ | ⟨heard, added, fragments, _, _⟩
  · have stripped : stripText (joinTexts (fragmentTexts bridge.hearing)) =
        joinTexts (fragmentTexts bridge.hearing) := strip_join trimmed
    have nothing : fragmentTexts bridge.hearing = [] :=
      (join_eq_nil_iff trimmed).mp (stripped.symm.trans silent)
    rw [same, List.map_eq_nil_iff.mp nothing, List.append_nil]
  · rw [added, List.flatMap_append, List.flatMap_singleton, fragments]

theorem Woven.pendingText_eq (woven : bridge.Woven) (told : bridge.Told) :
    bridge.pendingText =
      joinTexts (fragmentTexts (bridge.pendingUser.flatMap Heard.fragments)) := by
  have texts : ∀ text ∈ bridge.pendingUser.map Heard.text, Trimmed isSpace text := by
    intro text member
    obtain ⟨heard, listed, rfl⟩ := List.mem_map.mp member
    exact told.trimmed heard listed
  have groups : bridge.pendingUser.map Heard.text =
      (bridge.pendingUser.map (fun heard => fragmentTexts heard.fragments)).map joinTexts := by
    rw [List.map_map]
    apply List.map_congr_left
    intro heard member
    exact (woven.pending heard member).2.1
  have nonempty : ∀ group ∈ bridge.pendingUser.map (fun heard => fragmentTexts heard.fragments),
      group ≠ [] := by
    intro group member
    obtain ⟨heard, listed, rfl⟩ := List.mem_map.mp member
    intro none
    exact (woven.pending heard listed).1 (List.map_eq_nil_iff.mp none)
  unfold pendingText userTextOf
  calc stripText (joinTexts (bridge.pendingUser.map Heard.text))
      = joinTexts (bridge.pendingUser.map Heard.text) := strip_join texts
    _ = joinTexts ((bridge.pendingUser.map
          (fun heard => fragmentTexts heard.fragments)).map joinTexts) := by rw [← groups]
    _ = joinTexts (bridge.pendingUser.map
          (fun heard => fragmentTexts heard.fragments)).flatten := join_flatten nonempty
    _ = joinTexts (fragmentTexts (bridge.pendingUser.flatMap Heard.fragments)) := by
      unfold fragmentTexts
      rw [List.map_flatMap, List.flatMap_def]

end Placed

/-! ### What the bridge does with what it has heard -/

structure Untouched (bridge next : CascadeBridge) : Prop where
  placed : next.placed = bridge.placed
  recognized : next.recognized = bridge.recognized
  answered : next.answered = bridge.answered
  sttEnded : next.sttEnded = bridge.sttEnded

section Untouched

variable {bridge middle next : CascadeBridge} {config : BridgeConfig}

theorem Untouched.trans (first : Untouched bridge middle) (second : Untouched middle next) :
    Untouched bridge next where
  placed := second.placed.trans first.placed
  recognized := second.recognized.trans first.recognized
  answered := second.answered.trans first.answered
  sttEnded := second.sttEnded.trans first.sttEnded

theorem Untouched.of_same (history : next.history = bridge.history)
    (pendingUser : next.pendingUser = bridge.pendingUser) (finals : next.finals = bridge.finals)
    (heldPartial : next.partialText = bridge.partialText)
    (recognized : next.recognized = bridge.recognized)
    (answered : next.answered = bridge.answered)
    (sttEnded : next.sttEnded = bridge.sttEnded) : Untouched bridge next where
  placed := by
    unfold CascadeBridge.placed collected hearing
    rw [history, pendingUser, finals, heldPartial]
  recognized := recognized
  answered := answered
  sttEnded := sttEnded

theorem Untouched.of_answered {answers : List Entry} (unheard : ∀ entry ∈ answers, entry.heard = [])
    (history : next.history = bridge.history ++ answers)
    (pendingUser : next.pendingUser = bridge.pendingUser) (finals : next.finals = bridge.finals)
    (heldPartial : next.partialText = bridge.partialText)
    (recognized : next.recognized = bridge.recognized)
    (answered : next.answered = bridge.answered)
    (sttEnded : next.sttEnded = bridge.sttEnded) : Untouched bridge next where
  placed := by
    have nothing : answers.flatMap (fun entry => entry.heard.flatMap Heard.fragments) = [] := by
      rw [List.flatMap_eq_nil_iff]
      intro entry member
      rw [unheard entry member]
      rfl
    unfold CascadeBridge.placed collected hearing
    rw [history, pendingUser, finals, heldPartial, List.flatMap_append, nothing, List.append_nil]
  recognized := recognized
  answered := answered
  sttEnded := sttEnded

theorem Untouched.release : Untouched bridge bridge.release := by
  cases out : bridge.run.released with
  | true =>
      rw [release_of_released out]
      exact .of_same rfl rfl rfl rfl rfl rfl rfl
  | false =>
      rw [release_eq out]
      refine ⟨?_, rfl, rfl, rfl⟩
      unfold CascadeBridge.placed collected hearing
      dsimp only
      rw [List.flatMap_append, List.flatMap_singleton, List.flatMap_nil, List.append_nil]

theorem answer_unheard : ∀ entry ∈ bridge.answer, entry.heard = [] := by
  unfold answer
  intro entry member
  split at member
  · cases member
  · rw [List.mem_singleton.mp member]

theorem Untouched.conclude (outcome : ReplyOutcome) :
    Untouched bridge (bridge.conclude config outcome) := by
  rw [conclude_eq]
  apply Untouched.release.trans
  exact .of_answered answer_unheard rfl rfl rfl rfl rfl rfl rfl

theorem Untouched.replyOver (outcome : ReplyOutcome) :
    Untouched bridge (bridge.replyOver config outcome) := by
  have answered : Untouched bridge (bridge.keepUsage outcome) := by
    cases outcome <;> exact .of_same rfl rfl rfl rfl rfl rfl rfl
  unfold CascadeBridge.replyOver
  split
  · exact answered.trans (.conclude outcome)
  · exact answered.trans (.of_same rfl rfl rfl rfl rfl rfl rfl)

theorem Untouched.onDelta (text : Text) : Untouched bridge (bridge.onDelta text) := by
  unfold CascadeBridge.onDelta
  split
  · exact .of_same rfl rfl rfl rfl rfl rfl rfl
  · split
    · exact .of_same rfl rfl rfl rfl rfl rfl rfl
    · have spoken : Untouched bridge (bridge.speak text) := .of_same rfl rfl rfl rfl rfl rfl rfl
      split
      · exact spoken.trans .release
      · exact spoken

theorem Untouched.collect (woven : bridge.Woven) : Untouched bridge (bridge.collect config) := by
  have gathered : Untouched bridge bridge.gathered := by
    refine ⟨?_, rfl, rfl, rfl⟩
    have silent : bridge.gathered.hearing = [] := hearing_of_silent rfl rfl
    unfold CascadeBridge.placed
    rw [silent, List.append_nil]
    unfold collected
    rw [List.append_assoc, ← woven.heardPending]
    rfl
  rw [collect_eq]
  split
  · exact gathered.trans (.of_same rfl rfl rfl rfl rfl rfl rfl)
  · exact gathered.trans (.of_same rfl rfl rfl rfl rfl rfl rfl)

theorem Untouched.startSpeech : Untouched bridge bridge.startSpeech := by
  unfold CascadeBridge.startSpeech
  split <;> exact .of_same rfl rfl rfl rfl rfl rfl rfl

theorem Untouched.discardSpeculation (thenStart : Bool) :
    Untouched bridge (bridge.discardSpeculation config thenStart) := by
  have discarded : Untouched bridge ({ bridge with held := false }.finishDiscard config) :=
    .of_same rfl rfl rfl rfl rfl rfl rfl
  unfold CascadeBridge.discardSpeculation
  split
  · split
    · exact .startSpeech
    · exact .of_same rfl rfl rfl rfl rfl rfl rfl
  · split
    · split
      · exact discarded.trans .startSpeech
      · exact discarded
    · exact .of_same rfl rfl rfl rfl rfl rfl rfl

theorem Untouched.finishBargeIn : Untouched bridge bridge.finishBargeIn := by
  by_cases silent : bridge.replyText = []
  · rw [finishBargeIn_of_silent silent]
    exact .of_same rfl rfl rfl rfl rfl rfl rfl
  · rw [finishBargeIn_of_spoken silent]
    have unheard : ∀ entry ∈ [bridge.cutAnswer], entry.heard = [] := by
      intro entry member
      rw [List.mem_singleton.mp member]
      rfl
    exact .of_answered unheard rfl rfl rfl rfl rfl rfl rfl

theorem Untouched.onEndOfTurn (signal : EndOfTurn) :
    Untouched bridge (bridge.onEndOfTurn signal) := by
  unfold CascadeBridge.onEndOfTurn
  dsimp only
  split
  · have confirmed : Untouched bridge
        { bridge with
          interruptedIndex := none
          run := { bridge.run with confirmed := true, signal := signal } } :=
      .of_same rfl rfl rfl rfl rfl rfl rfl
    split
    · exact confirmed.trans .release
    · exact confirmed
  · exact .of_same rfl rfl rfl rfl rfl rfl rfl

theorem flatMap_modify {A B : Type} (items : List A) (index : Nat) (change : A → A)
    (parts : A → List B) (same : ∀ item, parts (change item) = parts item) :
    (items.modify index change).flatMap parts = items.flatMap parts := by
  induction items generalizing index with
  | nil => simp
  | cons item rest ih =>
      cases index with
      | zero => rw [List.modify_zero_cons, List.flatMap_cons, List.flatMap_cons, same]
      | succ index =>
          rw [List.modify_succ_cons, List.flatMap_cons, List.flatMap_cons, ih]

theorem Untouched.applyHeard (audioEndMs : Nat) :
    Untouched bridge (bridge.applyHeard audioEndMs) := by
  unfold CascadeBridge.applyHeard
  split
  · exact .of_same rfl rfl rfl rfl rfl rfl rfl
  · refine ⟨?_, rfl, rfl, rfl⟩
    unfold CascadeBridge.placed collected hearing
    dsimp only
    rw [flatMap_modify]
    intro entry
    rfl

theorem Woven.stopWaiting_untouched (woven : bridge.Woven) (timedOut : Bool) :
    Untouched bridge (bridge.stopWaiting config timedOut) := by
  unfold CascadeBridge.stopWaiting
  split
  · have counted : { bridge with staleFinals := bridge.staleFinals + 1 }.Woven := { woven with }
    have same : Untouched bridge { bridge with staleFinals := bridge.staleFinals + 1 } :=
      .of_same rfl rfl rfl rfl rfl rfl rfl
    exact same.trans (.collect counted)
  · exact .collect woven

theorem Woven.untouched (woven : bridge.Woven) {action : BridgeAction}
    (taken : bridge.Step config action next) (other : action.recognizes = false) :
    Untouched bridge next := by
  cases taken.moves with
  | speechStart =>
      have heard : Untouched bridge { bridge with detector := .speaking } :=
        .of_same rfl rfl rfl rfl rfl rfl rfl
      exact heard.trans (.discardSpeculation true)
  | pauseStart =>
      unfold CascadeBridge.onPauseStart
      split <;> exact .of_same rfl rfl rfl rfl rfl rfl rfl
  | pauseCancelled =>
      have heard : Untouched bridge { bridge with detector := .speaking } :=
        .of_same rfl rfl rfl rfl rfl rfl rfl
      exact heard.trans (.discardSpeculation false)
  | endOfTurn signal =>
      have heard : Untouched bridge { bridge with detector := .idle } :=
        .of_same rfl rfl rfl rfl rfl rfl rfl
      exact heard.trans (.onEndOfTurn signal)
  | bargedIn => exact .finishBargeIn
  | discarded live thenStart =>
      have discarded : Untouched bridge (bridge.finishDiscard config) :=
        .of_same rfl rfl rfl rfl rfl rfl rfl
      split
      · exact discarded.trans .startSpeech
      · exact discarded
  | startTurn => exact .of_same rfl rfl rfl rfl rfl rfl rfl
  | requestSent => exact .of_same rfl rfl rfl rfl rfl rfl rfl
  | finalizeReturns => exact .of_same rfl rfl rfl rfl rfl rfl rfl
  | finalizeRaises timedOut => exact woven.stopWaiting_untouched timedOut
  | stopWaiting timedOut => exact woven.stopWaiting_untouched timedOut
  | brainTimeout => exact .replyOver .timeout
  | replied outcome => exact .replyOver outcome
  | confirmed outcome => exact .conclude outcome
  | cancelled => exact .of_same rfl rfl rfl rfl rfl rfl rfl
  | delta text => exact .onDelta text
  | brainEnds => exact .of_same rfl rfl rfl rfl rfl rfl rfl
  | sttPartial => cases other
  | sttFinal => cases other
  | sttEnds => cases other
  | interrupt audioEndMs =>
      unfold CascadeBridge.interrupt
      split
      · split <;> exact .of_same rfl rfl rfl rfl rfl rfl rfl
      · exact .applyHeard audioEndMs
  | close => exact .of_same rfl rfl rfl rfl rfl rfl rfl
  | closed => exact .of_same rfl rfl rfl rfl rfl rfl rfl

end Untouched

/-! ### The texts of turns -/

section Woven

variable {bridge next : CascadeBridge} {config : BridgeConfig}

section

variable (woven : bridge.Woven)
include woven

theorem Woven.addEntries {more : List Entry} (turns : ∀ entry ∈ more, entry.turn.role = .user →
      entry.turn.text = joinTexts (fragmentTexts entry.fragments))
    (answers : ∀ entry ∈ more, entry.turn.role = .assistant → entry.heard = [])
    (words : ∀ entry ∈ more, ∀ fragment ∈ entry.fragments, fragment.text ≠ []) :
    { bridge with history := bridge.history ++ more }.Woven :=
  { woven with
    turns := by
      intro entry member
      rcases List.mem_append.mp member with earlier | added
      · exact woven.turns entry earlier
      · exact turns entry added
    answers := by
      intro entry member
      rcases List.mem_append.mp member with earlier | added
      · exact woven.answers entry earlier
      · exact answers entry added
    words := by
      intro entry member
      rcases List.mem_append.mp member with earlier | added
      · exact woven.words entry earlier
      · exact words entry added
    cut := by
      intro index marked
      obtain ⟨entry, found, assistant⟩ := woven.cut index marked
      have inside : index < bridge.history.length := (List.getElem?_eq_some_iff.mp found).1
      refine ⟨entry, ?_, assistant⟩
      rw [List.getElem?_append_left inside]
      exact found }

theorem Woven.addAnswers {answers : List Entry}
    (unheard : ∀ entry ∈ answers, entry.turn.role = .assistant ∧ entry.heard = []) :
    { bridge with history := bridge.history ++ answers }.Woven := by
  apply woven.addEntries
  · intro entry added user
    rw [(unheard entry added).1] at user
    cases user
  · intro entry added _
    exact (unheard entry added).2
  · intro entry added fragment listed
    unfold Entry.fragments at listed
    rw [(unheard entry added).2] at listed
    cases listed

theorem Woven.release (told : bridge.run.released = false →
      bridge.run.userText =
        joinTexts (fragmentTexts (bridge.pendingUser.flatMap Heard.fragments))) :
    bridge.release.Woven := by
  cases out : bridge.run.released with
  | true =>
      rw [release_of_released out]
      exact woven
  | false =>
      rw [release_eq out]
      have added : Woven
          { bridge with
            history := bridge.history ++
              [{ turn := { role := .user, text := bridge.run.userText }
                 run := bridge.run.number
                 heard := bridge.pendingUser }] } := by
        apply woven.addEntries
        · intro entry member _
          rw [List.mem_singleton.mp member]
          exact told out
        · intro entry member assistant
          rw [List.mem_singleton.mp member] at assistant
          cases assistant
        · intro entry member fragment listed
          rw [List.mem_singleton.mp member] at listed
          obtain ⟨heard, waiting, held⟩ := List.mem_flatMap.mp listed
          exact ((woven.pending heard waiting).2.2 fragment held).nonempty
      exact
        { added with
          pending := by
            intro heard member
            cases member
          emptied := fun _ => rfl }

theorem Woven.told (told : bridge.Told) (unsettled : bridge.run.fate.unsettled = true)
    (words : bridge.run.userText ≠ []) (unreleased : bridge.run.released = false) :
    bridge.run.userText =
      joinTexts (fragmentTexts (bridge.pendingUser.flatMap Heard.fragments)) := by
  rcases told.told unsettled unreleased with silent | same
  · exact absurd silent words
  · rw [same, woven.pendingText_eq told]

theorem Woven.release_of_late (told : bridge.Told) (late : bridge.point.late = true) :
    bridge.release.Woven :=
  woven.release
    (woven.told told (told.unsettled (TaskPoint.ne_done_of_late late)) (told.late late).2)

theorem Woven.concluded (outcome : ReplyOutcome) : (bridge.concluded config outcome).Woven := by
  have unheard : ∀ entry ∈ bridge.answer, entry.turn.role = .assistant ∧ entry.heard = [] := by
    unfold answer
    intro entry member
    split at member
    · cases member
    · rw [List.mem_singleton.mp member]
      exact ⟨rfl, rfl⟩
  have added := woven.addAnswers unheard
  by_cases silent : bridge.replyText = []
  · exact
      { added with
        cut := by
          intro index marked
          have same : bridge.interruptedIndex = some index := by
            simpa [CascadeBridge.concluded, silent] using marked
          exact added.cut index same }
  · exact
      { added with
        cut := by
          intro index marked
          have same : index = bridge.history.length := by
            simpa [CascadeBridge.concluded, silent, eq_comm] using marked
          rw [same]
          refine ⟨{ turn := { role := .assistant, text := bridge.replyText }
                    run := bridge.run.number
                    heard := [] }, ?_, rfl⟩
          change (bridge.history ++ bridge.answer)[bridge.history.length]? = _
          unfold answer
          rw [if_neg silent, List.getElem?_concat_length] }

theorem Woven.conclude (told : bridge.Told) (late : bridge.point.late = true)
    (outcome : ReplyOutcome) : (bridge.conclude config outcome).Woven := by
  rw [conclude_eq]
  exact (woven.release_of_late told late).concluded outcome

theorem Woven.keepUsage (outcome : ReplyOutcome) : (bridge.keepUsage outcome).Woven := by
  cases outcome with
  | ok usage => exact { woven with }
  | failed message => exact woven
  | timeout => exact woven

theorem Woven.replyOver (told : bridge.Told) (late : bridge.point.late = true)
    (outcome : ReplyOutcome) : (bridge.replyOver config outcome).Woven := by
  have answered := woven.keepUsage outcome
  have still : (bridge.keepUsage outcome).point.late = true := by
    rw [keepUsage_point]
    exact late
  unfold CascadeBridge.replyOver
  split
  · exact answered.conclude (told.keepUsage outcome) still outcome
  · exact { answered with }

theorem Woven.onDelta (told : bridge.Told) (running : bridge.brainTask = .running) (text : Text) :
    (bridge.onDelta text).Woven := by
  have late : bridge.point.late = true := told.calling (by simp [running])
  have spoken : (bridge.speak text).Woven := { woven with }
  unfold CascadeBridge.onDelta
  split
  case isTrue => exact woven
  case isFalse nonempty =>
    split
    case isTrue => exact { spoken with }
    case isFalse =>
      split
      case isTrue => exact spoken.release_of_late (told.speak late nonempty) late
      case isFalse => exact spoken

theorem Woven.collect (unreleased : bridge.run.released = false) :
    (bridge.collect config).Woven := by
  have gathered : bridge.gathered.Woven :=
    { woven with
      finals := by
        intro fragment member
        cases member
      heldPartial := fun spoken => absurd rfl spoken
      pending := by
        intro heard member
        rcases bridge.heardPending_cases with ⟨same, _⟩ | ⟨added, listed, fragments, text, words⟩
        · change heard ∈ bridge.heardPending at member
          rw [same] at member
          exact woven.pending heard member
        · change heard ∈ bridge.heardPending at member
          rw [listed] at member
          rcases List.mem_append.mp member with earlier | new
          · exact woven.pending heard earlier
          · rw [List.mem_singleton.mp new, fragments, text]
            have trimmed := fragmentTexts_trimmed woven.hearing_trimmed
            refine ⟨?_, strip_join trimmed, woven.hearing_trimmed⟩
            intro silent
            rw [text, silent] at words
            exact words.nonempty rfl
      emptied := by
        intro released
        change bridge.run.released = true at released
        rw [unreleased] at released
        cases released }
  rw [collect_eq]
  split
  · exact { gathered with }
  · exact { gathered with }

theorem Woven.stopWaiting (unreleased : bridge.run.released = false) (timedOut : Bool) :
    (bridge.stopWaiting config timedOut).Woven := by
  unfold CascadeBridge.stopWaiting
  split
  · have counted : { bridge with staleFinals := bridge.staleFinals + 1 }.Woven := { woven with }
    exact counted.collect unreleased
  · exact woven.collect unreleased

theorem Woven.startSpeech : bridge.startSpeech.Woven := by
  unfold CascadeBridge.startSpeech
  split
  · exact { woven with }
  · exact { woven with }

theorem Woven.finishDiscard : (bridge.finishDiscard config).Woven :=
  { woven with }

theorem Woven.discardSpeculation (thenStart : Bool) :
    (bridge.discardSpeculation config thenStart).Woven := by
  have dropped : { bridge with held := false }.Woven := { woven with }
  unfold CascadeBridge.discardSpeculation
  split
  · split
    · exact woven.startSpeech
    · exact woven
  · split
    · split
      · exact dropped.finishDiscard.startSpeech
      · exact dropped.finishDiscard
    · exact { woven with }

theorem Woven.finishBargeIn : bridge.finishBargeIn.Woven := by
  by_cases silent : bridge.replyText = []
  · rw [finishBargeIn_of_silent silent]
    exact { woven with }
  · rw [finishBargeIn_of_spoken silent]
    have unheard : ∀ entry ∈ [bridge.cutAnswer],
        entry.turn.role = .assistant ∧ entry.heard = [] := by
      intro entry member
      rw [List.mem_singleton.mp member]
      exact ⟨rfl, rfl⟩
    have added := woven.addAnswers unheard
    exact
      { added with
        cut := by
          intro index marked
          have same : index = bridge.history.length := by
            have named : (if bridge.earlyHeardMs = none then some bridge.history.length
                else none) = some index := marked
            split at named
            · exact (Option.some.inj named).symm
            · cases named
          rw [same]
          exact ⟨bridge.cutAnswer, List.getElem?_concat_length, rfl⟩ }

theorem Woven.applyHeard (audioEndMs : Nat) : (bridge.applyHeard audioEndMs).Woven := by
  unfold CascadeBridge.applyHeard
  split
  case h_1 => exact woven
  case h_2 index marked =>
    have changed (entry : Entry)
        (member : entry ∈ bridge.history.modify index fun entry =>
          { entry with
            turn := { role := .assistant,
                      text := heardPrefix bridge.interruptedText audioEndMs } }) :
        entry ∈ bridge.history ∨ entry.turn.role = .assistant ∧ entry.heard = [] := by
      obtain ⟨position, found⟩ := List.mem_iff_getElem?.mp member
      rw [List.getElem?_modify] at found
      obtain ⟨old, there, same⟩ := Option.map_eq_some_iff.mp found
      by_cases here : index = position
      · rw [if_pos here] at same
        obtain ⟨reply, at_index, assistant⟩ := woven.cut index marked
        rw [here, there] at at_index
        cases at_index
        rw [← same]
        exact Or.inr ⟨rfl, woven.answers old (List.mem_of_getElem? there) assistant⟩
      · rw [if_neg here] at same
        cases same
        exact Or.inl (List.mem_of_getElem? there)
    exact
      { woven with
        turns := by
          intro entry member user
          rcases changed entry member with same | ⟨assistant, _⟩
          · exact woven.turns entry same user
          · rw [assistant] at user
            cases user
        answers := by
          intro entry member assistant
          rcases changed entry member with same | ⟨_, unheard⟩
          · exact woven.answers entry same assistant
          · exact unheard
        words := by
          intro entry member fragment listed
          rcases changed entry member with same | ⟨_, unheard⟩
          · exact woven.words entry same fragment listed
          · unfold Entry.fragments at listed
            rw [unheard] at listed
            cases listed
        cut := by
          intro index none
          cases none }

theorem Woven.interrupt (audioEndMs : Nat) : (bridge.interrupt audioEndMs).Woven := by
  unfold CascadeBridge.interrupt
  split
  · split
    · exact { woven with }
    · exact woven
  · exact woven.applyHeard audioEndMs

theorem Woven.onEndOfTurn (kept : bridge.Coherent) (signal : EndOfTurn) :
    ({ bridge with detector := .idle }.onEndOfTurn signal).Woven := by
  have unmarked : ∀ index ∈ (none : Option Nat), ∃ entry, bridge.history[index]? = some entry ∧
      entry.turn.role = .assistant := by
    intro index impossible
    cases impossible
  unfold CascadeBridge.onEndOfTurn
  dsimp only
  split
  case isTrue holding =>
    have confirmed : Woven
        { bridge with
          detector := .idle
          interruptedIndex := none
          run := { bridge.run with confirmed := true, signal := signal } } :=
      { woven with cut := unmarked }
    split
    case isTrue spoken =>
      have unsettled := kept.toldKept.unsettled_of_held holding kept.attended.dropped spoken
      exact confirmed.release (woven.told kept.toldKept unsettled (kept.toldKept.heard spoken).2)
    case isFalse => exact confirmed
  case isFalse =>
    exact { woven with cut := unmarked, emptied := fun released => by cases released }

end

def hear (bridge : CascadeBridge) (phrase : Nat) (text : Text) : CascadeBridge :=
  { bridge with
    partialText := { phrase := phrase, text := text }
    recognized := Function.update bridge.recognized phrase (stripText text) }

theorem pumpPartial_untouched {phrase : Nat} {text : Text} :
    Untouched (bridge.hear phrase text) (bridge.pumpPartial phrase text) := by
  unfold CascadeBridge.pumpPartial
  dsimp only
  split <;> exact .of_same rfl rfl rfl rfl rfl rfl rfl

theorem Woven.hear (woven : bridge.Woven) {phrase : Nat} (text : Text)
    (unanswered : bridge.answered ≤ phrase) (asked : phrase ≤ bridge.requests) :
    (bridge.hear phrase text).Woven :=
  { woven with
    heldPartial := fun _ => unanswered
    asked := by
      intro other words
      by_cases same : other = phrase
      · rw [same]
        exact asked
      · exact woven.asked other (by simpa [CascadeBridge.hear, Function.update_of_ne same] using words) }

theorem Woven.pumpPartial (woven : bridge.Woven) {phrase : Nat} (text : Text)
    (unanswered : bridge.answered ≤ phrase) (asked : phrase ≤ bridge.requests) :
    (bridge.pumpPartial phrase text).Woven := by
  have heard := woven.hear text unanswered asked
  unfold CascadeBridge.pumpPartial
  dsimp only
  split
  · exact heard
  · exact { heard with }

def finalsWith (bridge : CascadeBridge) (phrase : Nat) (text : Text) : List Fragment :=
  if bridge.staleFinals ≠ 0 ∨ stripText text = [] then bridge.finals
  else bridge.finals ++ [{ phrase := phrase, text := stripText text }]

theorem pumpFinal_eq (phrase : Nat) (text : Text) :
    bridge.pumpFinal phrase text =
      { bridge with
        finals := bridge.finalsWith phrase text
        partialText := { bridge.partialText with text := [] }
        answered := phrase + 1
        recognized :=
          if bridge.taken phrase then bridge.recognized
          else Function.update bridge.recognized phrase (stripText text)
        staleFinals := bridge.staleFinals - 1
        orphanFinals :=
          if bridge.staleFinals ≠ 0 then bridge.orphanFinals else bridge.orphanFinals - 1
        finalEvent :=
          bridge.finalEvent || (bridge.staleFinals = 0 && bridge.orphanFinals = 0) } := by
  unfold CascadeBridge.pumpFinal finalsWith
  by_cases stale : bridge.staleFinals = 0
  · by_cases silent : stripText text = []
    · by_cases orphan : bridge.orphanFinals = 0
      · simp [stale, silent, orphan]
      · simp [stale, silent, orphan]
    · by_cases orphan : bridge.orphanFinals = 0
      · simp [stale, silent, orphan]
      · simp [stale, silent, orphan]
  · simp [stale]

theorem Woven.pumpFinal (woven : bridge.Woven) {phrase : Nat} (text : Text)
    (unanswered : bridge.answered ≤ phrase) (asked : phrase < bridge.requests) :
    (bridge.pumpFinal phrase text).Woven := by
  have finals : ∀ fragment ∈ bridge.finalsWith phrase text,
      Trimmed isSpace fragment.text ∧ fragment.phrase < phrase + 1 := by
    intro fragment member
    have earlier (listed : fragment ∈ bridge.finals) :
        Trimmed isSpace fragment.text ∧ fragment.phrase < phrase + 1 := by
      obtain ⟨trimmed, before⟩ := woven.finals fragment listed
      exact ⟨trimmed, by omega⟩
    unfold finalsWith at member
    split at member
    case isTrue => exact earlier member
    case isFalse fresh =>
      rcases List.mem_append.mp member with old | new
      · exact earlier old
      · rw [List.mem_singleton.mp new]
        exact ⟨Trimmed.strip (fun silent => fresh (Or.inr silent)), Nat.lt_succ_self phrase⟩
  have recognizes (other : Nat)
      (words : (if bridge.taken phrase then bridge.recognized
        else Function.update bridge.recognized phrase (stripText text)) other ≠ []) :
      other ≤ bridge.requests := by
    by_cases same : other = phrase
    · omega
    · split at words
      · exact woven.asked other words
      · exact woven.asked other (by simpa [Function.update_of_ne same] using words)
  rw [pumpFinal_eq]
  exact
    { woven with
      finals := finals
      heldPartial := fun spoken => absurd rfl spoken
      asked := recognizes }

theorem Woven.step (woven : bridge.Woven) (kept : bridge.Coherent) {action : BridgeAction}
    (taken : bridge.Step config action next) : next.Woven := by
  cases taken.moves with
  | speechStart =>
      have heard : { bridge with detector := .speaking }.Woven := { woven with }
      exact heard.discardSpeculation true
  | pauseStart =>
      unfold CascadeBridge.onPauseStart
      split
      · exact { woven with }
      · exact { woven with emptied := fun released => by cases released }
  | pauseCancelled =>
      have heard : { bridge with detector := .speaking }.Woven := { woven with }
      exact heard.discardSpeculation false
  | endOfTurn signal => exact woven.onEndOfTurn kept signal
  | bargedIn => exact woven.finishBargeIn
  | discarded live thenStart =>
      split
      · exact woven.finishDiscard.startSpeech
      · exact woven.finishDiscard
  | startTurn => exact { woven with }
  | requestSent =>
      exact { woven with asked := fun phrase words => Nat.le_succ_of_le (woven.asked phrase words) }
  | finalizeReturns => exact { woven with }
  | finalizeRaises timedOut calm early =>
      exact woven.stopWaiting (kept.toldKept.early early).2.1 timedOut
  | stopWaiting timedOut calm early =>
      exact woven.stopWaiting (kept.toldKept.early early).2.1 timedOut
  | brainTimeout calm replying =>
      exact woven.replyOver kept.toldKept (TaskPoint.late_of_replying replying) .timeout
  | replied outcome calm replying =>
      exact woven.replyOver kept.toldKept (TaskPoint.late_of_replying replying) outcome
  | confirmed outcome calm waiting =>
      exact woven.conclude kept.toldKept (TaskPoint.late_of_waiting waiting) outcome
  | cancelled => exact { woven with }
  | delta text running => exact woven.onDelta kept.toldKept running text
  | brainEnds => exact { woven with }
  | sttPartial phrase text listening unanswered asked =>
      exact woven.pumpPartial text unanswered asked
  | sttFinal phrase text listening unanswered asked =>
      exact woven.pumpFinal text unanswered asked
  | sttEnds error =>
      unfold pumpEnds
      dsimp only
      split
      · exact { woven with }
      · exact { woven with }
  | interrupt audioEndMs => exact woven.interrupt audioEndMs
  | close => exact { woven with }
  | closed => exact { woven with }

end Woven

/-! ### What the recognizer does -/

def sure (bridge : CascadeBridge) : List Fragment := bridge.collected ++ bridge.finals

section Conserved

variable {bridge next : CascadeBridge} {config : BridgeConfig} {phrase : Nat} {text : Text}

theorem Untouched.conserved_iff (same : Untouched bridge next) :
    next.Conserved ↔ bridge.Conserved := by
  obtain ⟨placed, recognized, answered, sttEnded⟩ := same
  have decided (phrase : Nat) : next.decided phrase ↔ bridge.decided phrase := by
    unfold CascadeBridge.decided
    rw [answered, sttEnded]
  constructor
  · intro conserved
    refine ⟨?_, ?_, ?_⟩
    · rw [← placed]
      exact conserved.once
    · rw [← placed, ← recognized]
      exact conserved.agrees
    · rw [← placed, ← recognized]
      exact fun phrase known => conserved.kept phrase ((decided phrase).mpr known)
  · intro conserved
    refine ⟨?_, ?_, ?_⟩
    · rw [placed]
      exact conserved.once
    · rw [placed, recognized]
      exact conserved.agrees
    · rw [placed, recognized]
      exact fun phrase known => conserved.kept phrase ((decided phrase).mp known)

theorem taken_iff : bridge.taken phrase = true ↔
    ∃ fragment ∈ bridge.collected, fragment.phrase = phrase := by
  unfold taken
  simp

theorem Woven.placed_of_silent (woven : bridge.Woven)
    (silent : stripText bridge.partialText.text = []) : bridge.placed = bridge.sure := by
  unfold placed sure
  rw [woven.hearing_eq, if_pos silent, List.append_nil]

theorem Woven.placed_of_spoken (woven : bridge.Woven)
    (spoken : stripText bridge.partialText.text ≠ []) :
    bridge.placed =
      bridge.sure ++ [{ bridge.partialText with text := stripText bridge.partialText.text }] := by
  unfold placed sure
  rw [woven.hearing_eq, if_neg spoken, List.append_assoc]

theorem Woven.collected_words (woven : bridge.Woven) :
    ∀ fragment ∈ bridge.collected, fragment.text ≠ [] := by
  intro fragment member
  rcases List.mem_append.mp member with answered | pending
  · obtain ⟨entry, listed, held⟩ := List.mem_flatMap.mp answered
    exact woven.words entry listed fragment held
  · obtain ⟨heard, waiting, held⟩ := List.mem_flatMap.mp pending
    exact ((woven.pending heard waiting).2.2 fragment held).nonempty

theorem Woven.taken_of_sure (woven : bridge.Woven) (unanswered : bridge.answered ≤ phrase)
    {fragment : Fragment} (member : fragment ∈ bridge.sure) (same : fragment.phrase = phrase) :
    bridge.taken phrase = true := by
  rcases List.mem_append.mp member with collected | final
  · exact taken_iff.mpr ⟨fragment, collected, same⟩
  · have before := (woven.finals fragment final).2
    omega

theorem nodup_snoc {fragments : List Fragment} {last : Fragment} :
    ((fragments ++ [last]).map Fragment.phrase).Nodup ↔
      (fragments.map Fragment.phrase).Nodup ∧
        ∀ fragment ∈ fragments, fragment.phrase ≠ last.phrase := by
  rw [List.map_append, List.map_singleton, List.nodup_append]
  simp

theorem Woven.mem_placed_of_sure (woven : bridge.Woven) {fragment : Fragment}
    (member : fragment ∈ bridge.sure) : fragment ∈ bridge.placed := by
  by_cases silent : stripText bridge.partialText.text = []
  · rw [woven.placed_of_silent silent]
    exact member
  · rw [woven.placed_of_spoken silent]
    exact List.mem_append_left _ member

section

variable (conserved : bridge.Conserved) (woven : bridge.Woven)
include conserved woven

theorem Conserved.sure_once : (bridge.sure.map Fragment.phrase).Nodup := by
  have once := conserved.once
  by_cases silent : stripText bridge.partialText.text = []
  · rw [woven.placed_of_silent silent] at once
    exact once
  · rw [woven.placed_of_spoken silent] at once
    exact (nodup_snoc.mp once).1

theorem Conserved.sure_agrees :
    ∀ fragment ∈ bridge.sure, fragment.text = bridge.recognized fragment.phrase :=
  fun fragment member => conserved.agrees fragment (woven.mem_placed_of_sure member)

theorem Conserved.sure_kept (answered : phrase < bridge.answered)
    (words : bridge.recognized phrase ≠ []) :
    ∃ fragment ∈ bridge.sure, fragment.phrase = phrase := by
  obtain ⟨fragment, member, same⟩ := conserved.kept phrase (Or.inl answered) words
  by_cases silent : stripText bridge.partialText.text = []
  · rw [woven.placed_of_silent silent] at member
    exact ⟨fragment, member, same⟩
  · rw [woven.placed_of_spoken silent] at member
    rcases List.mem_append.mp member with sure | held
    · exact ⟨fragment, sure, same⟩
    · rw [List.mem_singleton.mp held] at same
      have after := woven.heldPartial silent
      change bridge.partialText.phrase = phrase at same
      omega

theorem Conserved.hear_iff (listening : bridge.sttEnded = false)
    (unanswered : bridge.answered ≤ phrase) (asked : phrase ≤ bridge.requests) :
    (bridge.hear phrase text).Conserved ↔ bridge.taken phrase = false := by
  have after := woven.hear text unanswered asked
  have silentPlaced (silent : stripText text = []) :
      (bridge.hear phrase text).placed = bridge.sure := after.placed_of_silent silent
  have spokenPlaced (spoken : stripText text ≠ []) :
      (bridge.hear phrase text).placed =
        bridge.sure ++ [{ phrase := phrase, text := stripText text }] :=
    after.placed_of_spoken spoken
  constructor
  · intro heard
    by_contra collected
    obtain ⟨fragment, member, same⟩ := taken_iff.mp (eq_true_of_ne_false collected)
    have sure : fragment ∈ bridge.sure := List.mem_append_left _ member
    by_cases silent : stripText text = []
    · have agrees := heard.agrees fragment (by rw [silentPlaced silent]; exact sure)
      rw [same] at agrees
      apply woven.collected_words fragment member
      simpa [CascadeBridge.hear, silent] using agrees
    · have once := heard.once
      rw [spokenPlaced silent] at once
      exact (nodup_snoc.mp once).2 fragment sure same
  · intro fresh
    have apart (fragment : Fragment) (member : fragment ∈ bridge.sure) :
        fragment.phrase ≠ phrase := by
      intro same
      rw [woven.taken_of_sure unanswered member same] at fresh
      cases fresh
    have agrees (fragment : Fragment) (member : fragment ∈ bridge.sure) :
        fragment.text = (bridge.hear phrase text).recognized fragment.phrase := by
      change _ = Function.update bridge.recognized phrase (stripText text) fragment.phrase
      rw [Function.update_of_ne (apart fragment member)]
      exact conserved.sure_agrees woven fragment member
    have kept (other : Nat) (known : (bridge.hear phrase text).decided other)
        (words : (bridge.hear phrase text).recognized other ≠ []) :
        ∃ fragment ∈ (bridge.hear phrase text).placed, fragment.phrase = other := by
      have answered : other < bridge.answered := by
        rcases known with answered | ended
        · exact answered
        · have deaf : bridge.sttEnded = true := ended
          rw [listening] at deaf
          cases deaf
      change Function.update bridge.recognized phrase (stripText text) other ≠ [] at words
      rw [Function.update_of_ne (by omega)] at words
      obtain ⟨fragment, member, same⟩ := conserved.sure_kept woven answered words
      exact ⟨fragment, after.mem_placed_of_sure member, same⟩
    by_cases silent : stripText text = []
    · refine ⟨?_, ?_, kept⟩
      · rw [silentPlaced silent]
        exact conserved.sure_once woven
      · rw [silentPlaced silent]
        exact agrees
    · refine ⟨?_, ?_, kept⟩
      · rw [spokenPlaced silent]
        exact nodup_snoc.mpr ⟨conserved.sure_once woven, apart⟩
      · rw [spokenPlaced silent]
        intro fragment member
        rcases List.mem_append.mp member with sure | new
        · exact agrees fragment sure
        · rw [List.mem_singleton.mp new]
          exact (Function.update_self phrase (stripText text) bridge.recognized).symm

end

section

variable (woven : bridge.Woven) (unanswered : bridge.answered ≤ phrase)
  (asked : phrase < bridge.requests)
include woven unanswered asked

theorem Woven.pumpFinal_placed :
    (bridge.pumpFinal phrase text).placed = bridge.collected ++ bridge.finalsWith phrase text := by
  have after := woven.pumpFinal text unanswered asked
  rw [pumpFinal_eq] at after ⊢
  exact after.placed_of_silent rfl

theorem Woven.pumpFinal_placed_of_dropped (dropped : bridge.staleFinals ≠ 0 ∨ stripText text = []) :
    (bridge.pumpFinal phrase text).placed = bridge.sure := by
  rw [woven.pumpFinal_placed unanswered asked]
  unfold finalsWith
  rw [if_pos dropped]
  rfl

theorem Woven.pumpFinal_placed_of_kept (fresh : bridge.staleFinals = 0)
    (words : stripText text ≠ []) :
    (bridge.pumpFinal phrase text).placed =
      bridge.sure ++ [{ phrase := phrase, text := stripText text }] := by
  rw [woven.pumpFinal_placed unanswered asked]
  unfold finalsWith sure
  rw [if_neg (by simp [fresh, words]), List.append_assoc]

end

theorem pumpFinal_recognized_of_ne {other : Nat} (differs : other ≠ phrase) :
    (bridge.pumpFinal phrase text).recognized other = bridge.recognized other := by
  rw [pumpFinal_eq]
  dsimp only
  split
  · rfl
  · exact Function.update_of_ne differs _ _

theorem pumpFinal_recognized_of_taken (taken : bridge.taken phrase = true) :
    (bridge.pumpFinal phrase text).recognized = bridge.recognized := by
  rw [pumpFinal_eq]
  dsimp only
  rw [if_pos taken]

theorem pumpFinal_recognized_of_fresh (fresh : bridge.taken phrase = false) :
    (bridge.pumpFinal phrase text).recognized phrase = stripText text := by
  rw [pumpFinal_eq]
  dsimp only
  rw [if_neg (by simp [fresh]), Function.update_self]

theorem pumpFinal_decided (listening : bridge.sttEnded = false) {other : Nat} :
    (bridge.pumpFinal phrase text).decided other ↔ other ≤ phrase := by
  rw [pumpFinal_eq]
  change other < phrase + 1 ∨ bridge.sttEnded = true ↔ _
  rw [listening, Nat.lt_succ_iff]
  exact or_iff_left Bool.false_ne_true

theorem Conserved.keeps_of_pumpFinal (conserved : (bridge.pumpFinal phrase text).Conserved)
    (woven : bridge.Woven) (listening : bridge.sttEnded = false)
    (unanswered : bridge.answered ≤ phrase) (asked : phrase < bridge.requests) :
    (stripText text ≠ [] → (bridge.taken phrase = true ↔ bridge.staleFinals ≠ 0)) ∧
      ∀ earlier < phrase, bridge.answered ≤ earlier → bridge.recognized earlier ≠ [] →
        bridge.taken earlier = true := by
  constructor
  · intro words
    constructor
    · intro collected fresh
      have once := conserved.once
      rw [woven.pumpFinal_placed_of_kept unanswered asked fresh words] at once
      obtain ⟨fragment, member, same⟩ := taken_iff.mp collected
      exact (nodup_snoc.mp once).2 fragment (List.mem_append_left _ member) same
    · intro stale
      by_contra fresh
      have recognized : (bridge.pumpFinal phrase text).recognized phrase = stripText text :=
        pumpFinal_recognized_of_fresh (eq_false_of_ne_true fresh)
      obtain ⟨fragment, member, same⟩ := conserved.kept phrase
        ((pumpFinal_decided listening).mpr (Nat.le_refl phrase)) (by rw [recognized]; exact words)
      rw [woven.pumpFinal_placed_of_dropped unanswered asked (Or.inl stale)] at member
      exact fresh (woven.taken_of_sure unanswered member same)
  · intro earlier before waiting words
    have differs : earlier ≠ phrase := Nat.ne_of_lt before
    obtain ⟨fragment, member, same⟩ := conserved.kept earlier
      ((pumpFinal_decided listening).mpr (Nat.le_of_lt before))
      (by rw [pumpFinal_recognized_of_ne differs]; exact words)
    by_cases dropped : bridge.staleFinals ≠ 0 ∨ stripText text = []
    · rw [woven.pumpFinal_placed_of_dropped unanswered asked dropped] at member
      exact woven.taken_of_sure waiting member same
    · obtain ⟨fresh, spoken⟩ := not_or.mp dropped
      rw [woven.pumpFinal_placed_of_kept unanswered asked (not_not.mp fresh) spoken] at member
      rcases List.mem_append.mp member with sure | new
      · exact woven.taken_of_sure waiting sure same
      · rw [List.mem_singleton.mp new] at same
        exact absurd same.symm differs

theorem Conserved.pumpFinal (conserved : bridge.Conserved) (woven : bridge.Woven)
    (listening : bridge.sttEnded = false) (unanswered : bridge.answered ≤ phrase)
    (asked : phrase < bridge.requests)
    (right : stripText text ≠ [] → (bridge.taken phrase = true ↔ bridge.staleFinals ≠ 0))
    (complete : ∀ earlier < phrase, bridge.answered ≤ earlier → bridge.recognized earlier ≠ [] →
      bridge.taken earlier = true) : (bridge.pumpFinal phrase text).Conserved := by
  -- A fragment of the phrase itself can only be a collected one, which the final leaves alone.
  have agrees (fragment : Fragment) (member : fragment ∈ bridge.sure) :
      fragment.text = (bridge.pumpFinal phrase text).recognized fragment.phrase := by
    by_cases same : fragment.phrase = phrase
    · rw [pumpFinal_recognized_of_taken (woven.taken_of_sure unanswered member same)]
      exact conserved.sure_agrees woven fragment member
    · rw [pumpFinal_recognized_of_ne same]
      exact conserved.sure_agrees woven fragment member
  have sureKept (fragment : Fragment) (member : fragment ∈ bridge.sure) :
      fragment ∈ (bridge.pumpFinal phrase text).placed := by
    rw [woven.pumpFinal_placed unanswered asked]
    rcases List.mem_append.mp member with collected | final
    · exact List.mem_append_left _ collected
    · unfold finalsWith
      apply List.mem_append_right
      split
      · exact final
      · exact List.mem_append_left _ final
  have collectedKept (other : Nat) (collected : bridge.taken other = true) :
      ∃ fragment ∈ (bridge.pumpFinal phrase text).placed, fragment.phrase = other := by
    obtain ⟨fragment, member, same⟩ := taken_iff.mp collected
    exact ⟨fragment, sureKept fragment (List.mem_append_left _ member), same⟩
  have others (other : Nat) (differs : other ≠ phrase)
      (known : (bridge.pumpFinal phrase text).decided other)
      (words : (bridge.pumpFinal phrase text).recognized other ≠ []) :
      ∃ fragment ∈ (bridge.pumpFinal phrase text).placed, fragment.phrase = other := by
    rw [pumpFinal_recognized_of_ne differs] at words
    have before := (pumpFinal_decided listening).mp known
    by_cases answered : other < bridge.answered
    · obtain ⟨fragment, member, same⟩ := conserved.sure_kept woven answered words
      exact ⟨fragment, sureKept fragment member, same⟩
    · exact collectedKept other (complete other (by omega) (by omega) words)
  by_cases dropped : bridge.staleFinals ≠ 0 ∨ stripText text = []
  · have placed := woven.pumpFinal_placed_of_dropped unanswered asked dropped
    refine ⟨?_, ?_, ?_⟩
    · rw [placed]
      exact conserved.sure_once woven
    · rw [placed]
      exact agrees
    · intro other known words
      by_cases same : other = phrase
      · subst same
        apply collectedKept
        by_contra fresh
        rw [pumpFinal_recognized_of_fresh (eq_false_of_ne_true fresh)] at words
        rcases dropped with stale | silent
        · exact fresh ((right words).mpr stale)
        · exact words silent
      · exact others other same known words
  · obtain ⟨fresh, spoken⟩ := not_or.mp dropped
    have current : bridge.staleFinals = 0 := not_not.mp fresh
    have placed := woven.pumpFinal_placed_of_kept unanswered asked current spoken
    have untaken : bridge.taken phrase = false := by
      by_contra collected
      exact (right spoken).mp (eq_true_of_ne_false collected) current
    refine ⟨?_, ?_, ?_⟩
    · rw [placed]
      apply nodup_snoc.mpr
      refine ⟨conserved.sure_once woven, ?_⟩
      intro fragment member same
      rw [woven.taken_of_sure unanswered member same] at untaken
      cases untaken
    · rw [placed]
      intro fragment member
      rcases List.mem_append.mp member with sure | new
      · exact agrees fragment sure
      · rw [List.mem_singleton.mp new]
        exact (pumpFinal_recognized_of_fresh untaken).symm
    · intro other known words
      by_cases same : other = phrase
      · rw [placed, same]
        exact ⟨_, List.mem_append_right _ (List.mem_singleton_self _), rfl⟩
      · exact others other same known words

theorem pumpEnds_untouched (error : Option (ErrorCode × String)) :
    Untouched { bridge with sttEnded := true } (bridge.pumpEnds error) := by
  unfold pumpEnds
  dsimp only
  split <;> exact .of_same rfl rfl rfl rfl rfl rfl rfl

theorem Conserved.end_iff (conserved : bridge.Conserved) (woven : bridge.Woven) :
    { bridge with sttEnded := true }.Conserved ↔
      ∀ phrase < bridge.requests + 1, bridge.answered ≤ phrase → bridge.recognized phrase ≠ [] →
        bridge.taken phrase = true ∨
          stripText bridge.partialText.text ≠ [] ∧ bridge.partialText.phrase = phrase := by
  constructor
  · intro ended phrase _ unanswered words
    obtain ⟨fragment, member, same⟩ := ended.kept phrase (Or.inr rfl) words
    have placed : fragment ∈ bridge.placed := member
    by_cases silent : stripText bridge.partialText.text = []
    · rw [woven.placed_of_silent silent] at placed
      exact Or.inl (woven.taken_of_sure unanswered placed same)
    · rw [woven.placed_of_spoken silent] at placed
      rcases List.mem_append.mp placed with sure | held
      · exact Or.inl (woven.taken_of_sure unanswered sure same)
      · rw [List.mem_singleton.mp held] at same
        exact Or.inr ⟨silent, same⟩
  · intro complete
    refine ⟨conserved.once, conserved.agrees, ?_⟩
    intro phrase _ words
    have asked := woven.asked phrase words
    by_cases answered : phrase < bridge.answered
    · exact conserved.kept phrase (Or.inl answered) words
    · rcases complete phrase (by omega) (by omega) words with collected | ⟨spoken, held⟩
      · obtain ⟨fragment, member, same⟩ := taken_iff.mp collected
        exact ⟨fragment, List.mem_append_left _ member, same⟩
      · refine ⟨{ bridge.partialText with text := stripText bridge.partialText.text }, ?_, held⟩
        change _ ∈ bridge.placed
        rw [woven.placed_of_spoken spoken]
        exact List.mem_append_right _ (List.mem_singleton_self _)

theorem keeps_of_other {action : BridgeAction} (other : action.recognizes = false) :
    bridge.Keeps action := by
  cases action with
  | sttPartial => cases other
  | sttFinal => cases other
  | sttEnds => cases other
  | _ => trivial

theorem Conserved.step_iff (conserved : bridge.Conserved) (woven : bridge.Woven)
    {action : BridgeAction} (taken : bridge.Step config action next) :
    next.Conserved ↔ bridge.Keeps action := by
  by_cases other : action.recognizes = false
  · rw [(woven.untouched taken other).conserved_iff]
    exact ⟨fun _ => keeps_of_other other, fun _ => conserved⟩
  · cases taken.moves with
    | sttPartial phrase text listening unanswered asked =>
        rw [pumpPartial_untouched.conserved_iff]
        exact conserved.hear_iff woven listening unanswered asked
    | sttFinal phrase text listening unanswered asked =>
        constructor
        · intro after
          exact after.keeps_of_pumpFinal woven listening unanswered asked
        · rintro ⟨right, complete⟩
          exact conserved.pumpFinal woven listening unanswered asked right complete
    | sttEnds error listening =>
        rw [(pumpEnds_untouched error).conserved_iff]
        exact conserved.end_iff woven
    | _ => exact absurd rfl other

end Conserved
/-! ### Every phrase in one turn -/

theorem countP_any {A : Type} (groups : List (List A)) (test : A → Bool)
    (once : groups.flatten.countP test ≤ 1) :
    groups.countP (fun group => group.any test) = groups.flatten.countP test := by
  induction groups with
  | nil => rfl
  | cons group rest ih =>
      rw [List.flatten_cons, List.countP_append] at once
      have later := ih (by omega)
      rw [List.countP_cons, List.flatten_cons, List.countP_append, later]
      by_cases found : group.any test = true
      · have some : 0 < group.countP test := List.countP_pos_iff.mpr (List.any_eq_true.mp found)
        rw [if_pos found]
        omega
      · have none : group.countP test = 0 := by
          rw [List.countP_eq_zero]
          intro item member passes
          exact found (List.any_eq_true.mpr ⟨item, member, passes⟩)
        rw [if_neg found, none]
        omega

section Once

variable {bridge : CascadeBridge} {config : BridgeConfig}

theorem Conserved.placed_once (conserved : bridge.Conserved) (phrase : Nat) :
    bridge.placed.countP (fun fragment => fragment.phrase = phrase) ≤ 1 := by
  have once := List.nodup_iff_count_le_one.mp conserved.once phrase
  rw [List.count_eq_countP, List.countP_map] at once
  exact once

theorem Conserved.turns_add_waiting (conserved : bridge.Conserved) (phrase : Nat) :
    bridge.turnsWith phrase + bridge.waitingWith phrase =
      bridge.placed.countP (fun fragment => fragment.phrase = phrase) := by
  have split : bridge.placed =
      (bridge.history.map Entry.fragments).flatten ++
        (bridge.pendingUser.flatMap Heard.fragments ++ bridge.hearing) := by
    unfold placed collected
    rw [List.append_assoc]
    rfl
  have once := conserved.placed_once phrase
  rw [split, List.countP_append] at once ⊢
  have held := countP_any (bridge.history.map Entry.fragments)
    (fun fragment => fragment.phrase = phrase) (by omega)
  unfold turnsWith waitingWith
  rw [← held, List.countP_map]
  rfl

theorem speechConserved_of (conserved : bridge.Conserved) (woven : bridge.Woven) :
    bridge.SpeechConserved where
  conserved := conserved
  turns := woven.turns
  answers := by
    intro entry member assistant
    unfold Entry.fragments
    rw [woven.answers entry member assistant]
    rfl
  once := by
    intro phrase
    rw [conserved.turns_add_waiting]
    exact conserved.placed_once phrase
  kept := by
    intro phrase known words
    have once := conserved.placed_once phrase
    obtain ⟨fragment, member, same⟩ := conserved.kept phrase known words
    have some : 0 < bridge.placed.countP (fun fragment => fragment.phrase = phrase) :=
      List.countP_pos_iff.mpr ⟨fragment, member, decide_eq_true same⟩
    rw [conserved.turns_add_waiting]
    omega
  committed := by
    intro released phrase collected
    obtain ⟨fragment, member, same⟩ := taken_iff.mp collected
    have nothing := woven.emptied released
    unfold CascadeBridge.collected at member
    rw [nothing, List.flatMap_nil, List.append_nil] at member
    obtain ⟨entry, listed, held⟩ := List.mem_flatMap.mp member
    have some : 0 < bridge.turnsWith phrase := by
      apply List.countP_pos_iff.mpr
      refine ⟨entry, listed, ?_⟩
      unfold Entry.holds
      exact List.any_eq_true.mpr ⟨fragment, held, decide_eq_true same⟩
    have once := conserved.placed_once phrase
    have total := conserved.turns_add_waiting phrase
    omega

theorem connected_conserved : connected.Conserved where
  once := List.nodup_nil
  agrees := by
    intro fragment member
    cases member
  kept := fun phrase _ words => absurd rfl words

theorem connected_woven : connected.Woven where
  finals := by
    intro fragment member
    cases member
  heldPartial := fun spoken => absurd rfl spoken
  asked := fun phrase words => absurd rfl words
  pending := by
    intro heard member
    cases member
  turns := by
    intro entry member
    cases member
  answers := by
    intro entry member
    cases member
  words := by
    intro entry member
    cases member
  cut := by
    intro index marked
    cases marked
  emptied := fun _ => rfl

/-- A run whose steps meet their conditions keeps every phrase in one place, and its next step
does so exactly when it meets its own. -/
theorem speech_conserved (config : BridgeConfig) (actions : List BridgeAction)
    (last : CascadeBridge) (run : Run (Keeping config) connected actions last) :
    last.SpeechConserved ∧
      ∀ action next, last.Step config action next → (next.Conserved ↔ last.Keeps action) := by
  have kept := run.invariant
    (fun bridge => bridge.Coherent ∧ bridge.Woven ∧ bridge.Conserved)
    connected ⟨connected_coherent, connected_woven, connected_conserved⟩ (by
      rintro bridge action next ⟨coherent, woven, conserved⟩ ⟨taken, keeps⟩
      exact ⟨coherent.step taken, woven.step coherent taken,
        (conserved.step_iff woven taken).mpr keeps⟩)
  obtain ⟨_, woven, conserved⟩ := kept
  exact ⟨speechConserved_of conserved woven, fun _ _ taken => conserved.step_iff woven taken⟩

end Once

section Runs

def timedOutTurn (phrase : Nat) (text reply : Text) : List BridgeAction :=
  [.speechStart, .sttPartial phrase text, .endOfTurn {}, .startTurn, .requestSent,
    .finalizeReturns, .stopWaiting true, .delta reply, .brainEnds (.ok {}), .proceed]

def finalTurn (phrase : Nat) (text reply : Text) : List BridgeAction :=
  [.endOfTurn {}, .startTurn, .requestSent, .sttFinal phrase text, .finalizeReturns,
    .stopWaiting false, .delta reply, .brainEnds (.ok {}), .proceed]

def lateRun : List BridgeAction :=
  timedOutTurn 0 ['a'] ['x'] ++ [.sttFinal 0 ['a', 'b'], .speechStart] ++ finalTurn 1 ['c'] ['y']

theorem speech_conserved_late :
    ∃ last : CascadeBridge, Run (Keeping plainBrain) connected lateRun last ∧
      (last.SpeechConserved ∧ ∀ action next, last.Step plainBrain action next →
        (next.Conserved ↔ last.Keeps action)) ∧
      last.history.map Entry.turn =
        [{ role := .user, text := ['a'] }, { role := .assistant, text := ['x'] },
          { role := .user, text := ['c'] }, { role := .assistant, text := ['y'] }] := by
  obtain ⟨last, run, history⟩ := Run.of_guardedStep (CascadeBridge.step plainBrain) Keeps connected
    lateRun (fun last => last.history.map Entry.turn)
    [{ role := .user, text := ['a'] }, { role := .assistant, text := ['x'] },
      { role := .user, text := ['c'] }, { role := .assistant, text := ['y'] }] (by decide +kernel)
  exact ⟨last, run, speech_conserved plainBrain lateRun last run, history⟩

def repeatedRun : List BridgeAction :=
  timedOutTurn 0 ['a'] ['x'] ++ [.speechStart, .sttFinal 0 ['a', 'b']] ++ finalTurn 1 ['c'] ['y']

/-- A pause is answered with a partial and discarded, and its final never comes: the final of
the end of the turn is taken for it, and its phrase is in no text. -/
def lostRun : List BridgeAction :=
  [.speechStart, .sttPartial 0 ['a'], .pauseStart, .startTurn, .requestSent, .finalizeReturns,
    .stopWaiting true, .pauseCancelled, .cancelled, .resumeHandler, .sttPartial 1 ['b'],
    .endOfTurn {}, .startTurn, .requestSent, .finalizeReturns, .sttFinal 1 ['b'],
    .stopWaiting true, .delta ['y'], .brainEnds (.ok {}), .proceed]

theorem speech_repeated_and_lost :
    (∃ last : CascadeBridge, Run (Step plainBrain) connected repeatedRun last ∧
      last.recognized 0 = ['a'] ∧ last.turnsWith 0 = 2) ∧
      ∃ last : CascadeBridge, Run (Step plainBrain) connected lostRun last ∧
        last.recognized 1 = ['b'] ∧ last.decided 1 ∧ last.turnsWith 1 = 0 ∧
        last.waitingWith 1 = 0 := by
  constructor
  · obtain ⟨last, run, said⟩ := Run.of_foldlM_map (CascadeBridge.step plainBrain) connected
      repeatedRun (fun last => (last.recognized 0, last.turnsWith 0)) (['a'], 2) (by decide +kernel)
    obtain ⟨recognized, turns⟩ := Prod.mk.inj said
    exact ⟨last, run, recognized, turns⟩
  · obtain ⟨last, run, said⟩ := Run.of_foldlM_map (CascadeBridge.step plainBrain) connected lostRun
      (fun last => (last.recognized 1, last.answered, last.turnsWith 1, last.waitingWith 1))
      (['b'], 2, 0, 0) (by decide +kernel)
    obtain ⟨recognized, rest⟩ := Prod.mk.inj said
    obtain ⟨answered, counts⟩ := Prod.mk.inj rest
    obtain ⟨turns, waiting⟩ := Prod.mk.inj counts
    have decided : last.decided 1 := by
      unfold CascadeBridge.decided
      omega
    exact ⟨last, run, recognized, decided, turns, waiting⟩

end Runs
end CascadeBridge
end Assemblix.Realtime
