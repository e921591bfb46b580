import Assemblix.Realtime.VoiceSessionService

/-
The limit on the concurrent calls of an organization.

`open_session` counts the live sessions and inserts its row in a later statement. What was
inserted and what ended in between decides whether the count still holds.
-/

namespace Assemblix.Realtime

open Library
open Billing (Account VoiceSettings)

namespace VoiceTable

/-- The sessions that a call has counted, with what rose and fell since, leave room for the one
it is about to insert. A row that is too old to be live needs no room; without billing nothing
is counted. -/
def HasRoom (settings : VoiceSettings) (table : VoiceTable) : ServiceCall → Prop
  | .opening _ .arrived => settings.billingEnabled = false → table.live < table.ceiling
  | .opening _ (.creating began counted) =>
      table.now ≤ began + activeSessionCutoff →
        counted.live + (table.entered - counted.entered) <
          table.ceiling + (table.left - counted.left)
  | _ => True

def Admitted (settings : VoiceSettings) (table : VoiceTable) : ServiceAction → Prop
  | .proceed index => ∀ call ∈ table.calls[index]?, table.HasRoom settings call
  | _ => True

variable {settings : VoiceSettings} {table next : VoiceTable} {action : ServiceAction}

/-! ### The number of live sessions -/

theorem finish_not_live (settings : VoiceSettings) (request : CloseRequest) (now later : Nat)
    (session : VoiceSession) : (session.finish settings request now).isLive later = false := by
  refine decide_eq_false ?_
  rintro ⟨active, _⟩
  change (if normalizeEndReason request.endReason = "error" then SessionStatus.failed
    else .completed) = .active at active
  split at active
  · cases active
  · cases active

theorem isLive_later {session : VoiceSession} {now elapsed : Nat}
    (live : session.isLive (now + elapsed) = true) : session.isLive now = true := by
  obtain ⟨active, young⟩ := of_decide_eq_true live
  exact decide_eq_true ⟨active, by omega⟩

theorem updateSession_live_le (sessionId : Nat) (request : CloseRequest) :
    (table.execute settings (.updateSession sessionId request)).live ≤ table.live := by
  change (table.sessions.modify sessionId (VoiceSession.finish settings request table.now)).countP
    (fun row => row.isLive table.now) ≤ table.live
  cases known : table.sessions[sessionId]? with
  | none =>
      rw [List.modify_eq_self (List.getElem?_eq_none_iff.mp known)]
      exact Nat.le_refl _
  | some session =>
      have moved := countP_modify (fun row : VoiceSession => row.isLive table.now) known
        (VoiceSession.finish settings request table.now)
      have ended := finish_not_live settings request table.now table.now session
      unfold live
      rw [if_neg (Bool.eq_false_iff.mp ended)] at moved
      omega

theorem tick_live_le (elapsed : Nat) :
    ({ table with now := table.now + elapsed } : VoiceTable).live ≤ table.live :=
  List.countP_mono_left (fun _ _ live => isLive_later live)

theorem insert_live (session : VoiceSession) :
    (table.execute settings (.insertSession session)).live =
      table.live + if session.isLive table.now then 1 else 0 := by
  change (table.sessions ++ [session]).countP (fun row => row.isLive table.now) = _
  rw [List.countP_append, List.countP_singleton]
  rfl

theorem row_isLive (request : OpenRequest) (began now : Nat) :
    (request.row began).isLive now = true ↔ now ≤ began + activeSessionCutoff := by
  unfold VoiceSession.isLive
  rw [decide_eq_true_iff]
  exact and_iff_right rfl

/-! ### Counts -/

structure Counted (begun : Nat) (table : VoiceTable) : Prop where
  total : table.live + table.left = begun + table.entered
  mark : ∀ (index : Nat) (request : OpenRequest) (began : Nat) (counted : LiveCount),
    table.calls[index]? = some (.opening request (.creating began counted)) →
      counted.entered ≤ table.entered ∧ counted.left ≤ table.left ∧
        counted.live + counted.left = begun + counted.entered

variable {begun : Nat}

theorem Advances.mark (kept : table.Counted begun) {call : ServiceCall} {statement : Statement}
    {request : OpenRequest} {began : Nat} {counted : LiveCount}
    (moved : table.Advances settings call (.opening request (.creating began counted)) statement) :
    counted.entered ≤ table.entered ∧ counted.left ≤ table.left ∧
      counted.live + counted.left = begun + counted.entered := by
  cases moved with
  | count => exact ⟨Nat.le_refl _, Nat.le_refl _, kept.total⟩

theorem execute_counters (statement : Statement) :
    (table.execute settings statement).entered = table.entered ∧
      (table.execute settings statement).left = table.left ∧
      (table.execute settings statement).ceiling = table.ceiling := by
  cases statement with
  | select => exact ⟨rfl, rfl, rfl⟩
  | insertSession session => exact ⟨rfl, rfl, rfl⟩
  | updateSession sessionId request => exact ⟨rfl, rfl, rfl⟩
  | updateAgent agentId read updated => exact ⟨rfl, rfl, rfl⟩
  | deductCreditsUpTo sessionId amount => exact ⟨rfl, rfl, rfl⟩
  | insertTransaction transaction => exact ⟨rfl, rfl, rfl⟩

theorem Acts.counters (acted : table.Acts settings action next) :
    next.entered = table.entered ∧ next.left = table.left ∧ next.ceiling = table.ceiling := by
  cases acted with
  | openSession request => exact ⟨rfl, rfl, rfl⟩
  | closeSession sessionId request => exact ⟨rfl, rfl, rfl⟩
  | @proceed index call after statement known moved => exact execute_counters statement
  | tick elapsed => exact ⟨rfl, rfl, rfl⟩
  | accountMoves plan =>
      refine ⟨rfl, rfl, ?_⟩
      unfold ceiling
      rw [plan]

theorem Acts.marks (kept : table.Counted begun) (acted : table.Acts settings action next)
    {index : Nat} {request : OpenRequest} {began : Nat} {counted : LiveCount}
    (pending : next.calls[index]? = some (.opening request (.creating began counted))) :
    counted.entered ≤ table.entered ∧ counted.left ≤ table.left ∧
      counted.live + counted.left = begun + counted.entered := by
  cases acted with
  | openSession other =>
      rcases get_concat pending with earlier | last
      · exact kept.mark index request began counted earlier
      · cases last.2
  | closeSession sessionId other =>
      rcases get_concat pending with earlier | last
      · exact kept.mark index request began counted earlier
      · cases last.2
  | @proceed current call after statement known moved =>
      obtain ⟨before, earlier, changed | unchanged⟩ := get_modify pending
      · rw [← changed.2] at moved
        exact moved.mark kept
      · rw [← unchanged.2] at earlier
        exact kept.mark index request began counted earlier
  | tick elapsed => exact kept.mark index request began counted pending
  | accountMoves plan => exact kept.mark index request began counted pending

theorem Counted.step (kept : table.Counted begun) (taken : table.Step settings action next) :
    next.Counted begun := by
  obtain ⟨acted, acts, same⟩ := taken.acts
  obtain ⟨entered, left, _⟩ := acts.counters
  have total := kept.total
  have live : next.live = acted.live := by
    rw [same]
    rfl
  have rises : next.entered = table.entered + (acted.live - table.live) := by
    rw [same, ← entered]
    rfl
  have falls : next.left = table.left + (table.live - acted.live) := by
    rw [same, ← left]
    rfl
  refine ⟨by omega, ?_⟩
  intro index request began counted pending
  rw [same] at pending
  obtain ⟨before, after, exact⟩ := acts.marks kept pending
  exact ⟨by omega, by omega, exact⟩

/-! ### The limit -/

theorem admitted_proceed {index : Nat} {call : ServiceCall}
    (known : table.calls[index]? = some call) :
    table.Admitted settings (.proceed index) ↔ table.HasRoom settings call := by
  refine ⟨fun room => room call known, ?_⟩
  intro room other found
  cases known.symm.trans found
  exact room

theorem Acts.live_le_iff (kept : table.Counted begun) (acted : table.Acts settings action next)
    (within : table.live ≤ table.ceiling) :
    next.live ≤ table.ceiling ↔ table.Admitted settings action := by
  cases acted with
  | openSession request => exact iff_of_true within trivial
  | closeSession sessionId request => exact iff_of_true within trivial
  | tick elapsed => exact iff_of_true (Nat.le_trans (tick_live_le elapsed) within) trivial
  | accountMoves plan => exact iff_of_true within trivial
  | @proceed index call after statement known moved =>
      change (table.execute settings statement).live ≤ table.ceiling ↔ _
      rw [admitted_proceed known]
      cases moved with
      | @insertUnbilled request unbilled =>
          have young : (request.row table.now).isLive table.now = true :=
            (row_isLive request table.now table.now).mpr (Nat.le_add_right _ _)
          rw [insert_live, if_pos young]
          exact ⟨fun room _ => room, fun room => room unbilled⟩
      | @insert request began counted =>
          obtain ⟨entered, left, exact⟩ := kept.mark index request began counted known
          have total := kept.total
          change _ ↔ (_ → counted.live + (table.entered - counted.entered) <
            table.ceiling + (table.left - counted.left))
          rw [insert_live]
          by_cases young : table.now ≤ began + activeSessionCutoff
          · rw [if_pos ((row_isLive request began table.now).mpr young), forall_prop_of_true young]
            omega
          · rw [if_neg (fun live => young ((row_isLive request began table.now).mp live))]
            exact iff_of_true within (fun still => absurd still young)
      | begin billed =>
          refine iff_of_true within ?_
          intro unbilled
          rw [billed] at unbilled
          cases unbilled
      | uncovered error => exact iff_of_true within trivial
      | full error => exact iff_of_true within trivial
      | covered => exact iff_of_true within trivial
      | count => exact iff_of_true within trivial
      | missing => exact iff_of_true within trivial
      | find agentId => exact iff_of_true within trivial
      | updateSession =>
          exact iff_of_true (Nat.le_trans (updateSession_live_le _ _) within) trivial
      | agentMissing absent => exact iff_of_true within trivial
      | readAgent known => exact iff_of_true within trivial
      | updateAgent => exact iff_of_true within trivial
      | deduct charged => exact iff_of_true within trivial
      | recordFee transaction => exact iff_of_true within trivial
      | recordMargin transaction => exact iff_of_true within trivial

theorem Step.live_le_iff (kept : table.Counted begun) (taken : table.Step settings action next)
    (within : table.live ≤ table.ceiling) :
    next.live ≤ next.ceiling ↔ table.Admitted settings action := by
  obtain ⟨acted, acts, same⟩ := taken.acts
  have ceiling : next.ceiling = table.ceiling := by
    rw [same]
    exact acts.counters.2.2
  have live : next.live = acted.live := by
    rw [same]
    rfl
  rw [ceiling, live]
  exact acts.live_le_iff kept within

theorem initial_counted (now : Nat) (sessions : List VoiceSession) (agents : List VoiceAgent)
    (account : Account) :
    (initial now sessions agents account).Counted (initial now sessions agents account).live where
  total := rfl
  mark := by
    intro index request began counted pending
    cases pending

/-- An organization that starts within its limit is within it in every state of a run exactly when
every insert of the run is admitted. -/
theorem call_limit_iff (settings : VoiceSettings) (now : Nat) (sessions : List VoiceSession)
    (agents : List VoiceAgent) (account : Account)
    (within : (initial now sessions agents account).live ≤ concurrentCalls account.organization.plan)
    (actions : List ServiceAction) (last : VoiceTable)
    (run : Run (Step settings) (initial now sessions agents account) actions last) :
    (∀ past middle, past <+: actions →
        Run (Step settings) (initial now sessions agents account) past middle →
          middle.live ≤ concurrentCalls middle.account.organization.plan) ↔
      Run (fun table action next => Step settings table action next ∧ table.Admitted settings action)
        (initial now sessions agents account) actions last :=
  run.everywhere_iff (fun table => table.Counted (initial now sessions agents account).live)
    (fun table => table.live ≤ table.ceiling) (fun table action => table.Admitted settings action)
    Step.functional (initial_counted now sessions agents account)
    (fun _ _ _ kept taken _ => kept.step taken) within
    (fun _ _ _ kept good taken => taken.live_le_iff kept good)

instance (settings : VoiceSettings) (table : VoiceTable) :
    (call : ServiceCall) → Decidable (table.HasRoom settings call)
  | .opening _ .arrived =>
      inferInstanceAs (Decidable (settings.billingEnabled = false → table.live < table.ceiling))
  | .opening _ (.creating began counted) =>
      inferInstanceAs (Decidable (table.now ≤ began + activeSessionCutoff →
        counted.live + (table.entered - counted.entered) <
          table.ceiling + (table.left - counted.left)))
  | .opening _ (.checkingBalance _) | .opening _ (.counting _) | .opening _ (.opened _)
  | .opening _ (.refused _) | .closing _ _ _ => isTrue trivial

instance (settings : VoiceSettings) (table : VoiceTable) :
    (action : ServiceAction) → Decidable (table.Admitted settings action)
  | .proceed index =>
      inferInstanceAs (Decidable (∀ call ∈ table.calls[index]?, table.HasRoom settings call))
  | .openSession _ | .closeSession _ _ | .tick _ | .accountMoves _ => isTrue trivial

def handedOver : List ServiceAction :=
  [.openSession { voiceAgentId := 0 }, .proceed 0, .proceed 0, .proceed 0, .proceed 0,
    .openSession { voiceAgentId := 0 }, .proceed 1, .closeSession 0 minuteCall, .proceed 2,
    .proceed 1, .proceed 2, .proceed 1, .proceed 1]

theorem call_limit_iff_handedOver :
    (∃ last, Run (Step voicePrices) (initial 0 [] oneAgent freeAccount) handedOver last) ∧
      ∀ past middle, past <+: handedOver →
        Run (Step voicePrices) (initial 0 [] oneAgent freeAccount) past middle →
          middle.live ≤ concurrentCalls middle.account.organization.plan := by
  obtain ⟨last, admitted, -⟩ := Run.of_guardedStep (step voicePrices) (Admitted voicePrices)
    (initial 0 [] oneAgent freeAccount) handedOver (fun _ => ()) () (by decide +kernel)
  have run := admitted.mono (fun _ _ _ step => step.1)
  exact ⟨⟨last, run⟩, (call_limit_iff voicePrices 0 [] oneAgent freeAccount (by decide +kernel)
    handedOver last run).mpr admitted⟩

def countedTogether : List ServiceAction :=
  [.openSession { voiceAgentId := 0 }, .openSession { voiceAgentId := 0 },
    .proceed 0, .proceed 0, .proceed 0, .proceed 1, .proceed 1, .proceed 1, .proceed 0, .proceed 1]

theorem call_limit_exceeded :
    (initial 0 [] oneAgent freeAccount).live ≤ concurrentCalls freeAccount.organization.plan ∧
      ∃ last, Run (Step voicePrices) (initial 0 [] oneAgent freeAccount) countedTogether last ∧
        concurrentCalls last.account.organization.plan < last.live := by
  obtain ⟨last, run, above⟩ := Run.of_foldlM_map (step voicePrices)
    (initial 0 [] oneAgent freeAccount) countedTogether
    (fun last => decide (concurrentCalls last.account.organization.plan < last.live)) true
    (by decide +kernel)
  exact ⟨Nat.zero_le _, last, run, of_decide_eq_true above⟩

end VoiceTable
end Assemblix.Realtime
