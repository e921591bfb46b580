import Assemblix.Realtime.VoiceSessionService

/-
The statistics of a voice agent.

`close_session` reads the agent, and a later statement overwrites its columns with what it has
read and its own session on top. What other calls wrote in between is lost. The deduction of the
credits is one statement.
-/

namespace Assemblix.Realtime

open Library
open Billing (Account VoiceCharge VoiceSettings)

/-! ### What a call has done -/

def CloseStage.counted : CloseStage → Bool
  | .updatingSession => false
  | .gettingAgent => false
  | .updatingAgent _ => false
  | .deducting => true
  | .recordingFee _ => true
  | .recordingMargin _ => true
  | .closed => true

theorem chargeStage_counted (settings : VoiceSettings) (charge : VoiceCharge) :
    (chargeStage settings charge).counted = true := by
  unfold chargeStage
  split
  · rfl
  · rfl

theorem marginStage_counted (charge : VoiceCharge) (charged : ℚ) :
    (marginStage charge charged).counted = true := by
  unfold marginStage
  split
  · rfl
  · rfl

theorem feeStage_counted (charge : VoiceCharge) (charged : ℚ) :
    (feeStage charge charged).counted = true := by
  unfold feeStage
  split
  · rfl
  · split
    · rfl
    · exact marginStage_counted charge charged

def CloseStage.hasDeducted : CloseStage → Bool
  | .recordingFee _ => true
  | .recordingMargin _ => true
  | .closed => true
  | _ => false

theorem marginStage_hasDeducted (charge : VoiceCharge) (charged : ℚ) :
    (marginStage charge charged).hasDeducted = true := by
  unfold marginStage
  split
  · rfl
  · rfl

theorem feeStage_hasDeducted (charge : VoiceCharge) (charged : ℚ) :
    (feeStage charge charged).hasDeducted = true := by
  unfold feeStage
  split
  · rfl
  · split
    · rfl
    · exact marginStage_hasDeducted charge charged

/-- `_charge` has something to deduct. -/
def Chargeable (settings : VoiceSettings) (request : CloseRequest) : Prop :=
  settings.billingEnabled = true ∧ 0 < sessionCredits settings request

instance (settings : VoiceSettings) (request : CloseRequest) :
    Decidable (Chargeable settings request) :=
  inferInstanceAs (Decidable (_ ∧ _))

namespace ServiceCall

def isFor (agentId : Nat) : ServiceCall → Bool
  | .closing _ _ (.found agent _) => decide (agent = agentId)
  | _ => false

def closedSession : ServiceCall → Option Nat
  | .closing sessionId _ (.found _ _) => some sessionId
  | _ => none

def credits (settings : VoiceSettings) : ServiceCall → ℚ
  | .closing _ request _ => sessionCredits settings request
  | .opening _ _ => 0

def isSettled : ServiceCall → Bool
  | .opening _ _ => true
  | .closing _ _ .arrived => false
  | .closing _ _ .missing => true
  | .closing _ _ (.found _ stage) => decide (stage = .closed)

def countedFor (agentId : Nat) : ServiceCall → Bool
  | .closing _ _ (.found agent stage) => decide (agent = agentId) && stage.counted
  | _ => false

theorem countedFor_found (agentId sessionId agent : Nat) (request : CloseRequest)
    (stage : CloseStage) :
    (closing sessionId request (.found agent stage)).countedFor agentId =
      (decide (agent = agentId) && stage.counted) := rfl

def countedCredits (settings : VoiceSettings) (agentId : Nat) (call : ServiceCall) : ℚ :=
  if call.countedFor agentId then call.credits settings else 0

def deducted (settings : VoiceSettings) : ServiceCall → Option (Nat × ℚ)
  | .closing sessionId request (.found _ stage) =>
      if Chargeable settings request ∧ stage.hasDeducted = true then
        some (sessionId, sessionCredits settings request)
      else none
  | _ => none

theorem countedFor_of_settled {call : ServiceCall} (settled : call.isSettled = true)
    (agentId : Nat) : call.countedFor agentId = call.isFor agentId := by
  cases call with
  | opening request point => rfl
  | closing sessionId request point =>
      cases point with
      | arrived => rfl
      | missing => rfl
      | found agent stage =>
          have closed : stage = .closed := of_decide_eq_true settled
          subst closed
          exact Bool.and_true _

end ServiceCall

namespace VoiceTable

def closedCredits (settings : VoiceSettings) (agentId : Nat) (table : VoiceTable) : ℚ :=
  ((table.calls.filter (ServiceCall.isFor agentId)).map (ServiceCall.credits settings)).sum

/-- All closed sessions of the agent are in its statistics, and each is charged once, where there
is something to charge. -/
structure StatisticsKept (settings : VoiceSettings) (agentId : Nat) (before : VoiceAgent)
    (table : VoiceTable) : Prop where
  agent : ∃ row, table.agents[agentId]? = some row ∧
    row.agent.sessionCount =
      before.sessionCount + table.calls.countP (ServiceCall.isFor agentId) ∧
    row.agent.totalCredits = before.totalCredits + table.closedCredits settings agentId
  charged : ∀ sessionId request stage,
    ServiceCall.closing sessionId request (.found agentId stage) ∈ table.calls →
      (table.charges.filter (fun charge => decide (charge.sessionId = sessionId))).map
          SessionCharge.asked =
        if Chargeable settings request then [sessionCredits settings request] else []

def ReadsFresh (agentId : Nat) (table : VoiceTable) : ServiceCall → Prop
  | .closing _ _ (.found agent (.updatingAgent read)) =>
      agent = agentId → ∀ row ∈ table.agents[agentId]?, read.version = row.version
  | _ => True

def Unraced (agentId : Nat) (table : VoiceTable) : ServiceAction → Prop
  | .proceed index => ∀ call ∈ table.calls[index]?, table.ReadsFresh agentId call
  | _ => True

variable {settings : VoiceSettings} {table next : VoiceTable} {action : ServiceAction}
  {agentId : Nat}

/-! ### The row of the agent -/

theorem overwrite_fresh (row : AgentRow) (updated : VoiceAgent) :
    (row.overwrite row.agent updated).agent = updated := by
  have kept {A : Type} [DecidableEq A] (new old : A) : (if new = old then old else new) = new := by
    split
    · rename_i same
      exact same.symm
    · rfl
  unfold AgentRow.overwrite
  rw [kept, kept, kept]

theorem overwrite_sessionCount (read : VoiceAgent) (request : CloseRequest) (row : AgentRow) :
    (row.overwrite read (read.addSession settings request)).agent.sessionCount =
      read.sessionCount + 1 :=
  if_neg (Nat.succ_ne_self read.sessionCount)

def Writes (agentId : Nat) (call : ServiceCall) : Prop :=
  ∃ sessionId request read,
    call = .closing sessionId request (.found agentId (.updatingAgent read))

theorem Advances.counted {call after : ServiceCall} {statement : Statement} {row : AgentRow}
    (moved : table.Advances settings call after statement)
    (known : table.agents[agentId]? = some row) (quiet : ¬ Writes agentId call) :
    after.countedFor agentId = call.countedFor agentId := by
  cases moved with
  | begin billed => rfl
  | insertUnbilled unbilled => rfl
  | uncovered error => rfl
  | covered => rfl
  | full error => rfl
  | count => rfl
  | insert => rfl
  | missing => rfl
  | find agent => exact Bool.and_false _
  | updateSession => rfl
  | @agentMissing sessionId agent request absent =>
      have different : agent ≠ agentId := by
        intro same
        rw [same, known] at absent
        cases absent
      rw [ServiceCall.countedFor_found, ServiceCall.countedFor_found, decide_eq_false different]
      rfl
  | readAgent found => rfl
  | @updateAgent sessionId agent request read =>
      have different : agent ≠ agentId := by
        intro same
        subst same
        exact quiet ⟨sessionId, request, read, rfl⟩
      rw [ServiceCall.countedFor_found, ServiceCall.countedFor_found, decide_eq_false different]
      rfl
  | deduct charged =>
      rw [ServiceCall.countedFor_found, feeStage_counted]
      rfl
  | recordFee transaction =>
      rw [ServiceCall.countedFor_found, marginStage_counted]
      rfl
  | recordMargin transaction => rfl

theorem Advances.credits {call after : ServiceCall} {statement : Statement}
    (moved : table.Advances settings call after statement) :
    after.credits settings = call.credits settings := by
  cases moved <;> rfl

theorem Advances.agent {call after : ServiceCall} {statement : Statement}
    (moved : table.Advances settings call after statement) (quiet : ¬ Writes agentId call) :
    (table.execute settings statement).agents[agentId]? = table.agents[agentId]? := by
  cases moved with
  | @updateAgent sessionId agent request read =>
      have different : agent ≠ agentId := by
        intro same
        subst same
        exact quiet ⟨sessionId, request, read, rfl⟩
      exact List.getElem?_modify_ne _ _ different
  | _ => rfl

theorem not_writer_of_counted {stage : CloseStage} {sessionId other agent : Nat}
    {request again : CloseRequest} {read : AgentRow} (counted : stage.counted = true) :
    ServiceCall.closing other again (.found agent stage) ≠
      .closing sessionId request (.found agentId (.updatingAgent read)) := by
  intro same
  injection same with _ _ point
  injection point with _ stage
  rw [stage] at counted
  cases counted

theorem Advances.read {call : ServiceCall} {statement : Statement} {sessionId : Nat}
    {request : CloseRequest} {read : AgentRow} {after : ServiceCall}
    (moved : table.Advances settings call after statement)
    (pending : after = .closing sessionId request (.found agentId (.updatingAgent read))) :
    table.agents[agentId]? = some read := by
  cases moved with
  | readAgent known =>
      cases pending
      exact known
  | agentMissing absent => exact absurd pending (not_writer_of_counted (chargeStage_counted _ _))
  | updateAgent => exact absurd pending (not_writer_of_counted (chargeStage_counted _ _))
  | deduct charged => exact absurd pending (not_writer_of_counted (feeStage_counted _ _))
  | recordFee transaction => exact absurd pending (not_writer_of_counted (marginStage_counted _ _))
  | _ => cases pending

/-! ### Versions -/

/-- No more is in the row than was written, nor in what was read of it; a read that is still
fresh is the row. -/
structure Tracked (agentId : Nat) (before : VoiceAgent) (table : VoiceTable) (row : AgentRow) :
    Prop where
  known : table.agents[agentId]? = some row
  version : row.version = table.calls.countP (ServiceCall.countedFor agentId)
  bounded : row.agent.sessionCount ≤ before.sessionCount + row.version
  pending : ∀ (index sessionId : Nat) (request : CloseRequest) (read : AgentRow),
    table.calls[index]? =
        some (.closing sessionId request (.found agentId (.updatingAgent read))) →
      read.version ≤ row.version ∧
        read.agent.sessionCount ≤ before.sessionCount + read.version ∧
        (read.version = row.version → read = row)

/-- Nothing that was written is lost. -/
structure Exact (settings : VoiceSettings) (agentId : Nat) (before : VoiceAgent)
    (table : VoiceTable) (row : AgentRow) : Prop where
  sessionCount : row.agent.sessionCount = before.sessionCount + row.version
  totalCredits : row.agent.totalCredits = before.totalCredits +
    (table.calls.map (ServiceCall.countedCredits settings agentId)).sum

variable {before : VoiceAgent} {row : AgentRow}

structure Spares (settings : VoiceSettings) (agentId : Nat) (table next : VoiceTable) :
    Prop where
  agent : next.agents[agentId]? = table.agents[agentId]?
  counted : next.calls.countP (ServiceCall.countedFor agentId) =
    table.calls.countP (ServiceCall.countedFor agentId)
  credits : (next.calls.map (ServiceCall.countedCredits settings agentId)).sum =
    (table.calls.map (ServiceCall.countedCredits settings agentId)).sum
  pending : ∀ (index sessionId : Nat) (request : CloseRequest) (read : AgentRow),
    next.calls[index]? =
        some (.closing sessionId request (.found agentId (.updatingAgent read))) →
      table.calls[index]? =
          some (.closing sessionId request (.found agentId (.updatingAgent read))) ∨
        table.agents[agentId]? = some read

theorem Spares.tracked (spares : table.Spares settings agentId next)
    (tracked : table.Tracked agentId before row) : next.Tracked agentId before row where
  known := spares.agent.trans tracked.known
  version := tracked.version.trans spares.counted.symm
  bounded := tracked.bounded
  pending := by
    intro index sessionId request read found
    rcases spares.pending index sessionId request read found with earlier | fresh
    · exact tracked.pending index sessionId request read earlier
    · cases tracked.known.symm.trans fresh
      exact ⟨Nat.le_refl _, tracked.bounded, fun _ => rfl⟩

theorem Spares.exact_iff (spares : table.Spares settings agentId next) :
    next.Exact settings agentId before row ↔ table.Exact settings agentId before row := by
  constructor
  · intro exact
    exact ⟨exact.sessionCount, spares.credits ▸ exact.totalCredits⟩
  · intro exact
    exact ⟨exact.sessionCount, spares.credits.symm ▸ exact.totalCredits⟩

theorem Spares.of_new {call : ServiceCall} (agents : next.agents = table.agents)
    (calls : next.calls = table.calls ++ [call]) (new : ∀ agent, call.isFor agent = false) :
    table.Spares settings agentId next := by
  have uncounted : call.countedFor agentId = false := by
    cases call with
    | opening request point => rfl
    | closing sessionId request point =>
        cases point with
        | arrived => rfl
        | missing => rfl
        | found agent stage => exact absurd (new agent) (by simp [ServiceCall.isFor])
  refine ⟨by rw [agents], ?_, ?_, ?_⟩
  · rw [calls, List.countP_append, List.countP_singleton, uncounted]
    rfl
  · rw [calls, List.map_append, List.sum_append, List.map_singleton, List.sum_singleton]
    unfold ServiceCall.countedCredits
    rw [uncounted]
    exact add_zero _
  · intro index sessionId request read found
    rw [calls] at found
    rcases get_concat found with earlier | ⟨_, last⟩
    · exact Or.inl earlier
    · rw [← last] at new
      exact absurd (new agentId) (by simp [ServiceCall.isFor])

theorem Spares.of_same (agents : next.agents = table.agents) (calls : next.calls = table.calls) :
    table.Spares settings agentId next := by
  refine ⟨by rw [agents], by rw [calls], by rw [calls], ?_⟩
  intro index sessionId request read found
  rw [calls] at found
  exact Or.inl found

theorem Spares.of_proceed {index : Nat} {call after : ServiceCall} {statement : Statement}
    (tracked : table.Tracked agentId before row) (known : table.calls[index]? = some call)
    (moved : table.Advances settings call after statement) (quiet : ¬ Writes agentId call) :
    table.Spares settings agentId
      { table.execute settings statement with
        calls := table.calls.modify index (fun _ => after) } := by
  have counted := moved.counted tracked.known quiet
  have same : after.countedCredits settings agentId = call.countedCredits settings agentId := by
    unfold ServiceCall.countedCredits
    rw [counted, moved.credits]
  refine ⟨moved.agent quiet, ?_, ?_, ?_⟩
  · have shifted := countP_modify (ServiceCall.countedFor agentId) known (fun _ => after)
    rw [counted] at shifted
    exact Nat.add_right_cancel shifted
  · have shifted := sum_modify (ServiceCall.countedCredits settings agentId) known (fun _ => after)
    rw [same] at shifted
    exact add_right_cancel shifted
  · intro other sessionId request read found
    obtain ⟨earlier, there, changed | unchanged⟩ := get_modify found
    · exact Or.inr (moved.read changed.2.symm)
    · rw [← unchanged.2] at there
      exact Or.inl there

/-- A close has written the row of the agent as `read` and its session on top. -/
structure Written (settings : VoiceSettings) (agentId : Nat) (table next : VoiceTable)
    (index sessionId : Nat) (request : CloseRequest) (read : AgentRow) : Prop where
  writer : table.calls[index]? =
    some (.closing sessionId request (.found agentId (.updatingAgent read)))
  agents : next.agents = table.agents.modify agentId
    (AgentRow.overwrite read.agent (read.agent.addSession settings request))
  calls : next.calls = table.calls.modify index (fun _ =>
    .closing sessionId request (.found agentId
      (chargeStage settings (sessionCharge settings sessionId request))))

theorem Acts.spares_or_writes (tracked : table.Tracked agentId before row)
    (acts : table.Acts settings action next) :
    table.Spares settings agentId next ∧ table.Unraced agentId action ∨
      ∃ index sessionId request read, action = .proceed index ∧
        table.Written settings agentId next index sessionId request read := by
  cases acts with
  | openSession request =>
      exact Or.inl ⟨.of_new rfl rfl (fun _ => rfl), trivial⟩
  | closeSession sessionId request =>
      exact Or.inl ⟨.of_new rfl rfl (fun _ => rfl), trivial⟩
  | tick elapsed => exact Or.inl ⟨.of_same rfl rfl, trivial⟩
  | accountMoves plan => exact Or.inl ⟨.of_same rfl rfl, trivial⟩
  | @proceed index call after statement known moved =>
      by_cases writes : Writes agentId call
      · obtain ⟨sessionId, request, read, same⟩ := writes
        subst same
        cases moved with
        | updateAgent =>
            exact Or.inr ⟨index, sessionId, request, read, rfl, ⟨known, rfl, rfl⟩⟩
      · refine Or.inl ⟨.of_proceed tracked known moved writes, ?_⟩
        intro other found
        cases known.symm.trans found
        unfold ReadsFresh
        split
        · rename_i sessionId request agent read
          intro same
          subst same
          exact absurd ⟨sessionId, request, read, rfl⟩ writes
        · trivial

namespace Written

variable {index sessionId : Nat} {request : CloseRequest} {read : AgentRow}

section

variable (written : table.Written settings agentId next index sessionId request read)
include written

theorem counted :
    next.calls.countP (ServiceCall.countedFor agentId) =
      table.calls.countP (ServiceCall.countedFor agentId) + 1 := by
  have shifted := countP_modify (ServiceCall.countedFor agentId) written.writer (fun _ =>
    .closing sessionId request (.found agentId
      (chargeStage settings (sessionCharge settings sessionId request))))
  rw [ServiceCall.countedFor_found, ServiceCall.countedFor_found, chargeStage_counted,
    decide_eq_true (Eq.refl agentId)] at shifted
  rw [written.calls]
  exact shifted

theorem credits :
    (next.calls.map (ServiceCall.countedCredits settings agentId)).sum =
      (table.calls.map (ServiceCall.countedCredits settings agentId)).sum +
        sessionCredits settings request := by
  have shifted := sum_modify (ServiceCall.countedCredits settings agentId) written.writer
    (fun _ => .closing sessionId request (.found agentId
      (chargeStage settings (sessionCharge settings sessionId request))))
  unfold ServiceCall.countedCredits at shifted
  rw [ServiceCall.countedFor_found, ServiceCall.countedFor_found, chargeStage_counted,
    decide_eq_true (Eq.refl agentId)] at shifted
  rw [written.calls]
  exact (add_zero _).symm.trans shifted

theorem tracked (tracked : table.Tracked agentId before row) :
    next.Tracked agentId before
      (row.overwrite read.agent (read.agent.addSession settings request)) := by
  obtain ⟨older, bounded, _⟩ := tracked.pending index sessionId request read written.writer
  refine ⟨?_, ?_, ?_, ?_⟩
  · rw [written.agents]
    exact get_modify_self _ tracked.known
  · rw [written.counted, ← tracked.version]
    rfl
  · rw [overwrite_sessionCount]
    change _ ≤ _ + (row.version + 1)
    omega
  · intro other again asked pending found
    change pending.version ≤ row.version + 1 ∧ _ ∧ (pending.version = row.version + 1 → _)
    rw [written.calls] at found
    obtain ⟨earlier, there, changed | unchanged⟩ := get_modify found
    · exact absurd changed.2.symm (not_writer_of_counted (chargeStage_counted _ _))
    · rw [← unchanged.2] at there
      obtain ⟨seen, exact, _⟩ := tracked.pending other again asked pending there
      exact ⟨by omega, exact, fun same => absurd same (by omega)⟩

theorem exact_iff (tracked : table.Tracked agentId before row) :
    next.Exact settings agentId before
        (row.overwrite read.agent (read.agent.addSession settings request)) ↔
      table.Exact settings agentId before row ∧ read.version = row.version := by
  obtain ⟨older, bounded, fresh⟩ := tracked.pending index sessionId request read written.writer
  constructor
  · intro exact
    have counted := exact.sessionCount
    rw [overwrite_sessionCount] at counted
    change _ = _ + (row.version + 1) at counted
    have same : read.version = row.version := by omega
    have credited := exact.totalCredits
    rw [fresh same] at counted credited
    rw [overwrite_fresh, written.credits, ← add_assoc] at credited
    exact ⟨⟨by omega, add_right_cancel credited⟩, same⟩
  · rintro ⟨exact, same⟩
    rw [fresh same]
    refine ⟨?_, ?_⟩
    · rw [overwrite_fresh]
      change row.agent.sessionCount + 1 = _ + (row.version + 1)
      have counted := exact.sessionCount
      omega
    · rw [overwrite_fresh, written.credits, ← add_assoc, ← exact.totalCredits]
      rfl

end

end Written

/-! ### Runs -/

def Accurate (settings : VoiceSettings) (agentId : Nat) (before : VoiceAgent)
    (table : VoiceTable) : Prop :=
  ∃ row, table.agents[agentId]? = some row ∧ table.Exact settings agentId before row

theorem Tracked.accurate_iff (tracked : table.Tracked agentId before row) :
    table.Accurate settings agentId before ↔ table.Exact settings agentId before row := by
  constructor
  · rintro ⟨other, found, exact⟩
    cases tracked.known.symm.trans found
    exact exact
  · intro exact
    exact ⟨row, tracked.known, exact⟩

theorem Tracked.step (tracked : table.Tracked agentId before row)
    (taken : table.Step settings action next) :
    (∃ after, next.Tracked agentId before after) ∧
      (next.Accurate settings agentId before ↔
        table.Accurate settings agentId before ∧ table.Unraced agentId action) := by
  obtain ⟨acted, acts, same⟩ := taken.acts
  rw [tracked.accurate_iff, same]
  rcases acts.spares_or_writes tracked with
    ⟨spares, unraced⟩ | ⟨index, sessionId, request, read, proceeds, wrote⟩
  · have aside : table.Spares settings agentId (table.tally acted) :=
      { spares with }
    have kept := aside.tracked tracked
    refine ⟨⟨row, kept⟩, ?_⟩
    rw [kept.accurate_iff, aside.exact_iff]
    exact (and_iff_left unraced).symm
  · have written : table.Written settings agentId (table.tally acted) index sessionId request
        read :=
      { wrote with }
    have kept := written.tracked tracked
    refine ⟨⟨_, kept⟩, ?_⟩
    rw [kept.accurate_iff, written.exact_iff tracked, proceeds]
    refine and_congr_right ?_
    intro _
    constructor
    · intro fresh call found
      cases wrote.writer.symm.trans found
      intro _ stored there
      cases tracked.known.symm.trans there
      exact fresh
    · intro unraced
      exact unraced _ wrote.writer rfl row tracked.known

/-! ### Deductions -/

def deductions (table : VoiceTable) : List (Nat × ℚ) :=
  table.charges.map (fun charge => (charge.sessionId, charge.asked))

structure Charged (settings : VoiceSettings) (table : VoiceTable) : Prop where
  deducted : table.deductions.Perm (table.calls.filterMap (ServiceCall.deducted settings))
  chargeable : ∀ (index sessionId : Nat) (request : CloseRequest) (agentId : Nat),
    table.calls[index]? = some (.closing sessionId request (.found agentId .deducting)) →
      Chargeable settings request

theorem deducted_chargeStage (settings : VoiceSettings) (sessionId agentId : Nat)
    (request : CloseRequest) :
    (ServiceCall.closing sessionId request (.found agentId
      (chargeStage settings (sessionCharge settings sessionId request)))).deducted settings =
        none := by
  refine if_neg ?_
  rintro ⟨chargeable, deducted⟩
  have deducting : chargeStage settings (sessionCharge settings sessionId request) = .deducting :=
    if_pos chargeable
  rw [deducting] at deducted
  cases deducted

theorem deducted_early {stage : CloseStage} (early : stage.hasDeducted = false)
    (sessionId agentId : Nat) (request : CloseRequest) :
    (ServiceCall.closing sessionId request (.found agentId stage)).deducted settings = none := by
  refine if_neg ?_
  rintro ⟨_, deducted⟩
  rw [early] at deducted
  cases deducted

theorem deducted_late {stage other : CloseStage} (late : stage.hasDeducted = true)
    (otherLate : other.hasDeducted = true) (sessionId agentId : Nat) (request : CloseRequest) :
    (ServiceCall.closing sessionId request (.found agentId stage)).deducted settings =
      (ServiceCall.closing sessionId request (.found agentId other)).deducted settings := by
  unfold ServiceCall.deducted
  dsimp only
  rw [late, otherLate]

theorem Advances.deducted {call after : ServiceCall} {statement : Statement}
    (moved : table.Advances settings call after statement)
    (other : ∀ sessionId request agentId,
      call ≠ .closing sessionId request (.found agentId .deducting)) :
    (table.execute settings statement).charges = table.charges ∧
      after.deducted settings = call.deducted settings := by
  cases moved with
  | begin billed => exact ⟨rfl, rfl⟩
  | insertUnbilled unbilled => exact ⟨rfl, rfl⟩
  | uncovered error => exact ⟨rfl, rfl⟩
  | covered => exact ⟨rfl, rfl⟩
  | full error => exact ⟨rfl, rfl⟩
  | count => exact ⟨rfl, rfl⟩
  | insert => exact ⟨rfl, rfl⟩
  | missing => exact ⟨rfl, rfl⟩
  | find agent => exact ⟨rfl, deducted_early rfl _ _ _⟩
  | updateSession =>
      exact ⟨rfl, (deducted_early rfl _ _ _).trans (deducted_early rfl _ _ _).symm⟩
  | agentMissing absent =>
      exact ⟨rfl, (deducted_chargeStage _ _ _ _).trans (deducted_early rfl _ _ _).symm⟩
  | readAgent known =>
      exact ⟨rfl, (deducted_early rfl _ _ _).trans (deducted_early rfl _ _ _).symm⟩
  | updateAgent =>
      exact ⟨rfl, (deducted_chargeStage _ _ _ _).trans (deducted_early rfl _ _ _).symm⟩
  | deduct charged => exact absurd rfl (other _ _ _)
  | recordFee transaction =>
      exact ⟨rfl, deducted_late (marginStage_hasDeducted _ _) rfl _ _ _⟩
  | recordMargin transaction => exact ⟨rfl, deducted_late rfl rfl _ _ _⟩

theorem Advances.chargeable {call after : ServiceCall} {statement : Statement} {sessionId : Nat}
    {request : CloseRequest} (moved : table.Advances settings call after statement)
    (deducting : after = .closing sessionId request (.found agentId .deducting)) :
    Chargeable settings request := by
  have entered {agent : Nat} {other : Nat} {again : CloseRequest}
      (same : ServiceCall.closing other again (.found agent
        (chargeStage settings (sessionCharge settings other again))) =
          .closing sessionId request (.found agentId .deducting)) :
      Chargeable settings request := by
    injection same with sessions requests point
    injection point with _ stage
    subst sessions requests
    unfold chargeStage at stage
    split at stage
    · rename_i chargeable
      exact chargeable
    · cases stage
  have passed {stage : CloseStage} {agent other : Nat} {again : CloseRequest}
      (late : stage.hasDeducted = true)
      (same : ServiceCall.closing other again (.found agent stage) =
        .closing sessionId request (.found agentId .deducting)) : False := by
    injection same with _ _ point
    injection point with _ stage
    rw [stage] at late
    cases late
  cases moved with
  | agentMissing absent => exact entered deducting
  | updateAgent => exact entered deducting
  | deduct charged => exact (passed (feeStage_hasDeducted _ _) deducting).elim
  | recordFee transaction => exact (passed (marginStage_hasDeducted _ _) deducting).elim
  | _ => cases deducting

theorem Charged.of_new {call : ServiceCall} (charged : table.Charged settings)
    (charges : next.charges = table.charges) (calls : next.calls = table.calls ++ [call])
    (new : ∀ agent, call.isFor agent = false) : next.Charged settings := by
  have free : call.deducted settings = none := by
    cases call with
    | opening request point => rfl
    | closing sessionId request point =>
        cases point with
        | arrived => rfl
        | missing => rfl
        | found agent stage => exact absurd (new agent) (by simp [ServiceCall.isFor])
  constructor
  · unfold deductions
    rw [charges, calls, List.filterMap_append, List.filterMap_cons_none free, List.filterMap_nil,
      List.append_nil]
    exact charged.deducted
  · intro index sessionId request agentId found
    rw [calls] at found
    rcases get_concat found with earlier | ⟨_, last⟩
    · exact charged.chargeable index sessionId request agentId earlier
    · rw [← last] at new
      exact absurd (new agentId) (by simp [ServiceCall.isFor])

theorem Charged.of_proceed {index : Nat} {call after : ServiceCall} {statement : Statement}
    (charged : table.Charged settings) (known : table.calls[index]? = some call)
    (moved : table.Advances settings call after statement) :
    Charged settings
      { table.execute settings statement with
        calls := table.calls.modify index (fun _ => after) } := by
  constructor
  · by_cases deducts : ∃ sessionId request agentId,
        call = .closing sessionId request (.found agentId .deducting)
    · obtain ⟨sessionId, request, agentId, same⟩ := deducts
      subst same
      have chargeable := charged.chargeable index sessionId request agentId known
      cases moved with
      | deduct taken =>
          have shown : (ServiceCall.closing sessionId request (.found agentId
              (feeStage (sessionCharge settings sessionId request) taken))).deducted settings =
                some (sessionId, sessionCredits settings request) :=
            if_pos ⟨chargeable, feeStage_hasDeducted _ _⟩
          have added := filterMap_modify_perm known (fun _ => _) (deducted_early rfl _ _ _) shown
          refine List.Perm.trans ?_ added.symm
          change List.Perm ((table.charges ++ [_]).map _) _
          rw [List.map_append]
          exact charged.deducted.append_right _
    · have quiet (sessionId : Nat) (request : CloseRequest) (agentId : Nat) :
          call ≠ .closing sessionId request (.found agentId .deducting) :=
        fun same => deducts ⟨sessionId, request, agentId, same⟩
      obtain ⟨charges, deducted⟩ := moved.deducted quiet
      change List.Perm ((table.execute settings statement).charges.map _) _
      rw [charges, filterMap_modify_of_same _ known _ deducted]
      exact charged.deducted
  · intro other sessionId request agentId found
    obtain ⟨earlier, there, changed | unchanged⟩ := get_modify found
    · exact moved.chargeable changed.2.symm
    · rw [← unchanged.2] at there
      exact charged.chargeable other sessionId request agentId there

theorem Charged.step (charged : table.Charged settings) (taken : table.Step settings action next) :
    next.Charged settings := by
  obtain ⟨acted, acts, same⟩ := taken.acts
  have kept : acted.Charged settings := by
    cases acts with
    | openSession request => exact charged.of_new rfl rfl (fun _ => rfl)
    | closeSession sessionId request => exact charged.of_new rfl rfl (fun _ => rfl)
    | proceed known moved => exact charged.of_proceed known moved
    | tick elapsed => exact ⟨charged.deducted, charged.chargeable⟩
    | accountMoves plan => exact ⟨charged.deducted, charged.chargeable⟩
  rw [same]
  exact ⟨kept.deducted, kept.chargeable⟩

/-- Where the closes are of distinct sessions, a close that has ended has deducted its credits
once, if there were any. -/
theorem Charged.once (charged : table.Charged settings)
    (distinct : (table.calls.filterMap ServiceCall.closedSession).Nodup) {sessionId : Nat}
    {request : CloseRequest}
    (closed : ServiceCall.closing sessionId request (.found agentId .closed) ∈ table.calls) :
    (table.charges.filter (fun charge => decide (charge.sessionId = sessionId))).map
        SessionCharge.asked =
      if Chargeable settings request then [sessionCredits settings request] else [] := by
  have single := filter_key distinct closed rfl
  have own : (table.calls.filterMap (ServiceCall.deducted settings)).filter
      (fun deduction => decide (deduction.1 = sessionId)) =
        ([ServiceCall.closing sessionId request (.found agentId .closed)]).filterMap
          (ServiceCall.deducted settings) := by
    rw [← single, List.filter_filterMap, List.filterMap_filter]
    refine List.filterMap_congr ?_
    intro call _
    cases call with
    | opening request point => rfl
    | closing other again point =>
        cases point with
        | arrived => rfl
        | missing => rfl
        | found agent stage =>
            simp only [ServiceCall.deducted, ServiceCall.closedSession]
            by_cases same : other = sessionId
            · by_cases deducts : Chargeable settings again ∧ stage.hasDeducted = true
              · simp [same, deducts]
              · simp [same, deducts]
            · by_cases deducts : Chargeable settings again ∧ stage.hasDeducted = true
              · simp [same, deducts]
              · simp [same, deducts]
  have found := charged.deducted.filter (fun deduction => decide (deduction.1 = sessionId))
  rw [own] at found
  have asked : (table.charges.filter (fun charge => decide (charge.sessionId = sessionId))).map
      SessionCharge.asked =
        (table.deductions.filter (fun deduction => decide (deduction.1 = sessionId))).map
          Prod.snd := by
    unfold deductions
    rw [List.filter_map, List.map_map]
    rfl
  rw [asked]
  by_cases chargeable : Chargeable settings request
  · have shown : (ServiceCall.closing sessionId request (.found agentId .closed)).deducted
        settings = some (sessionId, sessionCredits settings request) :=
      if_pos ⟨chargeable, rfl⟩
    rw [List.filterMap_cons_some shown, List.filterMap_nil] at found
    rw [List.perm_singleton.mp found, if_pos chargeable]
    rfl
  · have hidden : (ServiceCall.closing sessionId request (.found agentId .closed)).deducted
        settings = none :=
      if_neg (fun both => chargeable both.1)
    rw [List.filterMap_cons_none hidden, List.filterMap_nil] at found
    rw [List.perm_nil.mp found, if_neg chargeable]
    rfl

/-! ### The statistics after all closes -/

theorem initial_tracked (now : Nat) (sessions : List VoiceSession) {agents : List VoiceAgent}
    (account : Account) (known : agents[agentId]? = some before) :
    (initial now sessions agents account).Tracked agentId before { agent := before } where
  known := by
    change (agents.map _)[agentId]? = _
    rw [List.getElem?_map, known]
    rfl
  version := rfl
  bounded := Nat.le_refl _
  pending := by
    intro index sessionId request read found
    cases found

theorem initial_accurate (settings : VoiceSettings) (now : Nat) (sessions : List VoiceSession)
    {agents : List VoiceAgent} (account : Account) (known : agents[agentId]? = some before) :
    (initial now sessions agents account).Accurate settings agentId before :=
  ⟨{ agent := before }, (initial_tracked now sessions account known).known, rfl,
    (add_zero _).symm⟩

theorem initial_charged (settings : VoiceSettings) (now : Nat) (sessions : List VoiceSession)
    (agents : List VoiceAgent) (account : Account) :
    (initial now sessions agents account).Charged settings where
  deducted := List.Perm.refl _
  chargeable := by
    intro index sessionId request agentId found
    cases found

theorem counted_of_settled (settled : ∀ call ∈ table.calls, call.isSettled = true) :
    table.calls.countP (ServiceCall.countedFor agentId) =
      table.calls.countP (ServiceCall.isFor agentId) :=
  List.countP_congr (fun call member => by
    rw [ServiceCall.countedFor_of_settled (settled call member)])

theorem credits_of_settled (settled : ∀ call ∈ table.calls, call.isSettled = true) :
    (table.calls.map (ServiceCall.countedCredits settings agentId)).sum =
      table.closedCredits settings agentId := by
  have parted := List.sum_map_ite (fun call : ServiceCall => call.isFor agentId = true)
    (ServiceCall.credits settings) (fun _ => (0 : ℚ)) table.calls
  rw [List.map_const', List.sum_replicate, nsmul_zero, add_zero] at parted
  simp only [Bool.decide_eq_true] at parted
  unfold closedCredits
  rw [← parted]
  refine congrArg List.sum (List.map_congr_left ?_)
  intro call member
  unfold ServiceCall.countedCredits
  rw [ServiceCall.countedFor_of_settled (settled call member)]

/-- After any closes of distinct sessions their agent has all of them in its statistics, and each
is charged once, exactly where no close had another write the agent between its read and its
write. -/
theorem session_statistics_iff (settings : VoiceSettings) (now : Nat)
    (sessions : List VoiceSession) (agents : List VoiceAgent) (account : Account) (agentId : Nat)
    (before : VoiceAgent) (known : agents[agentId]? = some before) (actions : List ServiceAction)
    (last : VoiceTable)
    (run : Run (Step settings) (initial now sessions agents account) actions last)
    (settled : ∀ call ∈ last.calls, call.isSettled = true)
    (distinct : (last.calls.filterMap ServiceCall.closedSession).Nodup) :
    last.StatisticsKept settings agentId before ↔
      Run (fun table action next => Step settings table action next ∧ table.Unraced agentId action)
        (initial now sessions agents account) actions last := by
  have tracked := initial_tracked now sessions account known
  have accurate : last.Accurate settings agentId before ↔ Run (fun table action next =>
      Step settings table action next ∧ table.Unraced agentId action)
        (initial now sessions agents account) actions last :=
    Run.guarded_iff (fun table => ∃ row, table.Tracked agentId before row)
      (Accurate settings agentId before) (Unraced agentId) ⟨_, tracked⟩
      (fun _ _ _ kept taken => (kept.choose_spec.step taken).1)
      (initial_accurate settings now sessions account known)
      (fun _ _ _ kept taken => (kept.choose_spec.step taken).2) run
  obtain ⟨row, tracked⟩ := run.invariant (fun table => ∃ row, table.Tracked agentId before row)
    _ ⟨_, tracked⟩ (fun _ _ _ kept taken => (kept.choose_spec.step taken).1)
  have charged := run.invariant (Charged settings) _
    (initial_charged settings now sessions agents account) (fun _ _ _ kept taken => kept.step taken)
  rw [← accurate, tracked.accurate_iff]
  have version := tracked.version
  rw [counted_of_settled settled] at version
  constructor
  · rintro ⟨⟨stored, found, counted, credited⟩, _⟩
    cases tracked.known.symm.trans found
    exact ⟨by rw [version, counted], by rw [credits_of_settled settled, credited]⟩
  · intro exact
    refine ⟨⟨row, tracked.known, ?_, ?_⟩, ?_⟩
    · rw [exact.sessionCount, version]
    · rw [exact.totalCredits, credits_of_settled settled]
    · intro sessionId request stage member
      have closed : stage = .closed := of_decide_eq_true (settled _ member)
      subst closed
      exact charged.once distinct member

instance (agentId : Nat) (table : VoiceTable) :
    (call : ServiceCall) → Decidable (table.ReadsFresh agentId call)
  | .closing _ _ (.found agent (.updatingAgent read)) =>
      inferInstanceAs (Decidable (agent = agentId → ∀ row ∈ table.agents[agentId]?,
        read.version = row.version))
  | .closing _ _ (.found _ .updatingSession) | .closing _ _ (.found _ .gettingAgent)
  | .closing _ _ (.found _ .deducting) | .closing _ _ (.found _ (.recordingFee _))
  | .closing _ _ (.found _ (.recordingMargin _)) | .closing _ _ (.found _ .closed)
  | .closing _ _ .arrived | .closing _ _ .missing | .opening _ _ => isTrue trivial

instance (agentId : Nat) (table : VoiceTable) :
    (action : ServiceAction) → Decidable (table.Unraced agentId action)
  | .proceed index =>
      inferInstanceAs (Decidable (∀ call ∈ table.calls[index]?, table.ReadsFresh agentId call))
  | .openSession _ | .closeSession _ _ | .tick _ | .accountMoves _ => isTrue trivial

def twoSessions : List VoiceSession :=
  List.replicate 2
    { voiceAgentId := 0, status := .active, startedAt := 0, isDebug := false, clientId := none }

def closedTogether : List ServiceAction :=
  [.closeSession 0 minuteCall, .closeSession 1 minuteCall, .proceed 0, .proceed 1, .proceed 0,
    .proceed 1]

/-- The second reads the agent after the first has written it. -/
def oneAfterAnother : List ServiceAction :=
  closedTogether ++ [.proceed 0, .proceed 0, .proceed 1, .proceed 1, .proceed 0, .proceed 1,
    .proceed 0, .proceed 1, .proceed 0, .proceed 1]

theorem session_statistics_iff_oneAfterAnother :
    ∃ last, Run (Step voicePrices) (initial 0 twoSessions oneAgent freeAccount) oneAfterAnother
        last ∧
      last.StatisticsKept voicePrices 0
        { sessionCount := 0, totalCredits := 0, ownKeyCostUsd := 0 } := by
  obtain ⟨last, unraced, holds⟩ := Run.of_guardedStep (step voicePrices) (Unraced 0)
    (initial 0 twoSessions oneAgent freeAccount) oneAfterAnother (fun last =>
      decide ((∀ call ∈ last.calls, call.isSettled = true) ∧
        (last.calls.filterMap ServiceCall.closedSession).Nodup)) true (by decide +kernel)
  obtain ⟨settled, distinct⟩ := of_decide_eq_true holds
  have run := unraced.mono (fun _ _ _ step => step.1)
  exact ⟨last, run, (session_statistics_iff voicePrices 0 twoSessions oneAgent freeAccount 0 _ rfl
    oneAfterAnother last run settled distinct).mpr unraced⟩

def bothRead : List ServiceAction :=
  closedTogether ++ [.proceed 0, .proceed 1, .proceed 0, .proceed 1, .proceed 0, .proceed 1,
    .proceed 0, .proceed 1, .proceed 0, .proceed 1]

/-- Then two sessions are closed and charged, and one is counted. -/
theorem session_statistics_lost :
    ∃ last, Run (Step voicePrices) (initial 0 twoSessions oneAgent freeAccount) bothRead last ∧
      (∀ call ∈ last.calls, call.isSettled = true) ∧
        (last.calls.filterMap ServiceCall.closedSession).Nodup ∧
          ¬ last.StatisticsKept voicePrices 0
            { sessionCount := 0, totalCredits := 0, ownKeyCostUsd := 0 } := by
  obtain ⟨last, run, holds⟩ := Run.of_foldlM_map (step voicePrices)
    (initial 0 twoSessions oneAgent freeAccount) bothRead (fun last =>
      decide ((∀ call ∈ last.calls, call.isSettled = true) ∧
        (last.calls.filterMap ServiceCall.closedSession).Nodup ∧
          last.calls.countP (ServiceCall.isFor 0) = 2 ∧
            ∀ row : AgentRow, row ∈ last.agents[0]? → row.agent.sessionCount = 1)) true
    (by decide +kernel)
  obtain ⟨settled, distinct, closes, lost⟩ := of_decide_eq_true holds
  refine ⟨last, run, settled, distinct, ?_⟩
  rintro ⟨⟨row, found, counted, _⟩, _⟩
  rw [lost row found, closes] at counted
  cases counted

end VoiceTable
end Assemblix.Realtime
