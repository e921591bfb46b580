import Assemblix.Billing.Ledger
import Assemblix.Library.Dict
import Assemblix.Library.Json
import Assemblix.Library.ListUpdate
import Assemblix.Library.Run

/-
The voice sessions of one organization.

Any number of `open_session` and `close_session` calls interleave; a call moves from one of its
repository calls to the next. Ids are positions in the tables, times count microseconds. The
organization of a session is always found, so the lookup of it stands for nothing but the first
statement of `open_session`. Other code changes the account in between, but not the plan.
-/

namespace Assemblix.Realtime

open Library
open Billing (Account CreditTransaction PlanTier SessionUsage VoiceCharge VoiceSettings)

/-! ### Rows -/

/-- `concurrent_calls` of the plans. -/
def concurrentCalls : PlanTier → Nat
  | .free => 1
  | .pro => 5
  | .business => 15

/-- Four hours. -/
def activeSessionCutoff : Nat := 4 * 60 * 60 * 1000000

inductive SessionStatus
  | active
  | completed
  | failed
  deriving DecidableEq

structure VoiceSession where
  voiceAgentId : Nat
  status : SessionStatus
  startedAt : Nat
  isDebug : Bool
  clientId : Option String
  endedAt : Option Nat := none
  durationSec : ℚ := 0
  transcript : List Json := []
  totalCredits : ℚ := 0
  ownKeyCostUsd : ℚ := 0
  callDetails : Option (Dict String Json) := none
  inputTokens : Nat := 0
  outputTokens : Nat := 0
  endReason : Option String := none

/-- What `count_active_by_organization` counts, with the cutoff of `open_session`. -/
def VoiceSession.isLive (session : VoiceSession) (now : Nat) : Bool :=
  decide (session.status = .active ∧ now ≤ session.startedAt + activeSessionCutoff)

structure VoiceAgent where
  sessionCount : Nat
  totalCredits : ℚ
  ownKeyCostUsd : ℚ
  deriving DecidableEq

/-- A stored agent with the number of updates it has seen, which the code does not keep. -/
structure AgentRow where
  agent : VoiceAgent
  version : Nat := 0
  deriving DecidableEq

/-- One deduction of `_charge`. -/
structure SessionCharge where
  sessionId : Nat
  asked : ℚ
  taken : ℚ
  deriving DecidableEq

/-! ### Calls of the service -/

structure OpenRequest where
  voiceAgentId : Nat
  isDebug : Bool := true
  clientId : Option String := none

structure CloseRequest where
  usage : SessionUsage
  transcript : List Json
  endReason : String
  inputTokens : Nat
  outputTokens : Nat
  callDetails : Option (Dict String Json) := none

structure LiveCount where
  live : Nat
  entered : Nat
  left : Nat
  deriving DecidableEq

inductive OpenError
  | insufficientCredits (required available : ℚ)
  | httpException (status : Nat) (detail : String)
  deriving DecidableEq

/-- Where `open_session` is; `began` is when its transaction started. -/
inductive OpenPoint
  | arrived
  | checkingBalance (began : Nat)
  | counting (began : Nat)
  | creating (began : Nat) (counted : LiveCount)
  | opened (sessionId : Nat)
  | refused (error : OpenError)
  deriving DecidableEq

/-- Where `close_session` is once it has its session. -/
inductive CloseStage
  | updatingSession
  | gettingAgent
  | updatingAgent (read : AgentRow)
  | deducting
  | recordingFee (charged : ℚ)
  | recordingMargin (charged : ℚ)
  | closed
  deriving DecidableEq

inductive ClosePoint
  | arrived
  | missing
  | found (agentId : Nat) (stage : CloseStage)
  deriving DecidableEq

inductive ServiceCall
  | opening (request : OpenRequest) (point : OpenPoint)
  | closing (sessionId : Nat) (request : CloseRequest) (point : ClosePoint)

structure VoiceTable where
  now : Nat
  sessions : List VoiceSession
  agents : List AgentRow
  account : Account
  calls : List ServiceCall := []
  charges : List SessionCharge := []
  -- How often the number of live sessions has risen and fallen.
  entered : Nat := 0
  left : Nat := 0

/-- What a repository call writes. -/
inductive Statement
  | select
  | insertSession (session : VoiceSession)
  | updateSession (sessionId : Nat) (request : CloseRequest)
  | updateAgent (agentId : Nat) (read updated : VoiceAgent)
  | deductCreditsUpTo (sessionId : Nat) (amount : ℚ)
  | insertTransaction (transaction : CreditTransaction)

inductive ServiceAction
  | openSession (request : OpenRequest)
  | closeSession (sessionId : Nat) (request : CloseRequest)
  /-- The next repository call of a call. -/
  | proceed (index : Nat)
  | tick (elapsed : Nat)
  /-- Grants, also the renewal that `check_balance` begins with, purchases and executions. -/
  | accountMoves (account : Account)

/-! ### What a call is charged -/

def endReasons : List String := ["user_hangup", "timeout", "error", "completed", "closed"]

def normalizeEndReason (reason : String) : String :=
  if reason ∈ endReasons then reason else "provider_closed"

def spendings (usage : SessionUsage) : List (ℚ × Bool) :=
  (usage.minutes * usage.costPerMinute, usage.usesSystemKey) ::
    (usage.ttsCostUsd, usage.ttsUsesSystemKey) :: usage.extraCosts

def providerCostUsd (usage : SessionUsage) : ℚ :=
  (spendings usage).foldl (fun cost spent => if spent.2 then cost + spent.1 else cost) 0

def ownKeyCostUsd (usage : SessionUsage) : ℚ :=
  (spendings usage).foldl (fun cost spent => if spent.2 then cost else cost + spent.1) 0

def sessionCharge (settings : VoiceSettings) (sessionId : Nat) (request : CloseRequest) :
    VoiceCharge where
  voiceSessionId := toString sessionId
  feeCredits := (settings.computeSessionCredits request.usage).1
  marginCredits := (settings.computeSessionCredits request.usage).2
  providerCostUsd := providerCostUsd request.usage

def sessionCredits (settings : VoiceSettings) (request : CloseRequest) : ℚ :=
  (settings.computeSessionCredits request.usage).1 +
    (settings.computeSessionCredits request.usage).2

def withCredits (settings : VoiceSettings) (request : CloseRequest)
    (details : Dict String Json) : Dict String Json :=
  let costs :=
    match details.lookup "costs" with
    | some (.obj fields) => Dict.ofList fields
    | _ => .empty
  let credits := settings.computeSessionCredits request.usage
  details.set "costs"
    (.obj ((costs.set "platformFeeCredits" (.number credits.1)).set
      "providerMarginCredits" (.number credits.2)).entries)

def VoiceSession.finish (settings : VoiceSettings) (request : CloseRequest) (now : Nat)
    (session : VoiceSession) : VoiceSession :=
  let reason := normalizeEndReason request.endReason
  { session with
    status := if reason = "error" then .failed else .completed
    endedAt := some now
    durationSec := request.usage.durationSec
    transcript := request.transcript
    totalCredits := sessionCredits settings request
    ownKeyCostUsd := Realtime.ownKeyCostUsd request.usage
    inputTokens := request.inputTokens
    outputTokens := request.outputTokens
    endReason := some reason
    callDetails := request.callDetails.map (withCredits settings request) }

def VoiceAgent.addSession (settings : VoiceSettings) (request : CloseRequest)
    (agent : VoiceAgent) : VoiceAgent where
  sessionCount := agent.sessionCount + 1
  totalCredits := agent.totalCredits + sessionCredits settings request
  ownKeyCostUsd := agent.ownKeyCostUsd + Realtime.ownKeyCostUsd request.usage

/-- The `UPDATE` of an object that was read before: values that it keeps are not written. -/
def AgentRow.overwrite (read updated : VoiceAgent) (row : AgentRow) : AgentRow where
  agent :=
    { sessionCount :=
        if updated.sessionCount = read.sessionCount then row.agent.sessionCount
        else updated.sessionCount
      totalCredits :=
        if updated.totalCredits = read.totalCredits then row.agent.totalCredits
        else updated.totalCredits
      ownKeyCostUsd :=
        if updated.ownKeyCostUsd = read.ownKeyCostUsd then row.agent.ownKeyCostUsd
        else updated.ownKeyCostUsd }
  version := row.version + 1

/-! ### The rows of `_charge` -/

def feeRow (settings : VoiceSettings) (charge : VoiceCharge) (charged : ℚ) :
    CreditTransaction where
  amountCredits := -min charge.feeCredits charged
  amountUsd := -settings.creditConfig.creditsToUsd (min charge.feeCredits charged)
  type := .requestFee
  description := "Platform fee for voice session " ++ charge.voiceSessionId

def marginRow (charge : VoiceCharge) (charged : ℚ) : CreditTransaction where
  amountCredits := -(charged - min charge.feeCredits charged)
  amountUsd :=
    -if 0 < charge.marginCredits then
      charge.providerCostUsd * (charged - min charge.feeCredits charged) / charge.marginCredits
    else 0
  type := .voiceUsage
  description := "Conversation usage (system keys) for voice session " ++ charge.voiceSessionId

/-- The first stage of `_charge`. -/
def chargeStage (settings : VoiceSettings) (charge : VoiceCharge) : CloseStage :=
  if settings.billingEnabled = true ∧ 0 < charge.total then .deducting else .closed

def marginStage (charge : VoiceCharge) (charged : ℚ) : CloseStage :=
  if 0 < charged - min charge.feeCredits charged then .recordingMargin charged else .closed

def feeStage (charge : VoiceCharge) (charged : ℚ) : CloseStage :=
  if charged ≤ 0 then .closed
  else if 0 < min charge.feeCredits charged then .recordingFee charged
  else marginStage charge charged

/-! ### Steps -/

def OpenRequest.row (request : OpenRequest) (startedAt : Nat) : VoiceSession where
  voiceAgentId := request.voiceAgentId
  status := .active
  startedAt := startedAt
  isDebug := request.isDebug
  clientId := request.clientId

namespace VoiceTable

def initial (now : Nat) (sessions : List VoiceSession) (agents : List VoiceAgent)
    (account : Account) : VoiceTable where
  now := now
  sessions := sessions
  agents := agents.map (fun agent => { agent := agent })
  account := account

def live (table : VoiceTable) : Nat := table.sessions.countP (fun row => row.isLive table.now)

def ceiling (table : VoiceTable) : Nat := concurrentCalls table.account.organization.plan

def advanceOpen (settings : VoiceSettings) (table : VoiceTable) (request : OpenRequest) :
    OpenPoint → Option (OpenPoint × Statement)
  | .arrived =>
      if settings.billingEnabled then some (.checkingBalance table.now, .select)
      else some (.opened table.sessions.length, .insertSession (request.row table.now))
  | .checkingBalance began =>
      let required := settings.usdToCredits (1 * settings.voicePlatformFeeUsdPerMinute) false
      let available := table.account.organization.creditsBalance
      if available < required then
        some (.refused (.insufficientCredits required available), .select)
      else some (.counting began, .select)
  | .counting began =>
      if table.ceiling ≤ table.live then
        some (.refused (.httpException 429
          ("Concurrent call limit reached for this plan: " ++ toString table.ceiling ++ ".")),
          .select)
      else
        some (.creating began
          { live := table.live, entered := table.entered, left := table.left }, .select)
  | .creating began _ =>
      some (.opened table.sessions.length, .insertSession (request.row began))
  | .opened _ => none
  | .refused _ => none

def advanceStage (settings : VoiceSettings) (table : VoiceTable) (sessionId agentId : Nat)
    (request : CloseRequest) : CloseStage → Option (CloseStage × Statement)
  | .updatingSession => some (.gettingAgent, .updateSession sessionId request)
  | .gettingAgent =>
      match table.agents[agentId]? with
      | none => some (chargeStage settings (sessionCharge settings sessionId request), .select)
      | some row => some (.updatingAgent row, .select)
  | .updatingAgent read =>
      some (chargeStage settings (sessionCharge settings sessionId request),
        .updateAgent agentId read.agent (read.agent.addSession settings request))
  | .deducting =>
      let charge := sessionCharge settings sessionId request
      some (feeStage charge (table.account.deductCreditsUpTo charge.total).2,
        .deductCreditsUpTo sessionId charge.total)
  | .recordingFee charged =>
      let charge := sessionCharge settings sessionId request
      some (marginStage charge charged, .insertTransaction (feeRow settings charge charged))
  | .recordingMargin charged =>
      some (.closed,
        .insertTransaction (marginRow (sessionCharge settings sessionId request) charged))
  | .closed => none

def advanceClose (settings : VoiceSettings) (table : VoiceTable) (sessionId : Nat)
    (request : CloseRequest) : ClosePoint → Option (ClosePoint × Statement)
  | .arrived =>
      match table.sessions[sessionId]? with
      | none => some (.missing, .select)
      | some session => some (.found session.voiceAgentId .updatingSession, .select)
  | .missing => none
  | .found agentId stage =>
      (table.advanceStage settings sessionId agentId request stage).map
        (fun moved => (.found agentId moved.1, moved.2))

def advance (settings : VoiceSettings) (table : VoiceTable) :
    ServiceCall → Option (ServiceCall × Statement)
  | .opening request point =>
      (table.advanceOpen settings request point).map (fun moved => (.opening request moved.1, moved.2))
  | .closing sessionId request point =>
      (table.advanceClose settings sessionId request point).map
        (fun moved => (.closing sessionId request moved.1, moved.2))

def execute (settings : VoiceSettings) (table : VoiceTable) : Statement → VoiceTable
  | .select => table
  | .insertSession session => { table with sessions := table.sessions ++ [session] }
  | .updateSession sessionId request =>
      { table with
        sessions := table.sessions.modify sessionId
          (VoiceSession.finish settings request table.now) }
  | .updateAgent agentId read updated =>
      { table with agents := table.agents.modify agentId (AgentRow.overwrite read updated) }
  | .deductCreditsUpTo sessionId amount =>
      let deducted := table.account.deductCreditsUpTo amount
      { table with
        account := deducted.1
        charges := table.charges ++
          [{ sessionId := sessionId, asked := amount, taken := deducted.2 }] }
  | .insertTransaction transaction => { table with account := table.account.create transaction }

def act (settings : VoiceSettings) (table : VoiceTable) : ServiceAction → Option VoiceTable
  | .openSession request =>
      some { table with calls := table.calls ++ [.opening request .arrived] }
  | .closeSession sessionId request =>
      some { table with calls := table.calls ++ [.closing sessionId request .arrived] }
  | .proceed index =>
      match table.calls[index]? with
      | none => none
      | some call =>
          (table.advance settings call).map (fun moved =>
            { table.execute settings moved.2 with
              calls := table.calls.modify index (fun _ => moved.1) })
  | .tick elapsed => some { table with now := table.now + elapsed }
  | .accountMoves account =>
      if account.organization.plan = table.account.organization.plan then
        some { table with account := account }
      else none

/-- The rises and falls of the number of live sessions, counted. -/
def tally (table next : VoiceTable) : VoiceTable :=
  { next with
    entered := next.entered + (next.live - table.live)
    left := next.left + (table.live - next.live) }

def step (settings : VoiceSettings) (table : VoiceTable) (action : ServiceAction) :
    Option VoiceTable :=
  (table.act settings action).map table.tally

def Step (settings : VoiceSettings) (table : VoiceTable) (action : ServiceAction)
    (next : VoiceTable) : Prop :=
  table.step settings action = some next

/-! ### What a step does -/

variable {settings : VoiceSettings} {table next : VoiceTable} {action : ServiceAction}

theorem Step.functional (state : VoiceTable) (label : ServiceAction) (after other : VoiceTable)
    (taken : state.Step settings label after) (again : state.Step settings label other) :
    after = other := by
  cases taken.symm.trans again
  rfl

inductive Advances (settings : VoiceSettings) (table : VoiceTable) :
    ServiceCall → ServiceCall → Statement → Prop
  | begin {request : OpenRequest} (billed : settings.billingEnabled = true) :
      Advances settings table (.opening request .arrived)
        (.opening request (.checkingBalance table.now)) .select
  | insertUnbilled {request : OpenRequest} (unbilled : settings.billingEnabled = false) :
      Advances settings table (.opening request .arrived)
        (.opening request (.opened table.sessions.length)) (.insertSession (request.row table.now))
  | uncovered {request : OpenRequest} {began : Nat} (error : OpenError) :
      Advances settings table (.opening request (.checkingBalance began))
        (.opening request (.refused error)) .select
  | covered {request : OpenRequest} {began : Nat} :
      Advances settings table (.opening request (.checkingBalance began))
        (.opening request (.counting began)) .select
  | full {request : OpenRequest} {began : Nat} (error : OpenError) :
      Advances settings table (.opening request (.counting began))
        (.opening request (.refused error)) .select
  | count {request : OpenRequest} {began : Nat} :
      Advances settings table (.opening request (.counting began))
        (.opening request (.creating began
          { live := table.live, entered := table.entered, left := table.left })) .select
  | insert {request : OpenRequest} {began : Nat} {counted : LiveCount} :
      Advances settings table (.opening request (.creating began counted))
        (.opening request (.opened table.sessions.length)) (.insertSession (request.row began))
  | missing {sessionId : Nat} {request : CloseRequest} :
      Advances settings table (.closing sessionId request .arrived)
        (.closing sessionId request .missing) .select
  | find {sessionId : Nat} {request : CloseRequest} (agentId : Nat) :
      Advances settings table (.closing sessionId request .arrived)
        (.closing sessionId request (.found agentId .updatingSession)) .select
  | updateSession {sessionId agentId : Nat} {request : CloseRequest} :
      Advances settings table (.closing sessionId request (.found agentId .updatingSession))
        (.closing sessionId request (.found agentId .gettingAgent))
        (.updateSession sessionId request)
  | agentMissing {sessionId agentId : Nat} {request : CloseRequest}
      (absent : table.agents[agentId]? = none) :
      Advances settings table (.closing sessionId request (.found agentId .gettingAgent))
        (.closing sessionId request (.found agentId
          (chargeStage settings (sessionCharge settings sessionId request)))) .select
  | readAgent {sessionId agentId : Nat} {request : CloseRequest} {row : AgentRow}
      (known : table.agents[agentId]? = some row) :
      Advances settings table (.closing sessionId request (.found agentId .gettingAgent))
        (.closing sessionId request (.found agentId (.updatingAgent row))) .select
  | updateAgent {sessionId agentId : Nat} {request : CloseRequest} {read : AgentRow} :
      Advances settings table (.closing sessionId request (.found agentId (.updatingAgent read)))
        (.closing sessionId request (.found agentId
          (chargeStage settings (sessionCharge settings sessionId request))))
        (.updateAgent agentId read.agent (read.agent.addSession settings request))
  | deduct {sessionId agentId : Nat} {request : CloseRequest} (charged : ℚ) :
      Advances settings table (.closing sessionId request (.found agentId .deducting))
        (.closing sessionId request (.found agentId
          (feeStage (sessionCharge settings sessionId request) charged)))
        (.deductCreditsUpTo sessionId (sessionCharge settings sessionId request).total)
  | recordFee {sessionId agentId : Nat} {request : CloseRequest} {charged : ℚ}
      (transaction : CreditTransaction) :
      Advances settings table (.closing sessionId request (.found agentId (.recordingFee charged)))
        (.closing sessionId request (.found agentId
          (marginStage (sessionCharge settings sessionId request) charged)))
        (.insertTransaction transaction)
  | recordMargin {sessionId agentId : Nat} {request : CloseRequest} {charged : ℚ}
      (transaction : CreditTransaction) :
      Advances settings table
        (.closing sessionId request (.found agentId (.recordingMargin charged)))
        (.closing sessionId request (.found agentId .closed)) (.insertTransaction transaction)

theorem advances_open {request : OpenRequest} {point : OpenPoint} {moved : OpenPoint × Statement}
    (reached : table.advanceOpen settings request point = some moved) :
    table.Advances settings (.opening request point) (.opening request moved.1) moved.2 := by
  cases point with
  | arrived =>
      simp only [advanceOpen] at reached
      split at reached
      · rename_i billing
        cases reached
        exact .begin billing
      · rename_i billing
        cases reached
        exact .insertUnbilled (Bool.eq_false_iff.mpr billing)
  | checkingBalance began =>
      simp only [advanceOpen] at reached
      split at reached
      · cases reached
        exact .uncovered _
      · cases reached
        exact .covered
  | counting began =>
      simp only [advanceOpen] at reached
      split at reached
      · cases reached
        exact .full _
      · cases reached
        exact .count
  | creating began counted =>
      cases reached
      exact .insert
  | opened sessionId => cases reached
  | refused error => cases reached

theorem advances_stage {sessionId agentId : Nat} {request : CloseRequest} {stage : CloseStage}
    {moved : CloseStage × Statement}
    (reached : table.advanceStage settings sessionId agentId request stage = some moved) :
    table.Advances settings (.closing sessionId request (.found agentId stage))
      (.closing sessionId request (.found agentId moved.1)) moved.2 := by
  cases stage with
  | gettingAgent =>
      simp only [advanceStage] at reached
      split at reached
      · rename_i absent
        cases reached
        exact .agentMissing absent
      · rename_i row known
        cases reached
        exact .readAgent known
  | updatingSession =>
      cases reached
      exact .updateSession
  | updatingAgent read =>
      cases reached
      exact .updateAgent
  | deducting =>
      cases reached
      exact .deduct _
  | recordingFee charged =>
      cases reached
      exact .recordFee _
  | recordingMargin charged =>
      cases reached
      exact .recordMargin _
  | closed => cases reached

theorem advances {call after : ServiceCall} {statement : Statement}
    (moved : table.advance settings call = some (after, statement)) :
    table.Advances settings call after statement := by
  cases call with
  | opening request point =>
      obtain ⟨later, reached, same⟩ := Option.map_eq_some_iff.mp moved
      cases same
      exact advances_open reached
  | closing sessionId request point =>
      obtain ⟨later, reached, same⟩ := Option.map_eq_some_iff.mp moved
      cases same
      cases point with
      | arrived =>
          simp only [advanceClose] at reached
          split at reached
          · cases reached
            exact .missing
          · cases reached
            exact .find _
      | missing => cases reached
      | found agentId stage =>
          obtain ⟨further, staged, made⟩ := Option.map_eq_some_iff.mp reached
          cases made
          exact advances_stage staged

/-- Behind the counters a step is one of these. -/
inductive Acts (settings : VoiceSettings) (table : VoiceTable) :
    ServiceAction → VoiceTable → Prop
  | openSession (request : OpenRequest) :
      Acts settings table (.openSession request)
        { table with calls := table.calls ++ [.opening request .arrived] }
  | closeSession (sessionId : Nat) (request : CloseRequest) :
      Acts settings table (.closeSession sessionId request)
        { table with calls := table.calls ++ [.closing sessionId request .arrived] }
  | proceed {index : Nat} {call after : ServiceCall} {statement : Statement}
      (known : table.calls[index]? = some call)
      (moved : table.Advances settings call after statement) :
      Acts settings table (.proceed index)
        { table.execute settings statement with
          calls := table.calls.modify index (fun _ => after) }
  | tick (elapsed : Nat) : Acts settings table (.tick elapsed)
      { table with now := table.now + elapsed }
  | accountMoves {account : Account}
      (plan : account.organization.plan = table.account.organization.plan) :
      Acts settings table (.accountMoves account) { table with account := account }

theorem Step.acts (taken : table.Step settings action next) :
    ∃ acted, table.Acts settings action acted ∧ next = table.tally acted := by
  obtain ⟨acted, known, same⟩ := Option.map_eq_some_iff.mp taken
  refine ⟨acted, ?_, same.symm⟩
  cases action with
  | openSession request =>
      cases known
      exact .openSession request
  | closeSession sessionId request =>
      cases known
      exact .closeSession sessionId request
  | proceed index =>
      simp only [act] at known
      cases found : table.calls[index]? with
      | none =>
          rw [found] at known
          cases known
      | some call =>
          rw [found] at known
          obtain ⟨⟨after, statement⟩, moved, made⟩ := Option.map_eq_some_iff.mp known
          rw [← made]
          exact .proceed found (advances moved)
  | tick elapsed =>
      cases known
      exact .tick elapsed
  | accountMoves account =>
      simp only [act, Option.ite_none_right_eq_some] at known
      obtain ⟨plan, made⟩ := known
      cases made
      exact .accountMoves plan

/-! ### The charge of a call that is left alone -/

def ClosesWith (settings : VoiceSettings) (table : VoiceTable) (index : Nat)
    (account : Account) : Prop :=
  ∃ actions last, (∀ action ∈ actions, action = .proceed index) ∧
    Run (Step settings) table actions last ∧ last.account = account ∧
      ∃ sessionId request agentId,
        last.calls[index]? = some (.closing sessionId request (.found agentId .closed))

variable {index sessionId agentId : Nat} {request : CloseRequest}

theorem closesWith_of_closed
    (known : table.calls[index]? = some (.closing sessionId request (.found agentId .closed))) :
    table.ClosesWith settings index table.account :=
  ⟨[], table, fun _ none => absurd none List.not_mem_nil, .nil, rfl,
    sessionId, request, agentId, known⟩

theorem closesWith_of_stage {stage later : CloseStage} {statement : Statement} {account : Account}
    (known : table.calls[index]? = some (.closing sessionId request (.found agentId stage)))
    (moved : table.advanceStage settings sessionId agentId request stage =
      some (later, statement))
    (rest : ∀ next : VoiceTable, next.account = (table.execute settings statement).account →
      next.calls[index]? = some (.closing sessionId request (.found agentId later)) →
        next.ClosesWith settings index account) :
    table.ClosesWith settings index account := by
  have advanced : table.advance settings (.closing sessionId request (.found agentId stage)) =
      some (.closing sessionId request (.found agentId later), statement) := by
    simp only [advance, advanceClose, moved, Option.map_some]
  let reached : VoiceTable := table.tally
    { table.execute settings statement with
      calls := table.calls.modify index
        (fun _ => .closing sessionId request (.found agentId later)) }
  have taken : table.Step settings (.proceed index) reached := by
    simp only [Step, step, act, known, advanced, Option.map_some, reached]
  obtain ⟨actions, last, own, run, ended⟩ := rest reached rfl (get_modify_self _ known)
  refine ⟨.proceed index :: actions, last, ?_, run.cons taken, ended⟩
  intro action member
  rcases List.mem_cons.mp member with first | later
  · exact first
  · exact own action later

theorem closesWith_of_margin {charge : VoiceCharge} {charged : ℚ}
    (same : sessionCharge settings sessionId request = charge)
    (known : table.calls[index]? =
      some (.closing sessionId request (.found agentId (marginStage charge charged)))) :
    table.ClosesWith settings index
      (table.account.createIf (decide (0 < charged - min charge.feeCredits charged))
        (marginRow charge charged)) := by
  unfold marginStage at known
  split at known
  · rename_i positive
    rw [decide_eq_true positive]
    refine closesWith_of_stage known rfl ?_
    intro next account closed
    have ended : next.ClosesWith settings index next.account := closesWith_of_closed closed
    rw [account, same] at ended
    exact ended
  · rename_i nothing
    rw [decide_eq_false nothing]
    exact closesWith_of_closed known

theorem closesWith_of_fee {charge : VoiceCharge} {charged : ℚ}
    (same : sessionCharge settings sessionId request = charge)
    (known : table.calls[index]? =
      some (.closing sessionId request (.found agentId (feeStage charge charged)))) :
    table.ClosesWith settings index
      (if charged ≤ 0 then table.account
        else table.account.itemize settings.toBillingSettings charge charged) := by
  unfold feeStage at known
  split at known
  · rename_i drained
    rw [if_pos drained]
    exact closesWith_of_closed known
  · rename_i taken
    rw [if_neg taken]
    change table.ClosesWith settings index
      ((table.account.createIf (decide (0 < min charge.feeCredits charged))
        (feeRow settings charge charged)).createIf
          (decide (0 < charged - min charge.feeCredits charged)) (marginRow charge charged))
    split at known
    · rename_i positive
      rw [decide_eq_true positive]
      refine closesWith_of_stage known rfl ?_
      intro next account closed
      rw [same] at closed
      have ended := closesWith_of_margin same closed
      rw [account, same] at ended
      exact ended
    · rename_i nothing
      rw [decide_eq_false nothing]
      exact closesWith_of_margin same known

/-- Undisturbed, the statements of a close charge what `charge` charges. -/
theorem charge_alone (known : table.calls[index]? = some (.closing sessionId request
      (.found agentId (chargeStage settings (sessionCharge settings sessionId request))))) :
    table.ClosesWith settings index
      (table.account.charge settings.toBillingSettings
        (sessionCharge settings sessionId request)) := by
  unfold chargeStage at known
  split at known
  · rename_i asked
    unfold Account.charge
    rw [if_pos asked.1, if_neg (not_le.mpr asked.2)]
    refine closesWith_of_stage known rfl ?_
    intro next account closed
    have ended := closesWith_of_fee rfl closed
    rw [account] at ended
    exact ended
  · rename_i free
    have unchanged : table.account.charge settings.toBillingSettings
        (sessionCharge settings sessionId request) = table.account := by
      unfold Account.charge
      split
      · rename_i enabled
        rw [if_pos (not_lt.mp (fun positive => free ⟨enabled, positive⟩))]
      · rfl
    rw [unchanged]
    exact closesWith_of_closed known

end VoiceTable

/-! ### A small organization -/

def voicePrices : VoiceSettings :=
  { Billing.defaultSettings with voicePlatformFeeUsdPerMinute := 1 / 50 }

def freeAccount : Account where
  organization :=
    { plan := .free
      creditsGrantedBalance := 5000
      creditsPurchasedBalance := 0
      creditsPeriodStart := { year := 2026, month := 1, day := 1 } }
  transactions := []

def oneAgent : List VoiceAgent := [{ sessionCount := 0, totalCredits := 0, ownKeyCostUsd := 0 }]

def minuteCall : CloseRequest where
  usage :=
    { durationSec := 60
      costPerMinute := 1 / 10
      usesSystemKey := true
      ttsCostUsd := 0
      ttsUsesSystemKey := false
      extraCosts := [] }
  transcript := []
  endReason := "user_hangup"
  inputTokens := 0
  outputTokens := 0

theorem VoiceTable.charge_alone_minute :
    { VoiceTable.initial 0 [] oneAgent freeAccount with
        calls := [.closing 0 minuteCall (.found 0 (chargeStage voicePrices
          (sessionCharge voicePrices 0 minuteCall)))] }.ClosesWith voicePrices 0
      (freeAccount.charge voicePrices.toBillingSettings (sessionCharge voicePrices 0 minuteCall)) :=
  VoiceTable.charge_alone rfl

end Assemblix.Realtime
