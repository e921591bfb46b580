import Assemblix.Library.Run

/-
The execution row, the job queue and the runners of one execution.

An execution runs inline in the API process or as a queued job in a worker. The queue
keeps at most one job under an execution's id while that job is queued or in progress.
A worker that starts up scans for rows stuck in QUEUED or RUNNING and enqueues them
again. Marking a row as running does not look at the status it has.
-/

namespace Assemblix.Queue

open Library

inductive ExecutionStatus
  | queued
  | running
  | completed
  | error
  | failed
  deriving DecidableEq, Repr

def ExecutionStatus.isTerminal : ExecutionStatus → Bool
  | .queued => false
  | .running => false
  | .completed => true
  | .error => true
  | .failed => true

/-- Times are seconds; `created_at` is written in UTC and `started_at` in local time. -/
structure ExecutionRow where
  status : ExecutionStatus
  createdAt : Int
  startedAt : Option Int
  deriving DecidableEq, Repr

structure Settings where
  gracefulShutdownTimeoutSeconds : Int
  utcOffset : Int

namespace ExecutionRow

/-- `create_execution`: an inline run starts as RUNNING. -/
def createExecution (settings : Settings) (now : Int) : ExecutionRow :=
  { status := .running, createdAt := now, startedAt := some (now + settings.utcOffset) }

def createQueued (now : Int) : ExecutionRow :=
  { status := .queued, createdAt := now, startedAt := none }

/-- `started_at` is kept when it is set already. -/
def markRunning (settings : Settings) (now : Int) (row : ExecutionRow) : ExecutionRow :=
  { row with
    status := .running
    startedAt := some (row.startedAt.getD (now + settings.utcOffset)) }

def updateExecutionStatus (status : ExecutionStatus) (row : ExecutionRow) : ExecutionRow :=
  { row with status := status }

/-- The test of `find_resumable`. -/
def resumable (olderThanSeconds now : Int) (row : ExecutionRow) : Bool :=
  decide (row.status = .queued ∨ row.status = .running) &&
    match row.startedAt with
    | some startedAt => decide (startedAt < now - olderThanSeconds)
    | none => decide (row.createdAt < now - olderThanSeconds)

end ExecutionRow

/-! ### One execution and everyone who handles it -/

/-- How far the worker has come with the job it took: before the row is marked, while the
workflow runs, and after the final commit. -/
inductive WorkerPhase
  | picked
  | executing
  | finalized
  deriving DecidableEq, Repr

inductive Job
  | absent
  | queued
  | inProgress (phase : WorkerPhase)
  deriving DecidableEq, Repr

/-- `inserting`: the row is written but not committed. `scanned`: orphan scans that have read
the row and not enqueued it yet. `charges`: committed deductions. -/
structure Slot where
  row : Option ExecutionRow
  inserting : Bool
  job : Job
  inline : Bool
  scanned : Nat
  charges : Nat
  deriving DecidableEq, Repr

def Slot.fresh : Slot :=
  { row := none, inserting := false, job := .absent, inline := false, scanned := 0, charges := 0 }

/-- `enqueue_job` with the execution's id as job id. -/
def Job.enqueue : Job → Job
  | .absent => .queued
  | job => job

inductive Action
  | startInline
  | enqueueExecution
  | commitInsert
  | rollbackInsert
  | take
  | markRunning
  | finalize (status : ExecutionStatus) (charged : Bool)
  | finishJob
  | abortJob
  | crashWorker
  | finalizeInline (status : ExecutionStatus) (charged : Bool)
  | crashInline
  | scanRead
  | scanEnqueue
  deriving DecidableEq, Repr

def charge (charged : Bool) (charges : Nat) : Nat := if charged then charges + 1 else charges

/-- One step of one execution; `none` when the step is not possible. Deduction and terminal
status are committed together. A worker that crashes gives its job back to the queue. -/
def Slot.step (settings : Settings) (now : Int) (slot : Slot) : Action → Option Slot
  | .startInline =>
      if slot = Slot.fresh then
        some { slot with row := some (.createExecution settings now), inline := true }
      else none
  | .enqueueExecution =>
      if slot = Slot.fresh then some { slot with inserting := true, job := slot.job.enqueue }
      else none
  | .commitInsert =>
      if slot.inserting then
        some { slot with inserting := false, row := some (.createQueued now) }
      else none
  | .rollbackInsert => if slot.inserting then some { slot with inserting := false } else none
  | .take =>
      if slot.job = .queued then some { slot with job := .inProgress .picked } else none
  | .markRunning =>
      match slot.job, slot.row with
      | .inProgress .picked, some row =>
          some { slot with row := some (row.markRunning settings now), job := .inProgress .executing }
      | _, _ => none
  | .finalize status charged =>
      match slot.job, slot.row with
      | .inProgress .executing, some row =>
          if status.isTerminal then
            some
              { slot with
                row := some (row.updateExecutionStatus status)
                job := .inProgress .finalized
                charges := charge charged slot.charges }
          else none
      | _, _ => none
  | .finishJob =>
      if slot.job = .inProgress .finalized then some { slot with job := .absent } else none
  | .abortJob =>
      if slot.job = .inProgress .picked ∨ slot.job = .inProgress .executing then
        some { slot with job := .absent }
      else none
  | .crashWorker =>
      match slot.job with
      | .inProgress _ => some { slot with job := .queued }
      | _ => none
  | .finalizeInline status charged =>
      match slot.row with
      | some row =>
          if slot.inline ∧ status.isTerminal then
            some
              { slot with
                row := some (row.updateExecutionStatus status)
                inline := false
                charges := charge charged slot.charges }
          else none
      | none => none
  | .crashInline => if slot.inline then some { slot with inline := false } else none
  | .scanRead =>
      match slot.row with
      | some row =>
          if row.resumable (settings.gracefulShutdownTimeoutSeconds * 2) now then
            some { slot with scanned := slot.scanned + 1 }
          else none
      | none => none
  | .scanEnqueue =>
      if 0 < slot.scanned then
        some { slot with scanned := slot.scanned - 1, job := slot.job.enqueue }
      else none

/-! ### All executions -/

structure System (Id : Type) where
  now : Int
  slots : Id → Slot

inductive Label (Id : Type)
  | tick
  | act (execution : Id) (action : Action)

section Steps

variable {Id : Type}

def System.initial (now : Int) : System Id := { now := now, slots := fun _ => Slot.fresh }

variable [DecidableEq Id]

def System.step (settings : Settings) (system : System Id) : Label Id → Option (System Id)
  | .tick => some { system with now := system.now + 1 }
  | .act execution action =>
      ((system.slots execution).step settings system.now action).map (fun slot =>
        { system with slots := fun other => if other = execution then slot else system.slots other })

def System.Step (settings : Settings) (system : System Id) (label : Label Id) (next : System Id) :
    Prop :=
  system.step settings label = some next

end Steps

/-! ### Exactly once -/

def Slot.runners (slot : Slot) : Nat :=
  (if slot.inline then 1 else 0) +
    (if slot.job = .inProgress .picked ∨ slot.job = .inProgress .executing then 1 else 0)

def Slot.terminal (slot : Slot) : Bool := slot.row.any (fun row => row.status.isTerminal)

/-- The scan creates a job only for an execution that is neither running inline nor finished,
and no worker crashes between its final commit and the end of its job. -/
def Slot.Careful (slot : Slot) : Action → Prop
  | .scanEnqueue => slot.job = .absent → slot.inline = false ∧ slot.terminal = false
  | .crashWorker => slot.job ≠ .inProgress .finalized
  | _ => True

instance (slot : Slot) (action : Action) : Decidable (slot.Careful action) := by
  cases action <;> unfold Slot.Careful <;> infer_instance

def System.Careful {Id : Type} (system : System Id) : Label Id → Prop
  | .tick => True
  | .act execution action => (system.slots execution).Careful action

instance {Id : Type} (system : System Id) (label : Label Id) : Decidable (system.Careful label) := by
  cases label <;> unfold System.Careful <;> infer_instance

def System.CarefulStep {Id : Type} [DecidableEq Id] (settings : Settings) (system : System Id)
    (label : Label Id) (next : System Id) : Prop :=
  system.Step settings label next ∧ system.Careful label

/-- Who handles an execution, by the status of its row. -/
structure Slot.Owned (slot : Slot) : Prop where
  inlineAlone : slot.inline = true → slot.job = .absent
  inlineOpen : slot.inline = true → slot.terminal = false
  terminalDone : slot.terminal = true → slot.job = .absent ∨ slot.job = .inProgress .finalized
  finalized : slot.job = .inProgress .finalized → slot.terminal = true
  chargedTerminal : 0 < slot.charges → slot.terminal = true
  chargedOnce : slot.charges ≤ 1
  uncommitted : slot.inserting = true → slot.row = none

theorem Slot.fresh_owned : Slot.fresh.Owned where
  inlineAlone := by intro inline; cases inline
  inlineOpen := by intro inline; cases inline
  terminalDone := by intro terminal; cases terminal
  finalized := by intro job; cases job
  chargedTerminal := by intro charged; cases charged
  chargedOnce := Nat.zero_le 1
  uncommitted := fun _ => rfl

theorem Slot.Owned.uncharged {slot : Slot} (owned : slot.Owned) (running : slot.terminal = false) :
    slot.charges = 0 := by
  by_contra charged
  have terminal := owned.chargedTerminal (Nat.pos_of_ne_zero charged)
  rw [running] at terminal
  cases terminal

theorem charge_le_one (charged : Bool) : charge charged 0 ≤ 1 := by
  cases charged <;> decide

theorem Slot.Owned.runners_le_one {slot : Slot} (owned : slot.Owned) : slot.runners ≤ 1 := by
  unfold Slot.runners
  cases inline : slot.inline with
  | true => simp [owned.inlineAlone inline]
  | false =>
      simp only [Bool.false_eq_true, if_false, Nat.zero_add]
      split <;> omega

private theorem Slot.Owned.finalize {slot : Slot} {row : ExecutionRow} (owned : slot.Owned)
    (found : slot.row = some row) (running : slot.terminal = false) {status : ExecutionStatus}
    (ends : status.isTerminal = true) (charged : Bool) (job : Job)
    (left : job = .absent ∨ job = .inProgress .finalized) :
    Slot.Owned
      { slot with
        row := some (row.updateExecutionStatus status)
        job := job
        inline := false
        charges := charge charged slot.charges } where
  inlineAlone := by intro inline; cases inline
  inlineOpen := by intro inline; cases inline
  terminalDone := fun _ => left
  finalized := fun _ => ends
  chargedTerminal := fun _ => ends
  chargedOnce := by
    rw [owned.uncharged running]
    exact charge_le_one charged
  uncommitted := by
    intro inserting
    rw [owned.uncommitted inserting] at found
    cases found

private theorem Slot.Owned.withJob {slot : Slot} (owned : slot.Owned) (job : Job)
    (alone : slot.inline = true → job = .absent)
    (done : slot.terminal = true → job = .absent ∨ job = .inProgress .finalized)
    (ends : job = .inProgress .finalized → slot.terminal = true) (scanned : Nat) :
    Slot.Owned { slot with job := job, scanned := scanned } where
  inlineAlone := alone
  inlineOpen := owned.inlineOpen
  terminalDone := done
  finalized := ends
  chargedTerminal := owned.chargedTerminal
  chargedOnce := owned.chargedOnce
  uncommitted := owned.uncommitted

private theorem Slot.Owned.handOut {slot : Slot} (owned : slot.Owned) (remote : slot.inline = false)
    (running : slot.terminal = false) {job : Job} (unfinished : job ≠ .inProgress .finalized)
    (scanned : Nat) : Slot.Owned { slot with job := job, scanned := scanned } := by
  apply owned.withJob
  · intro inline
    rw [remote] at inline
    cases inline
  · intro terminal
    rw [running] at terminal
    cases terminal
  · intro finalized
    exact absurd finalized unfinished

private theorem Slot.Owned.release {slot : Slot} (owned : slot.Owned) :
    Slot.Owned { slot with job := .absent } := by
  apply owned.withJob
  · exact fun _ => rfl
  · exact fun _ => Or.inl rfl
  · intro impossible
    cases impossible

/-- Who handles an execution that has not ended. -/
private theorem Slot.Owned.of_open {slot : Slot} (running : slot.terminal = false)
    (uncharged : slot.charges = 0) (unfinished : slot.job ≠ .inProgress .finalized)
    (alone : slot.inline = true → slot.job = .absent)
    (uncommitted : slot.inserting = true → slot.row = none) : slot.Owned where
  inlineAlone := alone
  inlineOpen := fun _ => running
  terminalDone := by
    intro terminal
    rw [running] at terminal
    cases terminal
  finalized := fun finalized => absurd finalized unfinished
  chargedTerminal := by
    intro charged
    omega
  chargedOnce := by omega
  uncommitted := uncommitted

private theorem Slot.Owned.not_terminal {slot : Slot} (owned : slot.Owned)
    (busy : slot.job ≠ .absent) (unfinished : slot.job ≠ .inProgress .finalized) :
    slot.terminal = false := by
  cases terminal : slot.terminal with
  | false => rfl
  | true =>
      rcases owned.terminalDone terminal with absent | finalized
      · exact absurd absent busy
      · exact absurd finalized unfinished

private theorem Slot.Owned.not_inline {slot : Slot} (owned : slot.Owned)
    (busy : slot.job ≠ .absent) : slot.inline = false := by
  cases inline : slot.inline with
  | false => rfl
  | true => exact absurd (owned.inlineAlone inline) busy

/-- The step keeps the slot owned, and an execution that has ended stays so. -/
def Slot.Follows (slot next : Slot) : Prop :=
  next.Owned ∧ (slot.terminal = true → next.terminal = true)

section Actions

variable {settings : Settings} {now : Int} {slot next : Slot}

private theorem Slot.Follows.of_open (running : slot.terminal = false) (owned : next.Owned) :
    slot.Follows next := by
  refine ⟨owned, ?_⟩
  intro terminal
  rw [running] at terminal
  cases terminal

private theorem startInline_follows (taken : slot.step settings now .startInline = some next) :
    slot.Follows next := by
  obtain ⟨fresh, taken⟩ := Option.ite_none_right_eq_some.mp taken
  subst fresh
  cases taken
  apply Slot.Follows.of_open rfl
  apply Slot.Owned.of_open rfl rfl
  · intro finalized
    cases finalized
  · exact fun _ => rfl
  · intro inserting
    cases inserting

private theorem enqueueExecution_follows
    (taken : slot.step settings now .enqueueExecution = some next) : slot.Follows next := by
  obtain ⟨fresh, taken⟩ := Option.ite_none_right_eq_some.mp taken
  subst fresh
  cases taken
  apply Slot.Follows.of_open rfl
  apply Slot.Owned.of_open rfl rfl
  · intro finalized
    cases finalized
  · intro inline
    cases inline
  · exact fun _ => rfl

variable (owned : slot.Owned)
include owned

private theorem Slot.Owned.commitInsert (taken : slot.step settings now .commitInsert = some next) :
    slot.Follows next := by
  obtain ⟨inserting, taken⟩ := Option.ite_none_right_eq_some.mp taken
  cases taken
  have noRow := owned.uncommitted inserting
  have before : slot.terminal = false := by rw [Slot.terminal, noRow]; rfl
  apply Slot.Follows.of_open before
  apply Slot.Owned.of_open
  · rfl
  · exact owned.uncharged before
  · intro finalized
    rw [owned.finalized finalized] at before
    cases before
  · exact owned.inlineAlone
  · intro inserting
    cases inserting

private theorem Slot.Owned.markRunning (taken : slot.step settings now .markRunning = some next) :
    slot.Follows next := by
  simp only [Slot.step] at taken
  split at taken
  case h_2 => cases taken
  case h_1 row picked found =>
    cases taken
    have running := owned.not_terminal (by simp [picked]) (by simp [picked])
    have remote := owned.not_inline (by simp [picked])
    apply Slot.Follows.of_open running
    apply Slot.Owned.of_open
    · rfl
    · exact owned.uncharged running
    · intro finalized
      cases finalized
    · intro inline
      rw [remote] at inline
      cases inline
    · intro inserting
      rw [owned.uncommitted inserting] at found
      cases found

private theorem Slot.Owned.finalizeJob {status : ExecutionStatus} {charged : Bool}
    (taken : slot.step settings now (.finalize status charged) = some next) :
    slot.Follows next := by
  simp only [Slot.step] at taken
  split at taken
  case h_2 => cases taken
  case h_1 row executing found =>
    split at taken
    case isFalse => cases taken
    case isTrue ends =>
      cases taken
      have running := owned.not_terminal (by simp [executing]) (by simp [executing])
      have remote := owned.not_inline (by simp [executing])
      have final := owned.finalize found running ends charged (.inProgress .finalized)
        (Or.inr rfl)
      rw [← remote] at final
      exact ⟨final, fun _ => ends⟩

private theorem Slot.Owned.finalizeInline {status : ExecutionStatus} {charged : Bool}
    (taken : slot.step settings now (.finalizeInline status charged) = some next) :
    slot.Follows next := by
  simp only [Slot.step] at taken
  split at taken
  case h_2 => cases taken
  case h_1 row found =>
    split at taken
    case isFalse => cases taken
    case isTrue both =>
      cases taken
      have absent := owned.inlineAlone both.1
      have final := owned.finalize found (owned.inlineOpen both.1) both.2 charged .absent
        (Or.inl rfl)
      rw [← absent] at final
      exact ⟨final, fun _ => both.2⟩

private theorem Slot.Owned.crashWorker (careful : slot.Careful .crashWorker)
    (taken : slot.step settings now .crashWorker = some next) : slot.Follows next := by
  simp only [Slot.step] at taken
  split at taken
  case h_2 => cases taken
  case h_1 phase inProgress =>
    cases taken
    have running := owned.not_terminal (by simp [inProgress]) careful
    have remote := owned.not_inline (by simp [inProgress])
    refine ⟨owned.handOut remote running ?_ slot.scanned, id⟩
    intro finalized
    cases finalized

private theorem Slot.Owned.scanRead (taken : slot.step settings now .scanRead = some next) :
    slot.Follows next := by
  simp only [Slot.step] at taken
  split at taken
  case h_2 => cases taken
  case h_1 row found =>
    split at taken
    case isFalse => cases taken
    case isTrue stale =>
      cases taken
      exact ⟨owned.withJob slot.job owned.inlineAlone owned.terminalDone owned.finalized _, id⟩

private theorem Slot.Owned.scanEnqueue (careful : slot.Careful .scanEnqueue)
    (taken : slot.step settings now .scanEnqueue = some next) : slot.Follows next := by
  obtain ⟨pending, taken⟩ := Option.ite_none_right_eq_some.mp taken
  cases taken
  refine ⟨?_, id⟩
  cases job : slot.job with
  | absent =>
      obtain ⟨remote, running⟩ := careful job
      apply owned.handOut remote running
      intro finalized
      cases finalized
  | queued | inProgress =>
      have kept := owned.withJob slot.job owned.inlineAlone owned.terminalDone owned.finalized
        (slot.scanned - 1)
      rw [job] at kept
      exact kept

theorem Slot.Owned.step {action : Action} (careful : slot.Careful action)
    (taken : slot.step settings now action = some next) : slot.Follows next := by
  cases action with
  | startInline => exact startInline_follows taken
  | enqueueExecution => exact enqueueExecution_follows taken
  | commitInsert => exact owned.commitInsert taken
  | rollbackInsert =>
      obtain ⟨inserting, taken⟩ := Option.ite_none_right_eq_some.mp taken
      cases taken
      refine ⟨?_, id⟩
      exact { owned with uncommitted := fun _ => owned.uncommitted inserting }
  | take =>
      obtain ⟨queued, taken⟩ := Option.ite_none_right_eq_some.mp taken
      cases taken
      have running := owned.not_terminal (by simp [queued]) (by simp [queued])
      have remote := owned.not_inline (by simp [queued])
      refine ⟨owned.handOut remote running ?_ slot.scanned, id⟩
      intro finalized
      cases finalized
  | markRunning => exact owned.markRunning taken
  | finalize status charged => exact owned.finalizeJob taken
  | finishJob | abortJob =>
      obtain ⟨_, taken⟩ := Option.ite_none_right_eq_some.mp taken
      cases taken
      exact ⟨owned.release, id⟩
  | crashWorker => exact owned.crashWorker careful taken
  | finalizeInline status charged => exact owned.finalizeInline taken
  | crashInline =>
      obtain ⟨inline, taken⟩ := Option.ite_none_right_eq_some.mp taken
      cases taken
      refine ⟨?_, id⟩
      exact
        { owned with
          inlineAlone := fun impossible => by cases impossible
          inlineOpen := fun impossible => by cases impossible }
  | scanRead => exact owned.scanRead taken
  | scanEnqueue => exact owned.scanEnqueue careful taken

end Actions

section Runs

variable {Id : Type} [DecidableEq Id]

theorem System.CarefulStep.owned {settings : Settings} {system next : System Id} {label : Label Id}
    (taken : system.CarefulStep settings label next)
    (owned : ∀ execution, (system.slots execution).Owned) (execution : Id) :
    (next.slots execution).Owned ∧
      ((system.slots execution).terminal = true → (next.slots execution).terminal = true) := by
  obtain ⟨stepped, careful⟩ := taken
  cases label with
  | tick =>
      cases stepped
      exact ⟨owned execution, id⟩
  | act acted action =>
      simp only [System.Step, System.step, Option.map_eq_some_iff] at stepped
      obtain ⟨slot, moved, rfl⟩ := stepped
      by_cases same : execution = acted
      · subst same
        simp only [if_pos]
        exact (owned execution).step careful moved
      · simp only [if_neg same]
        exact ⟨owned execution, id⟩

theorem run_owned {settings : Settings} {now : Int} {labels : List (Label Id)} {last : System Id}
    (run : Run (System.CarefulStep settings) (System.initial now) labels last) :
    ∀ execution, (last.slots execution).Owned :=
  run.invariant (fun system => ∀ execution, (system.slots execution).Owned) _
    (fun _ => Slot.fresh_owned)
    (fun _ _ _ owned taken execution => (taken.owned owned execution).1)

/-- With careful scans and no crash between the final commit and the end of the job, every
execution has one runner at a time, is charged at most once and never leaves a terminal status. -/
theorem executed_exactly_once (settings : Settings) (now : Int) (labels : List (Label Id))
    (last : System Id) (run : Run (System.CarefulStep settings) (System.initial now) labels last) :
    (∀ execution, (last.slots execution).runners ≤ 1 ∧ (last.slots execution).charges ≤ 1) ∧
    ∀ label next, last.CarefulStep settings label next →
      ∀ execution, (last.slots execution).terminal = true →
        (next.slots execution).terminal = true := by
  have owned := run_owned run
  constructor
  · intro execution
    exact ⟨(owned execution).runners_le_one, (owned execution).chargedOnce⟩
  · intro label next taken execution
    exact (taken.owned owned execution).2

end Runs

/-! A job whose worker crashes while the workflow runs is redelivered and charged once. -/

def redeliveredJob : List (Label String) :=
  [.act "e" .enqueueExecution, .act "e" .commitInsert, .act "e" .take, .act "e" .markRunning,
    .act "e" .crashWorker, .act "e" .take, .act "e" .markRunning,
    .act "e" (.finalize .completed true), .act "e" .finishJob]

theorem executed_exactly_once_redelivered :
    ∃ last : System String,
      Run (System.CarefulStep ⟨30, 0⟩) (System.initial 0) redeliveredJob last ∧
      (∀ execution, (last.slots execution).runners ≤ 1 ∧ (last.slots execution).charges ≤ 1) ∧
      ∀ label next, last.CarefulStep ⟨30, 0⟩ label next →
        ∀ execution, (last.slots execution).terminal = true →
          (next.slots execution).terminal = true := by
  obtain ⟨last, run, -⟩ := Run.of_guardedStep (System.step ⟨30, 0⟩) System.Careful
    (System.initial 0) redeliveredJob (fun last => (last.slots "e").charges) 1 (by decide)
  exact ⟨last, run, executed_exactly_once ⟨30, 0⟩ 0 redeliveredJob last run⟩

/-! Two ways to break it: an inline run of more than a minute meets the startup of a worker, and
a worker crashes between its final commit and the end of its job. -/

def scannedInlineRun : List (Label String) :=
  .act "e" .startInline :: List.replicate 61 .tick ++
    [.act "e" .scanRead, .act "e" .scanEnqueue, .act "e" .take, .act "e" .markRunning]

def redeliveredAfterCommit : List (Label String) :=
  [.act "e" .enqueueExecution, .act "e" .commitInsert, .act "e" .take, .act "e" .markRunning,
    .act "e" (.finalize .completed true), .act "e" .crashWorker, .act "e" .take]

/-- Two runners at once; a terminal row moved back to running; two charges. -/
theorem executed_twice :
    (∃ last : System String, Run (System.Step ⟨30, 0⟩) (System.initial 0) scannedInlineRun last ∧
      (last.slots "e").runners = 2) ∧
    (∃ last next : System String,
      Run (System.Step ⟨30, 0⟩) (System.initial 0) redeliveredAfterCommit last ∧
      last.Step ⟨30, 0⟩ (.act "e" .markRunning) next ∧
      (last.slots "e").terminal = true ∧ (next.slots "e").terminal = false) ∧
    (∃ last : System String,
      Run (System.Step ⟨30, 0⟩) (System.initial 0)
        (redeliveredAfterCommit ++ [.act "e" .markRunning, .act "e" (.finalize .completed true)])
        last ∧
      (last.slots "e").charges = 2) := by
  constructor
  · obtain ⟨last, run, same⟩ := Run.of_foldlM_map (System.step ⟨30, 0⟩) (System.initial 0)
      scannedInlineRun (fun last => last.slots "e")
      { row := some ⟨.running, 0, some 0⟩, inserting := false, job := .inProgress .executing
        inline := true, scanned := 0, charges := 0 } (by decide +kernel)
    exists last
    rw [same]
    exact ⟨run, rfl⟩
  constructor
  · obtain ⟨last, run, same⟩ := Run.of_foldlM_map (System.step ⟨30, 0⟩) (System.initial 0)
      redeliveredAfterCommit (fun last => last.slots "e")
      { row := some ⟨.completed, 0, some 0⟩, inserting := false, job := .inProgress .picked
        inline := false, scanned := 0, charges := 1 } (by decide)
    cases step : last.step ⟨30, 0⟩ (.act "e" .markRunning) with
    | none =>
        simp only [System.step, same, Option.map_eq_none_iff] at step
        cases step
    | some next =>
        exists last, next
        have moved := step
        simp only [System.step, same, Option.map_eq_some_iff] at moved
        obtain ⟨slot, marked, rfl⟩ := moved
        cases marked
        rw [same]
        exact ⟨run, step, rfl, rfl⟩
  · obtain ⟨last, run, same⟩ := Run.of_foldlM_map (System.step ⟨30, 0⟩) (System.initial 0)
      (redeliveredAfterCommit ++ [.act "e" .markRunning, .act "e" (.finalize .completed true)])
      (fun last => last.slots "e")
      { row := some ⟨.completed, 0, some 0⟩, inserting := false, job := .inProgress .finalized
        inline := false, scanned := 0, charges := 2 } (by decide)
    exists last
    rw [same]
    exact ⟨run, rfl⟩

end Assemblix.Queue
