import Assemblix.Library.Run
import Assemblix.Sessions.Database

/-
How the outcome of a run reaches its callers, and when its writes are committed.

A run holds one session of its own and commits it last. A run in the API process hands its
result to a future before that commit; a streamed run publishes its terminal event inside
finalization or the error handler; a stored row is read from other sessions, which see
committed rows only. Commits may fail, and every task may be interrupted by another one
wherever it waits.
-/

namespace Assemblix

open Library

/-- What a finished run writes to its chat session; a failed run writes nothing. -/
structure Turn where
  sessionId : Option String
  state : Data
  messages : List ChatMessage

def Turn.write (session : ChatSession) (turn : Turn) : ChatSession :=
  { session with
    currentState := session.currentState.merge turn.state
    messages := session.messages ++ turn.messages
    messageCount := session.messageCount + turn.messages.length }

/-- In the API process with a future, there without one (debug streams), or in a worker. -/
inductive RunMode
  | inline
  | detached
  | queued
  deriving DecidableEq, Repr

/-- `flushed`: the final status and all writes are flushed. `returned`: `execute` has returned.
`ended`: the last commit is behind the task. -/
inductive TaskPhase
  | absent
  | working
  | flushed
  | returned
  | ended (committed : Bool)
  deriving DecidableEq, Repr

/-- `future`: the result future is set. `event`: the terminal event is published. `answered`: a
caller has been given the terminal outcome. -/
structure RunTask where
  phase : TaskPhase
  future : Bool
  event : Bool
  answered : Bool
  deriving DecidableEq, Repr

def RunTask.fresh : RunTask :=
  { phase := .absent, future := false, event := false, answered := false }

inductive TaskAction
  | start
  | flush
  | emit
  | returns
  | escapes
  | settle
  | commit (accepted : Bool)
  | answerInline
  | receiveEvent
  | poll
  deriving DecidableEq, Repr

namespace RunTask

def committed (task : RunTask) : Bool := decide (task.phase = .ended true)

def committing (mode : RunMode) (task : RunTask) : Bool :=
  decide (task.phase = .returned) && (!decide (mode = .inline) || task.future)

def step (mode : RunMode) (streaming : Bool) (task : RunTask) : TaskAction → Option RunTask
  | .start => if task.phase = .absent then some { task with phase := .working } else none
  | .flush => if task.phase = .working then some { task with phase := .flushed } else none
  | .emit =>
      if task.phase = .flushed ∧ streaming = true then some { task with event := true } else none
  | .returns =>
      if task.phase = .flushed ∧ (streaming = true → task.event = true) then
        some { task with phase := .returned }
      else none
  | .escapes =>
      if task.phase = .working ∨ task.phase = .flushed then
        some { task with phase := .ended false }
      else none
  | .settle =>
      if task.phase = .returned ∧ mode = .inline then some { task with future := true } else none
  | .commit accepted =>
      if task.committing mode then some { task with phase := .ended accepted } else none
  | .answerInline => if task.future then some { task with answered := true } else none
  | .receiveEvent => if task.event then some { task with answered := true } else none
  | .poll => if task.committed then some { task with answered := true } else none

end RunTask

/-! ### All runs and the sessions they write -/

structure Plan (Id : Type) where
  mode : Id → RunMode
  streaming : Id → Bool
  turn : Id → Turn
  stored : String → ChatSession

/-- What a request has loaded, and the runs on its session that had been answered when it was
sent. -/
structure Load (Id : Type) where
  sessionId : String
  session : ChatSession
  answered : Id → Bool

def Load.Includes {Id : Type} (plan : Plan Id) (load : Load Id) (run : Id) : Prop :=
  ∃ earlier later, load.session =
    (earlier ++ plan.turn run :: later).foldl Turn.write (plan.stored load.sessionId)

/-- `log` lists the committed runs, oldest first. -/
structure Service (Id : Type) where
  tasks : Id → RunTask
  log : List Id
  loads : List (Load Id)

inductive ServiceLabel (Id : Type)
  | act (run : Id) (action : TaskAction)
  | load (sessionId : String)

namespace Service

section

variable {Id : Type} (plan : Plan Id)

def initial : Service Id := { tasks := fun _ => .fresh, log := [], loads := [] }

def turnsOn (sessionId : String) (log : List Id) : List Turn :=
  (log.map plan.turn).filter (fun turn => decide (turn.sessionId = some sessionId))

def session (service : Service Id) (sessionId : String) : ChatSession :=
  (turnsOn plan sessionId service.log).foldl Turn.write (plan.stored sessionId)

def commits (service : Service Id) (run : Id) : TaskAction → Bool
  | .commit accepted => accepted && (service.tasks run).committing (plan.mode run)
  | _ => false

def loadSession (service : Service Id) (sessionId : String) : Load Id :=
  { sessionId := sessionId
    session := service.session plan sessionId
    answered := fun run =>
      (service.tasks run).answered && decide ((plan.turn run).sessionId = some sessionId) }

variable [DecidableEq Id]

def step (service : Service Id) : ServiceLabel Id → Option (Service Id)
  | .act run action =>
      ((service.tasks run).step (plan.mode run) (plan.streaming run) action).map (fun task =>
        { service with
          tasks := Function.update service.tasks run task
          log := if service.commits plan run action then service.log ++ [run] else service.log })
  | .load sessionId =>
      some { service with loads := service.loads ++ [service.loadSession plan sessionId] }

def Step (service : Service Id) (label : ServiceLabel Id) (next : Service Id) : Prop :=
  service.step plan label = some next

structure Durable (service : Service Id) : Prop where
  committed : ∀ run, (service.tasks run).answered = true → (service.tasks run).committed = true
  loaded : ∀ load ∈ service.loads, ∀ run, load.answered run = true → load.Includes plan run

def DurableStep (service : Service Id) (label : ServiceLabel Id) (next : Service Id) : Prop :=
  service.Step plan label next ∧ next.Durable plan

def Ordered (service : Service Id) : ServiceLabel Id → Prop
  | .act run .answerInline => (service.tasks run).committed = true
  | .act run .receiveEvent => (service.tasks run).committed = true
  | _ => True

def OrderedStep (service : Service Id) (label : ServiceLabel Id) (next : Service Id) : Prop :=
  service.Step plan label next ∧ service.Ordered label

end

/-! ### One task -/

variable {mode : RunMode} {streaming : Bool} {task next : RunTask} {action : TaskAction}

section

variable (taken : task.step mode streaming action = some next)
include taken

theorem task_committed :
    next.committed = true ↔
      task.committed = true ∨ (action = .commit true ∧ task.committing mode = true) := by
  unfold RunTask.committed
  cases action with
  | commit accepted =>
      obtain ⟨committing, taken⟩ := Option.ite_none_right_eq_some.mp taken
      cases taken
      have returned : task.phase = .returned := by
        unfold RunTask.committing at committing
        exact of_decide_eq_true (Bool.and_eq_true_iff.mp committing).1
      rw [returned]
      cases accepted <;> simp [committing]
  | settle | answerInline | receiveEvent | poll | emit =>
      -- these leave the phase alone
      obtain ⟨_, taken⟩ := Option.ite_none_right_eq_some.mp taken
      cases taken
      simp
  | start =>
      obtain ⟨absent, taken⟩ := Option.ite_none_right_eq_some.mp taken
      cases taken
      simp [absent]
  | flush =>
      obtain ⟨working, taken⟩ := Option.ite_none_right_eq_some.mp taken
      cases taken
      simp [working]
  | returns =>
      obtain ⟨flushed, taken⟩ := Option.ite_none_right_eq_some.mp taken
      cases taken
      simp [flushed.1]
  | escapes =>
      obtain ⟨running, taken⟩ := Option.ite_none_right_eq_some.mp taken
      cases taken
      rcases running with working | flushed
      · simp [working]
      · simp [flushed]

theorem task_answered (answered : next.answered = true) :
    task.answered = true ∨ action = .answerInline ∨ action = .receiveEvent ∨
      (action = .poll ∧ task.committed = true) := by
  cases action with
  | answerInline => exact .inr (.inl rfl)
  | receiveEvent => exact .inr (.inr (.inl rfl))
  | poll =>
      simp only [RunTask.step] at taken
      split at taken
      case isFalse => cases taken
      case isTrue committed => exact .inr (.inr (.inr ⟨rfl, committed⟩))
  | _ =>
      left
      obtain ⟨_, taken⟩ := Option.ite_none_right_eq_some.mp taken
      cases taken
      exact answered

theorem task_given (gives : action = .answerInline ∨ action = .receiveEvent) :
    next.answered = true ∧ next.committed = task.committed := by
  rcases gives with rfl | rfl
  all_goals
    obtain ⟨_, taken⟩ := Option.ite_none_right_eq_some.mp taken
    cases taken
    exact ⟨rfl, rfl⟩

end

/-! ### All runs -/

section

variable {Id : Type} {plan : Plan Id} {service after : Service Id}
  {label : ServiceLabel Id}

def Logged (service : Service Id) : Prop :=
  ∀ run, run ∈ service.log ↔ (service.tasks run).committed = true

theorem commits_iff {run : Id} {action : TaskAction} :
    service.commits plan run action = true ↔
      action = .commit true ∧ (service.tasks run).committing (plan.mode run) = true := by
  unfold commits
  cases action with
  | commit accepted => cases accepted <;> simp
  | _ => simp

theorem loadSession_includes (logged : service.Logged) (durable : service.Durable plan)
    (sessionId : String) (run : Id)
    (answered : (service.loadSession plan sessionId).answered run = true) :
    (service.loadSession plan sessionId).Includes plan run := by
  obtain ⟨given, onSession⟩ := Bool.and_eq_true_iff.mp answered
  have member := (logged run).mpr (durable.committed run given)
  obtain ⟨before, rest, split⟩ := List.append_of_mem member
  refine ⟨turnsOn plan sessionId before, turnsOn plan sessionId rest, ?_⟩
  change (turnsOn plan sessionId service.log).foldl _ _ = _
  have turns : turnsOn plan sessionId service.log =
      turnsOn plan sessionId before ++ plan.turn run :: turnsOn plan sessionId rest := by
    unfold turnsOn
    rw [split, List.map_append, List.filter_append, List.map_cons]
    exact congrArg _ (List.filter_cons_of_pos onSession)
  rw [turns]
  rfl

variable [DecidableEq Id]

theorem Step.act {run : Id} {action : TaskAction}
    (taken : service.Step plan (.act run action) after) :
    ∃ task, (service.tasks run).step (plan.mode run) (plan.streaming run) action = some task ∧
      after.tasks = Function.update service.tasks run task ∧
      after.log = (if service.commits plan run action then service.log ++ [run]
        else service.log) ∧ after.loads = service.loads := by
  obtain ⟨task, moved, rfl⟩ := Option.map_eq_some_iff.mp taken
  exact ⟨task, moved, rfl, rfl, rfl⟩

theorem Logged.step (logged : service.Logged) (taken : service.Step plan label after) :
    after.Logged := by
  cases label with
  | load sessionId =>
      cases taken
      exact logged
  | act run action =>
      obtain ⟨task, moved, tasks, log, _⟩ := taken.act
      have becomes := task_committed moved
      rw [← commits_iff] at becomes
      intro other
      rw [tasks, log]
      by_cases same : other = run
      · subst same
        rw [Function.update_self, becomes, ← logged other]
        split
        case isTrue commits => simp [commits]
        case isFalse idle => simp [idle]
      · rw [Function.update_of_ne same, ← logged other]
        split
        · simp [same]
        · rfl

theorem Durable.step (durable : service.Durable plan) (logged : service.Logged)
    (taken : service.OrderedStep plan label after) : after.Durable plan := by
  obtain ⟨moved, ordered⟩ := taken
  cases label with
  | load sessionId =>
      cases moved
      refine ⟨durable.committed, ?_⟩
      intro load member run answered
      rcases List.mem_append.mp member with earlier | last
      · exact durable.loaded load earlier run answered
      · have same := List.mem_singleton.mp last
        subst same
        exact loadSession_includes logged durable sessionId run answered
  | act run action =>
      obtain ⟨task, stepped, tasks, _, loads⟩ := moved.act
      constructor
      · intro other answered
        rw [tasks] at answered ⊢
        by_cases same : other = run
        · subst same
          rw [Function.update_self] at answered ⊢
          apply (task_committed stepped).mpr
          left
          rcases task_answered stepped answered with before | rfl | rfl | ⟨_, committed⟩
          · exact durable.committed other before
          · exact ordered
          · exact ordered
          · exact committed
        · rw [Function.update_of_ne same] at answered ⊢
          exact durable.committed other answered
      · rw [loads]
        exact durable.loaded

theorem DurableStep.ordered (taken : service.DurableStep plan label after) :
    service.OrderedStep plan label after := by
  obtain ⟨moved, durable⟩ := taken
  refine ⟨moved, ?_⟩
  have given : ∀ run action, label = .act run action →
      action = .answerInline ∨ action = .receiveEvent → (service.tasks run).committed = true := by
    intro run action same gives
    subst same
    obtain ⟨task, stepped, tasks, _, _⟩ := moved.act
    obtain ⟨answered, unchanged⟩ := task_given stepped gives
    have committed := durable.committed run
    rw [tasks, Function.update_self] at committed
    rw [← unchanged]
    exact committed answered
  cases label with
  | load sessionId => trivial
  | act run action =>
      cases action with
      | answerInline => exact given run _ rfl (.inl rfl)
      | receiveEvent => exact given run _ rfl (.inr rfl)
      | _ => trivial

end

/-! ### An answer before its commit -/

end Service
end Assemblix
