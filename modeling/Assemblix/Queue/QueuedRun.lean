import Assemblix.Queue.ExecutionQueue

/-
One queued execution, from the request that enqueues it to the answer of its caller.

The request flushes the row, hands the job to the queue and commits last; the worker sees
committed rows only. The worker's session carries the status of the run until the job
commits. An exception that leaves the handler of the job rolls that session back, and the
job is not taken again. The caller reads the row once, waits for the signal and reads it
once more.
-/

namespace Assemblix.Queue

open Library

inductive RequestPhase
  | idle
  | inserted
  | enqueued
  | committed
  | rolledBack
  deriving DecidableEq, Repr

/-- `marked`: the row is flushed as RUNNING, and the preparation goes on. `finished`: the final
status is flushed. `handled`: the error handler has tried to record the failure. `returned`:
`execute` has returned. `raised`: an exception is in the job. `leaving`: the session is done. -/
inductive JobPhase
  | absent
  | queued
  | picked
  | preparing
  | marked
  | looping
  | finalizing
  | finished
  | handling
  | handled
  | returned
  | raised
  | leaving
  | done
  deriving DecidableEq, Repr

/-- `answered signalled result`: whether the signal came in time, and the terminal status that
was read, if any. -/
inductive CallerPhase
  | absent
  | subscribed
  | waiting
  | awake
  | answered (signalled : Bool) (result : Option ExecutionStatus)
  deriving DecidableEq, Repr

/-- `row` is the committed status, `pending` the one flushed by the worker's session, which is
`usable` until the database rejects a statement. -/
structure QueuedRun where
  row : Option ExecutionStatus
  request : RequestPhase
  job : JobPhase
  pending : Option ExecutionStatus
  usable : Bool
  message : Bool
  caller : CallerPhase
  deriving DecidableEq, Repr

inductive QueuedAction
  | insert
  | enqueue
  | commitInsert
  | rollbackInsert
  | take
  | loadWorkflow (found : Bool)
  | prepareRaises
  | markRunning
  | prepared
  | checkpoint
  | loopReturns
  | loopRaises (rejected : Bool)
  | updateStatus (isError : Bool)
  | finalizationRaises (rejected : Bool)
  | executeReturns
  | recordFailure (rejected : Bool)
  | emitErrorRaises
  | handlerReturns
  | commit (accepted : Bool)
  | rollback
  | signal (published : Bool)
  | subscribe
  | readFirst
  | wake
  | expire
  | readAgain
  deriving DecidableEq, Repr

namespace QueuedRun

def initial : QueuedRun :=
  { row := none
    request := .idle
    job := .absent
    pending := none
    usable := true
    message := false
    caller := .absent }

/-- The status that `get_task_result` answers with, unless the run goes on. -/
def taskResult (run : QueuedRun) : Option ExecutionStatus := run.row.filter ExecutionStatus.isTerminal

def terminal (run : QueuedRun) : Bool := run.taskResult.isSome

/-- The session writes its status. A session that was rejected a statement cannot. -/
def commitPending (run : QueuedRun) : QueuedRun :=
  { run with row := run.pending <|> run.row, pending := none }

def listening (run : QueuedRun) : Bool :=
  decide (run.caller = .subscribed ∨ run.caller = .waiting)

def stepRequest (run : QueuedRun) : QueuedAction → Option QueuedRun
  | .insert => if run.request = .idle then some { run with request := .inserted } else none
  | .enqueue =>
      if run.request = .inserted then
        some { run with request := .enqueued, job := .queued }
      else none
  | .commitInsert =>
      if run.request = .enqueued then
        some { run with request := .committed, row := some .queued }
      else none
  | .rollbackInsert =>
      if run.request = .inserted ∨ run.request = .enqueued then
        some { run with request := .rolledBack }
      else none
  | _ => none

/-- `run_workflow_job` and `execute`. -/
def stepJob (run : QueuedRun) : QueuedAction → Option QueuedRun
  | .take => if run.job = .queued then some { run with job := .picked } else none
  | .loadWorkflow found =>
      if run.job = .picked then
        some { run with job := if found then .preparing else .leaving }
      else none
  | .prepareRaises =>
      if run.job = .preparing ∨ run.job = .marked then some { run with job := .raised } else none
  | .markRunning =>
      if run.job = .preparing then
        match run.row with
        | some _ => some { run with job := .marked, pending := some .running }
        | none => some { run with job := .raised }
      else none
  | .prepared => if run.job = .marked then some { run with job := .looping } else none
  | .checkpoint => if run.job = .looping then some run.commitPending else none
  | .loopReturns => if run.job = .looping then some { run with job := .finalizing } else none
  | .loopRaises rejected =>
      if run.job = .looping then
        some { run with job := .handling, usable := run.usable && !rejected }
      else none
  | .updateStatus isError =>
      if run.job = .finalizing then
        some
          { run with
            job := .finished
            pending := some (if isError then .error else .completed) }
      else none
  | .finalizationRaises rejected =>
      if run.job = .finalizing ∨ run.job = .finished then
        some { run with job := .handling, usable := run.usable && !rejected }
      else none
  | .executeReturns => if run.job = .finished then some { run with job := .returned } else none
  | .recordFailure rejected =>
      if run.job = .handling then
        if run.usable && !rejected then
          some { run with job := .handled, pending := some .failed }
        else some { run with job := .handled, usable := false }
      else none
  | .emitErrorRaises => if run.job = .handled then some { run with job := .raised } else none
  | .handlerReturns => if run.job = .handled then some { run with job := .returned } else none
  | .commit accepted =>
      if run.job = .returned then
        if run.usable && accepted then some { run.commitPending with job := .leaving }
        else some { run with job := .raised }
      else none
  | .rollback =>
      if run.job = .raised then some { run with job := .leaving, pending := none } else none
  | .signal published =>
      if run.job = .leaving then
        some { run with job := .done, message := published && run.listening }
      else none
  | _ => none

/-- `_await_queued_result`, once the request has committed. -/
def stepCaller (run : QueuedRun) : QueuedAction → Option QueuedRun
  | .subscribe =>
      if run.request = .committed ∧ run.caller = .absent then
        some { run with caller := .subscribed }
      else none
  | .readFirst =>
      if run.caller = .subscribed then
        match run.taskResult with
        | some status => some { run with caller := .answered false (some status) }
        | none => some { run with caller := .waiting }
      else none
  | .wake =>
      if run.caller = .waiting ∧ run.message = true then some { run with caller := .awake }
      else none
  | .expire =>
      if run.caller = .waiting then some { run with caller := .answered false none } else none
  | .readAgain =>
      if run.caller = .awake then some { run with caller := .answered true run.taskResult }
      else none
  | _ => none

def step (run : QueuedRun) (action : QueuedAction) : Option QueuedRun :=
  run.stepRequest action <|> run.stepJob action <|> run.stepCaller action

def Step (run : QueuedRun) (action : QueuedAction) (next : QueuedRun) : Prop :=
  run.step action = some next

def Steady (run : QueuedRun) : QueuedAction → Prop
  | .loadWorkflow found => found = true
  | .prepareRaises => False
  | .markRunning => run.row.isSome = true
  | .loopRaises rejected => rejected = false
  | .finalizationRaises rejected => rejected = false
  | .recordFailure rejected => rejected = false
  | .emitErrorRaises => False
  | .commit accepted => accepted = true
  | _ => True

def SteadyStep (run : QueuedRun) (action : QueuedAction) (next : QueuedRun) : Prop :=
  run.Step action next ∧ run.Steady action

end QueuedRun

/-! ### What every run keeps -/

/-- The job has found a committed row and has not ended its session. -/
def JobPhase.started : JobPhase → Bool
  | .marked | .looping | .finalizing | .finished | .handling | .handled | .returned => true
  | _ => false

def JobPhase.inside : JobPhase → Bool
  | .absent | .leaving | .done => false
  | _ => true

/-- The session may hold a terminal status. -/
def JobPhase.writing : JobPhase → Bool
  | .finished | .handling | .handled | .returned | .raised => true
  | _ => false

namespace QueuedRun

def flushed (run : QueuedRun) : Bool := (run.pending.filter ExecutionStatus.isTerminal).isSome

structure Sound (run : QueuedRun) : Prop where
  unqueued : run.request = .idle ∨ run.request = .inserted → run.job = .absent
  closed : run.terminal = true → run.job = .leaving ∨ run.job = .done
  committed : run.row.isSome = true → run.request = .committed
  started : run.job.started = true → run.request = .committed
  unwritten : run.job.writing = false → run.flushed = false
  written : run.job = .finished → run.flushed = true
  called : run.caller ≠ .absent → run.request = .committed
  signalled : run.message = true → run.job = .done
  awake : run.caller = .awake → run.job = .done
  answered : ∀ result, run.caller = .answered true result →
    run.job = .done ∧ result = run.taskResult

def onCourse (run : QueuedRun) : Bool :=
  match run.job with
  | .raised => false
  | .leaving | .done => run.terminal
  | .finished | .handled | .returned => run.usable && run.flushed
  | _ => run.usable

theorem initial_sound : initial.Sound where
  unqueued := fun _ => rfl
  closed := by intro impossible; cases impossible
  committed := by intro impossible; cases impossible
  started := by intro impossible; cases impossible
  unwritten := fun _ => rfl
  written := by intro impossible; cases impossible
  called := fun absent => absurd rfl absent
  signalled := by intro impossible; cases impossible
  awake := by intro impossible; cases impossible
  answered := by intro _ impossible; cases impossible

theorem Step.cases {run next : QueuedRun} {action : QueuedAction} (taken : run.Step action next) :
    run.stepRequest action = some next ∨ run.stepJob action = some next ∨
      run.stepCaller action = some next := by
  unfold Step step at taken
  cases request : run.stepRequest action with
  | some _ =>
      rw [request] at taken
      exact .inl taken
  | none =>
      rw [request] at taken
      cases job : run.stepJob action with
      | some _ =>
          rw [job] at taken
          exact .inr (.inl taken)
      | none =>
          rw [job] at taken
          exact .inr (.inr taken)

variable {run next : QueuedRun} {action : QueuedAction}

theorem Sound.uncommitted (sound : run.Sound) (early : run.request ≠ .committed) :
    run.row = none ∧ run.job.started = false ∧ run.caller = .absent := by
  refine ⟨?_, ?_, ?_⟩
  · cases row : run.row with
    | none => rfl
    | some status =>
        exfalso
        apply early
        apply sound.committed
        rw [row]
        rfl
  · cases started : run.job.started with
    | false => rfl
    | true => exact absurd (sound.started started) early
  · by_contra called
    exact early (sound.called called)

theorem Sound.unended (sound : run.Sound) (staying : run.job ≠ .leaving)
    (notDone : run.job ≠ .done) :
    run.terminal = false ∧ run.message = false ∧ run.caller ≠ .awake ∧
      ∀ result, run.caller ≠ .answered true result := by
  refine ⟨?_, ?_, ?_, ?_⟩
  · cases terminal : run.terminal with
    | false => rfl
    | true =>
        rcases sound.closed terminal with leaving | closed
        · exact absurd leaving staying
        · exact absurd closed notDone
  · cases message : run.message with
    | false => rfl
    | true => exact absurd (sound.signalled message) notDone
  · exact fun awake => notDone (sound.awake awake)
  · exact fun result answered => notDone (sound.answered result answered).1

theorem inside_ne {job other : JobPhase} (inside : job.inside = true)
    (outside : other.inside = false) : job ≠ other := by
  intro same
  rw [same, outside] at inside
  cases inside

theorem Sound.running (sound : run.Sound) (inside : run.job.inside = true) :
    run.terminal = false ∧ run.message = false ∧ run.caller ≠ .awake ∧
      ∀ result, run.caller ≠ .answered true result :=
  sound.unended (inside_ne inside rfl) (inside_ne inside rfl)

theorem Sound.request (sound : run.Sound) (early : run.request ≠ .committed)
    {request : RequestPhase} (later : request ≠ .idle ∧ request ≠ .committed)
    (queued : request = .inserted → run.job = .absent) :
    Sound { run with request := request } := by
  obtain ⟨row, notStarted, absent⟩ := sound.uncommitted early
  constructor
  · rintro (idle | inserted)
    · exact absurd idle later.1
    · exact queued inserted
  · exact sound.closed
  · intro found
    change run.row.isSome = true at found
    rw [row] at found
    cases found
  · intro started
    change run.job.started = true at started
    rw [notStarted] at started
    cases started
  · exact sound.unwritten
  · exact sound.written
  · intro called
    exact absurd absent called
  · exact sound.signalled
  · exact sound.awake
  · exact sound.answered

theorem Sound.stepRequest (sound : run.Sound) (taken : run.stepRequest action = some next) :
    next.Sound ∧ (next.onCourse = true ↔ run.onCourse = true ∧ run.Steady action) := by
  cases action with
  | insert =>
      obtain ⟨idle, taken⟩ := Option.ite_none_right_eq_some.mp taken
      cases taken
      refine ⟨sound.request (by rw [idle]; decide) (by decide) ?_, ?_⟩
      · intro _
        exact sound.unqueued (.inl idle)
      · exact ⟨fun same => ⟨same, trivial⟩, fun both => both.1⟩
  | enqueue =>
      obtain ⟨inserted, taken⟩ := Option.ite_none_right_eq_some.mp taken
      cases taken
      have absent := sound.unqueued (.inr inserted)
      have early : run.request ≠ .committed := by
        rw [inserted]
        decide
      obtain ⟨row, _, uncalled⟩ := sound.uncommitted early
      obtain ⟨unfinished, silent, asleep, unanswered⟩ :=
        sound.unended (by rw [absent]; decide) (by rw [absent]; decide)
      constructor
      · constructor
        · rintro (impossible | impossible) <;> cases impossible
        · exact fun terminal => absurd (unfinished.symm.trans terminal) Bool.false_ne_true
        · intro found
          change run.row.isSome = true at found
          rw [row] at found
          cases found
        · intro impossible
          cases impossible
        · intro _
          apply sound.unwritten
          rw [absent]
          rfl
        · intro impossible
          cases impossible
        · exact fun called => absurd uncalled called
        · exact fun message => absurd (silent.symm.trans message) Bool.false_ne_true
        · exact fun awake => absurd awake asleep
        · exact fun result answered => absurd answered (unanswered result)
      · unfold onCourse Steady
        rw [absent]
        simp
  | commitInsert =>
      obtain ⟨enqueued, taken⟩ := Option.ite_none_right_eq_some.mp taken
      cases taken
      have early : run.request ≠ .committed := by
        rw [enqueued]
        decide
      obtain ⟨row, notStarted, uncalled⟩ := sound.uncommitted early
      have unfinished : run.terminal = false := by
        unfold terminal taskResult
        rw [row]
        rfl
      constructor
      · constructor
        · rintro (impossible | impossible) <;> cases impossible
        · intro impossible
          cases impossible
        · intro _
          rfl
        · intro _
          rfl
        · exact sound.unwritten
        · exact sound.written
        · intro _
          rfl
        · exact sound.signalled
        · exact sound.awake
        · intro result answered
          change run.caller = _ at answered
          rw [uncalled] at answered
          cases answered
      · have same : onCourse { run with request := .committed, row := some .queued } =
            run.onCourse := by
          unfold onCourse
          rw [unfinished]
          rfl
        rw [same]
        exact ⟨fun kept => ⟨kept, trivial⟩, fun both => both.1⟩
  | rollbackInsert =>
      obtain ⟨opened, taken⟩ := Option.ite_none_right_eq_some.mp taken
      cases taken
      refine ⟨sound.request ?_ (by decide) ?_, ?_⟩
      · rcases opened with inserted | enqueued
        · rw [inserted]
          decide
        · rw [enqueued]
          decide
      · intro impossible
        cases impossible
      · exact ⟨fun same => ⟨same, trivial⟩, fun both => both.1⟩
  | _ => cases taken

theorem Sound.moveJob (sound : run.Sound) (inside : run.job.inside = true) {job : JobPhase}
    {pending : Option ExecutionStatus} {usable : Bool}
    (started : job.started = true → run.request = .committed)
    (unwritten : job.writing = false → (pending.filter ExecutionStatus.isTerminal).isSome = false)
    (written : job = .finished → (pending.filter ExecutionStatus.isTerminal).isSome = true) :
    Sound { run with job := job, pending := pending, usable := usable } := by
  obtain ⟨unfinished, silent, asleep, unanswered⟩ := sound.running inside
  constructor
  · intro early
    exact absurd (sound.unqueued early)
      (inside_ne inside (rfl : JobPhase.absent.inside = false))
  · intro terminal
    change run.terminal = true at terminal
    rw [unfinished] at terminal
    cases terminal
  · exact sound.committed
  · exact started
  · exact unwritten
  · exact written
  · exact sound.called
  · intro message
    change run.message = true at message
    rw [silent] at message
    cases message
  · intro awake
    exact absurd awake asleep
  · intro result answered
    exact absurd answered (unanswered result)

theorem Sound.commitPending (sound : run.Sound) (inside : run.job.inside = true)
    (committed : run.request = .committed) {job : JobPhase}
    (closed : run.commitPending.terminal = true → job = .leaving) (unfinished : job ≠ .finished) :
    Sound { run.commitPending with job := job } := by
  obtain ⟨_, silent, asleep, unanswered⟩ := sound.running inside
  constructor
  · intro early
    exact absurd (sound.unqueued early)
      (inside_ne inside (rfl : JobPhase.absent.inside = false))
  · intro terminal
    exact .inl (closed terminal)
  · intro _
    exact committed
  · intro _
    exact committed
  · intro _
    rfl
  · intro impossible
    exact absurd impossible unfinished
  · exact sound.called
  · intro message
    change run.message = true at message
    rw [silent] at message
    cases message
  · intro awake
    exact absurd awake asleep
  · intro result answered
    exact absurd answered (unanswered result)

theorem commitPending_terminal (unfinished : run.terminal = false) :
    run.commitPending.terminal = run.flushed := by
  unfold QueuedRun.commitPending terminal taskResult flushed at *
  dsimp only
  cases run.pending with
  | none => exact unfinished
  | some status => rfl

theorem Sound.leave (sound : run.Sound) (inside : run.job.inside = true) :
    Sound { run with job := .leaving, pending := none } ∧
      onCourse { run with job := .leaving, pending := none } = false := by
  refine ⟨sound.moveJob inside (fun impossible => by cases impossible) (fun _ => rfl)
    (fun impossible => by cases impossible), ?_⟩
  exact (sound.running inside).1

theorem Sound.signal (sound : run.Sound) (leaving : run.job = .leaving) (message : Bool) :
    Sound { run with job := .done, message := message } := by
  have silent : run.job ≠ .done := by
    rw [leaving]
    decide
  constructor
  · intro early
    have impossible := sound.unqueued early
    rw [leaving] at impossible
    cases impossible
  · exact fun _ => .inr rfl
  · exact sound.committed
  · intro impossible
    cases impossible
  · intro _
    apply sound.unwritten
    rw [leaving]
    rfl
  · intro impossible
    cases impossible
  · exact sound.called
  · exact fun _ => rfl
  · exact fun _ => rfl
  · intro result answered
    exact absurd (sound.answered result answered).1 silent

theorem Sound.advance (sound : run.Sound) {phase job : JobPhase} {usable : Bool}
    (here : run.job = phase)
    (onward : phase.inside = true ∧ (job.started = true → phase.started = true) ∧
      (job.writing = false → phase.writing = false) ∧ job ≠ .finished) :
    Sound { run with job := job, usable := usable } := by
  obtain ⟨inside, started, unwritten, unfinished⟩ := onward
  subst here
  apply sound.moveJob inside
  · intro later
    exact sound.started (started later)
  · intro later
    exact sound.unwritten (unwritten later)
  · intro impossible
    exact absurd impossible unfinished

section

variable (sound : run.Sound) (taken : run.stepJob action = some next)
include sound taken

theorem Sound.stepPreparation
    (preparation : action = .take ∨ (∃ found, action = .loadWorkflow found) ∨
      action = .prepareRaises ∨ action = .markRunning ∨ action = .prepared) :
    next.Sound ∧ (next.onCourse = true ↔ run.onCourse = true ∧ run.Steady action) := by
  rcases preparation with rfl | ⟨found, rfl⟩ | rfl | rfl | rfl
  · obtain ⟨queued, taken⟩ := Option.ite_none_right_eq_some.mp taken
    cases taken
    constructor
    · exact sound.advance queued (by decide)
    · unfold onCourse Steady
      rw [queued]
      simp
  · obtain ⟨picked, taken⟩ := Option.ite_none_right_eq_some.mp taken
    cases taken
    have inside : run.job.inside = true := by
      rw [picked]
      rfl
    constructor
    · cases found <;> exact sound.advance picked (by decide)
    · unfold onCourse Steady
      rw [picked]
      cases found with
      | true => simp
      | false =>
          change run.terminal = true ↔ _
          rw [(sound.running inside).1]
          simp
  · obtain ⟨early, taken⟩ := Option.ite_none_right_eq_some.mp taken
    cases taken
    constructor
    · rcases early with preparing | marked
      · exact sound.advance preparing (by decide)
      · exact sound.advance marked (by decide)
    · unfold Steady
      simp [onCourse]
  · obtain ⟨preparing, taken⟩ := Option.ite_none_right_eq_some.mp taken
    have inside : run.job.inside = true := by
      rw [preparing]
      rfl
    split at taken
    case h_1 status found =>
      cases taken
      constructor
      · apply sound.moveJob inside
        · intro _
          apply sound.committed
          rw [found]
          rfl
        · intro _
          rfl
        · intro impossible
          cases impossible
      · unfold onCourse Steady
        rw [preparing, found]
        simp
    case h_2 missing =>
      cases taken
      constructor
      · exact sound.advance preparing (by decide)
      · unfold Steady
        rw [missing]
        simp [onCourse]
  · obtain ⟨marked, taken⟩ := Option.ite_none_right_eq_some.mp taken
    cases taken
    constructor
    · exact sound.advance marked (by decide)
    · unfold onCourse Steady
      rw [marked]
      simp

theorem Sound.stepLoop (loop : action = .checkpoint ∨ action = .loopReturns ∨
      ∃ rejected, action = .loopRaises rejected) :
    next.Sound ∧ (next.onCourse = true ↔ run.onCourse = true ∧ run.Steady action) := by
  rcases loop with rfl | rfl | ⟨rejected, rfl⟩
  · obtain ⟨looping, taken⟩ := Option.ite_none_right_eq_some.mp taken
    cases taken
    have inside : run.job.inside = true := by
      rw [looping]
      rfl
    have committed : run.request = .committed := by
      apply sound.started
      rw [looping]
      rfl
    have unwritten : run.flushed = false := by
      apply sound.unwritten
      rw [looping]
      rfl
    constructor
    · have kept := @Sound.commitPending run sound inside committed .looping (by
        rw [commitPending_terminal (sound.running inside).1, unwritten]
        intro impossible
        cases impossible) (by decide)
      rw [← looping] at kept
      exact kept
    · have same : run.commitPending.job = .looping := looping
      unfold onCourse Steady
      rw [same, looping]
      exact ⟨fun usable => ⟨usable, trivial⟩, fun both => both.1⟩
  · obtain ⟨looping, taken⟩ := Option.ite_none_right_eq_some.mp taken
    cases taken
    constructor
    · exact sound.advance looping (by decide)
    · unfold onCourse Steady
      rw [looping]
      simp
  · obtain ⟨looping, taken⟩ := Option.ite_none_right_eq_some.mp taken
    cases taken
    constructor
    · exact sound.advance looping (by decide)
    · unfold onCourse Steady
      rw [looping]
      simp

theorem Sound.stepFinalization (finalization : (∃ isError, action = .updateStatus isError) ∨
      (∃ rejected, action = .finalizationRaises rejected) ∨ action = .executeReturns) :
    next.Sound ∧ (next.onCourse = true ↔ run.onCourse = true ∧ run.Steady action) := by
  rcases finalization with ⟨isError, rfl⟩ | ⟨rejected, rfl⟩ | rfl
  · obtain ⟨finalizing, taken⟩ := Option.ite_none_right_eq_some.mp taken
    cases taken
    have written : (Option.filter ExecutionStatus.isTerminal
        (some (if isError then .error else .completed))).isSome = true := by
      cases isError <;> rfl
    constructor
    · apply sound.moveJob
      · rw [finalizing]
        rfl
      · intro _
        apply sound.started
        rw [finalizing]
        rfl
      · intro impossible
        cases impossible
      · intro _
        exact written
    · unfold onCourse Steady flushed
      rw [finalizing, written]
      simp
  · obtain ⟨ending, taken⟩ := Option.ite_none_right_eq_some.mp taken
    cases taken
    rcases ending with finalizing | finished
    · constructor
      · exact sound.advance finalizing (by decide)
      · unfold onCourse Steady
        rw [finalizing]
        simp
    · constructor
      · exact sound.advance finished (by decide)
      · unfold onCourse Steady
        rw [finished, sound.written finished]
        simp
  · obtain ⟨finished, taken⟩ := Option.ite_none_right_eq_some.mp taken
    cases taken
    constructor
    · exact sound.advance finished (by decide)
    · unfold onCourse Steady
      rw [finished]
      simp [flushed]

theorem Sound.stepHandler
    (handler : (∃ rejected, action = .recordFailure rejected) ∨ action = .emitErrorRaises ∨
      action = .handlerReturns) :
    next.Sound ∧ (next.onCourse = true ↔ run.onCourse = true ∧ run.Steady action) := by
  rcases handler with ⟨rejected, rfl⟩ | rfl | rfl
  · obtain ⟨handling, taken⟩ := Option.ite_none_right_eq_some.mp taken
    have inside : run.job.inside = true := by
      rw [handling]
      rfl
    split at taken
    case isTrue recorded =>
      cases taken
      constructor
      · apply sound.moveJob inside
        · intro _
          apply sound.started
          rw [handling]
          rfl
        · intro impossible
          cases impossible
        · intro impossible
          cases impossible
      · obtain ⟨usable, accepted⟩ := Bool.and_eq_true_iff.mp recorded
        have before : run.onCourse = true := by
          unfold onCourse
          rw [handling]
          exact usable
        have after : onCourse { run with job := .handled, pending := some .failed } = true := by
          change (run.usable && true) = true
          rw [usable]
          rfl
        exact ⟨fun _ => ⟨before, by simpa [Steady] using accepted⟩, fun _ => after⟩
    case isFalse lost =>
      cases taken
      constructor
      · exact sound.advance handling (by decide)
      · unfold onCourse Steady
        rw [handling]
        simpa using lost
  · obtain ⟨handled, taken⟩ := Option.ite_none_right_eq_some.mp taken
    cases taken
    constructor
    · exact sound.advance handled (by decide)
    · unfold Steady
      simp [onCourse]
  · obtain ⟨handled, taken⟩ := Option.ite_none_right_eq_some.mp taken
    cases taken
    constructor
    · exact sound.advance handled (by decide)
    · unfold onCourse Steady
      rw [handled]
      simp [flushed]

theorem Sound.stepSession (session : (∃ accepted, action = .commit accepted) ∨ action = .rollback ∨
      ∃ published, action = .signal published) :
    next.Sound ∧ (next.onCourse = true ↔ run.onCourse = true ∧ run.Steady action) := by
  rcases session with ⟨accepted, rfl⟩ | rfl | ⟨published, rfl⟩
  · obtain ⟨returned, taken⟩ := Option.ite_none_right_eq_some.mp taken
    have inside : run.job.inside = true := by
      rw [returned]
      rfl
    split at taken
    case isTrue committed =>
      cases taken
      obtain ⟨usable, kept⟩ := Bool.and_eq_true_iff.mp committed
      constructor
      · apply sound.commitPending inside
        · apply sound.started
          rw [returned]
          rfl
        · exact fun _ => rfl
        · decide
      · change run.commitPending.terminal = true ↔ _
        rw [commitPending_terminal (sound.running inside).1]
        unfold onCourse Steady
        rw [returned, usable, kept]
        simp
    case isFalse lost =>
      cases taken
      constructor
      · exact sound.advance returned (by decide)
      · unfold onCourse Steady
        rw [returned]
        simp only [Bool.and_eq_true, not_and, Bool.false_eq_true, false_iff] at lost ⊢
        exact fun both => lost both.1
  · obtain ⟨raised, taken⟩ := Option.ite_none_right_eq_some.mp taken
    cases taken
    have inside : run.job.inside = true := by
      rw [raised]
      rfl
    obtain ⟨kept, offCourse⟩ := sound.leave inside
    refine ⟨kept, ?_⟩
    rw [offCourse]
    unfold onCourse
    rw [raised]
    simp
  · obtain ⟨leaving, taken⟩ := Option.ite_none_right_eq_some.mp taken
    cases taken
    refine ⟨sound.signal leaving _, ?_⟩
    unfold onCourse Steady
    rw [leaving]
    exact ⟨fun terminal => ⟨terminal, trivial⟩, fun both => both.1⟩

theorem Sound.stepJob :
    next.Sound ∧ (next.onCourse = true ↔ run.onCourse = true ∧ run.Steady action) := by
  cases action with
  | take => exact sound.stepPreparation taken (.inl rfl)
  | loadWorkflow found => exact sound.stepPreparation taken (.inr (.inl ⟨found, rfl⟩))
  | prepareRaises => exact sound.stepPreparation taken (.inr (.inr (.inl rfl)))
  | markRunning => exact sound.stepPreparation taken (.inr (.inr (.inr (.inl rfl))))
  | prepared => exact sound.stepPreparation taken (.inr (.inr (.inr (.inr rfl))))
  | checkpoint => exact sound.stepLoop taken (.inl rfl)
  | loopReturns => exact sound.stepLoop taken (.inr (.inl rfl))
  | loopRaises rejected => exact sound.stepLoop taken (.inr (.inr ⟨rejected, rfl⟩))
  | updateStatus isError => exact sound.stepFinalization taken (.inl ⟨isError, rfl⟩)
  | finalizationRaises rejected =>
      exact sound.stepFinalization taken (.inr (.inl ⟨rejected, rfl⟩))
  | executeReturns => exact sound.stepFinalization taken (.inr (.inr rfl))
  | recordFailure rejected => exact sound.stepHandler taken (.inl ⟨rejected, rfl⟩)
  | emitErrorRaises => exact sound.stepHandler taken (.inr (.inl rfl))
  | handlerReturns => exact sound.stepHandler taken (.inr (.inr rfl))
  | commit accepted => exact sound.stepSession taken (.inl ⟨accepted, rfl⟩)
  | rollback => exact sound.stepSession taken (.inr (.inl rfl))
  | signal published => exact sound.stepSession taken (.inr (.inr ⟨published, rfl⟩))
  | _ => cases taken

end

theorem Sound.moveCaller (sound : run.Sound) {caller : CallerPhase}
    (called : run.request = .committed) (awake : caller = .awake → run.job = .done)
    (answered : ∀ result, caller = .answered true result →
      run.job = .done ∧ result = run.taskResult) :
    Sound { run with caller := caller } where
  unqueued := sound.unqueued
  closed := sound.closed
  committed := sound.committed
  started := sound.started
  unwritten := sound.unwritten
  written := sound.written
  called := fun _ => called
  signalled := sound.signalled
  awake := awake
  answered := answered

theorem Sound.stepCaller (sound : run.Sound) (taken : run.stepCaller action = some next) :
    next.Sound ∧ (next.onCourse = true ↔ run.onCourse = true ∧ run.Steady action) := by
  have called : run.caller ≠ .absent → run.request = .committed := sound.called
  cases action with
  | subscribe =>
      obtain ⟨ready, taken⟩ := Option.ite_none_right_eq_some.mp taken
      cases taken
      refine ⟨sound.moveCaller ready.1 ?_ ?_, ?_⟩
      · intro impossible
        cases impossible
      · intro _ impossible
        cases impossible
      · exact ⟨fun same => ⟨same, trivial⟩, fun both => both.1⟩
  | readFirst =>
      obtain ⟨subscribed, taken⟩ := Option.ite_none_right_eq_some.mp taken
      have committed := called (by rw [subscribed]; decide)
      split at taken
      case h_1 status read =>
        cases taken
        refine ⟨sound.moveCaller committed ?_ ?_, ?_⟩
        · intro impossible
          cases impossible
        · intro _ impossible
          cases impossible
        · exact ⟨fun same => ⟨same, trivial⟩, fun both => both.1⟩
      case h_2 running =>
        cases taken
        refine ⟨sound.moveCaller committed ?_ ?_, ?_⟩
        · intro impossible
          cases impossible
        · intro _ impossible
          cases impossible
        · exact ⟨fun same => ⟨same, trivial⟩, fun both => both.1⟩
  | wake =>
      obtain ⟨waiting, taken⟩ := Option.ite_none_right_eq_some.mp taken
      cases taken
      refine ⟨sound.moveCaller (called (by rw [waiting.1]; decide)) ?_ ?_, ?_⟩
      · exact fun _ => sound.signalled waiting.2
      · intro _ impossible
        cases impossible
      · exact ⟨fun same => ⟨same, trivial⟩, fun both => both.1⟩
  | expire =>
      obtain ⟨waiting, taken⟩ := Option.ite_none_right_eq_some.mp taken
      cases taken
      refine ⟨sound.moveCaller (called (by rw [waiting]; decide)) ?_ ?_, ?_⟩
      · intro impossible
        cases impossible
      · intro _ impossible
        cases impossible
      · exact ⟨fun same => ⟨same, trivial⟩, fun both => both.1⟩
  | readAgain =>
      obtain ⟨awake, taken⟩ := Option.ite_none_right_eq_some.mp taken
      cases taken
      refine ⟨sound.moveCaller (called (by rw [awake]; decide)) ?_ ?_, ?_⟩
      · intro impossible
        cases impossible
      · intro result same
        cases same
        exact ⟨sound.awake awake, rfl⟩
      · exact ⟨fun same => ⟨same, trivial⟩, fun both => both.1⟩
  | _ => cases taken

theorem Sound.step (sound : run.Sound) (taken : run.Step action next) :
    next.Sound ∧ (next.onCourse = true ↔ run.onCourse = true ∧ run.Steady action) := by
  rcases taken.cases with request | job | caller
  · exact sound.stepRequest request
  · exact sound.stepJob job
  · exact sound.stepCaller caller

/-! ### Whole runs -/

theorem functional (run : QueuedRun) (action : QueuedAction) (next other : QueuedRun)
    (taken : run.Step action next) (again : run.Step action other) : next = other :=
  Option.some.inj (taken.symm.trans again)

theorem run_sound {actions : List QueuedAction} {last : QueuedRun}
    (run : Run Step initial actions last) :
    last.Sound ∧ (last.onCourse = true ↔ Run SteadyStep initial actions last) := by
  induction run with
  | nil => exact ⟨initial_sound, fun _ => .nil, fun _ => rfl⟩
  | @snoc actions middle last action earlier taken ih =>
      obtain ⟨sound, course⟩ := ih
      obtain ⟨kept, onward⟩ := sound.step taken
      refine ⟨kept, ?_⟩
      rw [onward, course]
      constructor
      · rintro ⟨steady, here⟩
        exact steady.snoc ⟨taken, here⟩
      · intro whole
        obtain ⟨before, steady, onward⟩ := whole.last_step
        have same := Run.unique functional earlier (steady.mono (fun _ _ _ both => both.1))
        subst same
        exact ⟨steady, onward.2⟩

/-- A job that is done leaves a terminal row, and a caller whose signal came in time a terminal
result, exactly when the worker has marked a committed row and no exception has left the job. -/
theorem accepted_run_ends_iff (actions : List QueuedAction) (last : QueuedRun)
    (run : Run Step initial actions last) :
    (last.job = .done → (last.terminal = true ↔ Run SteadyStep initial actions last)) ∧
      ∀ result, last.caller = .answered true result →
        (result.isSome = true ↔ Run SteadyStep initial actions last) := by
  obtain ⟨sound, course⟩ := run_sound run
  have ended : last.job = .done → last.onCourse = last.terminal := by
    intro finished
    unfold onCourse
    rw [finished]
  constructor
  · intro finished
    rw [← course, ended finished]
  · intro result answered
    obtain ⟨finished, same⟩ := sound.answered result answered
    rw [← course, ended finished, same]
    rfl

def answeredRun : List QueuedAction :=
  [.insert, .enqueue, .commitInsert, .subscribe, .readFirst, .take, .loadWorkflow true,
    .markRunning, .prepared, .checkpoint, .loopReturns, .updateStatus false, .executeReturns,
    .commit true, .signal true, .wake, .readAgain]

def overtakenRun : List QueuedAction :=
  [.insert, .enqueue, .take, .loadWorkflow true, .markRunning, .commitInsert, .subscribe,
    .readFirst, .rollback, .signal true, .wake, .readAgain]

theorem accepted_run_ends_iff_answered :
    ∃ last, Run Step initial answeredRun last ∧ last.terminal = true ∧
      Run SteadyStep initial answeredRun last := by
  have run := @Run.of_foldlM _ _ step initial answeredRun _ rfl
  exact ⟨_, run, rfl, ((accepted_run_ends_iff answeredRun _ run).1 rfl).mp rfl⟩

/-- The row of an accepted execution stays QUEUED after its job is done, and the caller is told
that the run goes on. -/
theorem accepted_run_stranded :
    ∃ last, Run Step initial overtakenRun last ∧ last.request = .committed ∧ last.job = .done ∧
      last.row = some .queued ∧ last.caller = .answered true none :=
  ⟨_, @Run.of_foldlM _ _ step initial overtakenRun _ rfl, rfl, rfl, rfl, rfl⟩

end QueuedRun
end Assemblix.Queue
