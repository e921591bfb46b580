import Mathlib.Algebra.BigOperators.Group.List.Basic
import Mathlib.Data.List.Perm.Basic
import Mathlib.Data.List.Range
import Assemblix.Library.Run
import Assemblix.Execution.StepCosts

/-
What the parallel loop launches, records and cancels.

Step numbers, visits and limits are settled at launch, results arrive in any order. Every
launched node leaves the in-flight ones by being recorded or by an abort that cancels what
is still in flight, and the cost buckets are sums over the recorded outputs, so they do not
depend on the order.
-/

namespace Assemblix

open Library

/-! ### A loop with its history -/

def Parallel.opening (startNodeId : String) (context : ExecutionContext)
    (steps : List ExecutionStep) : Parallel :=
  { start := startNodeId
    context := context
    steps := steps
    scheduler := DagScheduler.State.initial
    ready := DagScheduler.start
      (DagScheduler.plan context.workflow.nodes context.workflow.edges startNodeId)
    running := []
    captured := none }

namespace Parallel

variable (library : NodeLibrary)

/-- The state in which the launches of a round end: after the last ready node, or before the
first one that fails its checks. -/
def launchUntil : Parallel → List (DagScheduler.ReadyNode Json) → Parallel
  | state, [] => state
  | state, ready :: rest =>
      match state.launchNode library ready with
      | .error _ => state
      | .ok next => launchUntil next rest

def attempted (state : Parallel) : Parallel :=
  ({ state with ready := [] } : Parallel).launchUntil library state.ready

def inFlightAfter (state : Parallel) : EngineLabel → List InFlight
  | .launch => (state.attempted library).running
  | .complete position _ => state.running.eraseIdx position
  | _ => state.running

def newLaunches (state : Parallel) : EngineLabel → List Launch
  | .launch =>
      ((state.attempted library).running.drop state.running.length).map InFlight.launch
  | _ => []

/-- The call of `record_completed` or `record_failed`; a failed node has no output. -/
def newRecords (state : Parallel) : EngineLabel → List (Launch × Option NodeOutput)
  | .complete position seen =>
      match state.running[position]? with
      | none => []
      | some entry => [(entry.launch, (state.outcomeOf library entry seen).toOption)]
  | _ => []

end Parallel

structure ParallelHistory where
  engine : Engine
  launched : List Launch
  recorded : List (Launch × Option NodeOutput)
  cancelled : List Launch

namespace ParallelHistory

def opening (startNodeId : String) (context : ExecutionContext) (steps : List ExecutionStep) :
    ParallelHistory :=
  { engine := .parallel (.opening startNodeId context steps)
    launched := []
    recorded := []
    cancelled := [] }

/-- `_cancel_running` on every way out by an exception. A node that has ended and was not processed
is among them; the cancellation of its task does nothing. -/
def cancelledBy (library : NodeLibrary) (state : Parallel) (label : EngineLabel) :
    Engine → List Launch
  | .failed _ _ => (state.inFlightAfter library label).map InFlight.launch
  | _ => []

def step (library : NodeLibrary) (history : ParallelHistory) (label : EngineLabel) :
    Option ParallelHistory :=
  match history.engine with
  | .parallel state =>
      (state.step library label).map (fun next =>
        { engine := next
          launched := history.launched ++ state.newLaunches library label
          recorded := history.recorded ++ state.newRecords library label
          cancelled := history.cancelled ++ cancelledBy library state label next })
  | _ => none

def Step (library : NodeLibrary) (history : ParallelHistory) (label : EngineLabel)
    (next : ParallelHistory) : Prop :=
  history.step library label = some next

def outputs (history : ParallelHistory) : List NodeOutput := history.recorded.filterMap Prod.snd

def inFlight (history : ParallelHistory) : List Launch :=
  match history.engine with
  | .parallel state => state.running.map InFlight.launch
  | _ => []

end ParallelHistory

def recordedStatus (record : Launch × Option NodeOutput) : StepStatus :=
  if record.2.isSome then .completed else .failed

/-! ### The account of a run -/

/-- Step numbers are consecutive from the initial counter; the limits hold; every launch is
recorded once, cancelled by an abort or still in flight; a record is one row, where none of
these numbers had a row; and the costs are sums over the completed steps. -/
structure ParallelHistory.Accounts (context : ExecutionContext) (steps : List ExecutionStep)
    (history : ParallelHistory) : Prop where
  numbers : history.launched.map Launch.stepNumber =
    List.range' context.stepNumber history.launched.length
  maxSteps : history.launched.length ≤ context.maxSteps
  perNode : ∀ nodeId, (history.launched.map Launch.nodeId).count nodeId ≤
    context.maxNodeExecutions
  settled : history.launched.Perm
    (history.recorded.map Prod.fst ++ history.cancelled ++ history.inFlight)
  aborted : history.cancelled = [] ∨ ∃ error rows, history.engine = .failed error rows
  rows : (∀ row ∈ steps, row.stepNumber < context.stepNumber) →
    ∃ rows, history.engine.steps = steps ++ rows ∧
      rows.map (fun row => (row.stepNumber, row.nodeId, row.status)) =
        history.recorded.map (fun record =>
          (record.1.stepNumber, record.1.nodeId, recordedStatus record))
  costs : ∀ after, history.engine.context = some after → ∀ bucket,
    after.cost bucket = context.cost bucket + totalCost history.outputs bucket

namespace ExecutionContext

theorem canExecuteNode_eq_none {context : ExecutionContext} {nodeId : String} :
    context.canExecuteNode nodeId = none ↔
      context.stepNumber < context.maxSteps ∧
        context.executions nodeId < context.maxNodeExecutions := by
  unfold canExecuteNode
  split
  case isTrue reached => simp [Nat.not_lt.mpr reached]
  case isFalse free =>
    split
    case isTrue reached => simp [Nat.not_lt.mpr reached]
    case isFalse allowed => exact ⟨fun _ => ⟨Nat.not_le.mp free, Nat.not_le.mp allowed⟩, fun _ => rfl⟩

theorem withNodeVisited_executions (context : ExecutionContext) (nodeId other : String) :
    (context.withNodeVisited nodeId).executions other =
      if nodeId = other then context.executions nodeId + 1 else context.executions other := by
  unfold executions withNodeVisited
  dsimp only
  rw [Dict.lookup_set]
  split <;> rfl

end ExecutionContext

structure Launches (first : ExecutionContext) (launched : List Launch)
    (context : ExecutionContext) : Prop where
  same : first.SameRun context
  numbers : launched.map Launch.stepNumber = List.range' first.stepNumber launched.length
  next : context.stepNumber = first.stepNumber + launched.length
  bounded : launched.length ≤ first.maxSteps
  counted : ∀ nodeId, (launched.map Launch.nodeId).count nodeId ≤ context.executions nodeId
  perNode : ∀ nodeId, (launched.map Launch.nodeId).count nodeId ≤ first.maxNodeExecutions

section Launching

variable {library : NodeLibrary} {first context after : ExecutionContext}
  {launched : List Launch} {state next : Parallel} {ready : DagScheduler.ReadyNode Json}

theorem Launches.none (context : ExecutionContext) : Launches context [] context where
  same := .refl context
  numbers := rfl
  next := rfl
  bounded := Nat.zero_le _
  counted := fun _ => Nat.zero_le _
  perNode := fun _ => Nat.zero_le _

theorem Launches.of_same (launches : Launches first launched context)
    (same : context.SameRun after) (stepNumber : after.stepNumber = context.stepNumber)
    (count : after.nodeExecutionCount = context.nodeExecutionCount) :
    Launches first launched after where
  same := launches.same.trans same
  numbers := launches.numbers
  next := stepNumber.trans launches.next
  bounded := launches.bounded
  counted := by
    unfold ExecutionContext.executions
    rw [count]
    exact launches.counted
  perNode := launches.perNode

theorem Launches.visited (launches : Launches first launched context) {nodeId : String}
    (allowed : context.canExecuteNode nodeId = Option.none) (data : Data) :
    Launches first (launched ++ [launchOf context nodeId data])
      (context.withNodeVisited nodeId) := by
  obtain ⟨steps, executions⟩ := ExecutionContext.canExecuteNode_eq_none.mp allowed
  have limit := launches.same.maxSteps
  have nodeLimit := launches.same.maxNodeExecutions
  have next := launches.next
  constructor
  · exact launches.same.trans (ExecutionContext.withNodeVisited_sameRun context nodeId)
  · rw [List.map_append, launches.numbers, List.length_append, List.map_singleton,
      List.length_singleton, List.range'_1_concat]
    change _ ++ [context.stepNumber] = _
    rw [next]
  · rw [ExecutionContext.withNodeVisited_stepNumber, List.length_append, List.length_singleton]
    omega
  · rw [List.length_append, List.length_singleton]
    omega
  · intro other
    have before := launches.counted other
    rw [List.map_append, List.count_append, ExecutionContext.withNodeVisited_executions]
    change _ + [nodeId].count other ≤ _
    rw [List.count_singleton]
    by_cases same : nodeId = other
    · subst same
      simpa using before
    · simpa [same] using before
  · intro other
    have before := launches.counted other
    have bound := launches.perNode other
    rw [List.map_append, List.count_append]
    change _ + [nodeId].count other ≤ _
    rw [List.count_singleton]
    by_cases same : nodeId = other
    · subst same
      simp only [beq_self_eq_true, if_true]
      omega
    · simpa [same] using bound

structure Parallel.Launched (library : NodeLibrary) (state : Parallel)
    (ready : DagScheduler.ReadyNode Json) (next : Parallel) (entry : InFlight) : Prop where
  allowed : state.context.canExecuteNode ready.nodeId = Option.none
  running : next.running = state.running ++ [entry]
  launch : ∃ data, entry.launch = launchOf state.context ready.nodeId data
  context : next.context = state.context.withNodeVisited ready.nodeId
  steps : next.steps = state.steps

theorem Parallel.launchNode_launched (started : state.launchNode library ready = .ok next) :
    ∃ entry, state.Launched library ready next entry := by
  have allowed : state.context.canExecuteNode ready.nodeId = Option.none := by
    unfold Parallel.launchNode at started
    split at started
    case h_1 => cases started
    case h_2 allowed => exact allowed
  obtain ⟨node, _, rfl⟩ := Parallel.launchNode_ok started
  exact ⟨_, allowed, rfl, ⟨_, rfl⟩, rfl, rfl⟩

theorem Parallel.launchUntil_launches (pending : List (DagScheduler.ReadyNode Json))
    (launches : Launches first launched state.context) :
    ∃ fresh, (state.launchUntil library pending).running = state.running ++ fresh ∧
      Launches first (launched ++ fresh.map InFlight.launch)
        (state.launchUntil library pending).context := by
  induction pending generalizing state launched with
  | nil =>
      refine ⟨[], (List.append_nil _).symm, ?_⟩
      rw [List.map_nil, List.append_nil]
      exact launches
  | cons ready rest ih =>
      unfold launchUntil
      cases started : state.launchNode library ready with
      | error error =>
          refine ⟨[], (List.append_nil _).symm, ?_⟩
          rw [List.map_nil, List.append_nil]
          exact launches
      | ok next =>
          obtain ⟨entry, made⟩ := launchNode_launched started
          obtain ⟨data, launch⟩ := made.launch
          have visited := launches.visited made.allowed data
          rw [← made.context, ← launch] at visited
          obtain ⟨fresh, running, later⟩ := ih visited
          refine ⟨entry :: fresh, ?_, ?_⟩
          · dsimp only
            rw [running, made.running, List.append_assoc, List.singleton_append]
          · rw [List.map_cons, ← List.singleton_append, ← List.append_assoc]
            exact later

theorem Parallel.launchReady_attempted {launched : Parallel}
    (started : state.launchReady library = .ok launched) :
    state.attempted library = launched := by
  unfold launchReady at started
  unfold attempted
  generalize ({ state with ready := [] } : Parallel) = first at started
  generalize state.ready = pending at started
  induction pending generalizing first with
  | nil =>
      cases started
      rfl
  | cons ready rest ih =>
      rw [List.foldlM_cons] at started
      unfold launchUntil
      cases launch : first.launchNode library ready with
      | error error =>
          rw [launch] at started
          cases started
      | ok next =>
          rw [launch] at started
          exact ih next started

theorem Parallel.attempted_launches (library : NodeLibrary)
    (launches : Launches first launched state.context) :
    ∃ fresh, (state.attempted library).running = state.running ++ fresh ∧
      state.newLaunches library .launch = fresh.map InFlight.launch ∧
        Launches first (launched ++ fresh.map InFlight.launch)
          (state.attempted library).context := by
  obtain ⟨fresh, running, later⟩ :=
    @launchUntil_launches library first launched { state with ready := [] } state.ready launches
  refine ⟨fresh, running, ?_, later⟩
  unfold newLaunches attempted
  dsimp only
  rw [running, List.drop_left]

theorem Launches.recorded (launches : Launches first launched context) (output : NodeOutput) :
    Launches first launched (applyOutput context output) :=
  launches.of_same (applyOutput_sameRun context output) (applyOutput_stepNumber context output)
    (applyOutput_nodeExecutionCount context output)

theorem Launches.captured (launches : Launches first launched state.context)
    (output : NodeOutput) : Launches first launched (state.capture output).context := by
  unfold Parallel.capture
  split
  case h_1 => exact launches
  case h_2 => exact launches.of_same ⟨rfl, rfl, rfl, rfl⟩ rfl rfl

end Launching

/-! ### One step -/

section Steps

variable {library : NodeLibrary} {first : ExecutionContext} {launched : List Launch}
  {recorded : List (Launch × Option NodeOutput)} {state : Parallel} {next : Engine}
  {label : EngineLabel}

theorem Parallel.capture_running (state : Parallel) (output : NodeOutput) :
    (state.capture output).running = state.running := by
  unfold Parallel.capture
  split <;> rfl

theorem Parallel.step_running (taken : (Engine.parallel state).Step library label next) :
    (∃ error rows, next = .failed error rows) ∨
      (∃ after, next = .parallel after ∧ after.running = state.inFlightAfter library label) ∨
        ∃ result rows, next = .finished result rows ∧ state.inFlightAfter library label = [] := by
  rcases Parallel.step_cases taken with failed | moves
  · exact Or.inl failed
  · right
    cases moves with
    | launch some started =>
        left
        refine ⟨_, rfl, ?_⟩
        unfold Parallel.inFlightAfter
        rw [Parallel.launchReady_attempted started]
    | capture completes terminal => exact Or.inl ⟨_, rfl, Parallel.capture_running _ _⟩
    | route completes running => exact Or.inl ⟨_, rfl, rfl⟩
    | close quiet idle => exact Or.inr ⟨_, _, rfl, idle⟩

theorem Parallel.step_entry {position seen : Nat}
    (taken : (Engine.parallel state).Step library (.complete position seen) next) :
    ∃ entry, state.running[position]? = some entry := by
  cases found : state.running[position]? with
  | some entry => exact ⟨entry, rfl⟩
  | none =>
      unfold Engine.Step at taken
      simp only [Engine.step, Parallel.step, Parallel.complete, found] at taken
      cases taken

theorem Parallel.step_settled (taken : (Engine.parallel state).Step library label next)
    (launches : Launches first launched state.context)
    (before : launched.Perm (recorded.map Prod.fst ++ state.running.map InFlight.launch)) :
    (launched ++ state.newLaunches library label).Perm
      ((recorded ++ state.newRecords library label).map Prod.fst ++
        (state.inFlightAfter library label).map InFlight.launch) := by
  cases label with
  | advance => cases taken
  | launch =>
      obtain ⟨fresh, running, made, _⟩ := Parallel.attempted_launches library launches
      change (launched ++ state.newLaunches library .launch).Perm
        ((recorded ++ []).map Prod.fst ++ (state.attempted library).running.map InFlight.launch)
      rw [List.append_nil, made, running, List.map_append, ← List.append_assoc]
      exact before.append_right _
  | complete position seen =>
      obtain ⟨entry, found⟩ := Parallel.step_entry taken
      obtain ⟨inside, same⟩ := List.getElem?_eq_some_iff.mp found
      have removed : (state.running.map InFlight.launch).Perm
          (entry.launch :: (state.running.eraseIdx position).map InFlight.launch) := by
        have perm := (List.getElem_cons_eraseIdx_perm inside).map InFlight.launch
        rw [same] at perm
        exact perm.symm
      unfold Parallel.newRecords
      dsimp only
      rw [found]
      change (launched ++ []).Perm ((recorded ++ [(entry.launch, _)]).map Prod.fst ++
        (state.running.eraseIdx position).map InFlight.launch)
      rw [List.append_nil, List.map_append, List.append_assoc]
      exact before.trans (removed.append_left _)
  | close =>
      change (launched ++ []).Perm ((recorded ++ []).map Prod.fst ++
        state.running.map InFlight.launch)
      rw [List.append_nil, List.append_nil]
      exact before
  | expire =>
      change (launched ++ []).Perm ((recorded ++ []).map Prod.fst ++
        state.running.map InFlight.launch)
      rw [List.append_nil, List.append_nil]
      exact before

theorem Parallel.step_launches (taken : (Engine.parallel state).Step library label next)
    (launches : Launches first launched state.context) :
    (∃ context, Launches first (launched ++ state.newLaunches library label) context) ∧
      ∀ after, next = .parallel after →
        Launches first (launched ++ state.newLaunches library label) after.context := by
  have unchanged : label ≠ .launch → state.newLaunches library label = [] := by
    intro other
    cases label with
    | launch => exact absurd rfl other
    | _ => rfl
  by_cases launch : label = .launch
  · subst launch
    obtain ⟨fresh, _, made, launching⟩ := Parallel.attempted_launches library launches
    rw [made]
    refine ⟨⟨_, launching⟩, ?_⟩
    rintro after rfl
    rcases Parallel.step_cases taken with ⟨error, rows, impossible⟩ | moves
    · cases impossible
    · cases moves with
      | launch some started =>
          rw [← Parallel.launchReady_attempted started]
          exact launching
  · rw [unchanged launch, List.append_nil]
    refine ⟨⟨_, launches⟩, ?_⟩
    rintro after rfl
    rcases Parallel.step_cases taken with ⟨error, rows, impossible⟩ | moves
    · cases impossible
    · cases moves with
      | launch some started => exact absurd rfl launch
      | @capture position seen entry output completes terminal =>
          exact Launches.captured (launches.recorded output) output
      | @route position seen entry output completes running => exact launches.recorded output

theorem Parallel.capture_steps (state : Parallel) (output : NodeOutput) :
    (state.capture output).steps = state.steps := by
  unfold Parallel.capture
  split <;> rfl

theorem Parallel.complete_steps {position seen : Nat} {entry : InFlight}
    (found : state.running[position]? = some entry)
    (taken : (Engine.parallel state).Step library (.complete position seen) next) :
    next.steps = match state.outcomeOf library entry seen with
      | .error error => recordFailed state.steps entry.launch error
      | .ok output => (recordCompleted state.context state.steps entry.launch output).2 := by
  unfold Engine.Step at taken
  simp only [Engine.step, Parallel.step, Parallel.complete, found] at taken
  split at taken
  case isFalse => cases taken
  case isTrue =>
    cases ran : state.outcomeOf library entry seen with
    | error error =>
        rw [ran] at taken
        cases taken
        rfl
    | ok output =>
        rw [ran] at taken
        dsimp only at taken
        split at taken
        · cases taken
          exact Parallel.capture_steps _ _
        · cases taken
          rfl

theorem Parallel.step_rows (taken : (Engine.parallel state).Step library label next)
    (absent : ∀ entry ∈ state.running, hasStep state.steps entry.launch.stepNumber = false) :
    ∃ rows, next.steps = state.steps ++ rows ∧
      rows.map (fun row => (row.stepNumber, row.nodeId, row.status)) =
        (state.newRecords library label).map (fun record =>
          (record.1.stepNumber, record.1.nodeId, recordedStatus record)) := by
  cases label with
  | advance => cases taken
  | complete position seen =>
      obtain ⟨entry, found⟩ := Parallel.step_entry taken
      have fresh := absent entry (List.mem_of_getElem? found)
      have steps := Parallel.complete_steps found taken
      unfold Parallel.newRecords
      dsimp only
      rw [found]
      dsimp only
      cases ran : state.outcomeOf library entry seen with
      | error error =>
          rw [ran] at steps
          dsimp only at steps
          refine ⟨[failedStep entry.launch error], ?_, rfl⟩
          rw [steps, recordFailed, logStep]
          change (if hasStep state.steps entry.launch.stepNumber then _ else _) = _
          rw [fresh]
          rfl
      | ok output =>
          rw [ran] at steps
          dsimp only at steps
          refine ⟨[completedStep entry.launch output (applyOutput state.context output).state],
            ?_, rfl⟩
          rw [steps, recordCompleted, logStep]
          change (if hasStep state.steps entry.launch.stepNumber then _ else _) = _
          rw [fresh]
          rfl
  | launch =>
      refine ⟨[], ?_, rfl⟩
      rw [List.append_nil]
      unfold Engine.Step at taken
      simp only [Engine.step, Parallel.step] at taken
      split at taken
      case isTrue => cases taken
      case isFalse =>
        split at taken
        case h_1 => cases taken; rfl
        case h_2 launched started =>
          cases taken
          exact Parallel.launchReady_invariant started (fun reached => reached.steps = state.steps)
            rfl (fun ready before after same launch => by
              obtain ⟨node, _, rfl⟩ := Parallel.launchNode_ok launch
              exact same)
  | close =>
      refine ⟨[], ?_, rfl⟩
      rw [List.append_nil]
      rcases Parallel.step_cases taken with ⟨error, rows, rfl⟩ | moves
      · simp only [Engine.Step, Engine.step, Parallel.step] at taken
        split at taken <;> cases taken
      · cases moves
        rfl
  | expire =>
      refine ⟨[], ?_, rfl⟩
      rw [List.append_nil]
      simp only [Engine.Step, Engine.step, Parallel.step] at taken
      split at taken
      · cases taken
        rfl
      · cases taken

theorem Parallel.step_cost (taken : (Engine.parallel state).Step library label next)
    {after : ExecutionContext} (reached : next.context = some after) (bucket : CostBucket) :
    after.cost bucket = state.context.cost bucket +
      totalCost ((state.newRecords library label).filterMap Prod.snd) bucket := by
  rw [taken.cost rfl reached bucket]
  have same : (Engine.parallel state).completed library label =
      (state.newRecords library label).filterMap Prod.snd := by
    rcases Parallel.step_cases taken with ⟨error, rows, rfl⟩ | moves
    · cases reached
    · unfold Engine.completed
      cases moves with
      | launch some started => rfl
      | capture completes terminal =>
          rw [completes.completion, Parallel.newRecords, completes.inFlight]
          dsimp only
          rw [completes.ran]
          rfl
      | route completes running =>
          rw [completes.completion, Parallel.newRecords, completes.inFlight]
          dsimp only
          rw [completes.ran]
          rfl
      | close quiet idle => rfl
  rw [same]

end Steps

/-! ### Runs -/

section Runs

variable {library : NodeLibrary} {context : ExecutionContext} {steps : List ExecutionStep}
  {history next : ParallelHistory} {label : EngineLabel} {state : Parallel}

theorem ParallelHistory.Step.parts (taken : history.Step library label next) :
    ∃ state, history.engine = .parallel state ∧
      (Engine.parallel state).Step library label next.engine ∧
        next.launched = history.launched ++ state.newLaunches library label ∧
          next.recorded = history.recorded ++ state.newRecords library label ∧
            next.cancelled = history.cancelled ++
              ParallelHistory.cancelledBy library state label next.engine := by
  unfold ParallelHistory.Step ParallelHistory.step at taken
  split at taken
  case h_1 state here =>
    obtain ⟨after, stepped, rfl⟩ := Option.map_eq_some_iff.mp taken
    exact ⟨state, here, stepped, rfl, rfl, rfl⟩
  case h_2 => cases taken

structure ParallelHistory.Kept (context : ExecutionContext) (steps : List ExecutionStep)
    (history : ParallelHistory) : Prop where
  accounts : history.Accounts context steps
  launches : ∀ state, history.engine = .parallel state →
    Launches context history.launched state.context

theorem ParallelHistory.opening_kept (startNodeId : String) (context : ExecutionContext)
    (steps : List ExecutionStep) : (opening startNodeId context steps).Kept context steps where
  accounts :=
    { numbers := rfl
      maxSteps := Nat.zero_le _
      perNode := fun _ => Nat.zero_le _
      settled := List.Perm.refl _
      aborted := Or.inl rfl
      rows := fun _ => ⟨[], (List.append_nil _).symm, rfl⟩
      costs := by
        intro after reached bucket
        cases reached
        exact (add_zero _).symm }
  launches := by
    intro state here
    cases here
    exact Launches.none context

theorem ParallelHistory.Accounts.running (accounts : history.Accounts context steps)
    (here : history.engine = .parallel state) :
    history.cancelled = [] ∧ history.launched.Perm
      (history.recorded.map Prod.fst ++ state.running.map InFlight.launch) := by
  have none : history.cancelled = [] := by
    rcases accounts.aborted with none | ⟨error, rows, failed⟩
    · exact none
    · rw [here] at failed
      cases failed
  have settled := accounts.settled
  unfold ParallelHistory.inFlight at settled
  rw [none, here, List.append_nil] at settled
  exact ⟨none, settled⟩

theorem ParallelHistory.Accounts.absent (accounts : history.Accounts context steps)
    (here : history.engine = .parallel state)
    (unused : ∀ row ∈ steps, row.stepNumber < context.stepNumber) :
    ∀ entry ∈ state.running, hasStep state.steps entry.launch.stepNumber = false := by
  intro entry member
  obtain ⟨_, settled⟩ := accounts.running here
  obtain ⟨rows, listed, made⟩ := accounts.rows unused
  have numbers := (settled.map Launch.stepNumber).nodup_iff.mp (by
    rw [accounts.numbers]
    exact List.nodup_range')
  rw [List.map_append, List.map_map, List.map_map, List.nodup_append] at numbers
  have launched : entry.launch ∈ history.launched :=
    settled.mem_iff.mpr (List.mem_append_right _ (List.mem_map_of_mem member))
  have range : entry.launch.stepNumber ∈ List.range' context.stepNumber history.launched.length := by
    rw [← accounts.numbers]
    exact List.mem_map_of_mem launched
  rw [hasStep_false_iff]
  change entry.launch.stepNumber ∉ (Engine.parallel state).steps.map ExecutionStep.stepNumber
  rw [← here, listed, List.map_append, List.mem_append]
  rintro (old | recorded)
  · obtain ⟨row, present, same⟩ := List.mem_map.mp old
    have below := unused row present
    have above := (List.mem_range'_1.mp range).1
    omega
  · have rowNumbers : rows.map ExecutionStep.stepNumber =
        history.recorded.map (fun record => record.1.stepNumber) := by
      have firsts := congrArg (List.map Prod.fst) made
      rw [List.map_map, List.map_map] at firsts
      exact firsts
    rw [rowNumbers] at recorded
    exact numbers.2.2 _ recorded _ (List.mem_map_of_mem member) rfl

theorem ParallelHistory.Kept.step (kept : history.Kept context steps)
    (taken : history.Step library label next) : next.Kept context steps := by
  obtain ⟨state, here, stepped, launched, recorded, cancelled⟩ := taken.parts
  obtain ⟨none, settled⟩ := kept.accounts.running here
  have launches := kept.launches state here
  obtain ⟨⟨reached, counted⟩, continued⟩ := Parallel.step_launches stepped launches
  have after := Parallel.step_settled stepped launches settled
  rw [← launched] at counted continued after
  rw [← recorded] at after
  rw [none, List.nil_append] at cancelled
  refine ⟨⟨counted.numbers, counted.bounded, counted.perNode, ?_, ?_, ?_, ?_⟩, continued⟩
  · unfold ParallelHistory.inFlight
    rw [cancelled]
    rcases Parallel.step_running stepped with
      ⟨error, rows, failed⟩ | ⟨running, going, same⟩ | ⟨result, rows, finished, drained⟩
    · rw [failed]
      change next.launched.Perm (_ ++ (state.inFlightAfter library label).map _ ++ [])
      rw [List.append_nil]
      exact after
    · rw [going]
      change next.launched.Perm (_ ++ [] ++ running.running.map _)
      rw [List.append_nil, same]
      exact after
    · rw [finished]
      change next.launched.Perm (_ ++ [] ++ [])
      rw [drained] at after
      rw [List.append_nil, List.append_nil]
      rw [List.map_nil, List.append_nil] at after
      exact after
  · rw [cancelled]
    rcases Parallel.step_running stepped with
      failed | ⟨running, going, same⟩ | ⟨result, rows, finished, drained⟩
    · exact Or.inr failed
    · rw [going]
      exact Or.inl rfl
    · rw [finished]
      exact Or.inl rfl
  · intro unused
    obtain ⟨earlier, listed, made⟩ := kept.accounts.rows unused
    obtain ⟨rows, steps, added⟩ :=
      Parallel.step_rows stepped (kept.accounts.absent here unused)
    refine ⟨earlier ++ rows, ?_, ?_⟩
    · rw [steps, ← List.append_assoc, ← listed, here]
      rfl
    · rw [List.map_append, recorded, List.map_append, made, added]
  · intro afterContext going bucket
    have before := kept.accounts.costs state.context (by rw [here]; rfl) bucket
    unfold ParallelHistory.outputs at before ⊢
    rw [Parallel.step_cost stepped going, before, recorded, List.filterMap_append, totalCost_append,
      add_assoc]

theorem ParallelHistory.run_kept {startNodeId : String} {labels : List EngineLabel}
    {last : ParallelHistory}
    (run : Run (ParallelHistory.Step library) (opening startNodeId context steps) labels last) :
    last.Kept context steps :=
  run.invariant (fun history => history.Kept context steps) _
    (opening_kept startNodeId context steps) (fun _ _ _ kept taken => kept.step taken)

end Runs

section Witness

def reply (onSystemKey : Bool) : NodeOutput where
  data := Dict.empty
  metadata := some { cost := 1, usedSystemKey := onSystemKey }

end Witness

end Assemblix
