import Assemblix.Library.Run
import Assemblix.Execution.ParallelLoop

/-
END's filter in the parallel engine.

The filter is meant for the report. The parallel engine writes the filtered state into the
shared context, so siblings that are still running read it and add to it, and updates made
since END was launched are dropped. An observed run keeps, next to the engine, the state
with the updates of all completed steps and the END that was captured. When that END was
alone on an unchanged state, or filters nothing, the report is its filter applied to the
full state and every node reads the full state.
-/

namespace Assemblix

open Library

structure Observed where
  engine : Engine
  merged : Data
  mergedProject : Data
  reporter : Option EndNodeConfig

namespace Observed

def initial (context : ExecutionContext) : Observed where
  engine := Engine.start context []
  merged := context.state
  mergedProject := context.projectState
  reporter := none

def record (observed : Observed) (node : Node) (output : NodeOutput) : Observed :=
  { observed with
    merged := observed.merged.merge (output.stateUpdates.getD Dict.empty)
    mergedProject := observed.mergedProject.merge (output.projectUpdates.getD Dict.empty)
    reporter := match observed.reporter, node with
      | none, .endNode config => some config
      | reporter, _ => reporter }

def step (library : NodeLibrary) (observed : Observed) (label : EngineLabel) : Option Observed :=
  (observed.engine.step library label).map (fun next =>
    match observed.engine.completion library label with
    | some (node, output) => { observed.record node output with engine := next }
    | none => { observed with engine := next })

def filtered (full : Data) (mode : EndFilter) (selected : List String) : Data :=
  (EndNode.filterState full mode selected).getD full

def ReportsFilter (observed : Observed) : Prop :=
  ∀ result steps config, observed.engine = .finished result steps →
    observed.reporter = some config →
      result.context.state =
          filtered observed.merged config.stateFilter config.stateVariables ∧
        result.context.projectState =
          filtered observed.mergedProject config.projectFilter config.projectVariables

def ReadsMerged (library : NodeLibrary) (observed : Observed) : Prop :=
  ∀ parallel launched, observed.engine = .parallel parallel →
    parallel.launchReady library = .ok launched →
      ∀ entry ∈ launched.running, entry ∈ parallel.running ∨
        (entry.input.state = observed.merged ∧
          entry.input.projectState = observed.mergedProject)

def Spares (parallel : Parallel) (entry : InFlight) (config : EndNodeConfig) : Prop :=
  (config.stateFilter = .all ∧ config.projectFilter = .all) ∨
    (parallel.running.length = 1 ∧ parallel.ready.length = 0 ∧
      entry.input.state = parallel.context.state ∧
      entry.input.projectState = parallel.context.projectState)

instance (parallel : Parallel) (entry : InFlight) (config : EndNodeConfig) :
    Decidable (Spares parallel entry config) := by
  unfold Spares
  infer_instance

/-- A completion of the END that will be captured spares its siblings. -/
def careful (observed : Observed) (label : EngineLabel) : Bool :=
  match observed.engine, label with
  | .parallel parallel, .complete position _ =>
      match parallel.running[position]? with
      | none => true
      | some entry =>
          match entry.node with
          | .endNode config => parallel.captured.isSome || decide (Spares parallel entry config)
          | _ => true
  | _, _ => true

def carefulStep (library : NodeLibrary) (observed : Observed) (label : EngineLabel) :
    Option Observed :=
  if observed.careful label then observed.step library label else none

def CarefulStep (library : NodeLibrary) (observed : Observed) (label : EngineLabel)
    (next : Observed) : Prop :=
  observed.carefulStep library label = some next

theorem CarefulStep.parts {library : NodeLibrary} {observed next : Observed} {label : EngineLabel}
    (taken : observed.CarefulStep library label next) :
    observed.careful label = true ∧ observed.step library label = some next := by
  unfold CarefulStep carefulStep at taken
  split at taken
  case isTrue careful => exact ⟨careful, taken⟩
  case isFalse => cases taken

theorem spares_of_careful {observed : Observed} {parallel : Parallel} {position seen : Nat}
    {entry : InFlight} {config : EndNodeConfig} (here : observed.engine = .parallel parallel)
    (present : parallel.running[position]? = some entry) (kind : entry.node = .endNode config)
    (uncaptured : parallel.captured = none)
    (careful : observed.careful (.complete position seen) = true) :
    Spares parallel entry config := by
  simpa [Observed.careful, here, present, kind, uncaptured] using careful

/-! ### The invariant -/

structure Agrees (observed : Observed) (context : ExecutionContext) : Prop where
  state : context.state = observed.merged
  projectState : context.projectState = observed.mergedProject

structure Reports (observed : Observed) (config : EndNodeConfig) (context : ExecutionContext) :
    Prop where
  state : context.state = filtered observed.merged config.stateFilter config.stateVariables
  projectState : context.projectState =
    filtered observed.mergedProject config.projectFilter config.projectVariables

/-- As long as no filter was applied the context is the full state; after one, only the
result is left. -/
inductive Faithful (observed : Observed) : Prop
  | sequential {state : Sequential} (here : observed.engine = .sequential state)
      (agrees : observed.Agrees state.context) (uncaptured : observed.reporter = none)
  | unfiltered {parallel : Parallel} (here : observed.engine = .parallel parallel)
      (agrees : observed.Agrees parallel.context)
      (keeps : ∀ config, observed.reporter = some config →
        config.stateFilter = .all ∧ config.projectFilter = .all)
      (same : parallel.captured = none ↔ observed.reporter = none)
  | closing {parallel : Parallel} {config : EndNodeConfig}
      (here : observed.engine = .parallel parallel) (reporter : observed.reporter = some config)
      (quiet : parallel.ready = []) (idle : parallel.running = [])
      (reports : observed.Reports config parallel.context)
  | finished {result : RunResult} {steps : List ExecutionStep}
      (here : observed.engine = .finished result steps)
      (reports : ∀ config, observed.reporter = some config →
        observed.Reports config result.context)
  | failed {error : RunError} {steps : List ExecutionStep}
      (here : observed.engine = .failed error steps)

theorem Agrees.record {observed : Observed} {context : ExecutionContext}
    (agrees : observed.Agrees context) (node : Node) (output : NodeOutput) :
    (observed.record node output).Agrees (applyOutput context output) where
  state := by rw [applyOutput_state, agrees.state]; rfl
  projectState := by rw [applyOutput_projectState, agrees.projectState]; rfl

theorem record_reporter (observed : Observed) {node : Node} (running : node.isTerminal = false)
    (output : NodeOutput) : (observed.record node output).reporter = observed.reporter := by
  unfold record
  cases observed.reporter with
  | some config => rfl
  | none =>
      cases node with
      | endNode config => cases running
      | start => rfl
      | condition conditions => rfl
      | task task => rfl

theorem Agrees.endResult {observed : Observed} {context : ExecutionContext}
    (agrees : observed.Agrees context) (config : EndNodeConfig) (library : NodeLibrary)
    (steps : List ExecutionStep) (input : NodeInput) (sameState : input.state = context.state)
    (sameProject : input.projectState = context.projectState) :
    observed.Reports config
      (endResult context (EndNode.execute config library steps input)).context where
  state := by
    change (EndNode.filterState input.state _ _).getD context.state = _
    rw [sameState, agrees.state]
    rfl
  projectState := by
    change (EndNode.filterState input.projectState _ _).getD context.projectState = _
    rw [sameProject, agrees.projectState]
    rfl

theorem endResult_all (context : ExecutionContext) {config : EndNodeConfig}
    (all : config.stateFilter = .all ∧ config.projectFilter = .all) (library : NodeLibrary)
    (steps : List ExecutionStep) (input : NodeInput) :
    (endResult context (EndNode.execute config library steps input)).context = context := by
  simp [endResult, EndNode.execute, filteredContext, EndNode.filterState, all.1, all.2]

theorem Reports.of_all {observed : Observed} {context : ExecutionContext}
    (agrees : observed.Agrees context) {config : EndNodeConfig}
    (all : config.stateFilter = .all ∧ config.projectFilter = .all) :
    observed.Reports config context where
  state := by rw [agrees.state, all.1]; rfl
  projectState := by rw [agrees.projectState, all.2]; rfl

theorem launchReady_agrees {library : NodeLibrary} {observed : Observed}
    {parallel launched : Parallel} (started : parallel.launchReady library = .ok launched)
    (agrees : observed.Agrees parallel.context) :
    observed.Agrees launched.context ∧ launched.captured = parallel.captured ∧
      ∀ entry ∈ launched.running, entry ∈ parallel.running ∨
        (entry.input.state = observed.merged ∧
          entry.input.projectState = observed.mergedProject) := by
  apply Parallel.launchReady_invariant started (fun reached =>
    observed.Agrees reached.context ∧ reached.captured = parallel.captured ∧
      ∀ entry ∈ reached.running, entry ∈ parallel.running ∨
        (entry.input.state = observed.merged ∧
          entry.input.projectState = observed.mergedProject))
  · exact ⟨agrees, rfl, fun entry member => .inl member⟩
  · intro ready first next before launch
    obtain ⟨node, _, rfl⟩ := Parallel.launchNode_ok launch
    obtain ⟨agreed, captured, reads⟩ := before
    refine ⟨⟨agreed.state, agreed.projectState⟩, captured, ?_⟩
    intro entry member
    rcases List.mem_append.mp member with old | new
    · exact reads entry old
    · rw [List.mem_singleton.mp new]
      exact .inr ⟨agreed.state, agreed.projectState⟩

/-! ### One step -/

theorem step_some {library : NodeLibrary} {observed after : Observed} {label : EngineLabel}
    (taken : observed.step library label = some after) :
    ∃ next, observed.engine.Step library label next ∧ after.engine = next ∧
      ((∃ node output, observed.engine.completion library label = some (node, output) ∧
          after = { observed.record node output with engine := next }) ∨
        (observed.engine.completion library label = none ∧
          after = { observed with engine := next })) := by
  unfold step at taken
  obtain ⟨next, moved, recorded⟩ := Option.map_eq_some_iff.mp taken
  exists next
  cases completed : observed.engine.completion library label with
  | none =>
      rw [completed] at recorded
      subst recorded
      exact ⟨moved, rfl, .inr ⟨rfl, rfl⟩⟩
  | some completion =>
      obtain ⟨node, output⟩ := completion
      rw [completed] at recorded
      subst recorded
      exact ⟨moved, rfl, .inl ⟨node, output, rfl, rfl⟩⟩

theorem capture_some {parallel : Parallel} (output : NodeOutput)
    (captured : parallel.captured ≠ none) : parallel.capture output = parallel := by
  unfold Parallel.capture
  cases before : parallel.captured with
  | some found => rfl
  | none => exact absurd before captured

theorem capture_none {parallel : Parallel} (output : NodeOutput)
    (uncaptured : parallel.captured = none) :
    (parallel.capture output).context = (Assemblix.endResult parallel.context output).context ∧
      (parallel.capture output).captured ≠ none ∧
      (parallel.capture output).ready = parallel.ready ∧
      (parallel.capture output).running = parallel.running := by
  unfold Parallel.capture
  rw [uncaptured]
  exact ⟨rfl, Option.some_ne_none _, rfl, rfl⟩

private theorem faithful_sequential {library : NodeLibrary} {observed after : Observed}
    {label : EngineLabel} {state : Sequential} (here : observed.engine = .sequential state)
    (agrees : observed.Agrees state.context) (uncaptured : observed.reporter = none)
    (taken : observed.step library label = some after) : after.Faithful := by
  obtain ⟨next, moved, engine, recorded⟩ := step_some taken
  rw [here] at moved recorded
  rcases Sequential.step_cases moved with
    ⟨error, steps, rfl⟩ | ⟨node, output, rfl, completes, outcome⟩
  · exact .failed engine
  · rcases recorded with ⟨other, result, completed, rfl⟩ | ⟨silent, _⟩
    · cases completes.completion.symm.trans completed
      have recordedAgrees := agrees.record node output
      rcases outcome with ⟨running, nextNodeId, rfl⟩ | ⟨terminal, rfl⟩
      · apply Faithful.sequential engine
        · exact ⟨recordedAgrees.state, recordedAgrees.projectState⟩
        · exact (record_reporter observed running output).trans uncaptured
      · apply Faithful.finished engine
        intro config reporter
        obtain ⟨executed, rfl, read⟩ := Node.execute_terminal terminal completes.ran
        have same : executed = config := by
          change (observed.record (.endNode executed) output).reporter = some config at reporter
          simp only [record, uncaptured] at reporter
          exact Option.some.inj reporter
        subst same
        have all : (observed.record (.endNode executed) output).Agrees
            (state.recordedContext output) :=
          ⟨recordedAgrees.state, recordedAgrees.projectState⟩
        have reports := all.endResult executed library state.steps
          (nodeInput state.context
            (inputData state.context (.endNode executed) state.previousOutput))
          (by rw [read]; rfl) (by rw [read]; rfl)
        rw [← read] at reports
        exact ⟨reports.state, reports.projectState⟩
    · rw [completes.completion] at silent
      cases silent

theorem eraseIdx_alone {entries : List InFlight} {position : Nat} {entry : InFlight}
    (present : entries[position]? = some entry) (alone : entries.length = 1) :
    entries.eraseIdx position = [] := by
  obtain ⟨inside, _⟩ := List.getElem?_eq_some_iff.mp present
  apply List.eq_nil_of_length_eq_zero
  rw [List.length_eraseIdx_of_lt inside]
  omega

private theorem faithful_capture {library : NodeLibrary} {observed : Observed}
    {parallel : Parallel} {position seen : Nat} {entry : InFlight} {output : NodeOutput}
    (here : observed.engine = .parallel parallel) (agrees : observed.Agrees parallel.context)
    (keeps : ∀ config, observed.reporter = some config →
      config.stateFilter = .all ∧ config.projectFilter = .all)
    (same : parallel.captured = none ↔ observed.reporter = none)
    (careful : observed.careful (.complete position seen) = true)
    (completes : parallel.Completes library position seen entry output)
    (terminal : entry.node.isTerminal = true) :
    Faithful
      { observed.record entry.node output with
        engine := .parallel ((parallel.record position entry output).capture output) } := by
  have recordedAgrees := agrees.record entry.node output
  obtain ⟨config, kind, read⟩ := Node.execute_terminal terminal completes.ran
  cases captured : parallel.captured with
  | some found =>
      have before : observed.reporter ≠ none := by
        intro nobody
        rw [same.mpr nobody] at captured
        cases captured
      obtain ⟨reporter, reported⟩ := Option.ne_none_iff_exists'.mp before
      have kept : (observed.record entry.node output).reporter = some reporter := by
        simp only [record, reported]
      have already : (parallel.record position entry output).captured ≠ none := by
        change parallel.captured ≠ none
        rw [captured]
        exact Option.some_ne_none _
      rw [capture_some output already]
      apply Faithful.unfiltered rfl
      · exact ⟨recordedAgrees.state, recordedAgrees.projectState⟩
      · intro other found
        apply keeps
        rw [reported, ← kept]
        exact found
      · change parallel.captured = none ↔ (observed.record entry.node output).reporter = none
        rw [captured, kept]
        simp
  | none =>
      have nobody := same.mp captured
      have reporter : (observed.record entry.node output).reporter = some config := by
        simp only [record, nobody, kind]
      have first : (parallel.record position entry output).captured = none := captured
      obtain ⟨context, marked, ready, running⟩ := capture_none output first
      rcases spares_of_careful here completes.inFlight kind captured careful with
        all | ⟨alone, quiet, readState, readProject⟩
      · apply Faithful.unfiltered rfl
        · rw [context, read, endResult_all _ all, ← read]
          exact ⟨recordedAgrees.state, recordedAgrees.projectState⟩
        · intro other found
          cases reporter.symm.trans found
          exact all
        · change (Parallel.capture _ _).captured = none ↔
            (observed.record entry.node output).reporter = none
          rw [reporter]
          simp [marked]
      · have shared : (observed.record entry.node output).Agrees
            (parallel.record position entry output).context :=
          ⟨recordedAgrees.state, recordedAgrees.projectState⟩
        have reports := shared.endResult config library (parallel.steps.take seen) entry.input
          (by
            change _ = (applyOutput parallel.context output).state
            rw [applyOutput_state, readState, read]
            rfl)
          (by
            change _ = (applyOutput parallel.context output).projectState
            rw [applyOutput_projectState, readProject, read]
            rfl)
        rw [← read, ← context] at reports
        apply @Faithful.closing _ _ config rfl
        · exact reporter
        · exact ready.trans (List.eq_nil_of_length_eq_zero quiet)
        · exact running.trans (eraseIdx_alone completes.inFlight alone)
        · exact ⟨reports.state, reports.projectState⟩

private theorem faithful_parallel {library : NodeLibrary} {observed after : Observed}
    {label : EngineLabel} {parallel : Parallel} (here : observed.engine = .parallel parallel)
    (agrees : observed.Agrees parallel.context)
    (keeps : ∀ config, observed.reporter = some config →
      config.stateFilter = .all ∧ config.projectFilter = .all)
    (same : parallel.captured = none ↔ observed.reporter = none)
    (careful : observed.careful label = true)
    (taken : observed.step library label = some after) : after.Faithful := by
  obtain ⟨next, moved, engine, recorded⟩ := step_some taken
  rw [here] at moved recorded
  rcases Parallel.step_cases moved with ⟨error, steps, rfl⟩ | moves
  · exact .failed engine
  · cases moves with
    | launch some started =>
        rcases recorded with ⟨node, output, completed, _⟩ | ⟨_, rfl⟩
        · cases completed
        · obtain ⟨agreed, captured, _⟩ := launchReady_agrees started agrees
          apply Faithful.unfiltered rfl
          · exact ⟨agreed.state, agreed.projectState⟩
          · exact keeps
          · rw [captured]
            exact same
    | close quiet idle =>
        rcases recorded with ⟨node, output, completed, _⟩ | ⟨_, rfl⟩
        · cases completed
        · apply Faithful.finished rfl
          intro config reporter
          have reports := Reports.of_all agrees (keeps config reporter)
          rw [Parallel.result_context]
          exact ⟨reports.state, reports.projectState⟩
    | @route position seen entry output completes running =>
        rcases recorded with ⟨node, result, completed, rfl⟩ | ⟨silent, _⟩
        · cases completes.completion.symm.trans completed
          have recordedAgrees := agrees.record entry.node output
          apply Faithful.unfiltered rfl
          · exact ⟨recordedAgrees.state, recordedAgrees.projectState⟩
          · intro config reporter
            apply keeps
            exact (record_reporter observed running output).symm.trans reporter
          · change parallel.captured = none ↔ (observed.record entry.node output).reporter = none
            rw [record_reporter observed running output]
            exact same
        · rw [completes.completion] at silent
          cases silent
    | @capture position seen entry output completes terminal =>
        rcases recorded with ⟨node, result, completed, rfl⟩ | ⟨silent, _⟩
        · cases completes.completion.symm.trans completed
          exact faithful_capture here agrees keeps same careful completes terminal
        · rw [completes.completion] at silent
          cases silent

theorem CarefulStep.faithful {library : NodeLibrary} {observed after : Observed}
    {label : EngineLabel} (taken : observed.CarefulStep library label after)
    (faithful : observed.Faithful) : after.Faithful := by
  obtain ⟨careful, stepped⟩ := taken.parts
  cases faithful with
  | sequential here agrees uncaptured =>
      exact faithful_sequential here agrees uncaptured stepped
  | unfiltered here agrees keeps same =>
      exact faithful_parallel here agrees keeps same careful stepped
  | @closing parallel config here reporter quiet idle reports =>
      obtain ⟨next, moved, engine, recorded⟩ := step_some stepped
      rw [here] at moved recorded
      rcases Parallel.step_cases moved with ⟨error, steps, rfl⟩ | moves
      · exact .failed engine
      · cases moves with
        | launch some started => exact absurd quiet some
        | capture completes terminal =>
            have present := completes.inFlight
            rw [idle] at present
            cases present
        | route completes running =>
            have present := completes.inFlight
            rw [idle] at present
            cases present
        | close _ _ =>
            rcases recorded with ⟨node, output, completed, _⟩ | ⟨_, rfl⟩
            · cases completed
            · apply Faithful.finished rfl
              intro other found
              cases reporter.symm.trans found
              rw [Parallel.result_context]
              exact ⟨reports.state, reports.projectState⟩
  | finished here reports =>
      obtain ⟨next, moved, _⟩ := step_some stepped
      rw [here] at moved
      cases label <;> cases moved
  | failed here =>
      obtain ⟨next, moved, _⟩ := step_some stepped
      rw [here] at moved
      cases label <;> cases moved

theorem initial_faithful (context : ExecutionContext) : (initial context).Faithful := by
  have engine : (initial context).engine = Engine.start context [] := rfl
  unfold Engine.start at engine
  split at engine
  · exact .failed engine
  · split at engine
    · apply Faithful.unfiltered engine
      · exact ⟨rfl, rfl⟩
      · intro config reporter
        cases reporter
      · exact ⟨fun _ => rfl, fun _ => rfl⟩
    · apply Faithful.sequential engine
      · exact ⟨rfl, rfl⟩
      · rfl

theorem run_faithful {library : NodeLibrary} {context : ExecutionContext}
    {labels : List EngineLabel} {last : Observed}
    (run : Run (CarefulStep library) (initial context) labels last) : last.Faithful := by
  apply run.invariant Faithful
  · exact initial_faithful context
  · intro state label next faithful taken
    exact taken.faithful faithful

/-- When every END that is captured filters nothing or is alone on the state it has read, a
finished run reports its END's filters of the full state, and nodes read the full state. -/
theorem end_filter_reports_only (library : NodeLibrary) (context : ExecutionContext)
    (labels : List EngineLabel) (last : Observed)
    (run : Run (CarefulStep library) (initial context) labels last) :
    last.ReportsFilter ∧ last.ReadsMerged library := by
  have faithful := run_faithful run
  constructor
  · intro result steps config here reporter
    cases faithful with
    | finished there reports =>
        cases here.symm.trans there
        have report := reports config reporter
        exact ⟨report.state, report.projectState⟩
    | sequential there agrees uncaptured => cases here.symm.trans there
    | unfiltered there agrees keeps same => cases here.symm.trans there
    | closing there reporter quiet idle reports => cases here.symm.trans there
    | failed there => cases here.symm.trans there
  · intro parallel launched here started entry member
    cases faithful with
    | unfiltered there agrees keeps same =>
        cases here.symm.trans there
        exact (launchReady_agrees started agrees).2.2 entry member
    | closing there reporter quiet idle reports =>
        cases here.symm.trans there
        unfold Parallel.launchReady at started
        rw [quiet] at started
        cases started
        exact .inl member
    | sequential there agrees uncaptured => cases here.symm.trans there
    | finished there reports => cases here.symm.trans there
    | failed there => cases here.symm.trans there

/-! Two branches, one of which sets `y`, and an END that keeps `x`. -/

def keepsX : EndNodeConfig := { stateFilter := .selected, stateVariables := ["x"] }

def setsY : NodeLibrary where
  registered := fun type => decide (type = "agent")
  execute := fun node _ =>
    if node.id = "a" then
      .ok { data := Dict.empty, stateUpdates := some (Dict.empty.set "y" (.int 1)) }
    else .ok { data := Dict.empty }
  evaluate := fun _ _ => .ok false
  render := fun template _ => template

def forkContext (edges : List Edge) : ExecutionContext where
  workflow :=
    { nodes := [⟨"s", "start"⟩, ⟨"a", "agent"⟩, ⟨"b", "agent"⟩, ⟨"e", "end"⟩]
      edges := edges
      conditions := fun _ => []
      endConfig := fun _ => keepsX }
  state := (Dict.empty.set "x" (.int 1)).set "z" (.int 2)
  projectState := Dict.empty
  inputData := Dict.empty
  stepNumber := 0
  visitedNodes := []
  nodeExecutionCount := Dict.empty

/-- Both branches meet in END. -/
def joinedContext : ExecutionContext :=
  forkContext [⟨"s", "a", none⟩, ⟨"s", "b", none⟩, ⟨"a", "e", none⟩, ⟨"b", "e", none⟩]

/-- END is a branch of its own, beside `a` and then `b`. -/
def besideContext : ExecutionContext :=
  forkContext [⟨"s", "e", none⟩, ⟨"s", "a", none⟩, ⟨"a", "b", none⟩]

def joinedLabels : List EngineLabel :=
  [.launch, .complete 0 0, .launch, .complete 1 1, .complete 0 2, .launch, .complete 0 3, .close]

/-- END completes first; then `a`, and `b` is about to be launched. -/
def besideLabels : List EngineLabel :=
  [.launch, .complete 0 0, .launch, .complete 0 1, .complete 0 2]

def observedAfter (library : NodeLibrary) (context : ExecutionContext)
    (labels : List EngineLabel) : Observed :=
  (labels.foldlM (step library) (initial context)).getD (initial context)

theorem end_filter_reports_only_joined :
    (observedAfter setsY joinedContext joinedLabels).ReportsFilter ∧
      (observedAfter setsY joinedContext joinedLabels).ReadsMerged setsY := by
  have run : Run (CarefulStep setsY) (initial joinedContext) joinedLabels
      (observedAfter setsY joinedContext joinedLabels) := Run.of_foldlM _ _ _ rfl
  exact end_filter_reports_only setsY joinedContext joinedLabels _ run

/-- `y` is in the report although the filter drops it, and `b` does not see `z`. -/
theorem end_filter_leaks :
    (∃ last,
      Run (fun observed label next => step setsY observed label = some next)
        (initial besideContext) (besideLabels ++ [.launch, .complete 0 3, .close]) last ∧
      ¬ last.ReportsFilter) ∧
    (∃ last,
      Run (fun observed label next => step setsY observed label = some next)
        (initial besideContext) besideLabels last ∧
      ¬ last.ReadsMerged setsY) := by
  constructor
  · exists observedAfter setsY besideContext (besideLabels ++ [.launch, .complete 0 3, .close])
    constructor
    · exact Run.of_foldlM _ _ _ rfl
    · intro reports
      have report := (reports _ _ _ rfl rfl).1
      revert report
      decide +kernel
  · exists observedAfter setsY besideContext besideLabels
    constructor
    · exact Run.of_foldlM _ _ _ rfl
    · intro reads
      rcases reads _ _ rfl rfl _ List.mem_cons_self with running | ⟨state, _⟩
      · cases running
      · revert state
        decide +kernel

end Observed
end Assemblix
