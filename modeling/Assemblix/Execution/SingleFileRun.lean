import Assemblix.Library.Run
import Assemblix.Execution.DagSchedulerSingleFile
import Assemblix.Execution.ParallelLoop

/-
Fork-free runs of either engine are one pointer.

Without forks the parallel engine has one node ready or in flight, and its steps are those
of the sequential loop: a launch changes nothing the loop knows of, a completion moves the
pointer as the navigator does, and END finishes both with the same result. Only a merge
that waits for a dead branch tells them apart; the parallel engine then ends without END.
-/

namespace Assemblix

open Library
open DagScheduler (Unparked followedEdges outEdges)

structure WorkflowDefinition.ForkFree (workflow : WorkflowDefinition) : Prop where
  plain : ∀ node ∈ workflow.nodes, node.type ≠ "condition" →
    (outEdges (validEdges workflow.nodes workflow.edges) node.id).length ≤ 1
  router : ∀ nodeId index,
    ((outEdges (validEdges workflow.nodes workflow.edges) nodeId).filter (fun ref =>
      decide (ref.edge.sourceHandle = some (sourceHandleOf nodeId index)))).length ≤ 1

theorem WorkflowDefinition.ForkFree.follows_one {workflow : WorkflowDefinition}
    (forkFree : workflow.ForkFree) {library : NodeLibrary} {nodeId : String} {node : Node}
    (found : getNode library workflow nodeId = .ok node) {steps : List ExecutionStep}
    {input : NodeInput} {workflowInput : Data} {output : NodeOutput}
    (ran : node.execute library steps input workflowInput = .ok output) (start : String) :
    (followedEdges (DagScheduler.plan workflow.nodes workflow.edges start) nodeId
      (node.branchIndex output)).length ≤ 1 := by
  obtain ⟨entry, member, named, _, condition, _⟩ := getNode_found found
  cases branch : node.branchIndex output with
  | some index => exact forkFree.router nodeId index
  | none =>
      have plain : entry.type ≠ "condition" := by
        intro routes
        obtain ⟨conditions, rfl⟩ := condition.mp routes
        have chosen := Node.branchIndex_isSome ran
        rw [branch] at chosen
        cases chosen
      have few := forkFree.plain entry member plain
      rw [named] at few
      exact few

namespace Sequential

def inFlight (state : Sequential) (node : Node) : InFlight :=
  { launch := state.launch node
    node := node
    input := nodeInput state.context (inputData state.context node state.previousOutput)
    rowsAtLaunch := state.steps.length }

def Numbered (state : Sequential) : Prop :=
  ∀ row ∈ state.steps, row.stepNumber < state.context.stepNumber ∧ row.status = .completed

theorem Numbered.recordedSteps {state : Sequential} (numbered : state.Numbered) (node : Node)
    (output : NodeOutput) :
    state.recordedSteps node output = state.steps ++
      [completedStep (state.launch node) output (applyOutput state.context output).state] := by
  have absent : hasStep state.steps state.context.stepNumber = false := by
    rw [hasStep, List.any_eq_false]
    intro row member
    have below := (numbered row member).1
    simp only [decide_eq_true_eq]
    omega
  unfold Sequential.recordedSteps logStep
  rw [if_neg]
  intro present
  exact Bool.false_ne_true (absent.symm.trans present)

theorem Numbered.moved {state : Sequential} (numbered : state.Numbered) (node : Node)
    (output : NodeOutput) (nextNodeId : String) :
    (state.moved node output nextNodeId).Numbered := by
  intro row member
  change row ∈ state.recordedSteps node output at member
  change row.stepNumber < (state.recordedContext output).stepNumber ∧ _
  rw [recordedContext_stepNumber]
  rw [numbered.recordedSteps, List.mem_append, List.mem_singleton] at member
  rcases member with old | rfl
  · have before := numbered row old
    exact ⟨by omega, before.2⟩
  · exact ⟨Nat.lt_succ_self _, rfl⟩

end Sequential

inductive Points (library : NodeLibrary) : Engine → Sequential → Prop
  | sequential (state : Sequential) : Points library (.sequential state) state
  | ready {parallel : Parallel} {state : Sequential}
      (one : parallel.ready =
        [⟨state.currentNodeId, state.previousOutput.getD Dict.empty⟩])
      (idle : parallel.running = []) (uncaptured : parallel.captured = none)
      (context : parallel.context = state.context) (steps : parallel.steps = state.steps)
      (unparked : Unparked parallel.scheduler) :
      Points library (.parallel parallel) state
  | running {parallel : Parallel} {state : Sequential} {node : Node}
      (allowed : state.context.canExecuteNode state.currentNodeId = none)
      (found : getNode library state.context.workflow state.currentNodeId = .ok node)
      (quiet : parallel.ready = []) (one : parallel.running = [state.inFlight node])
      (uncaptured : parallel.captured = none)
      (context : parallel.context = state.context.withNodeVisited state.currentNodeId)
      (steps : parallel.steps = state.steps) (unparked : Unparked parallel.scheduler) :
      Points library (.parallel parallel) state

inductive Advance (library : NodeLibrary) (state : Sequential) (label : EngineLabel) : Engine → Prop
  | stayed {engine : Engine} (launching : label = .launch)
      (points : Points library engine state) : Advance library state label engine
  | moved {engine : Engine} {node : Node} {output : NodeOutput} {nextNodeId : String}
      (completes : state.Completes library node output) (running : node.isTerminal = false)
      (navigated : state.nextOf node output = some nextNodeId)
      (points : Points library engine (state.moved node output nextNodeId)) :
      Advance library state label engine
  | finished {result : RunResult} {steps : List ExecutionStep}
      (iterated : state.iterate library = .stop (.finished result steps)) :
      Advance library state label (.finished result steps)
  | captured {parallel : Parallel}
      (iterated : state.iterate library = .stop (.finished parallel.result parallel.steps))
      (quiet : parallel.ready = []) (idle : parallel.running = []) :
      Advance library state label (.parallel parallel)
  | stalled {parallel : Parallel} {node : Node} {output : NodeOutput}
      (completes : state.Completes library node output) (running : node.isTerminal = false)
      (quiet : parallel.ready = []) (idle : parallel.running = [])
      (steps : parallel.steps = state.recordedSteps node output) :
      Advance library state label (.parallel parallel)
  | failed (error : RunError) (steps : List ExecutionStep) :
      Advance library state label (.failed error steps)

theorem inputData_handed (context : ExecutionContext) (node : Node) (handed : Option Data) :
    inputData context node (some (handed.getD Dict.empty)) = inputData context node handed := by
  cases handed <;> rfl

theorem Points.launch {library : NodeLibrary} {parallel : Parallel} {state : Sequential}
    (one : parallel.ready = [⟨state.currentNodeId, state.previousOutput.getD Dict.empty⟩])
    (idle : parallel.running = []) (uncaptured : parallel.captured = none)
    (context : parallel.context = state.context) (steps : parallel.steps = state.steps)
    (unparked : Unparked parallel.scheduler) :
    (∃ error, parallel.launchReady library = .error error) ∨
      ∃ launched, parallel.launchReady library = .ok launched ∧
        Points library (.parallel launched) state := by
  unfold Parallel.launchReady
  rw [one, List.foldlM_cons]
  simp only [Parallel.launchNode, context]
  cases allowed : state.context.canExecuteNode state.currentNodeId with
  | some error => exact .inl ⟨_, rfl⟩
  | none =>
      cases found : getNode library state.context.workflow state.currentNodeId with
      | error error => exact .inl ⟨_, rfl⟩
      | ok node =>
          apply Or.inr
          refine ⟨_, rfl, ?_⟩
          apply Points.running allowed found
          · rfl
          · simp only [idle, List.nil_append, inputData_handed, steps]
            rfl
          · exact uncaptured
          · rfl
          · exact steps
          · exact unparked

theorem record_single {parallel : Parallel} {state : Sequential} (node : Node)
    (output : NodeOutput) (one : parallel.running = [state.inFlight node])
    (context : parallel.context = state.context.withNodeVisited state.currentNodeId)
    (steps : parallel.steps = state.steps) :
    parallel.record 0 (state.inFlight node) output =
      { parallel with
        context := state.recordedContext output
        steps := state.recordedSteps node output
        running := [] } := by
  simp only [Parallel.record, recordCompleted, one, context, steps, applyOutput_visited]
  rfl

theorem outcomeOf_single {library : NodeLibrary} {parallel : Parallel} {state : Sequential}
    (node : Node) (context : parallel.context = state.context.withNodeVisited state.currentNodeId)
    (steps : parallel.steps = state.steps) {seen : Nat}
    (window : (state.inFlight node).rowsAtLaunch ≤ seen ∧ seen ≤ parallel.steps.length) :
    parallel.outcomeOf library (state.inFlight node) seen = state.outcomeOf library node := by
  have all : seen = parallel.steps.length := by
    have least := window.1
    change state.steps.length ≤ seen at least
    rw [← steps] at least
    omega
  unfold Parallel.outcomeOf
  rw [all, List.take_length, steps, context]
  rfl

theorem Points.complete {library : NodeLibrary} {parallel : Parallel} {state : Sequential}
    {node : Node} (forkFree : state.context.workflow.ForkFree)
    (allowed : state.context.canExecuteNode state.currentNodeId = none)
    (found : getNode library state.context.workflow state.currentNodeId = .ok node)
    (quiet : parallel.ready = []) (one : parallel.running = [state.inFlight node])
    (uncaptured : parallel.captured = none)
    (context : parallel.context = state.context.withNodeVisited state.currentNodeId)
    (steps : parallel.steps = state.steps) (unparked : Unparked parallel.scheduler)
    {position seen : Nat} {engine : Engine}
    (taken : parallel.complete library position seen = some engine) :
    Advance library state (.complete position seen) engine := by
  unfold Parallel.complete at taken
  cases position with
  | succ position =>
      rw [one] at taken
      cases taken
  | zero =>
      simp only [one, List.getElem?_cons_zero] at taken
      split at taken
      case isFalse => cases taken
      case isTrue window =>
        rw [outcomeOf_single node context steps window] at taken
        cases ran : state.outcomeOf library node with
        | error error =>
            rw [ran] at taken
            cases taken
            exact .failed _ _
        | ok output =>
            have completes : state.Completes library node output := ⟨allowed, found, ran⟩
            rw [ran] at taken
            simp only [record_single node output one context steps] at taken
            cases terminal : node.isTerminal with
            | true =>
                simp only [Sequential.inFlight, terminal, if_true] at taken
                cases taken
                simp only [Parallel.capture, uncaptured]
                apply Advance.captured
                · rw [completes.iterate_end terminal]
                  rfl
                · exact quiet
                · rfl
            | false =>
                simp only [Sequential.inFlight, terminal, Bool.false_eq_true, if_false] at taken
                cases taken
                have few := forkFree.follows_one found ran parallel.start
                have single := DagScheduler.complete_single state.context.workflow.nodes
                  state.context.workflow.edges parallel.start parallel.scheduler unparked
                  state.currentNodeId output.data (node.branchIndex output) few
                have workflow := (state.recordedContext_sameRun output).workflow
                simp only [Parallel.route, Parallel.plan, workflow, quiet, List.nil_append]
                rcases single with nothing | ⟨next, navigated, ready, still⟩
                · apply Advance.stalled completes terminal
                  · exact nothing
                  · rfl
                  · rfl
                · apply Advance.moved completes terminal navigated
                  apply Points.ready
                  · exact ready
                  · rfl
                  · exact uncaptured
                  · rfl
                  · rfl
                  · exact still

theorem Points.step {library : NodeLibrary} {engine next : Engine} {state : Sequential}
    {label : EngineLabel} (forkFree : ∀ parallel, engine = .parallel parallel →
      state.context.workflow.ForkFree)
    (points : Points library engine state) (taken : engine.Step library label next) :
    Advance library state label next := by
  unfold Engine.Step at taken
  cases points with
  | sequential =>
      cases label with
      | advance =>
          cases iterated : state.iterate library with
          | stop outcome =>
              simp only [Engine.step, iterated, Option.some.injEq] at taken
              subst taken
              cases outcome with
              | finished result steps => exact .finished iterated
              | failed error steps => exact .failed error steps
          | next after =>
              simp only [Engine.step, iterated, Option.some.injEq] at taken
              subst taken
              obtain ⟨node, output, completes, running, nextNodeId, navigated, rfl⟩ :=
                Sequential.completes_of_next iterated
              exact .moved completes running navigated (.sequential _)
      | expire =>
          cases taken
          exact .failed _ _
      | launch => cases taken
      | complete position seen => cases taken
      | close => cases taken
  | @ready parallel _ one idle uncaptured context steps unparked =>
      cases label with
      | launch =>
          have nonempty : parallel.ready ≠ [] := by
            rw [one]
            exact List.cons_ne_nil _ _
          simp only [Engine.step, Parallel.step, if_neg nonempty, Option.some.injEq] at taken
          rcases Points.launch one idle uncaptured context steps unparked with
            ⟨error, failed⟩ | ⟨launched, started, points⟩
          · rw [failed] at taken
            subst taken
            exact .failed _ _
          · rw [started] at taken
            subst taken
            exact .stayed rfl points
      | complete position seen =>
          simp [Engine.step, Parallel.step, Parallel.complete, idle] at taken
      | close => simp [Engine.step, Parallel.step, one] at taken
      | expire => simp [Engine.step, Parallel.step, one] at taken
      | advance => cases taken
  | @running parallel _ node allowed found quiet one uncaptured context steps unparked =>
      cases label with
      | complete position seen =>
          exact Points.complete (forkFree parallel rfl) allowed found quiet one uncaptured context
            steps unparked taken
      | launch => simp [Engine.step, Parallel.step, quiet] at taken
      | close => simp [Engine.step, Parallel.step, one] at taken
      | expire =>
          simp only [Engine.step, Parallel.step, quiet, one] at taken
          cases taken
          exact .failed _ _
      | advance => cases taken

/-! ### Whole runs -/

def EndsAtEnd (steps : List ExecutionStep) : Prop :=
  ∃ earlier row, steps = earlier ++ [row] ∧ row.nodeType = "end"

theorem completed_not_end {library : NodeLibrary} {state : Sequential}
    (numbered : state.Numbered) {node : Node} {output : NodeOutput}
    (completes : state.Completes library node output) (running : node.isTerminal = false) :
    ¬ EndsAtEnd (state.recordedSteps node output) := by
  rintro ⟨earlier, row, same, finish⟩
  rw [numbered.recordedSteps] at same
  obtain ⟨_, last⟩ := List.append_inj' same rfl
  obtain ⟨entry, _, _, located, _, ends⟩ := getNode_found completes.found
  have kind : row.nodeType = entry.type := by
    rw [← List.singleton_inj.mp last]
    simp [completedStep, Sequential.launch, launchOf, located]
  rw [ends.mp (kind.symm.trans finish)] at running
  cases running

/-- Where a run from the pointer `origin` can be: the pointer's own run leads to the same
result, or the parallel engine has stopped without END. -/
inductive Heading (library : NodeLibrary) (origin : Sequential) : Engine → Prop
  | pointing {engine : Engine} {state : Sequential} (points : Points library engine state)
      (numbered : state.Numbered) (sameRun : origin.context.SameRun state.context)
      (same : origin.run library = state.run library) : Heading library origin engine
  | captured {parallel : Parallel}
      (same : origin.run library = .finished parallel.result parallel.steps)
      (quiet : parallel.ready = []) (idle : parallel.running = []) :
      Heading library origin (.parallel parallel)
  | stalled {parallel : Parallel} (without : ¬ EndsAtEnd parallel.steps)
      (quiet : parallel.ready = []) (idle : parallel.running = []) :
      Heading library origin (.parallel parallel)
  | finished {result : RunResult} {steps : List ExecutionStep}
      (same : EndsAtEnd steps → origin.run library = .finished result steps) :
      Heading library origin (.finished result steps)
  | failed (error : RunError) (steps : List ExecutionStep) :
      Heading library origin (.failed error steps)

private theorem close_step {library : NodeLibrary} {parallel : Parallel} {next : Engine}
    {label : EngineLabel} (quiet : parallel.ready = []) (idle : parallel.running = [])
    (taken : (Engine.parallel parallel).Step library label next) :
    next = .finished parallel.result parallel.steps := by
  unfold Engine.Step at taken
  cases label with
  | close =>
      simp only [Engine.step, Parallel.step, quiet, idle] at taken
      cases taken
      rfl
  | complete position seen => simp [Engine.step, Parallel.step, Parallel.complete, idle] at taken
  | launch => simp [Engine.step, Parallel.step, quiet] at taken
  | expire => simp [Engine.step, Parallel.step, idle] at taken
  | advance => cases taken

theorem Heading.step {library : NodeLibrary} {origin : Sequential} {engine next : Engine}
    {label : EngineLabel}
    (forkFree : ∀ parallel, engine = .parallel parallel → origin.context.workflow.ForkFree)
    (heading : Heading library origin engine) (taken : engine.Step library label next) :
    Heading library origin next := by
  cases heading with
  | @pointing _ state points numbered sameRun same =>
      have advance := points.step
        (fun parallel here => sameRun.workflow ▸ forkFree parallel here) taken
      rw [state.run_eq library] at same
      cases advance with
      | stayed launching points =>
          apply Heading.pointing points numbered sameRun
          rw [state.run_eq library]
          exact same
      | @moved _ node output nextNodeId completes running navigated points =>
          apply Heading.pointing points (numbered.moved node output nextNodeId)
          · exact sameRun.trans (state.recordedContext_sameRun output)
          · rw [completes.iterate_next running navigated] at same
            exact same
      | finished iterated =>
          rw [iterated] at same
          exact .finished (fun _ => same)
      | captured iterated quiet idle =>
          rw [iterated] at same
          exact .captured same quiet idle
      | stalled completes running quiet idle steps =>
          apply Heading.stalled _ quiet idle
          rw [steps]
          exact completed_not_end numbered completes running
      | failed error steps => exact .failed error steps
  | captured same quiet idle =>
      rw [close_step quiet idle taken]
      exact .finished (fun _ => same)
  | stalled without quiet idle =>
      rw [close_step quiet idle taken]
      exact .finished (fun ends => absurd ends without)
  | finished same => cases label <;> cases taken
  | failed error steps => cases label <;> cases taken

def Engine.isParallel : Engine → Bool
  | .parallel _ => true
  | _ => false

theorem Engine.Step.isParallel {library : NodeLibrary} {engine next : Engine}
    {label : EngineLabel} (taken : engine.Step library label next)
    (sequential : engine.isParallel = false) : next.isParallel = false := by
  unfold Engine.Step at taken
  cases engine with
  | sequential state =>
      cases label with
      | advance =>
          cases iterated : state.iterate library with
          | stop outcome =>
              simp only [Engine.step, iterated, Option.some.injEq] at taken
              subst taken
              cases outcome <;> rfl
          | next after =>
              simp only [Engine.step, iterated, Option.some.injEq] at taken
              subst taken
              rfl
      | expire =>
          cases taken
          rfl
      | launch => cases taken
      | complete position seen => cases taken
      | close => cases taken
  | parallel state => cases sequential
  | finished result steps => cases label <;> cases taken
  | failed error steps => cases label <;> cases taken

theorem Heading.run {library : NodeLibrary} {origin : Sequential} {first last : Engine}
    {labels : List EngineLabel}
    (forkFree : first.isParallel = true → origin.context.workflow.ForkFree)
    (heading : Heading library origin first)
    (run : Run (Engine.Step library) first labels last) :
    Heading library origin last ∧ (last.isParallel = true → origin.context.workflow.ForkFree) := by
  apply run.invariant (fun engine => Heading library origin engine ∧
    (engine.isParallel = true → origin.context.workflow.ForkFree))
  · exact ⟨heading, forkFree⟩
  · intro engine label next before taken
    constructor
    · apply before.1.step _ taken
      intro parallel here
      apply before.2
      rw [here]
      rfl
    · intro parallel
      apply before.2
      by_contra sequential
      rw [Bool.not_eq_true] at sequential
      rw [taken.isParallel sequential] at parallel
      cases parallel

theorem Heading.start (library : NodeLibrary) (context : ExecutionContext) {startNodeId : String}
    (found : GraphNavigator.findStartNode context.workflow.nodes = .ok startNodeId) :
    Heading library
      { context := context, steps := [], currentNodeId := startNodeId, previousOutput := none }
      (Engine.start context []) := by
  unfold Engine.start
  simp only [found]
  split
  · apply Heading.pointing _ _ (.refl context) rfl
    · exact .ready rfl rfl rfl rfl rfl .initial
    · intro row member
      cases member
  · apply Heading.pointing (.sequential _) _ (.refl context) rfl
    intro row member
    cases member

theorem Points.completion {library : NodeLibrary} {engine : Engine} {state : Sequential}
    {label : EngineLabel} {node : Node} {output : NodeOutput}
    (points : Points library engine state)
    (completed : engine.completion library label = some (node, output)) :
    getNode library state.context.workflow state.currentNodeId = .ok node ∧
      state.outcomeOf library node = .ok output ∧ label ≠ .launch := by
  cases points with
  | sequential =>
      cases label with
      | advance =>
          unfold Engine.completion at completed
          cases allowed : state.context.canExecuteNode state.currentNodeId with
          | some error => simp [allowed] at completed
          | none =>
              cases found : getNode library state.context.workflow state.currentNodeId with
              | error error => simp [allowed, found] at completed
              | ok candidate =>
                  cases ran : state.outcomeOf library candidate with
                  | error error => simp [allowed, found, ran] at completed
                  | ok other =>
                      simp only [allowed, found, ran, Option.some.injEq, Prod.mk.injEq] at completed
                      rw [← completed.1, ← completed.2]
                      exact ⟨rfl, ran, EngineLabel.noConfusion⟩
      | _ => cases completed
  | ready one idle uncaptured context steps unparked =>
      cases label with
      | complete position seen => simp [Engine.completion, idle] at completed
      | _ => cases completed
  | @running parallel _ candidate allowed found quiet one uncaptured context steps unparked =>
      cases label with
      | complete position seen =>
          cases position with
          | succ position => simp [Engine.completion, one] at completed
          | zero =>
              simp only [Engine.completion, one, List.getElem?_cons_zero] at completed
              split at completed
              case isFalse => cases completed
              case isTrue window =>
                rw [outcomeOf_single candidate context steps window] at completed
                cases ran : state.outcomeOf library candidate with
                | error error =>
                    rw [ran] at completed
                    cases completed
                | ok other =>
                    rw [ran] at completed
                    simp only [Option.some.injEq, Prod.mk.injEq] at completed
                    rw [← completed.1, ← completed.2]
                    exact ⟨found, ran, EngineLabel.noConfusion⟩
      | _ => cases completed

/-- After a completed step that is not END the pointer has moved, unless the run has failed
or stalled. -/
theorem Heading.recorded {library : NodeLibrary} {origin : Sequential} {engine next : Engine}
    {label : EngineLabel} {node : Node} {output : NodeOutput}
    (forkFree : engine.isParallel = true → origin.context.workflow.ForkFree)
    (heading : Heading library origin engine) (taken : engine.Step library label next)
    (completed : engine.completion library label = some (node, output))
    (running : node.isTerminal = false) :
    (∃ (state : Sequential) (nextNodeId : String), state.Numbered ∧ origin.context.SameRun state.context ∧
        state.Completes library node output ∧ state.nextOf node output = some nextNodeId ∧
        Points library next (state.moved node output nextNodeId)) ∨
      (∃ parallel : Parallel, next = .parallel parallel ∧ ¬ EndsAtEnd parallel.steps ∧
        parallel.ready = [] ∧ parallel.running = []) ∨
      ∃ error steps, next = .failed error steps := by
  cases heading with
  | @pointing _ state points numbered sameRun same =>
      obtain ⟨found, ran, notLaunch⟩ := points.completion completed
      have forks : ∀ parallel, engine = .parallel parallel →
          state.context.workflow.ForkFree := by
        intro parallel here
        rw [sameRun.workflow]
        apply forkFree
        rw [here]
        rfl
      have unique : ∀ {other : Node} {result : NodeOutput},
          state.Completes library other result → other = node ∧ result = output := by
        intro other result completes
        have sameNode := completes.found.symm.trans found
        cases sameNode
        have sameOutput := completes.ran.symm.trans ran
        cases sameOutput
        exact ⟨rfl, rfl⟩
      have notEnd : ∀ {result steps}, state.iterate library ≠ .stop (.finished result steps) := by
        intro result steps iterated
        obtain ⟨other, others, completes, terminal, _⟩ := Sequential.completes_of_finished iterated
        obtain ⟨rfl, rfl⟩ := unique completes
        rw [running] at terminal
        cases terminal
      cases points.step forks taken with
      | stayed launching points => exact absurd launching notLaunch
      | @moved _ other result nextNodeId completes _ navigated points =>
          obtain ⟨rfl, rfl⟩ := unique completes
          exact .inl ⟨state, nextNodeId, numbered, sameRun, completes, navigated, points⟩
      | finished iterated => exact absurd iterated notEnd
      | captured iterated quiet idle => exact absurd iterated notEnd
      | @stalled parallel other result completes _ quiet idle steps =>
          obtain ⟨rfl, rfl⟩ := unique completes
          apply Or.inr
          apply Or.inl
          refine ⟨parallel, rfl, ?_, quiet, idle⟩
          rw [steps]
          exact completed_not_end numbered completes running
      | failed error steps => exact .inr (.inr ⟨error, steps, rfl⟩)
  | captured same quiet idle =>
      cases label with
      | complete position seen => simp [Engine.completion, idle] at completed
      | _ => cases completed
  | stalled without quiet idle =>
      cases label with
      | complete position seen => simp [Engine.completion, idle] at completed
      | _ => cases completed
  | finished same => cases completed
  | failed error steps => cases completed

theorem run_of_failed {library : NodeLibrary} {error : RunError} {steps : List ExecutionStep}
    {labels : List EngineLabel} {last : Engine}
    (run : Run (Engine.Step library) (.failed error steps) labels last) :
    last = .failed error steps := by
  apply run.invariant (fun engine => engine = .failed error steps) _ rfl
  rintro _ label next rfl taken
  cases label <;> cases taken

theorem run_of_idle {library : NodeLibrary} {parallel : Parallel} {labels : List EngineLabel}
    {last : Engine} (quiet : parallel.ready = []) (idle : parallel.running = [])
    (run : Run (Engine.Step library) (.parallel parallel) labels last) :
    last.steps = parallel.steps := by
  have possible := run.invariant
    (fun engine => engine = .parallel parallel ∨
      engine = .finished parallel.result parallel.steps) _ (.inl rfl)
    (by
      rintro _ label next (rfl | rfl) taken
      · exact .inr (close_step quiet idle taken)
      · cases label <;> cases taken)
  rcases possible with rfl | rfl <;> rfl

end Assemblix
