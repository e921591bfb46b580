import Assemblix.Execution.DagSchedulerThreads
import Assemblix.Execution.GraphAnalysis
import Assemblix.Execution.ParallelAccounting
import Assemblix.Library.Run

/-
The END nodes a parallel run executes against the static check.

Two ENDs are executed from two places the run went on from at once, and every two places come
from one completion that followed two edges. Where these edges leave a node that is no CONDITION
for different targets, the check sees the split; a CONDITION with several edges on one handle, two
back edges to one node and a wave that is split over two are what it does not see.
-/

namespace Assemblix

open Library
open DagScheduler (followedEdges OneWave Parted readyIds readyIds_nil)
open GraphAnalysis

structure EndRun where
  engine : Engine
  ended : List String

section

variable (library : NodeLibrary)

def endedAt : Engine → EngineLabel → List String
  | .parallel state, .complete position seen =>
      match state.running[position]?,
          (Engine.parallel state).completion library (.complete position seen) with
      | some entry, some (node, _) => if node.isTerminal then [entry.launch.nodeId] else []
      | _, _ => []
  | _, _ => []

def EndRun.Step (run : EndRun) (label : EngineLabel) (next : EndRun) : Prop :=
  run.engine.Step library label next.engine ∧
    next.ended = run.ended ++ endedAt library run.engine label

/-- Two edges followed by one completion that leave a split the check looks at, or go on as one,
or do not lead to two ENDs. -/
def Told (workflow : WorkflowDefinition) (plan : DagScheduler.Plan)
    (scheduler : DagScheduler.State Json) (nodeId : String) (left right : EdgeRef) : Prop :=
  (nodeTypeOf workflow.nodes nodeId ≠ some "condition" ∧ left.target ≠ right.target) ∨
    OneWave plan scheduler left right ∨
      ∀ one ∈ reachableEnds workflow.nodes workflow.edges left.target,
        ∀ two ∈ reachableEnds workflow.nodes workflow.edges right.target, one = two

instance (workflow : WorkflowDefinition) (plan : DagScheduler.Plan)
    (scheduler : DagScheduler.State Json) (nodeId : String) :
    DecidableRel (Told workflow plan scheduler nodeId) :=
  fun _ _ => inferInstanceAs (Decidable (_ ∨ _ ∨ _))

/-- The completed node has the type the check takes it to have, and the check is told by any two
of the edges that are followed from it. -/
def checkTold : Engine → EngineLabel → Bool
  | .parallel state, .complete position seen =>
      match state.running[position]?,
          (Engine.parallel state).completion library (.complete position seen) with
      | some entry, some (node, output) =>
          decide (nodeTypeOf state.context.workflow.nodes entry.launch.nodeId =
            (findNode state.context.workflow entry.launch.nodeId).map WorkflowNode.type) &&
          (node.isTerminal ||
            decide ((followedEdges state.plan entry.launch.nodeId
              (node.branchIndex output)).Pairwise
                (Told state.context.workflow state.plan state.scheduler entry.launch.nodeId)))
      | _, _ => true
  | _, _ => true

def EndRun.ToldStep (run : EndRun) (label : EngineLabel) (next : EndRun) : Prop :=
  run.Step library label next ∧ checkTold library run.engine label = true

end

def Parallel.fresh (context : ExecutionContext) (steps : List ExecutionStep) (start : String) :
    Parallel where
  start := start
  context := context
  steps := steps
  scheduler := DagScheduler.State.initial
  ready := DagScheduler.start (DagScheduler.plan context.workflow.nodes context.workflow.edges start)
  running := []
  captured := none

/-! ### What a round launches -/

section

variable {library : NodeLibrary} {state launched : Parallel}

def runningIds (running : List InFlight) : List String :=
  running.map (fun entry => entry.launch.nodeId)

def Looked (library : NodeLibrary) (workflow : WorkflowDefinition) (running : List InFlight) : Prop :=
  ∀ entry ∈ running, getNode library workflow entry.launch.nodeId = .ok entry.node

structure Parallel.PutInFlight (library : NodeLibrary) (state : Parallel) (nodeIds : List String)
    (launched : Parallel) : Prop where
  scheduler : launched.scheduler = state.scheduler
  start : launched.start = state.start
  workflow : launched.context.workflow = state.context.workflow
  ready : launched.ready = state.ready
  running : ∃ fresh, launched.running = state.running ++ fresh ∧ runningIds fresh = nodeIds ∧
    Looked library state.context.workflow fresh

theorem Parallel.launchNode_launches {ready : DagScheduler.ReadyNode Json}
    (started : state.launchNode library ready = .ok launched) :
    state.PutInFlight library [ready.nodeId] launched := by
  obtain ⟨node, found, rfl⟩ := launchNode_ok started
  refine ⟨rfl, rfl, rfl, rfl, _, rfl, rfl, ?_⟩
  intro entry member
  rw [List.mem_singleton.mp member]
  exact found

theorem Parallel.launchAll_launches {pending : List (DagScheduler.ReadyNode Json)} :
    ∀ {state : Parallel}, pending.foldlM (launchNode library) state = .ok launched →
      state.PutInFlight library (readyIds pending) launched := by
  induction pending with
  | nil =>
      intro state done
      cases done
      exact ⟨rfl, rfl, rfl, rfl, [], (List.append_nil _).symm, rfl, by simp [Looked]⟩
  | cons ready rest ih =>
      intro state done
      rw [List.foldlM_cons] at done
      cases launch : state.launchNode library ready with
      | error error =>
          rw [launch] at done
          cases done
      | ok next =>
          rw [launch] at done
          obtain ⟨scheduler, start, workflow, quiet, one, added, id, looked⟩ :=
            launchNode_launches launch
          obtain ⟨schedulerMore, startMore, workflowMore, quietMore, fresh, addedMore, ids,
            lookedMore⟩ := ih done
          refine ⟨schedulerMore.trans scheduler, startMore.trans start, workflowMore.trans workflow,
            quietMore.trans quiet, one ++ fresh, ?_, ?_, ?_⟩
          · rw [addedMore, added, List.append_assoc]
          · unfold runningIds at id ids ⊢
            rw [List.map_append, id, ids]
            rfl
          · intro entry member
            rcases List.mem_append.mp member with member | member
            · exact looked entry member
            · exact workflow ▸ lookedMore entry member

end

/-! ### The places of a run -/

def Parallel.places (state : Parallel) (ended : List String) : List String :=
  ended ++ (runningIds state.running ++ readyIds state.ready)

structure Parallel.Spread (library : NodeLibrary) (workflow : WorkflowDefinition) (start : String)
    (state : Parallel) (ended : List String) : Prop where
  sameWorkflow : state.context.workflow = workflow
  sameStart : state.start = start
  looked : Looked library workflow state.running
  parted : Parted (Apart workflow.nodes workflow.edges)
    (DagScheduler.plan workflow.nodes workflow.edges start) (state.places ended)
    ⟨state.scheduler, []⟩

structure Raced (workflow : WorkflowDefinition) (ended : List String) : Prop where
  ends : ∀ nodeId ∈ ended, nodeId ∈ endIds workflow.nodes
  apart : ended.Pairwise (Apart workflow.nodes workflow.edges)

def EndRun.Sound (library : NodeLibrary) (workflow : WorkflowDefinition) (start : String)
    (run : EndRun) : Prop :=
  Raced workflow run.ended ∧
    match run.engine with
    | .sequential _ => False
    | .parallel state => state.Spread library workflow start run.ended
    | .finished _ _ => True
    | .failed _ _ => True

variable {workflow : WorkflowDefinition} {start : String} {ended : List String}

theorem mem_successors_of_ref {ref : EdgeRef}
    (known : ref ∈ (DagScheduler.plan workflow.nodes workflow.edges start).edges)
    (source : ref.source ∈ nodeIds workflow.nodes) :
    ref.target ∈ successors workflow.nodes workflow.edges ref.source := by
  obtain ⟨listed, target, different⟩ := (mem_validEdges _ _ _).mp known
  refine mem_successors.mpr ⟨ref.edge, ?_, traversable_iff.mpr ⟨target, different, source⟩, rfl, rfl⟩
  rw [← edgeRefs_edge workflow.edges]
  exact List.mem_map.mpr ⟨ref, listed, rfl⟩

theorem Told.apart {scheduler : DagScheduler.State Json} {nodeId : String} {left right : EdgeRef}
    (told : Told workflow (DagScheduler.plan workflow.nodes workflow.edges start) scheduler nodeId
      left right)
    (toLeft : left.target ∈ successors workflow.nodes workflow.edges nodeId)
    (toRight : right.target ∈ successors workflow.nodes workflow.edges nodeId) :
    Apart workflow.nodes workflow.edges left.target right.target ∨
      OneWave (DagScheduler.plan workflow.nodes workflow.edges start) scheduler left right := by
  have target : ∀ {node}, node ∈ successors workflow.nodes workflow.edges nodeId →
      node ∈ nodeIds workflow.nodes := by
    intro node member
    obtain ⟨edge, _, valid, _, rfl⟩ := mem_successors.mp member
    exact (traversable_iff.mp valid).1
  rcases told with ⟨split, different⟩ | wave | one
  · left
    intro first firstEnd second secondEnd reaches alsoReaches apart
    exact mem_detect_of_split split toLeft toRight different firstEnd secondEnd reaches alsoReaches
      apart
  · exact .inr wave
  · left
    intro first firstEnd second secondEnd reaches alsoReaches apart
    have inLeft := (mem_reachableEnds (target toLeft)).mpr ⟨firstEnd, reaches⟩
    have inRight := (mem_reachableEnds (target toRight)).mpr ⟨secondEnd, alsoReaches⟩
    exact absurd (one first inLeft second inRight) apart

/-! ### One step -/

section

variable {library : NodeLibrary} {state : Parallel} {label : EngineLabel}

theorem Raced.nil (workflow : WorkflowDefinition) : Raced workflow [] :=
  ⟨by simp, List.Pairwise.nil⟩

theorem Parallel.Completes.endedAt {position seen : Nat} {entry : InFlight} {output : NodeOutput}
    (completes : state.Completes library position seen entry output) :
    endedAt library (.parallel state) (.complete position seen) =
      if entry.node.isTerminal then [entry.launch.nodeId] else [] := by
  simp only [Assemblix.endedAt, completes.inFlight, completes.completion]

theorem Parallel.Completes.told {position seen : Nat} {entry : InFlight} {output : NodeOutput}
    (completes : state.Completes library position seen entry output)
    (told : checkTold library (.parallel state) (.complete position seen) = true) :
    nodeTypeOf state.context.workflow.nodes entry.launch.nodeId =
        (findNode state.context.workflow entry.launch.nodeId).map WorkflowNode.type ∧
      (entry.node.isTerminal = false →
        (followedEdges state.plan entry.launch.nodeId (entry.node.branchIndex output)).Pairwise
          (Told state.context.workflow state.plan state.scheduler entry.launch.nodeId)) := by
  simp only [checkTold, completes.inFlight, completes.completion, Bool.and_eq_true,
    Bool.or_eq_true, decide_eq_true_iff] at told
  refine ⟨told.1, fun running => ?_⟩
  rw [running] at told
  exact told.2.resolve_left Bool.false_ne_true

theorem Parallel.places_perm {position : Nat} {entry : InFlight}
    (inFlight : state.running[position]? = some entry) (ended : List String) :
    (state.places ended).Perm (entry.launch.nodeId ::
      (ended ++ (runningIds (state.running.eraseIdx position) ++ readyIds state.ready))) := by
  obtain ⟨bound, same⟩ := List.getElem?_eq_some_iff.mp inFlight
  have running : (runningIds state.running).Perm
      (entry.launch.nodeId :: runningIds (state.running.eraseIdx position)) := by
    have split := (List.getElem_cons_eraseIdx_perm bound).symm
    rw [same] at split
    exact split.map (fun entry : InFlight => entry.launch.nodeId)
  unfold places
  exact ((running.append_right _).append_left ended).trans List.perm_middle

theorem Parallel.Spread.known (spread : state.Spread library workflow start ended) {position : Nat}
    {entry : InFlight} (inFlight : state.running[position]? = some entry) :
    getNode library workflow entry.launch.nodeId = .ok entry.node :=
  spread.looked entry (List.mem_of_getElem? inFlight)

theorem Parallel.Spread.raced (spread : state.Spread library workflow start ended)
    (raced : Raced workflow ended) (told : checkTold library (.parallel state) label = true) :
    Raced workflow (ended ++ endedAt library (.parallel state) label) := by
  have unchanged : Raced workflow (ended ++ []) := by
    rw [List.append_nil]
    exact raced
  cases label with
  | complete position seen =>
      unfold endedAt
      dsimp only
      cases inFlight : state.running[position]? with
      | none => exact unchanged
      | some entry =>
          cases completed : (Engine.parallel state).completion library (.complete position seen) with
          | none => exact unchanged
          | some done =>
              obtain ⟨node, output⟩ := done
              dsimp only
              cases terminal : node.isTerminal with
              | false => exact unchanged
              | true =>
                  rw [if_pos rfl]
                  simp only [checkTold, inFlight, completed, Bool.and_eq_true,
                    decide_eq_true_iff] at told
                  have same : entry.node = node := by
                    simp only [Engine.completion, inFlight] at completed
                    split at completed
                    case isTrue =>
                      split at completed
                      · cases completed
                      · cases completed
                        rfl
                    case isFalse => cases completed
                  obtain ⟨found, member, named, located, _, ends⟩ :=
                    getNode_found (spread.known inFlight)
                  have type : found.type = "end" := ends.mpr (same ▸ terminal)
                  have typed : nodeTypeOf workflow.nodes entry.launch.nodeId = some "end" := by
                    rw [← spread.sameWorkflow, told.1, spread.sameWorkflow, located, Option.map_some,
                      type]
                  have isEnd : entry.launch.nodeId ∈ endIds workflow.nodes :=
                    List.mem_filter.mpr ⟨List.mem_map.mpr ⟨found, member, named⟩,
                      decide_eq_true typed⟩
                  have listed := spread.parted.listed
                  rw [readyIds_nil, List.append_nil, Parallel.places, List.pairwise_append] at listed
                  have inPlaces : entry.launch.nodeId ∈
                      runningIds state.running ++ readyIds state.ready :=
                    List.mem_append_left _
                      (List.mem_map.mpr ⟨entry, List.mem_of_getElem? inFlight, rfl⟩)
                  constructor
                  · intro nodeId there
                    rcases List.mem_append.mp there with there | there
                    · exact raced.ends nodeId there
                    · rw [List.mem_singleton.mp there]
                      exact isEnd
                  · rw [List.pairwise_append]
                    refine ⟨raced.apart, List.pairwise_singleton _ _, ?_⟩
                    intro earlier there last same
                    rw [List.mem_singleton.mp same]
                    exact listed.2.2 earlier there _ inPlaces
  | _ => exact unchanged

theorem Parallel.Spread.launch {launched : Parallel}
    (spread : state.Spread library workflow start ended)
    (started : state.launchReady library = .ok launched) :
    launched.Spread library workflow start ended := by
  obtain ⟨scheduler, sameStart, sameWorkflow, quiet, fresh, added, ids, looked⟩ :=
    Parallel.launchAll_launches started
  refine ⟨sameWorkflow.trans spread.sameWorkflow, sameStart.trans spread.sameStart, ?_, ?_⟩
  · rw [added]
    intro entry member
    rcases List.mem_append.mp member with member | member
    · exact spread.looked entry member
    · exact spread.sameWorkflow ▸ looked entry member
  · have places : launched.places ended = state.places ended := by
      unfold Parallel.places
      rw [added, quiet]
      unfold runningIds at ids ⊢
      rw [List.map_append, ids]
      change ended ++ (_ ++ _ ++ []) = _
      rw [List.append_nil]
    rw [places, scheduler]
    exact spread.parted

theorem Looked.eraseIdx {running : List InFlight} (looked : Looked library workflow running)
    (position : Nat) : Looked library workflow (running.eraseIdx position) :=
  fun entry member => looked entry (List.mem_of_mem_eraseIdx member)

theorem Parallel.Spread.capture {position seen : Nat} {entry : InFlight} {output : NodeOutput}
    (spread : state.Spread library workflow start ended)
    (completes : state.Completes library position seen entry output) :
    ((state.record position entry output).capture output).Spread library workflow start
      (ended ++ [entry.launch.nodeId]) := by
  have same : ((state.record position entry output).capture output).context.workflow =
      state.context.workflow := by
    have recorded := (applyOutput_sameRun state.context output).workflow
    unfold Parallel.capture
    split
    · exact recorded
    · exact recorded
  have running : ((state.record position entry output).capture output).running =
      state.running.eraseIdx position := Parallel.capture_running _ _
  have rest : ((state.record position entry output).capture output).ready = state.ready ∧
      ((state.record position entry output).capture output).scheduler = state.scheduler ∧
      ((state.record position entry output).capture output).start = state.start := by
    unfold Parallel.capture
    split <;> exact ⟨rfl, rfl, rfl⟩
  refine ⟨same.trans spread.sameWorkflow, rest.2.2.trans spread.sameStart, ?_, ?_⟩
  · rw [running]
    exact spread.looked.eraseIdx position
  · rw [rest.2.1]
    refine Parted.perm Apart.symm spread.parted ?_
    refine (Parallel.places_perm completes.inFlight ended).trans ?_
    unfold Parallel.places
    rw [running, rest.1, List.append_assoc]
    exact List.perm_middle.symm

theorem Parallel.Spread.route {position seen : Nat} {entry : InFlight} {output : NodeOutput}
    (spread : state.Spread library workflow start ended)
    (completes : state.Completes library position seen entry output)
    (running : entry.node.isTerminal = false)
    (told : checkTold library (.parallel state) (.complete position seen) = true) :
    ((state.record position entry output).route entry output).Spread library workflow start
      ended := by
  have recorded := (applyOutput_sameRun state.context output).workflow
  have plan : (state.record position entry output).plan =
      DagScheduler.plan workflow.nodes workflow.edges start := by
    change DagScheduler.plan (applyOutput state.context output).workflow.nodes
      (applyOutput state.context output).workflow.edges state.start = _
    rw [recorded, spread.sameWorkflow, spread.sameStart]
  have planBefore : state.plan = DagScheduler.plan workflow.nodes workflow.edges start := by
    unfold Parallel.plan
    rw [spread.sameWorkflow, spread.sameStart]
  obtain ⟨_, pairs⟩ := completes.told told
  have pairs := pairs running
  rw [planBefore, spread.sameWorkflow] at pairs
  obtain ⟨found, member, named, _⟩ := getNode_found (spread.known completes.inFlight)
  have source : entry.launch.nodeId ∈ nodeIds workflow.nodes :=
    List.mem_map.mpr ⟨found, member, named⟩
  have moved := Parted.perm Apart.symm spread.parted
    (Parallel.places_perm completes.inFlight ended)
  have toTarget : ∀ ref ∈ followedEdges (DagScheduler.plan workflow.nodes workflow.edges start)
      entry.launch.nodeId (entry.node.branchIndex output),
      ref.target ∈ successors workflow.nodes workflow.edges entry.launch.nodeId := by
    intro ref followed
    obtain ⟨known, from'⟩ := (DagScheduler.Plan.mem_out _ _ _).mp
      (DagScheduler.followed_outgoing _ _ _ ref followed)
    have edge := mem_successors_of_ref known (from' ▸ source)
    rw [from'] at edge
    exact edge
  have settled := (moved.complete Apart.symm
    (fun ref followed other apart => apart.successor (toTarget ref followed))
    (pairs.imp_of_mem (fun left right pair => pair.apart (toTarget _ left) (toTarget _ right)))
    output.data).settle
  have completed := DagScheduler.complete_eq (DagScheduler.plan workflow.nodes workflow.edges start)
    state.scheduler entry.launch.nodeId output.data (entry.node.branchIndex output)
  rw [← completed.1, ← completed.2] at settled
  have workflowAfter : ((state.record position entry output).route entry output).context.workflow =
      workflow := recorded.trans spread.sameWorkflow
  refine ⟨workflowAfter, spread.sameStart, spread.looked.eraseIdx position, ?_⟩
  have routed : (state.record position entry output).route entry output =
      { state.record position entry output with
        scheduler := (DagScheduler.complete (DagScheduler.plan workflow.nodes workflow.edges start)
          state.scheduler entry.launch.nodeId output.data (entry.node.branchIndex output) false).1
        ready := state.ready ++ (DagScheduler.complete
          (DagScheduler.plan workflow.nodes workflow.edges start) state.scheduler
          entry.launch.nodeId output.data (entry.node.branchIndex output) false).2.ready } := by
    unfold Parallel.route
    rw [plan]
    rfl
  rw [routed]
  refine Parted.perm Apart.symm settled (List.Perm.of_eq ?_)
  unfold Parallel.places readyIds
  rw [List.map_append, List.append_assoc, List.append_assoc]
  rfl

theorem EndRun.Sound.step {run next : EndRun} (sound : run.Sound library workflow start)
    (taken : run.ToldStep library label next) : next.Sound library workflow start := by
  obtain ⟨⟨step, ended⟩, told⟩ := taken
  obtain ⟨raced, spread⟩ := sound
  obtain ⟨engine, before⟩ := run
  obtain ⟨reached, after⟩ := next
  dsimp only at raced spread step ended told
  subst ended
  cases engine with
  | sequential state => exact spread.elim
  | finished result steps => cases label <;> cases step
  | failed error steps => cases label <;> cases step
  | parallel state =>
      refine ⟨Parallel.Spread.raced spread raced told, ?_⟩
      rcases Parallel.step_cases step with ⟨error, steps, rfl⟩ | moves
      · trivial
      · cases moves with
        | launch some started =>
            change Parallel.Spread library workflow start _ (before ++ [])
            rw [List.append_nil]
            exact Parallel.Spread.launch spread started
        | @capture position seen entry output completes terminal =>
            dsimp only
            rw [completes.endedAt, if_pos terminal]
            exact Parallel.Spread.capture spread completes
        | @route position seen entry output completes running =>
            dsimp only
            rw [completes.endedAt, running, if_neg Bool.false_ne_true, List.append_nil]
            exact Parallel.Spread.route spread completes running told
        | close quiet idle => trivial

/-- In a run in which the check is told of every two edges followed by one completion, two ENDs
that are executed are both reported. -/
theorem parallel_ends_reported (context : ExecutionContext) (steps : List ExecutionStep)
    {labels : List EngineLabel} {last : EndRun}
    (run : Run (EndRun.ToldStep library)
      ⟨.parallel (Parallel.fresh context steps start), []⟩ labels last) :
    ∀ one ∈ last.ended, ∀ two ∈ last.ended, one ≠ two →
      one ∈ detectParallelEnds context.workflow.nodes context.workflow.edges ∧
        two ∈ detectParallelEnds context.workflow.nodes context.workflow.edges := by
  have initially : EndRun.Sound library context.workflow start
      ⟨.parallel (Parallel.fresh context steps start), []⟩ :=
    ⟨Raced.nil context.workflow, rfl, rfl, by simp [Looked, Parallel.fresh],
      (Parted.start (Apart context.workflow.nodes context.workflow.edges) _).settle⟩
  obtain ⟨raced, _⟩ := run.invariant (EndRun.Sound library context.workflow start) _ initially
    (fun _ _ _ sound taken => sound.step taken)
  intro one first two second different
  have apart : Apart context.workflow.nodes context.workflow.edges one two :=
    raced.apart.forall first second different
  exact apart one (raced.ends one first) two (raced.ends two second) .refl .refl different

end

/-! ### Two runs -/

def silentAgents : NodeLibrary where
  registered := fun nodeType => decide (nodeType = "agent")
  execute := fun _ _ => .ok { data := Dict.empty }
  evaluate := fun _ _ => .ok true
  render := fun text _ => text

def contextOf (workflow : WorkflowDefinition) : ExecutionContext where
  workflow := workflow
  state := Dict.empty
  projectState := Dict.empty
  inputData := Dict.empty
  stepNumber := 0
  visitedNodes := []
  nodeExecutionCount := Dict.empty

def forkedEnds : WorkflowDefinition where
  nodes := [⟨"start", "start"⟩, ⟨"first", "end"⟩, ⟨"second", "end"⟩]
  edges := [⟨"start", "first", none⟩, ⟨"start", "second", none⟩]
  conditions := fun _ => []
  endConfig := fun _ => {}

def sharedHandle : WorkflowDefinition where
  nodes := [⟨"start", "start"⟩, ⟨"note", "agent"⟩, ⟨"choice", "condition"⟩, ⟨"first", "end"⟩,
    ⟨"second", "end"⟩]
  edges := [⟨"start", "note", none⟩, ⟨"start", "choice", none⟩,
    ⟨"choice", "first", some "source_choice_0"⟩, ⟨"choice", "second", some "source_choice_0"⟩]
  conditions := fun _ => []
  endConfig := fun _ => {}

def EndRun.step (library : NodeLibrary) (run : EndRun) (label : EngineLabel) : Option EndRun :=
  (run.engine.step library label).map (fun engine =>
    ⟨engine, run.ended ++ endedAt library run.engine label⟩)

def EndRun.toldStep (library : NodeLibrary) (run : EndRun) (label : EngineLabel) : Option EndRun :=
  if checkTold library run.engine label then run.step library label else none

theorem EndRun.step_of_eq {library : NodeLibrary} {run next : EndRun} {label : EngineLabel}
    (taken : run.step library label = some next) : run.Step library label next := by
  obtain ⟨engine, step, rfl⟩ := Option.map_eq_some_iff.mp taken
  exact ⟨step, rfl⟩

theorem EndRun.toldStep_of_eq {library : NodeLibrary} {run next : EndRun} {label : EngineLabel}
    (taken : run.toldStep library label = some next) : run.ToldStep library label next := by
  unfold toldStep at taken
  split at taken
  case isTrue told => exact ⟨step_of_eq taken, told⟩
  case isFalse => cases taken

theorem parallel_ends_reported_forked :
    ∃ last, Run (EndRun.ToldStep silentAgents)
        ⟨.parallel (Parallel.fresh (contextOf forkedEnds) [] "start"), []⟩
        [.launch, .complete 0 0, .launch, .complete 1 1, .complete 0 2, .close] last ∧
      last.ended = ["second", "first"] ∧
      "first" ∈ detectParallelEnds forkedEnds.nodes forkedEnds.edges ∧
      "second" ∈ detectParallelEnds forkedEnds.nodes forkedEnds.edges := by
  obtain ⟨last, computed, ended⟩ := Run.of_foldlM_map (EndRun.toldStep silentAgents)
    ⟨.parallel (Parallel.fresh (contextOf forkedEnds) [] "start"), []⟩
    [.launch, .complete 0 0, .launch, .complete 1 1, .complete 0 2, .close] EndRun.ended
    ["second", "first"] (by decide +kernel)
  have run := computed.mono (fun _ _ _ taken => EndRun.toldStep_of_eq taken)
  have reported := parallel_ends_reported (contextOf forkedEnds) [] run "first" (by simp [ended])
    "second" (by simp [ended]) (by decide)
  exact ⟨last, run, ended, reported.1, reported.2⟩

/-- The CONDITION takes one branch, both ENDs are executed and none is reported. -/
theorem shared_handle_ends :
    (∃ last, Run (EndRun.Step silentAgents) ⟨Engine.start (contextOf sharedHandle) [], []⟩
        [.launch, .complete 0 0, .launch, .complete 1 1, .launch, .complete 1 2, .complete 1 3,
          .complete 0 4, .close] last ∧
      last.ended = ["first", "second"]) ∧
    detectParallelEnds sharedHandle.nodes sharedHandle.edges = [] := by
  constructor
  · obtain ⟨last, computed, ended⟩ := Run.of_foldlM_map (EndRun.step silentAgents)
      ⟨Engine.start (contextOf sharedHandle) [], []⟩
      [.launch, .complete 0 0, .launch, .complete 1 1, .launch, .complete 1 2, .complete 1 3,
        .complete 0 4, .close] EndRun.ended ["first", "second"] (by decide +kernel)
    exact ⟨last, computed.mono (fun _ _ _ taken => EndRun.step_of_eq taken), ended⟩
  · decide +kernel

end Assemblix
