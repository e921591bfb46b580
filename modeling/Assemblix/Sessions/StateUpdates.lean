import Assemblix.Library.Run
import Assemblix.Execution.Resume
import Assemblix.Sessions.Database

/-
Executions that share sessions.

A run loads the whole state of its sessions, works on its copy and at the end merges the
whole copy back. The steps of several executions interleave in any order. Writing back is
meant to merge the updates of the run; it does exactly that when the session still has the
loaded value of every variable that the run holds without having written it.
-/

namespace Assemblix

open Library

/-- What a run has read from a session and the updates it has made since. -/
structure Snapshot where
  loaded : Data
  written : Data

namespace Snapshot

def note (snapshot : Snapshot) (updates : Data) : Snapshot :=
  { snapshot with written := snapshot.written.merge updates }

/-- The updates that are left in the state the run reports. -/
def kept (snapshot : Snapshot) (held : Data) : Data := snapshot.written.restrict held.contains

def Covers (snapshot : Snapshot) (held : Data) : Prop :=
  ∀ key value, held.lookup key = some value → snapshot.written.lookup key = none →
    snapshot.loaded.lookup key = some value

/-- Written variables are held with the value written, and the session still has the loaded
value of the others. -/
def fresh (snapshot : Snapshot) (current held : Data) : Bool :=
  held.keys.all (fun key => match snapshot.written.lookup key with
    | some value => decide (held.lookup key = some value)
    | none => decide (current.lookup key = snapshot.loaded.lookup key))

theorem Covers.note {snapshot : Snapshot} {held : Data} (covers : snapshot.Covers held)
    (updates : Data) : (snapshot.note updates).Covers held := by
  intro key value holds unwritten
  apply covers key value holds
  change (snapshot.written.merge updates).lookup key = none at unwritten
  rw [Dict.lookup_merge, Option.or_eq_none_iff] at unwritten
  exact unwritten.2

theorem Covers.merge {snapshot : Snapshot} {held : Data} (covers : snapshot.Covers held)
    (updates : Data) : (snapshot.note updates).Covers (held.merge updates) := by
  intro key value holds unwritten
  change (snapshot.written.merge updates).lookup key = none at unwritten
  rw [Dict.lookup_merge, Option.or_eq_none_iff] at unwritten
  rw [Dict.lookup_merge_right held updates unwritten.1] at holds
  exact covers key value holds unwritten.2

theorem Covers.filter {snapshot : Snapshot} {shared read : Data} (covers : snapshot.Covers shared)
    (reads : snapshot.Covers read) (mode : EndFilter) (selected : List String) :
    snapshot.Covers ((EndNode.filterState read mode selected).getD shared) := by
  cases filtered : EndNode.filterState read mode selected with
  | none => exact covers
  | some kept =>
      intro key value holds unwritten
      exact reads key value (EndNode.filterState_lookup filtered holds) unwritten

theorem covers_overridden (loaded overrides : Data) :
    Covers ⟨loaded, overrides⟩ (loaded.merge overrides) := by
  intro key value holds unwritten
  rw [Dict.lookup_merge_right loaded overrides unwritten] at holds
  exact holds

theorem lookup_kept (snapshot : Snapshot) (held : Data) (key : String) :
    (snapshot.kept held).lookup key =
      if held.contains key then snapshot.written.lookup key else none :=
  Dict.lookup_restrict _ _ _

theorem fresh_iff {snapshot : Snapshot} {held : Data} (covers : snapshot.Covers held)
    (current : Data) :
    snapshot.fresh current held = true ↔
      ∀ key, (current.merge held).lookup key = (current.merge (snapshot.kept held)).lookup key := by
  unfold fresh
  rw [List.all_eq_true]
  constructor
  · intro agree key
    rw [Dict.lookup_merge, Dict.lookup_merge, lookup_kept]
    cases holds : held.lookup key with
    | none => simp [Dict.contains, holds]
    | some value =>
        have present := agree key ((Dict.mem_keys held key).mpr ⟨value, holds⟩)
        have held : held.contains key = true := by rw [Dict.contains, holds]; rfl
        rw [if_pos held, Option.some_or]
        cases written : snapshot.written.lookup key with
        | some update =>
            simp only [written, decide_eq_true_eq, holds] at present
            rw [present, Option.some_or]
        | none =>
            simp only [written, decide_eq_true_eq] at present
            rw [Option.none_or, present, covers key value holds written]
  · intro same key member
    obtain ⟨value, holds⟩ := (Dict.mem_keys held key).mp member
    have agrees := same key
    have present : held.contains key = true := by rw [Dict.contains, holds]; rfl
    rw [Dict.lookup_merge, Dict.lookup_merge, lookup_kept, if_pos present, holds,
      Option.some_or] at agrees
    cases written : snapshot.written.lookup key with
    | some update =>
        rw [written, Option.some_or] at agrees
        simp only [decide_eq_true_eq, holds, agrees]
    | none =>
        rw [written, Option.none_or] at agrees
        simp only [decide_eq_true_eq, ← agrees, covers key value holds written]

end Snapshot

/-! ### One execution -/

structure ExecutionRequest where
  workflow : Workflow
  chatSessionId : Option String
  clientSessionId : Option String
  inputData : Data

inductive Phase
  | arrived
  | synced
  | running (engine : Engine) (chat client : Snapshot)
  | finished (chat client : Data)

inductive SessionAction
  | syncSchema
  | loadState
  | run (label : EngineLabel)
  | writeBack
  deriving DecidableEq, Repr

def completedUpdates : Option (Node × NodeOutput) → Data × Data
  | some (_, output) =>
      (output.stateUpdates.getD Dict.empty, output.projectUpdates.getD Dict.empty)
  | none => (Dict.empty, Dict.empty)

namespace ExecutionRequest

variable (conversions : Conversions) (library : NodeLibrary) (request : ExecutionRequest)

def sync (database : Database) : Option Database :=
  match request.clientSessionId, database.projects.lookup request.workflow.projectId with
  | some sessionId, some project => database.syncSchema sessionId project.stateSchema
  | none, some _ => some database
  | _, none => none

def load (database : Database) : Option Phase := do
  let project ← database.projects.lookup request.workflow.projectId
  let customState ← overridesOf request.inputData "state"
  let customProjectState ← overridesOf request.inputData "project_state"
  let loaded ← database.baseState request.workflow request.chatSessionId
  let loadedProject ← database.baseProjectState project request.clientSessionId
  let (state, projectState) ← database.loadInitialState conversions request.workflow project
    request.chatSessionId request.clientSessionId customState customProjectState
  some (.running
    (Engine.start
      (prepareContext request.workflow.definition request.inputData state projectState
        (database.loadHistory request.chatSessionId false none request.inputData) none) [])
    ⟨loaded, coercedOverrides conversions customState (typesByName request.workflow.state)⟩
    ⟨loadedProject,
      coercedOverrides conversions customProjectState (typesByName project.stateSchema)⟩)

def act (database : Database) : Phase → SessionAction → Option (Database × Phase)
  | .arrived, .syncSchema => (request.sync database).map (fun synced => (synced, .synced))
  | .synced, .loadState => (request.load conversions database).map (fun phase => (database, phase))
  | .running engine chat client, .run label =>
      let (updates, projectUpdates) := completedUpdates (engine.completion library label)
      (engine.step library label).map (fun next =>
        (database, .running next (chat.note updates) (client.note projectUpdates)))
  | .running (.finished result _) chat client, .writeBack =>
      (database.saveStates request.chatSessionId request.clientSessionId result.context.state
        result.context.projectState).map (fun saved =>
          (saved, .finished (chat.kept result.context.state)
            (client.kept result.context.projectState)))
  | _, _ => none

def written (phase : Phase) (ref : SessionRef) : Data :=
  match phase with
  | .finished chat client =>
      Database.updatesFor request.chatSessionId request.clientSessionId chat client ref
  | _ => Dict.empty

def careful (database : Database) : Phase → SessionAction → Bool
  | .running (.finished result _) chat client, .writeBack =>
      (match request.chatSessionId with
        | some sessionId =>
            chat.fresh ((database.stateOf (.chat sessionId)).getD Dict.empty) result.context.state
        | none => true) &&
      (match request.clientSessionId with
        | some sessionId =>
            client.fresh ((database.stateOf (.client sessionId)).getD Dict.empty)
              result.context.projectState
        | none => true)
  | _, _ => true

end ExecutionRequest

/-! ### All executions -/

structure Workload where
  conversions : Conversions
  libraries : String → NodeLibrary
  requests : String → ExecutionRequest

structure SharedSessions where
  database : Database
  phases : String → Phase

namespace SharedSessions

def initial (database : Database) : SharedSessions :=
  { database := database, phases := fun _ => .arrived }

def step (workload : Workload) (system : SharedSessions) (label : String × SessionAction) :
    Option SharedSessions :=
  ((workload.requests label.1).act workload.conversions (workload.libraries label.1)
    system.database (system.phases label.1) label.2).map (fun acted =>
      { database := acted.1, phases := Function.update system.phases label.1 acted.2 })

def carefulStep (workload : Workload) (system : SharedSessions) (label : String × SessionAction) :
    Option SharedSessions :=
  if (workload.requests label.1).careful system.database (system.phases label.1) label.2 then
    system.step workload label
  else none

def CarefulStep (workload : Workload) (system : SharedSessions)
    (label : String × SessionAction) (next : SharedSessions) : Prop :=
  system.carefulStep workload label = some next

def written (workload : Workload) (system : SharedSessions) (id : String) (ref : SessionRef) :
    Data :=
  (workload.requests id).written (system.phases id) ref

def WritesDisjoint (workload : Workload) (system : SharedSessions) : Prop :=
  ∀ left right, left ≠ right → ∀ ref key,
    (system.written workload left ref).lookup key = none ∨
      (system.written workload right ref).lookup key = none

/-- Every variable an execution has written has its value, and every variable that was there
and that nobody has written has its old one. -/
def KeepsUpdates (workload : Workload) (first : Database) (system : SharedSessions) : Prop :=
  ∀ ref key value,
    (∀ id, (system.written workload id ref).lookup key = some value →
      system.database.read ref key = some value) ∧
    (first.read ref key = some value →
      (∀ id, (system.written workload id ref).lookup key = none) →
        system.database.read ref key = some value)

end SharedSessions

/-! ### What a run holds -/

structure ContextCovered (chat client : Snapshot) (context : ExecutionContext) : Prop where
  state : chat.Covers context.state
  projectState : client.Covers context.projectState

/-- So do the inputs of the nodes in flight, which END's filters read. -/
inductive EngineCovered (chat client : Snapshot) : Engine → Prop
  | sequential {state : Sequential} (context : ContextCovered chat client state.context) :
      EngineCovered chat client (.sequential state)
  | parallel {state : Parallel} (context : ContextCovered chat client state.context)
      (inputs : ∀ entry ∈ state.running,
        chat.Covers entry.input.state ∧ client.Covers entry.input.projectState) :
      EngineCovered chat client (.parallel state)
  | finished {result : RunResult} {steps : List ExecutionStep}
      (context : ContextCovered chat client result.context) :
      EngineCovered chat client (.finished result steps)
  | failed {error : RunError} {steps : List ExecutionStep} :
      EngineCovered chat client (.failed error steps)

namespace ContextCovered

variable {chat client : Snapshot} {context : ExecutionContext}

theorem applyOutput (covered : ContextCovered chat client context) (output : NodeOutput) :
    ContextCovered (chat.note (output.stateUpdates.getD Dict.empty))
      (client.note (output.projectUpdates.getD Dict.empty)) (applyOutput context output) where
  state := by
    rw [applyOutput_state]
    exact covered.state.merge _
  projectState := by
    rw [applyOutput_projectState]
    exact covered.projectState.merge _

theorem endResult (covered : ContextCovered chat client context) (config : EndNodeConfig)
    (library : NodeLibrary) (steps : List ExecutionStep) (input : NodeInput)
    (reads : chat.Covers input.state) (readsProject : client.Covers input.projectState) :
    ContextCovered chat client
      (endResult context (EndNode.execute config library steps input)).context where
  state := covered.state.filter reads _ _
  projectState := covered.projectState.filter readsProject _ _

theorem launchReady {library : NodeLibrary} {parallel launched : Parallel}
    (covered : ContextCovered chat client parallel.context)
    (inputs : ∀ entry ∈ parallel.running,
      chat.Covers entry.input.state ∧ client.Covers entry.input.projectState)
    (started : parallel.launchReady library = .ok launched) :
    EngineCovered chat client (.parallel launched) := by
  apply Parallel.launchReady_invariant started
    (fun reached => EngineCovered chat client (.parallel reached))
  · exact .parallel covered inputs
  · intro ready first next before launch
    obtain ⟨node, _, rfl⟩ := Parallel.launchNode_ok launch
    cases before with
    | parallel covered inputs =>
        apply EngineCovered.parallel
        · exact ⟨covered.state, covered.projectState⟩
        · intro entry member
          rcases List.mem_append.mp member with old | new
          · exact inputs entry old
          · rw [List.mem_singleton.mp new]
            exact ⟨covered.state, covered.projectState⟩

end ContextCovered

namespace EngineCovered

variable {library : NodeLibrary} {chat client : Snapshot} {label : EngineLabel} {next : Engine}

theorem start {context : ExecutionContext} (covered : ContextCovered chat client context)
    (steps : List ExecutionStep) : EngineCovered chat client (Engine.start context steps) := by
  unfold Engine.start
  split
  · exact .failed
  · split
    · apply EngineCovered.parallel covered
      intro entry member
      cases member
    · exact .sequential covered

private theorem complete {parallel : Parallel} {position seen : Nat} {entry : InFlight}
    {output : NodeOutput} (covered : ContextCovered chat client parallel.context)
    (inputs : ∀ entry ∈ parallel.running,
      chat.Covers entry.input.state ∧ client.Covers entry.input.projectState)
    (completes : parallel.Completes library position seen entry output) :
    ContextCovered (chat.note (output.stateUpdates.getD Dict.empty))
        (client.note (output.projectUpdates.getD Dict.empty))
        (parallel.record position entry output).context ∧
      (∀ other ∈ (parallel.record position entry output).running,
        (chat.note (output.stateUpdates.getD Dict.empty)).Covers other.input.state ∧
          (client.note (output.projectUpdates.getD Dict.empty)).Covers other.input.projectState) ∧
      (chat.note (output.stateUpdates.getD Dict.empty)).Covers entry.input.state ∧
      (client.note (output.projectUpdates.getD Dict.empty)).Covers entry.input.projectState := by
  have noted : ∀ other ∈ parallel.running,
      (chat.note (output.stateUpdates.getD Dict.empty)).Covers other.input.state ∧
        (client.note (output.projectUpdates.getD Dict.empty)).Covers other.input.projectState :=
    fun other member => ⟨(inputs other member).1.note _, (inputs other member).2.note _⟩
  refine ⟨covered.applyOutput output, ?_, noted entry (List.mem_of_getElem? completes.inFlight)⟩
  intro other member
  exact noted other (List.mem_of_mem_eraseIdx member)

private theorem capture {parallel : Parallel} {position seen : Nat} {entry : InFlight}
    {output : NodeOutput} (covered : ContextCovered chat client parallel.context)
    (inputs : ∀ entry ∈ parallel.running,
      chat.Covers entry.input.state ∧ client.Covers entry.input.projectState)
    (completes : parallel.Completes library position seen entry output)
    (terminal : entry.node.isTerminal = true) :
    EngineCovered (chat.note (output.stateUpdates.getD Dict.empty))
      (client.note (output.projectUpdates.getD Dict.empty))
      (.parallel ((parallel.record position entry output).capture output)) := by
  obtain ⟨recorded, running, reads, readsProject⟩ := complete covered inputs completes
  obtain ⟨config, _, executed⟩ := Node.execute_terminal terminal completes.ran
  have filtered := recorded.endResult config library (parallel.steps.take seen) entry.input
    reads readsProject
  rw [← executed] at filtered
  unfold Parallel.capture
  split
  · exact .parallel recorded running
  · exact .parallel filtered running

theorem step {engine : Engine} (covered : EngineCovered chat client engine)
    (taken : engine.Step library label next) :
    EngineCovered (chat.note (completedUpdates (engine.completion library label)).1)
      (client.note (completedUpdates (engine.completion library label)).2) next := by
  cases covered with
  | @sequential state context =>
      rcases Sequential.step_cases taken with
        ⟨error, steps, rfl⟩ | ⟨node, output, rfl, completes, outcome⟩
      · exact .failed
      · rw [completes.completion]
        have recorded := context.applyOutput output
        rcases outcome with ⟨_, nextNodeId, rfl⟩ | ⟨terminal, rfl⟩
        · exact .sequential ⟨recorded.state, recorded.projectState⟩
        · obtain ⟨config, _, executed⟩ := Node.execute_terminal terminal completes.ran
          have visited : ContextCovered (chat.note (output.stateUpdates.getD Dict.empty))
              (client.note (output.projectUpdates.getD Dict.empty))
              (state.recordedContext output) := ⟨recorded.state, recorded.projectState⟩
          have filtered := visited.endResult config library state.steps
            (nodeInput state.context (inputData state.context node state.previousOutput))
            (context.state.note _) (context.projectState.note _)
          rw [← executed] at filtered
          exact .finished filtered
  | @parallel state context inputs =>
      rcases Parallel.step_cases taken with ⟨error, steps, rfl⟩ | moves
      · exact .failed
      · cases moves with
        | launch some started => exact context.launchReady inputs started
        | close quiet idle =>
            apply EngineCovered.finished
            rw [Parallel.result_context]
            exact context
        | capture completes terminal =>
            rw [completes.completion]
            exact capture context inputs completes terminal
        | route completes running =>
            rw [completes.completion]
            obtain ⟨recorded, running, _⟩ := complete context inputs completes
            exact .parallel recorded running
  | finished context => cases label <;> cases taken
  | failed => cases label <;> cases taken

end EngineCovered

def Phase.Covered : Phase → Prop
  | .running engine chat client => EngineCovered chat client engine
  | _ => True

namespace ExecutionRequest

variable {conversions : Conversions} {library : NodeLibrary} {request : ExecutionRequest}
  {database changed : Database} {phase after : Phase} {action : SessionAction}

theorem load_covered (loaded : request.load conversions database = some phase) :
    phase.Covered ∧ ∀ ref, request.written phase ref = Dict.empty := by
  unfold load at loaded
  simp only [Option.bind_eq_bind, Option.bind_eq_some_iff] at loaded
  obtain ⟨project, _, custom, _, customProject, _, base, found, baseProject, foundProject,
    states, loadedStates, reached⟩ := loaded
  cases reached
  obtain ⟨_, _, same, sameProject, merged, mergedProject⟩ :=
    Database.loadInitialState_eq loadedStates
  cases found.symm.trans same
  cases foundProject.symm.trans sameProject
  constructor
  · apply EngineCovered.start
    constructor
    · change Snapshot.Covers _ states.1
      rw [merged]
      exact Snapshot.covers_overridden base _
    · change Snapshot.Covers _ states.2
      rw [mergedProject]
      exact Snapshot.covers_overridden baseProject _
  · exact fun _ => rfl

theorem writeBack_merges {result : RunResult} {steps : List ExecutionStep} {chat client : Snapshot}
    (covered : ContextCovered chat client result.context)
    (careful : request.careful database (.running (.finished result steps) chat client)
      .writeBack = true) {ref : SessionRef} {current : Data}
    (found : database.stateOf ref = some current) (key : String) :
    (current.merge (Database.updatesFor request.chatSessionId request.clientSessionId
        result.context.state result.context.projectState ref)).lookup key =
      (current.merge (Database.updatesFor request.chatSessionId request.clientSessionId
        (chat.kept result.context.state) (client.kept result.context.projectState) ref)).lookup
          key := by
  obtain ⟨chatFresh, clientFresh⟩ := Bool.and_eq_true_iff.mp careful
  cases ref with
  | chat sessionId =>
      by_cases named : request.chatSessionId = some sessionId
      · simp only [named, found, Option.getD_some] at chatFresh
        simp only [Database.updatesFor, named, if_true]
        exact (Snapshot.fresh_iff covered.state current).mp chatFresh key
      · simp only [Database.updatesFor, if_neg named]
  | client sessionId =>
      by_cases named : request.clientSessionId = some sessionId
      · simp only [named, found, Option.getD_some] at clientFresh
        simp only [Database.updatesFor, named, if_true]
        exact (Snapshot.fresh_iff covered.projectState current).mp clientFresh key
      · simp only [Database.updatesFor, if_neg named]

/-- What a step does to the sessions: the variables it writes get their value, and no other
variable loses its own. -/
structure Effect (request : ExecutionRequest) (database changed : Database) (after : Phase) :
    Prop where
  writes : ∀ ref key value, (request.written after ref).lookup key = some value →
    changed.read ref key = some value
  keeps : ∀ ref key value, (request.written after ref).lookup key = none →
    database.read ref key = some value → changed.read ref key = some value

theorem Effect.of_silent (silent : ∀ ref, request.written after ref = Dict.empty)
    (keeps : ∀ ref key value, database.read ref key = some value →
      changed.read ref key = some value) : Effect request database changed after where
  writes := by
    intro ref key value wrote
    rw [silent ref] at wrote
    cases wrote
  keeps := fun ref key value _ found => keeps ref key value found

theorem writeBack_effect {result : RunResult} {steps : List ExecutionStep} {chat client : Snapshot}
    (covered : ContextCovered chat client result.context)
    (careful : request.careful database (.running (.finished result steps) chat client)
      .writeBack = true)
    (saved : database.saveStates request.chatSessionId request.clientSessionId
      result.context.state result.context.projectState = some changed) :
    Effect request database changed (.finished (chat.kept result.context.state)
      (client.kept result.context.projectState)) := by
  have merges : ∀ ref key current, database.stateOf ref = some current →
      changed.read ref key = ((request.written (.finished (chat.kept result.context.state)
        (client.kept result.context.projectState)) ref).lookup key).or (current.lookup key) := by
    intro ref key current found
    unfold Database.read
    rw [Database.saveStates_stateOf saved ref, found, Option.map_some, Option.bind_some,
      writeBack_merges covered careful found key, Dict.lookup_merge]
    rfl
  constructor
  · intro ref key value wrote
    rcases Database.saveStates_found saved ref with exists_ | untouched
    · obtain ⟨current, found⟩ := Option.isSome_iff_exists.mp exists_
      rw [merges ref key current found, wrote, Option.some_or]
    · change (Database.updatesFor _ _ _ _ ref).lookup key = some value at wrote
      rw [untouched] at wrote
      cases wrote
  · intro ref key value unwritten read
    obtain ⟨current, found, holds⟩ := Option.bind_eq_some_iff.mp read
    rw [merges ref key current found, unwritten, Option.none_or, holds]

theorem sync_read (synced : request.sync database = some changed) {ref : SessionRef}
    {key : String} {value : Json} (found : database.read ref key = some value) :
    changed.read ref key = some value := by
  unfold sync at synced
  split at synced
  · exact Database.syncSchema_read synced found
  · cases synced
    exact found
  · cases synced

theorem act_effect
    (acted : request.act conversions library database phase action = some (changed, after))
    (careful : request.careful database phase action = true) (covered : phase.Covered) :
    Effect request database changed after ∧ after.Covered ∧
      ∀ ref, request.written phase ref = Dict.empty := by
  unfold act at acted
  split at acted
  · obtain ⟨synced, moved, same⟩ := Option.map_eq_some_iff.mp acted
    cases same
    exact ⟨.of_silent (fun _ => rfl) (fun _ _ _ found => sync_read moved found), trivial,
      fun _ => rfl⟩
  · obtain ⟨loaded, moved, same⟩ := Option.map_eq_some_iff.mp acted
    cases same
    obtain ⟨reached, silent⟩ := load_covered moved
    exact ⟨.of_silent silent (fun _ _ _ found => found), reached, fun _ => rfl⟩
  · obtain ⟨next, moved, same⟩ := Option.map_eq_some_iff.mp acted
    cases same
    exact ⟨.of_silent (fun _ => rfl) (fun _ _ _ found => found), EngineCovered.step covered moved,
      fun _ => rfl⟩
  · obtain ⟨saved, moved, same⟩ := Option.map_eq_some_iff.mp acted
    cases same
    cases covered with
    | finished context =>
        exact ⟨writeBack_effect context careful moved, trivial, fun _ => rfl⟩
  · cases acted

end ExecutionRequest

/-! ### Whole runs -/

namespace SharedSessions

variable {workload : Workload} {system next : SharedSessions} {label : String × SessionAction}

def Covered (system : SharedSessions) : Prop := ∀ id, (system.phases id).Covered

section

variable (taken : system.CarefulStep workload label next) (covered : system.Covered)
include taken covered

theorem CarefulStep.effect :
    (workload.requests label.1).Effect system.database next.database (next.phases label.1) ∧
      next.Covered ∧ (∀ ref, system.written workload label.1 ref = Dict.empty) ∧
      ∀ id, id ≠ label.1 → next.phases id = system.phases id := by
  unfold CarefulStep carefulStep at taken
  split at taken
  case isFalse => cases taken
  case isTrue careful =>
    obtain ⟨⟨changed, after⟩, acted, rfl⟩ := Option.map_eq_some_iff.mp taken
    obtain ⟨effect, reached, silent⟩ :=
      ExecutionRequest.act_effect acted careful (covered label.1)
    refine ⟨?_, ?_, silent, ?_⟩
    · simp only [Function.update_self]
      exact effect
    · intro id
      by_cases own : id = label.1
      · subst own
        simp only [Function.update_self]
        exact reached
      · simp only [ne_eq, own, not_false_eq_true, Function.update_of_ne]
        exact covered id
    · intro id other
      exact Function.update_of_ne other _ _

/-- Nobody unwrites a variable. -/
theorem CarefulStep.written (id : String) (ref : SessionRef) :
    next.written workload id ref = system.written workload id ref ∨
      system.written workload id ref = Dict.empty := by
  obtain ⟨_, _, silent, others⟩ := taken.effect covered
  by_cases own : id = label.1
  · subst own
    exact .inr (silent ref)
  · left
    unfold SharedSessions.written
    rw [others id own]

theorem WritesDisjoint.earlier (disjoint : next.WritesDisjoint workload) :
    system.WritesDisjoint workload := by
  intro left right different ref key
  rcases taken.written covered left ref with leftSame | leftEmpty
  · rcases taken.written covered right ref with rightSame | rightEmpty
    · rw [← leftSame, ← rightSame]
      exact disjoint left right different ref key
    · rw [rightEmpty]
      exact .inr rfl
  · rw [leftEmpty]
    exact .inl rfl

end

theorem KeepsUpdates.step {first : Database} (keeps : system.KeepsUpdates workload first)
    (taken : system.CarefulStep workload label next) (covered : system.Covered)
    (disjoint : next.WritesDisjoint workload) : next.KeepsUpdates workload first := by
  obtain ⟨effect, _, silent, others⟩ := taken.effect covered
  intro ref key value
  constructor
  · intro id wrote
    by_cases own : id = label.1
    · subst own
      exact effect.writes ref key value wrote
    · have before : (system.written workload id ref).lookup key = some value := by
        unfold SharedSessions.written at wrote ⊢
        rw [← others id own]
        exact wrote
      apply effect.keeps ref key value
      · rcases disjoint id label.1 own ref key with unwritten | unwritten
        · rw [wrote] at unwritten
          cases unwritten
        · exact unwritten
      · exact (keeps ref key value).1 id before
  · intro old unwritten
    apply effect.keeps ref key value
    · exact unwritten label.1
    · apply (keeps ref key value).2 old
      intro id
      rcases taken.written covered id ref with same | empty
      · rw [← same]
        exact unwritten id
      · rw [empty]
        rfl

theorem run_covered {first : Database} {labels : List (String × SessionAction)}
    (run : Run (CarefulStep workload) (initial first) labels system) : system.Covered := by
  apply run.invariant Covered
  · exact fun _ => trivial
  · intro state label next covered taken
    exact (taken.effect covered).2.1

/-- When every write-back is fresh, no update is lost. -/
theorem updates_kept (workload : Workload) (first : Database)
    (labels : List (String × SessionAction)) (last : SharedSessions)
    (run : Run (CarefulStep workload) (initial first) labels last)
    (disjoint : last.WritesDisjoint workload) : last.KeepsUpdates workload first := by
  induction run with
  | nil =>
      intro ref key value
      constructor
      · intro id wrote
        cases wrote
      · intro old _
        exact old
  | snoc earlier taken ih =>
      have covered := run_covered earlier
      exact (ih (disjoint.earlier taken covered)).step taken covered disjoint

/-! The turn hook and the final hook of a call run on the client session of the call. -/

/-- Executions that have not moved have not arrived anywhere. -/
theorem run_untouched {first : SharedSessions} {labels : List (String × SessionAction)}
    (run : Run (fun system label next => step workload system label = some next) first labels
      system) {id : String} (absent : id ∉ labels.map Prod.fst) :
    system.phases id = first.phases id := by
  induction run with
  | nil => rfl
  | @snoc labels middle last label earlier taken ih =>
      rw [List.map_append, List.mem_append, not_or] at absent
      obtain ⟨acted, _, rfl⟩ := Option.map_eq_some_iff.mp taken
      have other : id ≠ label.1 := by
        intro same
        exact absent.2 (by simp [same])
      rw [← ih absent.1]
      exact Function.update_of_ne other _ _

def setsVariable (key : String) (value : Json) : NodeLibrary where
  registered := fun type => decide (type = "agent")
  execute := fun _ _ =>
    .ok { data := Dict.empty, projectUpdates := some (Dict.empty.set key value) }
  evaluate := fun _ _ => .ok false
  render := fun template _ => template

def hookWorkflow : Workflow where
  projectId := "p"
  publishedForWorkflowId := none
  version := none
  definition :=
    { nodes := [⟨"s", "start"⟩, ⟨"a", "agent"⟩, ⟨"e", "end"⟩]
      edges := [⟨"s", "a", none⟩, ⟨"a", "e", none⟩]
      conditions := fun _ => []
      endConfig := fun _ => {} }
  state := []
  firstPhrase := none

def hookWorkload : Workload where
  conversions :=
    { str := fun _ => ""
      strip := id
      lower := id
      toInt := fun _ => none
      toFloat := fun _ => none
      loads := fun _ => none }
  libraries := fun id =>
    if id = "turn" then setsVariable "score" (.int 1) else setsVariable "summary" (.int 1)
  requests := fun _ =>
    { workflow := hookWorkflow
      chatSessionId := none
      clientSessionId := some "c"
      inputData := Dict.empty }

def callDatabase (state : Data) : Database where
  projects := Dict.empty.set "p" { organizationId := "o", stateSchema := [] }
  workflows := Dict.empty
  chatSessions := Dict.empty
  clientSessions := Dict.empty.set "c" { projectId := "p", clientId := "caller", state := state }
  executions := Dict.empty
  published := publishedTogether_empty

def hookLabels : List (String × SessionAction) :=
  [("turn", .syncSchema), ("turn", .loadState), ("final", .syncSchema), ("final", .loadState),
    ("turn", .run .advance), ("turn", .run .advance), ("turn", .run .advance),
    ("turn", .writeBack), ("final", .run .advance), ("final", .run .advance),
    ("final", .run .advance), ("final", .writeBack)]

def afterHooks (state : Data) : SharedSessions :=
  (hookLabels.foldlM (step hookWorkload) (initial (callDatabase state))).getD
    (initial (callDatabase state))

private theorem written_only {id name : String} {update : Json}
    (finished : system.phases id = .finished Dict.empty (Dict.empty.set name update))
    {ref : SessionRef} {key : String} {value : Json}
    (wrote : (system.written hookWorkload id ref).lookup key = some value) : key = name := by
  unfold written ExecutionRequest.written at wrote
  rw [finished] at wrote
  by_contra different
  cases ref with
  | chat sessionId =>
      simp only [Database.updatesFor] at wrote
      split at wrote <;> cases wrote
  | client sessionId =>
      simp only [Database.updatesFor] at wrote
      split at wrote
      · rw [Dict.lookup_set_of_ne _ _ (fun same => different same.symm)] at wrote
        cases wrote
      · cases wrote

private theorem hooks_disjoint {state : Data}
    (run : Run (fun system label next => step hookWorkload system label = some next)
      (initial (callDatabase state)) hookLabels system)
    (turn : system.phases "turn" = .finished Dict.empty (Dict.empty.set "score" (.int 1)))
    (final : system.phases "final" = .finished Dict.empty (Dict.empty.set "summary" (.int 1))) :
    system.WritesDisjoint hookWorkload := by
  have writer : ∀ id ref key value, (system.written hookWorkload id ref).lookup key = some value →
      id = "turn" ∧ key = "score" ∨ id = "final" ∧ key = "summary" := by
    intro id ref key value wrote
    by_cases isTurn : id = "turn"
    · subst isTurn
      exact .inl ⟨rfl, written_only turn wrote⟩
    · by_cases isFinal : id = "final"
      · subst isFinal
        exact .inr ⟨rfl, written_only final wrote⟩
      · have resting : system.phases id = .arrived :=
          run_untouched run (by simp [hookLabels, isTurn, isFinal])
        unfold written ExecutionRequest.written at wrote
        rw [resting] at wrote
        cases wrote
  intro left right different ref key
  cases leftWrote : (system.written hookWorkload left ref).lookup key with
  | none => exact .inl rfl
  | some value =>
      cases rightWrote : (system.written hookWorkload right ref).lookup key with
      | none => exact .inr rfl
      | some other =>
          exfalso
          rcases writer left ref key value leftWrote with ⟨rfl, rfl⟩ | ⟨rfl, rfl⟩
          · rcases writer right ref _ other rightWrote with ⟨rfl, _⟩ | ⟨_, impossible⟩
            · exact different rfl
            · exact absurd impossible (by decide)
          · rcases writer right ref _ other rightWrote with ⟨_, impossible⟩ | ⟨rfl, _⟩
            · exact absurd impossible (by decide)
            · exact different rfl

/-- On a new client session both updates are kept. -/
theorem updates_kept_hooks :
    (afterHooks Dict.empty).WritesDisjoint hookWorkload ∧
      (afterHooks Dict.empty).KeepsUpdates hookWorkload (callDatabase Dict.empty) := by
  have run : Run (fun system label next => step hookWorkload system label = some next)
      (initial (callDatabase Dict.empty)) hookLabels (afterHooks Dict.empty) :=
    Run.of_foldlM _ _ _ rfl
  have careful : Run (CarefulStep hookWorkload) (initial (callDatabase Dict.empty)) hookLabels
      (afterHooks Dict.empty) := Run.of_foldlM _ _ _ rfl
  have disjoint := hooks_disjoint run rfl rfl
  exact ⟨disjoint, updates_kept hookWorkload _ hookLabels _ careful disjoint⟩

/-- A call whose session has both variables already. -/
def scoredState : Data := (Dict.empty.set "score" (.int 0)).set "summary" (.int 0)

/-- The final hook writes the old score back over the one that the turn hook has written. -/
theorem update_lost :
    ∃ last, Run (fun system label next => step hookWorkload system label = some next)
        (initial (callDatabase scoredState)) hookLabels last ∧
      last.WritesDisjoint hookWorkload ∧
      ¬ last.KeepsUpdates hookWorkload (callDatabase scoredState) := by
  have run : Run (fun system label next => step hookWorkload system label = some next)
      (initial (callDatabase scoredState)) hookLabels (afterHooks scoredState) :=
    Run.of_foldlM _ _ _ rfl
  exists afterHooks scoredState
  refine ⟨run, hooks_disjoint run rfl rfl, ?_⟩
  intro keeps
  have kept := (keeps (.client "c") "score" (.int 1)).1 "turn" rfl
  revert kept
  decide +kernel

end SharedSessions
end Assemblix
