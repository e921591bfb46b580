import Assemblix.Projects.KnowledgeBases
import Assemblix.Projects.PublishedVersions
import Assemblix.Library.Dict

/-
References from voice agents, workflows and calls into projects.

An agent names knowledge bases and the workflows of its hooks; only the latter are checked when it
is saved. A call keeps its hooks from its setup on, and a workflow may be moved meanwhile. Requests
are those their callers are authorized for.
-/

namespace Assemblix.Projects

open Library

/-! ### Agents and calls -/

/-- The references of `VoiceAgentConfig`. -/
structure VoiceAgentConfig where
  knowledgeBaseIds : List String := []
  turnWorkflowId : Option String := none
  finalWorkflowId : Option String := none
  deriving DecidableEq

structure VoiceAgent where
  projectId : String
  config : VoiceAgentConfig
  deriving DecidableEq

structure CallSetup where
  projectId : String
  knowledge : String
  turnWorkflowId : Option String
  finalWorkflowId : Option String
  deriving DecidableEq

def VoiceAgentConfig.hooks (config : VoiceAgentConfig) : List String :=
  config.turnWorkflowId.toList ++ config.finalWorkflowId.toList

/-- The dispatcher takes an empty id for none. -/
def CallSetup.hooks (setup : CallSetup) : List String :=
  (setup.turnWorkflowId.toList ++ setup.finalWorkflowId.toList).filter (fun id => id ≠ "")

structure ProjectSystem where
  agents : Dict String VoiceAgent := Dict.empty
  table : WorkflowTable := []
  calls : List CallSetup := []
  inserted : Nat := 0

/-- The requests that are accepted, and the calls that are set up. -/
inductive ProjectLabel
  | createVoiceAgent (id projectId : String) (config : VoiceAgentConfig)
  | updateVoiceAgent (id : String) (config : Option VoiceAgentConfig)
  | createWorkflow (data : WorkflowCreate) (generated : Generated)
  | updateWorkflow (id : String) (data : WorkflowUpdate)
  | publishWorkflow (id : String) (generated : Generated)
  | copyWorkflow (id : String) (generated : Generated)
  | moveWorkflow (id targetProjectId : String)
  | setUpCall (voiceAgentId projectId : String)

namespace ProjectSystem

section

variable (uuid : String → Option String) (store : KnowledgeStore)

def workflowOf (table : WorkflowTable) (text : String) : Option WorkflowRow :=
  (uuid text).bind table.getById

/-- `_assert_hook_workflows_in_project`. -/
def hooksInProject (table : WorkflowTable) (projectId : String) (config : VoiceAgentConfig) : Bool :=
  config.hooks.all (fun text =>
    (workflowOf uuid table text).any (fun row => decide (row.projectId = projectId)))

def agentFor (system : ProjectSystem) (voiceAgentId projectId : String) : Option VoiceAgent :=
  (system.agents.lookup voiceAgentId).filter (fun agent => decide (agent.projectId = projectId))

/-- `build_setup`, without what it takes from providers. -/
def buildSetup (system : ProjectSystem) (voiceAgentId projectId : String) : Option CallSetup := do
  let agent ← system.agentFor voiceAgentId projectId
  let ids ← namedIds uuid agent.config.knowledgeBaseIds
  let knowledge ← (store.getCombinedContent ids).toOption
  some
    { projectId := projectId
      knowledge := knowledge
      turnWorkflowId := agent.config.turnWorkflowId
      finalWorkflowId := agent.config.finalWorkflowId }

/-- The bases that `build_setup` reads. -/
def setupReads (system : ProjectSystem) (voiceAgentId projectId : String) :
    Option (List KnowledgeBase) :=
  (system.agentFor voiceAgentId projectId).bind (fun agent =>
    readsOf uuid store agent.config.knowledgeBaseIds)

def next (system : ProjectSystem) : ProjectLabel → Option ProjectSystem
  | .createVoiceAgent id projectId config =>
      if (system.agents.lookup id).isNone ∧ hooksInProject uuid system.table projectId config then
        some { system with agents := system.agents.set id { projectId, config } }
      else none
  | .updateVoiceAgent id config =>
      match system.agents.lookup id, config with
      | none, _ => none
      | some _, none => some system
      | some agent, some config =>
          if hooksInProject uuid system.table agent.projectId config then
            some { system with agents := system.agents.set id { agent with config } }
          else none
  | .createWorkflow data generated =>
      (system.table.create (createdRow data generated system.inserted)).map (fun table =>
        { system with table, inserted := system.inserted + 1 })
  | .updateWorkflow id data => do
      let loaded ← system.table.getById id
      let table ← system.table.update loaded data
      some { system with table }
  | .publishWorkflow id generated => do
      let draft ← (system.table.getById id).filter (fun row => row.publishedForWorkflowId.isNone)
      let seen := ((system.table.getLatestPublished id).bind WorkflowRow.version).getD 0
      let table ← system.table.create (publishedRow draft seen generated system.inserted)
      some { system with table, inserted := system.inserted + 1 }
  | .copyWorkflow id generated => do
      let source ← system.table.getById id
      let table ← system.table.create (copiedRow source generated system.inserted)
      some { system with table, inserted := system.inserted + 1 }
  | .moveWorkflow id targetProjectId => do
      let _ ← (system.table.getById id).filter (fun row => row.publishedForWorkflowId.isNone)
      some { system with table := system.table.moveToProject id targetProjectId }
  | .setUpCall voiceAgentId projectId =>
      (system.buildSetup uuid store voiceAgentId projectId).map (fun setup =>
        { system with calls := system.calls ++ [setup] })

def Step (system : ProjectSystem) (label : ProjectLabel) (after : ProjectSystem) : Prop :=
  system.next uuid store label = some after

/-! ### Staying inside -/

def Places (system : ProjectSystem) (setup : CallSetup) : Prop :=
  setup ∈ system.calls ∨
    ∃ voiceAgentId, system.buildSetup uuid store voiceAgentId setup.projectId = some setup

structure Local (system : ProjectSystem) : Prop where
  setups : ∀ voiceAgentId projectId bases,
    system.setupReads uuid store voiceAgentId projectId = some bases →
      ∀ base ∈ bases, base.projectId = projectId
  runs : ∀ row ∈ system.table, ContentWithin uuid store row.projectId row.content
  hooks : ∀ setup, system.Places uuid store setup → ∀ text ∈ setup.hooks, ∀ row,
    workflowOf uuid system.table text = some row → row.projectId = setup.projectId

structure MovesWhole (system : ProjectSystem) (id target : String) : Prop where
  knowledge : ∀ row ∈ system.table, (row.id = id ∨ row.publishedForWorkflowId = some id) →
    ContentWithin uuid store target row.content
  hooks : ∀ setup, system.Places uuid store setup → ∀ text ∈ setup.hooks, ∀ row,
    workflowOf uuid system.table text = some row →
      (row.id = id ∨ row.publishedForWorkflowId = some id) → target = setup.projectId

def Careful (system : ProjectSystem) : ProjectLabel → Prop
  | .createVoiceAgent _ projectId config =>
      KnowledgeWithin uuid store projectId config.knowledgeBaseIds
  | .updateVoiceAgent id (some config) =>
      ∀ agent, system.agents.lookup id = some agent →
        KnowledgeWithin uuid store agent.projectId config.knowledgeBaseIds
  | .createWorkflow data generated =>
      ContentWithin uuid store data.projectId (defaulted data generated)
  | .updateWorkflow id data =>
      ∀ loaded, system.table.getById id = some loaded → ∀ row ∈ system.table, row.id = loaded.id →
        ContentWithin uuid store row.projectId (data.onto loaded row).content
  | .moveWorkflow id target => system.MovesWhole uuid store id target
  | _ => True

structure Resolved (system : ProjectSystem) : Prop where
  agents : ∀ id agent, system.agents.lookup id = some agent → ∀ text ∈ agent.config.hooks,
    ∃ row, workflowOf uuid system.table text = some row
  calls : ∀ setup ∈ system.calls, ∀ text ∈ setup.hooks,
    ∃ row, workflowOf uuid system.table text = some row

/-! ### Setups -/

variable {uuid store}

theorem agentFor_eq_some {system : ProjectSystem} {voiceAgentId projectId : String}
    {agent : VoiceAgent} : system.agentFor voiceAgentId projectId = some agent ↔
      system.agents.lookup voiceAgentId = some agent ∧ agent.projectId = projectId := by
  unfold agentFor
  rw [Option.filter_eq_some_iff, decide_eq_true_iff]

theorem buildSetup_projectId {system : ProjectSystem} {voiceAgentId projectId : String}
    {setup : CallSetup} (built : system.buildSetup uuid store voiceAgentId projectId = some setup) :
    setup.projectId = projectId := by
  unfold buildSetup at built
  obtain ⟨agent, _, built⟩ := Option.bind_eq_some_iff.mp built
  obtain ⟨ids, _, built⟩ := Option.bind_eq_some_iff.mp built
  obtain ⟨knowledge, _, built⟩ := Option.bind_eq_some_iff.mp built
  cases built
  rfl

theorem buildSetup_agent {system : ProjectSystem} {voiceAgentId projectId : String}
    {setup : CallSetup} (built : system.buildSetup uuid store voiceAgentId projectId = some setup) :
    ∃ agent, system.agents.lookup voiceAgentId = some agent ∧
      agent.projectId = setup.projectId ∧ ∀ text ∈ setup.hooks, text ∈ agent.config.hooks := by
  unfold buildSetup at built
  obtain ⟨agent, found, built⟩ := Option.bind_eq_some_iff.mp built
  obtain ⟨ids, _, built⟩ := Option.bind_eq_some_iff.mp built
  obtain ⟨knowledge, _, built⟩ := Option.bind_eq_some_iff.mp built
  obtain ⟨known, mine⟩ := agentFor_eq_some.mp found
  cases built
  refine ⟨agent, known, mine, ?_⟩
  intro text member
  exact (List.mem_filter.mp member).1

theorem buildSetup_congr {system other : ProjectSystem} {voiceAgentId projectId : String}
    (same : other.agents.lookup voiceAgentId = system.agents.lookup voiceAgentId) :
    other.buildSetup uuid store voiceAgentId projectId =
      system.buildSetup uuid store voiceAgentId projectId := by
  unfold buildSetup agentFor
  rw [same]

theorem setupReads_congr {system other : ProjectSystem} {voiceAgentId projectId : String}
    (same : other.agents.lookup voiceAgentId = system.agents.lookup voiceAgentId) :
    other.setupReads uuid store voiceAgentId projectId =
      system.setupReads uuid store voiceAgentId projectId := by
  unfold setupReads agentFor
  rw [same]

theorem Resolved.places {system : ProjectSystem} (resolved : system.Resolved uuid)
    {setup : CallSetup} (placed : system.Places uuid store setup) {text : String}
    (member : text ∈ setup.hooks) : ∃ row, workflowOf uuid system.table text = some row := by
  rcases placed with opened | ⟨voiceAgentId, built⟩
  · exact resolved.calls setup opened text member
  · obtain ⟨agent, found, _, hooks⟩ := buildSetup_agent built
    exact resolved.agents voiceAgentId agent found text (hooks text member)

/-! ### Agents saved -/

variable (uuid) in
structure Saves (system after : ProjectSystem) (id : String) (agent : VoiceAgent) : Prop where
  agents : after.agents = system.agents.set id agent
  table : after.table = system.table
  calls : after.calls = system.calls
  checked : hooksInProject uuid system.table agent.projectId agent.config = true

theorem hook_in_project {table : WorkflowTable} {agent : VoiceAgent}
    (checked : hooksInProject uuid table agent.projectId agent.config = true) {text : String}
    (member : text ∈ agent.config.hooks) :
    ∃ row, workflowOf uuid table text = some row ∧ row.projectId = agent.projectId := by
  obtain ⟨row, found, mine⟩ := (Option.any_eq_true _ _).mp (List.all_eq_true.mp checked text member)
  exact ⟨row, found, of_decide_eq_true mine⟩

section Save

variable {system after : ProjectSystem} {id : String} {agent : VoiceAgent}

section

variable (saves : Saves uuid system after id agent)
include saves

theorem Saves.lookup_self : after.agents.lookup id = some agent := by
  rw [saves.agents, Dict.lookup_set_self]

theorem Saves.lookup_of_ne {other : String} (different : id ≠ other) :
    after.agents.lookup other = system.agents.lookup other := by
  rw [saves.agents, Dict.lookup_set_of_ne _ _ different]

theorem Saves.resolved (resolved : system.Resolved uuid) : after.Resolved uuid := by
  constructor
  · intro other found known text member
    rw [saves.table]
    by_cases same : id = other
    · subst same
      rw [saves.lookup_self] at known
      cases known
      obtain ⟨row, found, _⟩ := hook_in_project saves.checked member
      exact ⟨row, found⟩
    · rw [saves.lookup_of_ne same] at known
      exact resolved.agents other found known text member
  · rw [saves.calls, saves.table]
    exact resolved.calls

theorem Saves.local_iff (inside : system.Local uuid store) : after.Local uuid store ↔
      KnowledgeWithin uuid store agent.projectId agent.config.knowledgeBaseIds := by
  constructor
  · intro still bases reads
    refine still.setups id agent.projectId bases ?_
    unfold setupReads
    rw [agentFor_eq_some.mpr ⟨saves.lookup_self, rfl⟩]
    exact reads
  · intro within
    refine ⟨?_, ?_, ?_⟩
    · intro voiceAgentId projectId bases reads
      by_cases same : id = voiceAgentId
      · subst same
        obtain ⟨other, found, reads⟩ := Option.bind_eq_some_iff.mp reads
        obtain ⟨known, mine⟩ := agentFor_eq_some.mp found
        rw [saves.lookup_self] at known
        cases known
        rw [← mine]
        exact within bases reads
      · rw [setupReads_congr (saves.lookup_of_ne same)] at reads
        exact inside.setups voiceAgentId projectId bases reads
    · rw [saves.table]
      exact inside.runs
    · intro setup placed text member row found
      rw [saves.table] at found
      rcases placed with opened | ⟨voiceAgentId, built⟩
      · rw [saves.calls] at opened
        exact inside.hooks setup (Or.inl opened) text member row found
      · by_cases same : id = voiceAgentId
        · subst same
          obtain ⟨other, known, mine, hooks⟩ := buildSetup_agent built
          rw [saves.lookup_self] at known
          cases known
          obtain ⟨named, named_found, its⟩ := hook_in_project saves.checked (hooks text member)
          rw [found] at named_found
          cases named_found
          exact its.trans mine
        · rw [buildSetup_congr (saves.lookup_of_ne same)] at built
          exact inside.hooks setup (Or.inr ⟨voiceAgentId, built⟩) text member row found

end

end Save

/-! ### The table changed -/

structure Rewrites (system after : ProjectSystem) (table : WorkflowTable) : Prop where
  agents : after.agents = system.agents
  table : after.table = table
  calls : after.calls = system.calls

section Rewrite

variable {system after : ProjectSystem} {table : WorkflowTable}

theorem Rewrites.places (rewrites : Rewrites system after table) (setup : CallSetup) :
    after.Places uuid store setup ↔ system.Places uuid store setup := by
  unfold Places
  rw [rewrites.calls]
  refine or_congr_right (exists_congr (fun voiceAgentId => ?_))
  rw [buildSetup_congr (congrArg (fun agents => Dict.lookup agents voiceAgentId) rewrites.agents)]

theorem Rewrites.local_iff (rewrites : Rewrites system after table)
    (inside : system.Local uuid store) : after.Local uuid store ↔
      (∀ row ∈ table, ContentWithin uuid store row.projectId row.content) ∧
        ∀ setup, system.Places uuid store setup → ∀ text ∈ setup.hooks, ∀ row,
          workflowOf uuid table text = some row → row.projectId = setup.projectId := by
  constructor
  · intro still
    have runs := still.runs
    have hooks := still.hooks
    rw [rewrites.table] at runs hooks
    refine ⟨runs, ?_⟩
    intro setup placed
    exact hooks setup ((rewrites.places setup).mpr placed)
  · rintro ⟨runs, hooks⟩
    refine ⟨?_, ?_, ?_⟩
    · intro voiceAgentId projectId bases reads
      rw [setupReads_congr
        (congrArg (fun agents => Dict.lookup agents voiceAgentId) rewrites.agents)] at reads
      exact inside.setups voiceAgentId projectId bases reads
    · rw [rewrites.table]
      exact runs
    · intro setup placed
      rw [rewrites.table]
      exact hooks setup ((rewrites.places setup).mp placed)

theorem Rewrites.resolved (rewrites : Rewrites system after table) (resolved : system.Resolved uuid)
    (still : ∀ text row, workflowOf uuid system.table text = some row →
      ∃ later, workflowOf uuid table text = some later) : after.Resolved uuid := by
  constructor
  · intro id agent known text member
    rw [rewrites.agents] at known
    rw [rewrites.table]
    obtain ⟨row, found⟩ := resolved.agents id agent known text member
    exact still text row found
  · intro setup opened text member
    rw [rewrites.calls] at opened
    rw [rewrites.table]
    obtain ⟨row, found⟩ := resolved.calls setup opened text member
    exact still text row found

theorem workflowOf_added {text : String} {found row : WorkflowRow}
    (known : workflowOf uuid table text = some found) :
    workflowOf uuid (table ++ [row]) text = some found := by
  obtain ⟨id, named, found⟩ := Option.bind_eq_some_iff.mp known
  refine Option.bind_eq_some_iff.mpr ⟨id, named, ?_⟩
  unfold WorkflowTable.getById at found ⊢
  rw [List.find?_append, found]
  rfl

theorem workflowOf_mapped {change : WorkflowRow → WorkflowRow}
    (same : ∀ row, (change row).id = row.id) (text : String) :
    workflowOf uuid (table.map change) text = (workflowOf uuid table text).map change := by
  unfold workflowOf WorkflowTable.getById
  cases uuid text with
  | none => rfl
  | some id =>
      change List.find? _ (List.map change table) = _
      rw [List.find?_map]
      simp only [Function.comp_def, same]
      rfl

theorem local_added_iff {row : WorkflowRow}
    (rewrites : Rewrites system after (system.table ++ [row])) (resolved : system.Resolved uuid)
    (inside : system.Local uuid store) :
    after.Local uuid store ↔ ContentWithin uuid store row.projectId row.content := by
  rw [rewrites.local_iff inside]
  constructor
  · rintro ⟨runs, _⟩
    exact runs row (List.mem_append_right _ (List.mem_singleton.mpr rfl))
  · intro within
    constructor
    · intro other member
      rcases List.mem_append.mp member with old | new
      · exact inside.runs other old
      · rw [List.mem_singleton.mp new]
        exact within
    · intro setup placed text member other found
      obtain ⟨earlier, known⟩ := resolved.places placed member
      rw [workflowOf_added known] at found
      cases found
      exact inside.hooks setup placed text member other known

theorem local_mapped_iff {change : WorkflowRow → WorkflowRow}
    (same : ∀ row, (change row).id = row.id)
    (rewrites : Rewrites system after (system.table.map change))
    (inside : system.Local uuid store) : after.Local uuid store ↔
      (∀ row ∈ system.table, ContentWithin uuid store (change row).projectId (change row).content) ∧
        ∀ setup, system.Places uuid store setup → ∀ text ∈ setup.hooks, ∀ row,
          workflowOf uuid system.table text = some row →
            (change row).projectId = setup.projectId := by
  rw [rewrites.local_iff inside]
  refine and_congr ?_ ?_
  · exact List.forall_mem_map
  · refine forall_congr' (fun setup => forall_congr' (fun _ => forall_congr' (fun text =>
      forall_congr' (fun _ => ?_))))
    rw [workflowOf_mapped same]
    constructor
    · intro hooks row found
      exact hooks (change row) (Option.map_eq_some_iff.mpr ⟨row, found, rfl⟩)
    · intro hooks row found
      obtain ⟨old, known, changed⟩ := Option.map_eq_some_iff.mp found
      rw [← changed]
      exact hooks old known

end Rewrite

/-! ### Steps -/

variable (uuid store) in
structure Settles (system : ProjectSystem) (label : ProjectLabel) (after : ProjectSystem) : Prop where
  resolved : after.Resolved uuid
  exactly : system.Local uuid store →
    (after.Local uuid store ↔ system.Careful uuid store label)

section Steps

variable {system : ProjectSystem}

theorem Saves.settles {after : ProjectSystem} {id : String} {agent : VoiceAgent}
    {label : ProjectLabel} (saves : Saves uuid system after id agent)
    (resolved : system.Resolved uuid)
    (asked : system.Careful uuid store label ↔
      KnowledgeWithin uuid store agent.projectId agent.config.knowledgeBaseIds) :
    Settles uuid store system label after where
  resolved := saves.resolved resolved
  exactly := fun inside => (saves.local_iff inside).trans asked.symm

theorem added_settles {after : ProjectSystem} {row : WorkflowRow} {label : ProjectLabel}
    (rewrites : Rewrites system after (system.table ++ [row])) (resolved : system.Resolved uuid)
    (asked : system.Local uuid store → (system.Careful uuid store label ↔
      ContentWithin uuid store row.projectId row.content)) :
    Settles uuid store system label after where
  resolved := rewrites.resolved resolved (fun _ found known => ⟨found, workflowOf_added known⟩)
  exactly := fun inside =>
    (local_added_iff rewrites resolved inside).trans (asked inside).symm

theorem mapped_settles {after : ProjectSystem} {change : WorkflowRow → WorkflowRow}
    {label : ProjectLabel} (same : ∀ row, (change row).id = row.id)
    (rewrites : Rewrites system after (system.table.map change)) (resolved : system.Resolved uuid)
    (asked : system.Local uuid store → (system.Careful uuid store label ↔
      (∀ row ∈ system.table, ContentWithin uuid store (change row).projectId (change row).content) ∧
        ∀ setup, system.Places uuid store setup → ∀ text ∈ setup.hooks, ∀ row,
          workflowOf uuid system.table text = some row →
            (change row).projectId = setup.projectId)) :
    Settles uuid store system label after where
  resolved := by
    refine rewrites.resolved resolved ?_
    intro text row known
    exact ⟨change row, by rw [workflowOf_mapped same, known]; rfl⟩
  exactly := fun inside => (local_mapped_iff same rewrites inside).trans (asked inside).symm

theorem content_of_getById {id : String} {row : WorkflowRow}
    (found : system.table.getById id = some row) (inside : system.Local uuid store) :
    ContentWithin uuid store row.projectId row.content :=
  inside.runs row (List.mem_of_find?_eq_some found)

theorem updateWorkflow_settles {id : String} {data : WorkflowUpdate} {loaded : WorkflowRow}
    {after : ProjectSystem} (found : system.table.getById id = some loaded)
    (rewrites : Rewrites system after (system.table.map (fun row =>
      if row.id = loaded.id then data.onto loaded row else row)))
    (resolved : system.Resolved uuid) :
    Settles uuid store system (.updateWorkflow id data) after := by
  have place : ∀ row : WorkflowRow,
      (if row.id = loaded.id then data.onto loaded row else row).id = row.id ∧
        (if row.id = loaded.id then data.onto loaded row else row).projectId = row.projectId := by
    intro row
    split <;> exact ⟨rfl, rfl⟩
  refine mapped_settles (fun row => (place row).1) rewrites resolved ?_
  intro inside
  constructor
  · intro careful
    constructor
    · intro row member
      rw [(place row).2]
      split
      · rename_i named
        exact careful loaded found row member named
      · exact inside.runs row member
    · intro setup placed text member row known
      rw [(place row).2]
      exact inside.hooks setup placed text member row known
  · rintro ⟨runs, _⟩ other again row member named
    rw [found] at again
    cases again
    have within := runs row member
    rwa [if_pos named] at within

theorem moveWorkflow_settles {id target : String} {after : ProjectSystem}
    (rewrites : Rewrites system after (system.table.moveToProject id target))
    (resolved : system.Resolved uuid) :
    Settles uuid store system (.moveWorkflow id target) after := by
  refine mapped_settles (fun row => ?_) rewrites resolved ?_
  · split <;> rfl
  · intro inside
    constructor
    · intro careful
      constructor
      · intro row member
        split
        · rename_i moved
          exact careful.knowledge row member moved
        · exact inside.runs row member
      · intro setup placed text member row known
        split
        · rename_i moved
          exact careful.hooks setup placed text member row known moved
        · exact inside.hooks setup placed text member row known
    · rintro ⟨runs, hooks⟩
      constructor
      · intro row member moved
        have within := runs row member
        rwa [if_pos moved] at within
      · intro setup placed text member row known moved
        have mine := hooks setup placed text member row known
        rwa [if_pos moved] at mine

theorem setUpCall_settles {voiceAgentId projectId : String} {setup : CallSetup}
    (built : system.buildSetup uuid store voiceAgentId projectId = some setup)
    (resolved : system.Resolved uuid) :
    Settles uuid store system (.setUpCall voiceAgentId projectId)
      { system with calls := system.calls ++ [setup] } where
  resolved := by
    refine ⟨resolved.agents, ?_⟩
    intro other opened text member
    rcases List.mem_append.mp opened with old | new
    · exact resolved.calls other old text member
    · rw [List.mem_singleton.mp new] at member
      obtain ⟨agent, known, _, hooks⟩ := buildSetup_agent built
      exact resolved.agents voiceAgentId agent known text (hooks text member)
  exactly := by
    intro inside
    refine iff_of_true ⟨inside.setups, inside.runs, ?_⟩ trivial
    intro other placed text member row known
    refine inside.hooks other ?_ text member row known
    rcases placed with opened | ⟨voiceAgentId', again⟩
    · rcases List.mem_append.mp opened with old | new
      · exact Or.inl old
      · rw [List.mem_singleton.mp new]
        refine Or.inr ⟨voiceAgentId, ?_⟩
        rw [buildSetup_projectId built]
        exact built
    · exact Or.inr ⟨voiceAgentId', again⟩

theorem Step.settles {label : ProjectLabel} {after : ProjectSystem}
    (step : Step uuid store system label after) (resolved : system.Resolved uuid) :
    Settles uuid store system label after := by
  unfold Step next at step
  cases label with
  | createVoiceAgent id projectId config =>
      simp only at step
      split at step
      · rename_i accepted
        cases step
        exact Saves.settles ⟨rfl, rfl, rfl, accepted.2⟩ resolved Iff.rfl
      · cases step
  | updateVoiceAgent id config =>
      simp only at step
      split at step
      · cases step
      · cases step
        exact ⟨resolved, fun inside => iff_of_true inside trivial⟩
      · rename_i agent config known
        split at step
        · rename_i checked
          cases step
          refine Saves.settles ⟨rfl, rfl, rfl, checked⟩ resolved ?_
          constructor
          · intro careful
            exact careful agent known
          · intro within other again
            rw [known] at again
            cases again
            exact within
        · cases step
  | createWorkflow data generated =>
      obtain ⟨table, created, same⟩ := Option.map_eq_some_iff.mp step
      rw [WorkflowService.create_eq_some created] at same
      cases same
      exact added_settles ⟨rfl, rfl, rfl⟩ resolved (fun _ => Iff.rfl)
  | updateWorkflow id data =>
      obtain ⟨loaded, found, step⟩ := Option.bind_eq_some_iff.mp step
      obtain ⟨table, updated, same⟩ := Option.bind_eq_some_iff.mp step
      rw [WorkflowService.update_eq_some updated] at same
      cases same
      exact updateWorkflow_settles found ⟨rfl, rfl, rfl⟩ resolved
  | publishWorkflow id generated =>
      obtain ⟨draft, found, step⟩ := Option.bind_eq_some_iff.mp step
      obtain ⟨table, created, same⟩ := Option.bind_eq_some_iff.mp step
      rw [WorkflowService.create_eq_some created] at same
      cases same
      refine added_settles ⟨rfl, rfl, rfl⟩ resolved (fun inside => iff_of_true trivial ?_)
      have within : ContentWithin uuid store draft.projectId draft.content :=
        content_of_getById (Option.filter_eq_some_iff.mp found).1 inside
      exact within
  | copyWorkflow id generated =>
      obtain ⟨source, found, step⟩ := Option.bind_eq_some_iff.mp step
      obtain ⟨table, created, same⟩ := Option.bind_eq_some_iff.mp step
      rw [WorkflowService.create_eq_some created] at same
      cases same
      refine added_settles ⟨rfl, rfl, rfl⟩ resolved (fun inside => iff_of_true trivial ?_)
      have within : ContentWithin uuid store source.projectId source.content :=
        content_of_getById found inside
      exact within
  | moveWorkflow id target =>
      obtain ⟨draft, _, same⟩ := Option.bind_eq_some_iff.mp step
      cases same
      exact moveWorkflow_settles ⟨rfl, rfl, rfl⟩ resolved
  | setUpCall voiceAgentId projectId =>
      obtain ⟨setup, built, same⟩ := Option.map_eq_some_iff.mp step
      cases same
      exact setUpCall_settles built resolved

theorem Step.functional (system : ProjectSystem) (label : ProjectLabel)
    (after other : ProjectSystem) (step : Step uuid store system label after)
    (again : Step uuid store system label other) : after = other :=
  Option.some.inj (step.symm.trans again)

theorem initial_resolved : Resolved uuid {} where
  agents := fun _ _ known => by cases known
  calls := fun _ none => by cases none

theorem initial_local : Local uuid store {} where
  setups := fun _ _ _ reads => by cases reads
  runs := fun _ none => by cases none
  hooks := by
    intro setup placed
    rcases placed with opened | ⟨_, built⟩
    · cases opened
    · cases built

/-- In all states of a run, calls and workflow runs read knowledge bases of their own project only
and hooks start workflows of their own project, exactly when the saved configs name knowledge bases
of their project and every move keeps references whole. -/
theorem references_inside_iff {labels : List ProjectLabel} {last : ProjectSystem}
    (run : Run (Step uuid store) {} labels last) :
    (∀ past middle, past <+: labels → Run (Step uuid store) {} past middle →
        middle.Local uuid store) ↔
      Run (fun system label after => Step uuid store system label after ∧
        system.Careful uuid store label) {} labels last :=
  Run.everywhere_iff (Resolved uuid) (Local uuid store) (Careful uuid store) Step.functional
    initial_resolved (fun _ _ _ resolved step _ => (step.settles resolved).resolved) initial_local
    (fun _ _ _ resolved inside step => (step.settles resolved).exactly inside) run

end Steps

end

/-! ### A foreign knowledge base, and a hook that is moved away -/

def twoProjects : KnowledgeStore where
  bases := [{ id := "mine", projectId := "p" }, { id := "theirs", projectId := "q" }]
  documents := [{ knowledgeBaseId := "theirs", name := "prices", content := "secret" }]

def foreignBase : List ProjectLabel :=
  [.createVoiceAgent "agent" "p" { knowledgeBaseIds := ["theirs"] }]

def hookMoved : List ProjectLabel :=
  [.createWorkflow WorkflowService.blank (WorkflowService.generatedIds "hook"),
    .createVoiceAgent "agent" "p" { turnWorkflowId := some "hook" },
    .setUpCall "agent" "p", .moveWorkflow "hook" "q"]

/-- The saved config is careless: it names the base of another project. -/
theorem references_inside_iff_foreign :
    ∃ last, Run (Step some twoProjects) {} foreignBase last ∧
      ¬ Run (fun system label after => Step some twoProjects system label after ∧
        system.Careful some twoProjects label) {} foreignBase last := by
  obtain ⟨last, run, reads⟩ := Run.of_foldlM_map (next some twoProjects) {} foreignBase
    (fun last => last.setupReads some twoProjects "agent" "p")
    (some [{ id := "theirs", projectId := "q" }]) (by decide +kernel)
  refine ⟨last, run, ?_⟩
  intro careful
  have inside := (references_inside_iff run).mpr careful foreignBase last (List.prefix_refl _) run
  have mine := inside.setups "agent" "p" _ reads _ (List.mem_singleton.mpr rfl)
  exact absurd mine (by decide)

/-- A call for one project reads the documents of another, and a hook starts there. -/
theorem references_leave :
    (∃ last, Run (Step some twoProjects) {} foreignBase last ∧
        ¬ last.Local some twoProjects) ∧
      ∃ last, Run (Step some twoProjects) {} hookMoved last ∧ ¬ last.Local some twoProjects := by
  constructor
  · obtain ⟨last, run, reads⟩ := Run.of_foldlM_map (next some twoProjects) {} foreignBase
      (fun last => last.setupReads some twoProjects "agent" "p")
      (some [{ id := "theirs", projectId := "q" }]) (by decide +kernel)
    refine ⟨last, run, ?_⟩
    intro inside
    have mine := inside.setups "agent" "p" _ reads _ (List.mem_singleton.mpr rfl)
    exact absurd mine (by decide)
  · obtain ⟨last, run, seen⟩ := Run.of_foldlM_map (next some twoProjects) {} hookMoved
      (fun last => (last.calls, (workflowOf some last.table "hook").map WorkflowRow.projectId))
      ([{ projectId := "p", knowledge := "", turnWorkflowId := some "hook",
          finalWorkflowId := none }], some "q") (by decide +kernel)
    refine ⟨last, run, ?_⟩
    intro inside
    obtain ⟨opened, moved⟩ := Prod.mk.inj seen
    obtain ⟨row, found, away⟩ := Option.map_eq_some_iff.mp moved
    have placed : last.Places some twoProjects
        { projectId := "p", knowledge := "", turnWorkflowId := some "hook",
          finalWorkflowId := none } := by
      refine Or.inl ?_
      rw [opened]
      exact List.mem_singleton.mpr rfl
    have mine := inside.hooks _ placed "hook" (by decide) row found
    rw [away] at mine
    exact absurd mine (by decide)

end ProjectSystem

end Assemblix.Projects
