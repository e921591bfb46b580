import Assemblix.Execution.Context

/-
The nodes of a workflow.

START, CONDITION and END are translated. Every other registered type reads the input of
its step and returns an output; what it does is a parameter, since it asks language
models and remote services. END looks up agent outputs in the persisted steps.
-/

namespace Assemblix

open Library

structure NodeInput where
  data : Data
  state : Data
  projectState : Data
  stepNumber : Nat

structure NodeLibrary where
  registered : String → Bool
  execute : WorkflowNode → NodeInput → Except String NodeOutput
  evaluate : String → NodeInput → Except String Bool
  render : String → NodeInput → String

inductive Node
  | start
  | condition (conditions : List Condition)
  | endNode (config : EndNodeConfig)
  | task (node : WorkflowNode)

inductive NodeLookupError
  | notFound (nodeId : String)
  | typeNotRegistered (nodeType : String)
  deriving DecidableEq, Repr

def findNode (workflow : WorkflowDefinition) (nodeId : String) : Option WorkflowNode :=
  workflow.nodes.find? (fun node => decide (node.id = nodeId))

/-- `NodeRegistry.get_node`. -/
def getNode (library : NodeLibrary) (workflow : WorkflowDefinition) (nodeId : String) :
    Except NodeLookupError Node :=
  match findNode workflow nodeId with
  | none => .error (.notFound nodeId)
  | some node =>
      if node.type = "start" then .ok .start
      else if node.type = "condition" then .ok (.condition (workflow.conditions nodeId))
      else if node.type = "end" then .ok (.endNode (workflow.endConfig nodeId))
      else if library.registered node.type then .ok (.task node)
      else .error (.typeNotRegistered node.type)

def latest (steps : List ExecutionStep) : Option ExecutionStep :=
  steps.foldl (fun best step => match best with
    | none => some step
    | some found => if found.stepNumber < step.stepNumber then some step else some found) none

theorem fold_mem {α : Type} {pick : Option α → α → Option α}
    (picks : ∀ best next item, pick best next = some item → next = item ∨ best = some item)
    (items : List α) {item : α} (found : items.foldl pick none = some item) : item ∈ items := by
  induction items using List.reverseRecOn generalizing item with
  | nil => cases found
  | append_singleton earlier last ih =>
      rw [List.foldl_append] at found
      rcases picks _ last item found with here | before
      · exact List.mem_append_right _ (List.mem_singleton.mpr here.symm)
      · exact List.mem_append_left _ (ih before)

theorem latest_mem (steps : List ExecutionStep) (step : ExecutionStep)
    (found : latest steps = some step) : step ∈ steps := by
  apply fold_mem _ steps found
  intro best next item picked
  cases best with
  | none => exact .inl (Option.some.inj picked)
  | some kept =>
      dsimp only at picked
      split at picked
      · exact .inl (Option.some.inj picked)
      · exact .inr picked

theorem latest_append (earlier : List ExecutionStep) (last : ExecutionStep)
    (below : ∀ step ∈ earlier, step.stepNumber < last.stepNumber) :
    latest (earlier ++ [last]) = some last := by
  rw [latest, List.foldl_append]
  change (match latest earlier with
    | none => some last
    | some found => if found.stepNumber < last.stepNumber then some last else some found) =
      some last
  cases before : latest earlier with
  | none => rfl
  | some best => exact if_pos (below best (latest_mem earlier best before))

/-! ### END -/

namespace EndNode

def lastAgentOutput (steps : List ExecutionStep) (input : NodeInput) : Data :=
  match (latest (steps.filter (fun step => decide (step.nodeType = "agent")))).bind
      ExecutionStep.outputData with
  | none => input.data
  | some output =>
      if output.entries = [] then input.data
      else match output.lookup "audio", input.data.lookup "audio" with
        | none, some audio => output.set "audio" audio
        | _, _ => output

def specificAgentOutput (config : EndNodeConfig) (steps : List ExecutionStep)
    (input : NodeInput) : Data :=
  match config.sourceNodeId with
  | none => input.data
  | some nodeId =>
      if nodeId = "" then input.data
      else match (latest (steps.filter (fun step => decide (step.nodeId = nodeId)))).bind
          ExecutionStep.outputData with
        | none => input.data
        | some output => if output.entries = [] then input.data else output

def customOutput (config : EndNodeConfig) (library : NodeLibrary) (input : NodeInput) : Data :=
  match config.customMessage with
  | none => Dict.empty.set "message" (.str "")
  | some template =>
      if template = "" then Dict.empty.set "message" (.str "")
      else Dict.empty.set "message" (.str (library.render template input))

def outputData (config : EndNodeConfig) (library : NodeLibrary) (steps : List ExecutionStep)
    (input : NodeInput) : Data :=
  match config.outputMode with
  | none => lastAgentOutput steps input
  | some .lastAgent => lastAgentOutput steps input
  | some .specificAgent => specificAgentOutput config steps input
  | some .custom => customOutput config library input

/-- `none` keeps the full state. -/
def filterState (state : Data) (mode : EndFilter) (selected : List String) : Option Data :=
  match mode with
  | .all => none
  | .none => some Dict.empty
  | .selected =>
      some (Dict.ofList (selected.filterMap (fun key =>
        (state.lookup key).map (fun value => (key, value)))))

theorem filterState_lookup {state kept : Data} {mode : EndFilter} {selected : List String}
    (filtered : filterState state mode selected = some kept) {key : String} {value : Json}
    (found : kept.lookup key = some value) : state.lookup key = some value := by
  cases mode with
  | all => cases filtered
  | none =>
      cases filtered
      cases found
  | selected =>
      cases filtered
      have listed := Dict.mem_of_lookup_ofList _ found
      obtain ⟨name, _, entry⟩ := List.mem_filterMap.mp listed
      obtain ⟨held, holds, same⟩ := Option.map_eq_some_iff.mp entry
      cases same
      exact holds

def execute (config : EndNodeConfig) (library : NodeLibrary) (steps : List ExecutionStep)
    (input : NodeInput) : NodeOutput :=
  { data := outputData config library steps input
    metadata := some
      { isSessionEnd := config.isSessionEnd
        isError := config.isError
        filteredState := filterState input.state config.stateFilter config.stateVariables
        filteredProjectState :=
          filterState input.projectState config.projectFilter config.projectVariables } }

end EndNode

/-! ### CONDITION -/

namespace ConditionNode

/-- The first condition that holds, from index `index` on; past the last one is the else
branch. -/
def choose (library : NodeLibrary) (input : NodeInput) :
    Nat → List Condition → Except String NodeOutput
  | index, [] =>
      .ok { data := input.data.set "condition_index" (.int index), metadata := some {} }
  | index, condition :: rest =>
      match library.evaluate condition.expression input with
      | .error error =>
          .error s!"Failed to evaluate condition {index} ('{condition.expression}'): {error}"
      | .ok true =>
          .ok
            { data := (input.data.set "condition_index" (.int index)).set "condition_name"
                (match condition.name with
                  | some name => .str name
                  | none => .null)
              metadata := some {} }
      | .ok false => choose library input (index + 1) rest

def execute (library : NodeLibrary) (conditions : List Condition) (input : NodeInput) :
    Except String NodeOutput :=
  choose library input 0 conditions

theorem choose_index (library : NodeLibrary) (input : NodeInput) (index : Nat)
    (conditions : List Condition) (output : NodeOutput)
    (chosen : choose library input index conditions = .ok output) :
    ∃ position : Nat, output.data.lookup "condition_index" = some (.int position) := by
  induction conditions generalizing index with
  | nil =>
      cases chosen
      exact ⟨index, Dict.lookup_set_self _ _ _⟩
  | cons condition rest ih =>
      unfold choose at chosen
      split at chosen
      · cases chosen
      · cases chosen
        exists index
        rw [Dict.lookup_set_of_ne _ _ (by decide), Dict.lookup_set_self]
      · exact ih (index + 1) chosen

end ConditionNode

namespace Node

def execute (library : NodeLibrary) (steps : List ExecutionStep) (input : NodeInput)
    (workflowInput : Data) : Node → Except String NodeOutput
  | .start => .ok { data := workflowInput }
  | .condition conditions => ConditionNode.execute library conditions input
  | .endNode config => .ok (EndNode.execute config library steps input)
  | .task node => library.execute node input

def isTerminal : Node → Bool
  | .endNode _ => true
  | _ => false

/-- `input_source = "workflow_input"`. -/
def readsWorkflowInput : Node → Bool
  | .start => true
  | _ => false

/-- `get_branch_index`. -/
def branchIndex (output : NodeOutput) : Node → Option Int
  | .condition _ => (output.data.lookup "condition_index").bind Json.asInt
  | _ => none

theorem branchIndex_isSome {library : NodeLibrary} {steps : List ExecutionStep}
    {input : NodeInput} {workflowInput : Data} {conditions : List Condition}
    {output : NodeOutput}
    (ran : execute library steps input workflowInput (.condition conditions) = .ok output) :
    (branchIndex output (.condition conditions)).isSome = true := by
  obtain ⟨position, found⟩ := ConditionNode.choose_index library input 0 conditions output ran
  simp [branchIndex, found, Json.asInt]

theorem execute_terminal {library : NodeLibrary} {steps : List ExecutionStep}
    {input : NodeInput} {workflowInput : Data} {node : Node} {output : NodeOutput}
    (terminal : node.isTerminal = true)
    (ran : execute library steps input workflowInput node = .ok output) :
    ∃ config, node = .endNode config ∧ output = EndNode.execute config library steps input := by
  cases node with
  | endNode config =>
      cases ran
      exact ⟨config, rfl, rfl⟩
  | start => cases terminal
  | condition conditions => cases terminal
  | task task => cases terminal

end Node

/-! ### Node types -/

theorem getNode_found {library : NodeLibrary} {workflow : WorkflowDefinition} {nodeId : String}
    {node : Node} (found : getNode library workflow nodeId = .ok node) :
    ∃ entry ∈ workflow.nodes, entry.id = nodeId ∧ findNode workflow nodeId = some entry ∧
      (entry.type = "condition" ↔ ∃ conditions, node = .condition conditions) ∧
      (entry.type = "end" ↔ node.isTerminal = true) := by
  unfold getNode at found
  cases located : findNode workflow nodeId with
  | none =>
      rw [located] at found
      cases found
  | some entry =>
      have member := List.mem_of_find?_eq_some located
      have chosen : workflow.nodes.find? (fun node => decide (node.id = nodeId)) = some entry :=
        located
      have named := List.find?_some chosen
      rw [decide_eq_true_eq] at named
      exists entry
      refine ⟨member, named, rfl, ?_⟩
      simp only [located] at found
      split_ifs at found with start condition finish registered <;> cases found
      · rw [start]
        simp [Node.isTerminal]
      · simp [condition, Node.isTerminal]
      · simp [finish, Node.isTerminal]
      · simp [condition, finish, Node.isTerminal]
end Assemblix
